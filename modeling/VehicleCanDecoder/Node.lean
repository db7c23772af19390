import VehicleCanDecoder.Load
import VehicleCanDecoder.Pipeline
import VehicleCanDecoder.Timeouts
import VehicleCanDecoder.Lib.Machine
import Mathlib.Data.List.Sort

/-! `VehicleCanNode`: the live node.  A callback takes the node to its next state and puts out
effects, in order: what it publishes, by the publisher and its topic, the receipts that it passes to
the timeout monitor, and the transform errors that it logs. -/

namespace VehicleCanDecoder

/-- The publishers, by the topics that they were created with. -/
structure Publishers where
  allSignals : Option ByteString
  domains : UnorderedMap ByteString ByteString
  promoted : UnorderedMap ByteString ByteString
  diagnostics : ByteString
  schema : ByteString

/-- The counters are unbounded: those of the source are these modulo `2 ^ 64`. -/
structure VehicleCanNode where
  params : NodeParams
  decoder : DbcDecoder
  transformer : SignalTransformer
  router : SignalRouter
  timeoutMonitor : TimeoutMonitor
  pubs : Publishers
  frameSignals : UnorderedMap ByteString (List Signal)
  allSigs : List Signal
  framesReceived : Nat
  framesDecoded : Nat
  framesUnknown : Nat
  decodeErrors : Nat
  /-- How often the steady clock has been read. -/
  clockReads : Nat

inductive Effect
  | received (name : ByteString) (nowMs : UInt64)
  | transformError (name what : ByteString)
  | publishPromoted (topic : ByteString) (value : Double)
  | publishDomain (topic : ByteString) (group : SignalGroup)
  | publishAll (topic : ByteString) (group : SignalGroup)
  | publishDiagnostics (diag : SignalDiagnostic)
  | publishSchema (schema : VehicleSchema)
  deriving DecidableEq

namespace VehicleCanNode

/-! ### Publishers -/

def addLegacyPub (router : SignalRouter) (pubs : UnorderedMap ByteString ByteString)
    (name : ByteString) : UnorderedMap ByteString ByteString :=
  let topic := router.topicForDomain name
  if topic ≠ [] then pubs.insert name topic else pubs

def setupPublishers (order : HashOrder) (params : NodeParams) (router : SignalRouter)
    (domainNames : List ByteString) : Publishers :=
  let legacy := domainNames.foldl (addLegacyPub router) ∅
  { allSignals := if params.publishAllSignals then some params.allSignalsTopic else none
    domains :=
      if params.schemaPublishPerDomain then
        (params.schemaDomainTopics.items order).foldl (fun pubs e => pubs.insert e.1 e.2) legacy
      else legacy
    promoted := params.promotedSignals.foldl
      (fun pubs pc => pubs.insert pc.dbcName (str "/vehicle/signals/" ++ pc.topicSuffix)) ∅
    diagnostics := params.diagnosticsTopic
    schema := "/vehicle/schema" }

/-! ### `process_frame` -/

section Frames

variable (E : Env)

/-- What happens to a signal of an assigned domain, with the reading of `now_ms`. -/
def receive (n : VehicleCanNode) (name domain : ByteString) (sigMsg : Signal) :
    VehicleCanNode × List Effect :=
  let nowMs := E.steadyClock n.clockReads
  ({ n with
      clockReads := n.clockReads + 1
      timeoutMonitor := n.timeoutMonitor.signalReceived name nowMs
      frameSignals := n.frameSignals.pushBack domain sigMsg
      allSigs := if n.params.publishAllSignals then n.allSigs ++ [sigMsg] else n.allSigs },
    [.received name nowMs])

def publishPromoted (n : VehicleCanNode) (name : ByteString) (value : Double) : List Effect :=
  match n.pubs.promoted.lookup name with
  | some topic => [.publishPromoted topic value]
  | none => []

def nameId (n : VehicleCanNode) (name : ByteString) : UInt16 :=
  (n.params.signalNameToId.lookup name).getD 0

/-- The body of the loop over the decoded signals. -/
def processSignal (canId : UInt32) (n : VehicleCanNode) (rawSig : RawSignal) :
    VehicleCanNode × List Effect :=
  let res := resolveSignal rawSig.name canId n.router n.params.signalToDomain
  let tr := n.transformer.transform E.exprtk res.name rawSig.value
  let n := { n with transformer := tr.2 }
  match tr.1 with
  | .error e => ({ n with decodeErrors := n.decodeErrors + 1 }, [.transformError res.name e.what])
  | .ok result =>
    let sigMsg := ⟨n.nameId res.name, result.value.toSingle⟩
    let received :=
      if res.domain ≠ SignalRouter.kUnassignedDomain then n.receive E res.name res.domain sigMsg
      else (n, [])
    (received.1, received.2 ++ received.1.publishPromoted res.name result.value)

/-- The body of the loop over `frame_signals_`, which moves the signals out. -/
def publishGroup (header : Header) (n : VehicleCanNode) (entry : ByteString × List Signal) :
    VehicleCanNode × List Effect :=
  ({ n with frameSignals := n.frameSignals.insert entry.1 [] },
    match n.pubs.domains.lookup entry.1 with
    | some topic => [.publishDomain topic ⟨header, entry.1, entry.2⟩]
    | none => [])

def publishFirehose (header : Header) (n : VehicleCanNode) : VehicleCanNode × List Effect :=
  match n.pubs.allSignals with
  | some topic =>
    if n.params.publishAllSignals ∧ n.allSigs ≠ [] then
      ({ n with allSigs := [] }, [.publishAll topic ⟨header, "all", n.allSigs⟩])
    else (n, [])
  | none => (n, [])

/-- The part of `process_frame` after a successful decode. -/
def publishDecoded (order : HashOrder) (n : VehicleCanNode) (canId : UInt32) (stamp : Time)
    (decoded : List RawSignal) : VehicleCanNode × List Effect :=
  let header : Header := ⟨E.rclcpp.stamp stamp, ""⟩
  let loop := Machine.run (processSignal E canId) n decoded
  let groups := Machine.run (publishGroup header) loop.1 (loop.1.frameSignals.items order)
  let firehose := groups.1.publishFirehose header
  (firehose.1, loop.2 ++ groups.2 ++ firehose.2)

def processFrame (order : HashOrder) (n : VehicleCanNode) (frame : CanFrame) (stamp : Time) :
    VehicleCanNode × List Effect :=
  let n := { n with framesReceived := n.framesReceived + 1 }
  match n.decoder.decode frame.id frame.data frame.dlc with
  | none => ({ n with framesUnknown := n.framesUnknown + 1 }, [])
  | some decoded =>
    let n := { n with
      framesDecoded := n.framesDecoded + 1
      frameSignals := ∅
      allSigs := [] }
    n.publishDecoded E order frame.id stamp decoded

end Frames

/-- The payload length that `on_can_frame` takes from a message. -/
def clampDlc (dlc : UInt8) : UInt8 := if dlc ≤ 8 then dlc else 8

theorem clampDlc_le (dlc : UInt8) : (clampDlc dlc).toNat ≤ 8 := by
  unfold clampDlc
  split
  · rename_i h
    exact UInt8.le_iff_toNat_le.mp h
  · decide

/-- The frame that `on_can_frame` hands on: the flags of the message are not looked at. -/
def toCanFrame (msg : Frame) : CanFrame :=
  let dlc := clampDlc msg.dlc
  let copied := Payload.copyN msg.data dlc.toNat (clampDlc_le msg.dlc) Payload.zeros
  { id := msg.id
    dlc
    data := if dlc < 8 then copied.fillFrom dlc.toNat (clampDlc_le msg.dlc) 0 else copied
    timestamp := 0 }

/-- `on_can_frame`, which throws for a stamp that `rclcpp::Time` rejects. -/
def onCanFrame (E : Env) (order : HashOrder) (n : VehicleCanNode) (msg : Frame) :
    Except StdException (VehicleCanNode × List Effect) :=
  (E.rclcpp.time msg.header.stamp).map fun stamp => n.processFrame E order (toCanFrame msg) stamp

/-! ### The timers -/

/-- The order of `std::pair`, which `std::sort` sorts by. -/
def idNameLe (a b : UInt16 × ByteString) : Prop := a.1 < b.1 ∨ (a.1 = b.1 ∧ a.2 ≤ b.2)

instance : DecidableRel idNameLe := fun a b =>
  inferInstanceAs (Decidable (a.1 < b.1 ∨ (a.1 = b.1 ∧ a.2 ≤ b.2)))

def schemaEntry (n : VehicleCanNode) (p : UInt16 × ByteString) : SignalEntry :=
  ⟨p.1, p.2, (n.params.signalIdToUnitId.lookup p.1).getD 0⟩

/-- `publish_schema`, at a reading of the ROS clock. -/
def publishSchema (order : HashOrder) (n : VehicleCanNode) (now : Stamp) : VehicleSchema :=
  let idNamePairs := (n.params.signalNameToId.items order).map fun e => (e.2, e.1)
  { header := ⟨now, ""⟩
    schemaVersion := n.params.schemaVersion
    signalTable := (idNamePairs.insertionSort idNameLe).map n.schemaEntry
    unitTable := n.params.unitIdNames }

/-- `on_diagnostics_timer`, with the orders of the two loops over the monitored signals. -/
def onDiagnosticsTimer (E : Env) (checkOrder listOrder : HashOrder) (n : VehicleCanNode)
    (now : Stamp) : VehicleCanNode × List Effect :=
  let nowMs := E.steadyClock n.clockReads
  let monitor :=
    (n.timeoutMonitor.checkTimeouts checkOrder nowMs n.params.signalTimeoutMs).1
  ({ n with clockReads := n.clockReads + 1, timeoutMonitor := monitor },
    [.publishDiagnostics
      { header := ⟨now, ""⟩
        canTopic := n.params.canTopic
        framesReceived := n.framesReceived
        framesDecoded := n.framesDecoded
        framesUnknown := n.framesUnknown
        decodeErrors := n.decodeErrors
        timedOutSignals := monitor.timedOutSignals listOrder }])

/-! ### Construction and runs -/

def ofLoaded (order : HashOrder) (l : Loaded) (domainNames : List ByteString) : VehicleCanNode where
  params := l.params
  decoder := l.decoder
  transformer := l.transformer
  router := l.router
  timeoutMonitor := TimeoutMonitor.empty
  pubs := setupPublishers order l.params l.router domainNames
  frameSignals := ∅
  allSigs := []
  framesReceived := 0
  framesDecoded := 0
  framesUnknown := 0
  decodeErrors := 0
  clockReads := 0

def setUp (E : Env) (overrides : Overrides) (order : HashOrder) : Load VehicleCanNode := do
  declareParameters E overrides
  let loaded ← loadParameters E overrides order
  let domainNames ← getStringArray "domain_names"
  pure (ofLoaded order loaded domainNames)

/-- The constructor, at a reading of the ROS clock: the node and the schema that it publishes. -/
def construct (E : Env) (overrides : Overrides) (order : HashOrder) (now : Stamp) :
    Except StdException (VehicleCanNode × List Effect) :=
  match setUp E overrides order [] with
  | .ok n _ => .ok (n, [.publishSchema (n.publishSchema order now)])
  | .error e _ => .error e

/-- The runs from a node, by the state that they reach and the effects on the way: frames and timers
in any order. -/
inductive Runs (E : Env) (start : VehicleCanNode) : VehicleCanNode → List Effect → Prop
  | start : Runs E start start []
  | frame {n out} (h : Runs E start n out) (order : HashOrder) (frame : CanFrame) (stamp : Time) :
    Runs E start (n.processFrame E order frame stamp).1
      (out ++ (n.processFrame E order frame stamp).2)
  | diagnostics {n out} (h : Runs E start n out) (checkOrder listOrder : HashOrder) (now : Stamp) :
    Runs E start (n.onDiagnosticsTimer E checkOrder listOrder now).1
      (out ++ (n.onDiagnosticsTimer E checkOrder listOrder now).2)
  | schema {n out} (h : Runs E start n out) (order : HashOrder) (now : Stamp) :
    Runs E start n (out ++ [.publishSchema (n.publishSchema order now)])

/-- The node that the constructor makes from the overrides. -/
def Constructed (E : Env) (overrides : Overrides) (n : VehicleCanNode) : Prop :=
  ∃ order now out, construct E overrides order now = .ok (n, out)

end VehicleCanNode

end VehicleCanDecoder
