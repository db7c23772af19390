import VehicleCanDecoder.Converter.CdrBuffer
import VehicleCanDecoder.Converter.Config
import VehicleCanDecoder.Pipeline

/-! `convert_one`, from the registration of topics to the end of the conversion loop.  Every call
out of the converter may fail; the calls are counted, and the environment says which ones do. -/

namespace VehicleCanDecoder

namespace Converter

structure TopicMetadata where
  name : ByteString
  type : ByteString
  serializationFormat : ByteString
  deriving DecidableEq

/-- `rosbag2_storage::SerializedBagMessage`. -/
structure BagMessage where
  topicName : ByteString
  timeStamp : Int64
  serializedData : List UInt8
  deriving DecidableEq

/-- A bag to convert.  A topic has one type, and every message a topic of the bag. -/
structure InputBag where
  storageIdentifier : ByteString
  topics : List TopicMetadata
  messages : List BagMessage
  topics_nodup : (topics.map TopicMetadata.name).Nodup
  messages_topics : ∀ m ∈ messages, m.topicName ∈ topics.map TopicMetadata.name

/-- Where a written message comes from. -/
inductive Origin
  | recorded
  | generated
  deriving DecidableEq

/-- The writer: the topics by name, and the messages that it has taken, with their origin. -/
structure Writer where
  topics : UnorderedMap ByteString TopicMetadata
  messages : List (Origin × BagMessage)

/-- What is outside the converter.  `fault` gives the calls that fail; the orders are those of the
loops over the topics of the schema, over all topics, and over the groups of each frame. -/
structure ConvertEnv where
  exprtk : Exprtk
  deserialize : List UInt8 → Except StdException Frame
  fault : Nat → Option StdException
  schemaOrder : HashOrder
  topicsOrder : HashOrder
  order : Nat → HashOrder

/-- The counters are unbounded: those of the source are these modulo `2 ^ 64`. -/
structure State where
  calls : Nat
  writer : Writer
  transformer : SignalTransformer
  groups : UnorderedMap ByteString SignalGroup
  framesIn : Nat
  framesDecoded : Nat
  framesUnknown : Nat
  groupsOut : Nat
  passthrough : Nat

/-- An early exit: an exception, or the return after a failed allocation. -/
inductive Stop
  | thrown (e : StdException)
  | outOfMemory
  deriving DecidableEq

abbrev Convert := EStateM Stop State

def kSignalGroupType : ByteString := "vehicle_can_decoder/msg/SignalGroup"

/-- `domain_to_topic`. -/
def domainToTopic (order : HashOrder) (cfg : Config) : UnorderedMap ByteString ByteString :=
  (cfg.schemaDomainTopics.items order).foldl (fun m e => m.insert e.1 e.2)
    (cfg.domains.foldl (fun m dc => m.insert dc.name dc.topic) ∅)

section Calls

variable (C : ConvertEnv)

/-- A call that may fail, and how the converter stops then. -/
def callOut (stop : StdException → Stop) : Convert PUnit := do
  let s ← get
  set { s with calls := s.calls + 1 }
  match C.fault s.calls with
  | some e => throw (stop e)
  | none => pure ()

def external : Convert PUnit := callOut C .thrown

/-- `rcutils_uint8_array_init`. -/
def allocate : Convert PUnit := callOut C fun _ => .outOfMemory

/-- `create_topic`: the first registration of a name stands. -/
def createTopic (topic : TopicMetadata) : Convert PUnit := do
  external C
  modify fun s => { s with
    writer := { s.writer with topics := (s.writer.topics.emplace topic.name topic).1 } }

/-- `write`, which throws for a topic that is not registered. -/
def write (origin : Origin) (msg : BagMessage) : Convert PUnit := do
  external C
  let s ← get
  match s.writer.topics.lookup msg.topicName with
  | some _ =>
    set { s with writer := { s.writer with messages := s.writer.messages ++ [(origin, msg)] } }
  | none => throw (.thrown ⟨str "Failed to write on topic '" ++ msg.topicName ++
      str "'. Call create_topic() before first write."⟩)

def signalGroupTopic (topic : ByteString) : TopicMetadata := ⟨topic, kSignalGroupType, "cdr"⟩

/-- The two loops that register topics, after the call of `get_all_topics_and_types`. -/
def registerTopics (cfg : Config) (topics : List TopicMetadata)
    (topicOf : UnorderedMap ByteString ByteString) : Convert PUnit := do
  external C
  topics.forM fun topic => if topic.name = cfg.canTopic then pure () else createTopic C topic
  (topicOf.items C.topicsOrder).forM fun e => createTopic C (signalGroupTopic e.2)

end Calls

/-! ### One frame -/

def emptyGroup : SignalGroup := ⟨⟨⟨0, 0⟩, ""⟩, "", []⟩

/-- The group of a domain with one more signal: `groups[domain]` makes an empty one first. -/
def addSignal (stamp : Stamp) (domain : ByteString) (s : Signal) (old : Option SignalGroup) :
    SignalGroup :=
  let sg := old.getD emptyGroup
  let sg := if sg.domain = [] then { sg with header := { sg.header with stamp }, domain } else sg
  { sg with signals := sg.signals ++ [s] }

/-- The payload that the converter decodes. -/
def payload (f : Frame) : Payload × UInt8 :=
  if h : f.dlc ≤ 8 then
    (Payload.copyN f.data f.dlc.toNat (UInt8.le_iff_toNat_le.mp h) Payload.zeros, f.dlc)
  else (Payload.copyN f.data 8 (by decide) Payload.zeros, 8)

/-- The time stamp of a group, in nanoseconds. -/
def timeStamp (stamp : Stamp) : Int64 :=
  stamp.sec.toInt64 * 1000000000 + stamp.nanosec.toUInt64.toInt64

section Frame

variable (C : ConvertEnv) (cfg : Config) (decoder : DbcDecoder) (router : SignalRouter)

/-- The body of the loop over the decoded signals: unassigned signals are not transformed. -/
def convertSignal (f : Frame) (raw : RawSignal) : Convert PUnit := do
  let res := resolveSignal raw.name f.id router cfg.signalToDomain
  if res.isAssigned then
    let s ← get
    let tr := s.transformer.transform C.exprtk res.name raw.value
    set { s with transformer := tr.2 }
    match tr.1 with
    | .error e => throw (.thrown e)
    | .ok result =>
      let sig : Signal := ⟨(cfg.signalNameToId.lookup res.name).getD 0, result.value.toSingle⟩
      modify fun s => { s with
        groups := s.groups.upsert res.domain (addSignal f.header.stamp res.domain sig) }
  else pure ()

def groupMessage (stamp : Stamp) (topic : ByteString) (sg : SignalGroup) : BagMessage :=
  ⟨topic, timeStamp stamp, CdrBuffer.serializeSignalGroup sg []⟩

/-- The body of the loop over the groups. -/
def writeGroup (topicOf : UnorderedMap ByteString ByteString) (stamp : Stamp)
    (entry : ByteString × SignalGroup) : Convert PUnit :=
  match topicOf.lookup entry.1 with
  | none => pure ()
  | some topic => do
    allocate C
    write C .generated (groupMessage stamp topic entry.2)
    modify fun s => { s with groupsOut := s.groupsOut + 1 }

/-- What the loop does with a message of the CAN topic. -/
def convertFrame (topicOf : UnorderedMap ByteString ByteString) (msg : BagMessage) :
    Convert PUnit := do
  modify fun s => { s with framesIn := s.framesIn + 1 }
  external C
  match C.deserialize msg.serializedData with
  | .error e => throw (.thrown e)
  | .ok f =>
    match decoder.decode f.id (payload f).1 (payload f).2 with
    | none => modify fun s => { s with framesUnknown := s.framesUnknown + 1 }
    | some decoded => do
      modify fun s => { s with framesDecoded := s.framesDecoded + 1, groups := ∅ }
      decoded.forM (convertSignal C cfg router f)
      let s ← get
      (s.groups.items (C.order s.framesIn)).forM (writeGroup C topicOf f.header.stamp)

/-- The body of the conversion loop, with the calls of `has_next` and `read_next`. -/
def convertMessage (topicOf : UnorderedMap ByteString ByteString) (msg : BagMessage) :
    Convert PUnit := do
  external C
  external C
  if msg.topicName ≠ cfg.canTopic then do
    write C .recorded msg
    modify fun s => { s with passthrough := s.passthrough + 1 }
  else convertFrame C cfg decoder router topicOf msg

/-- The conversion loop; the last `has_next` ends it. -/
def convertMessages (topicOf : UnorderedMap ByteString ByteString) (messages : List BagMessage) :
    Convert PUnit := do
  messages.forM (convertMessage C cfg decoder router topicOf)
  external C

/-- `convert_one` on an open bag, with an open writer. -/
def convertBag (bag : InputBag) : Convert PUnit := do
  let topicOf := domainToTopic C.schemaOrder cfg
  registerTopics C cfg bag.topics topicOf
  convertMessages C cfg decoder router topicOf bag.messages

end Frame

/-- The state in which `convert_one` starts, with a writer that it has just opened. -/
def State.opened (calls : Nat) (transformer : SignalTransformer) : State where
  calls
  writer := ⟨∅, []⟩
  transformer
  groups := ∅
  framesIn := 0
  framesDecoded := 0
  framesUnknown := 0
  groupsOut := 0
  passthrough := 0

end Converter

end VehicleCanDecoder
