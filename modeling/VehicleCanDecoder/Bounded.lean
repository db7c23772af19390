import VehicleCanDecoder.Routing
import VehicleCanDecoder.Staleness

/-! What a node holds between two callbacks.  The buffers of a frame are empty again, and the
entries of the tables have names that the DBC and the configuration give, so that a node does not
grow, however long it runs and whatever the bus carries. -/

namespace VehicleCanDecoder

/-- What the assigned signals of a DBC are called, signal by signal. -/
def SignalPath.watched (path : SignalPath) (network : INetwork) : List ByteString :=
  network.messages.flatMap fun msg =>
    ((msg.signals.map fun sig => path.resolve sig.name msg.id.toUInt32).filter
      SignalResolution.isAssigned).map SignalResolution.name

/-- The domains of the mode that the router is in. -/
def Overrides.assignable (overrides : Overrides) : List ByteString :=
  if ∀ domain ∈ overrides.strings "schema_domain_names", overrides.schemaSignals domain = [] then
    overrides.strings "domain_names"
  else overrides.strings "schema_domain_names"

theorem SignalPath.mem_watched (path : SignalPath) {d d' : DbcDecoder} {network : INetwork}
    {ok : Bool} (hLoad : d.load (.parsed network) = some (d', ok)) {canId : UInt32}
    {data : Payload} {dlc : UInt8} {decoded : List RawSignal}
    (hDecode : d'.decode canId data dlc = some decoded) {raw : RawSignal} (hRaw : raw ∈ decoded)
    (hAssigned : (path.resolve raw.name canId).isAssigned = true) :
    (path.resolve raw.name canId).name ∈ path.watched network := by
  rw [DbcDecoder.decode, DbcDecoder.messageFor_parsed hLoad, Option.map_eq_some_iff] at hDecode
  obtain ⟨msg, hMsg, rfl⟩ := hDecode
  obtain ⟨sig, hSig, rfl⟩ := List.mem_map.mp hRaw
  have hId : msg.id.toUInt32 = canId := by
    have hFound : msg.id = canId.toUInt64 := by simpa using List.find?_some hMsg
    rw [hFound, UInt32.toUInt32_toUInt64]
  refine List.mem_flatMap.mpr ⟨msg, List.mem_of_find?_eq_some hMsg, List.mem_map.mpr
    ⟨path.resolve sig.name canId, List.mem_filter.mpr ⟨?_, hAssigned⟩, rfl⟩⟩
  rw [hId]
  exact List.mem_map_of_mem hSig

namespace VehicleCanNode

variable {E : Env}

/-- What may have an entry: signals in the timeout monitor, and domains in the buffer. -/
structure Within (names domains : List ByteString) (n : VehicleCanNode) : Prop where
  monitor : ∀ name, (n.timeoutMonitor.states.lookup name).isSome → name ∈ names
  buffer : ∀ domain, (n.frameSignals.lookup domain).isSome → domain ∈ domains

/-- Nothing has been added. -/
theorem Within.same {names domains : List ByteString} {n n' : VehicleCanNode}
    (h : Within names domains n) (hMonitor : n'.timeoutMonitor = n.timeoutMonitor)
    (hBuffer : n'.frameSignals = n.frameSignals) : Within names domains n' := by
  refine ⟨fun name hName => ?_, fun domain hDomain => ?_⟩
  · exact h.monitor name (hMonitor ▸ hName)
  · exact h.buffer domain (hBuffer ▸ hDomain)

theorem Within.processSignal {names domains : List ByteString} {n : VehicleCanNode}
    (h : Within names domains n) {canId : UInt32} {raw : RawSignal}
    (hRes : ((n.path E).resolve raw.name canId).isAssigned = true →
      ((n.path E).resolve raw.name canId).name ∈ names ∧
        ((n.path E).resolve raw.name canId).domain ∈ domains) :
    Within names domains (processSignal E canId n raw).1 := by
  obtain ⟨t, -, ⟨-, name, what, hEq⟩ | ⟨r, hPass, hAssigned, hEq⟩ | ⟨r, -, -, hEq⟩⟩ :=
    processSignal_cases (E := E) canId n raw
  · rw [hEq]
    exact h.same rfl rfl
  · rw [← ((n.path E).pass_signal canId hPass).1] at hRes
    obtain ⟨hName, hDomain⟩ := hRes hAssigned
    rw [hEq]
    refine ⟨fun name hHere => ?_, fun domain hHere => ?_⟩
    · have hLookup := UnorderedMap.lookup_insert_eq n.timeoutMonitor.states r.res.name name
        ⟨E.steadyClock n.clockReads, .ok⟩
      by_cases hSame : name = r.res.name
      · exact hSame ▸ hName
      · rw [if_neg hSame] at hLookup
        exact h.monitor name (hLookup ▸ hHere)
    · have hLookup := UnorderedMap.lookup_upsert n.frameSignals r.res.domain domain
        fun old => old.getD [] ++ [r.signal]
      by_cases hSame : domain = r.res.domain
      · exact hSame ▸ hDomain
      · rw [if_neg hSame] at hLookup
        exact h.buffer domain (hLookup ▸ hHere)
  · rw [hEq]
    exact h.same rfl rfl

/-- What a node is like between two callbacks: the buffers are empty, but for the keys. -/
structure Settled (names domains : List ByteString) (n : VehicleCanNode) : Prop
    extends Within names domains n where
  moved : ∀ domain signals, n.frameSignals.lookup domain = some signals → signals = []
  allSigs : n.allSigs = []

/-- The loop over the groups moves out everything that the buffer has. -/
theorem publishGroups_moves (header : Header) (n : VehicleCanNode) (order : HashOrder) :
    let after := (Machine.run (publishGroup header) n (n.frameSignals.items order)).1
    after.timeoutMonitor = n.timeoutMonitor ∧ ∀ domain,
      after.frameSignals.lookup domain = (n.frameSignals.lookup domain).map fun _ => [] := by
  intro after
  have hMonitor : after.timeoutMonitor = n.timeoutMonitor :=
    Machine.run_invariant (I := fun s : VehicleCanNode => s.timeoutMonitor = n.timeoutMonitor)
      (fun _ _ h => h) rfl (n.frameSignals.items order)
  have hBuffer : after.frameSignals = (n.frameSignals.items order).foldl
      (fun m e => m.insert e.1 []) n.frameSignals :=
    Machine.run_component (I := fun _ => True) frameSignals (fun m e => m.insert e.1 [])
      (fun _ _ _ => ⟨trivial, rfl⟩) trivial (n.frameSignals.items order)
  refine ⟨hMonitor, fun domain => ?_⟩
  rw [hBuffer, UnorderedMap.lookup_foldl_insert Prod.fst fun _ => [],
    UnorderedMap.items_filter_key]
  cases n.frameSignals.lookup domain <;> rfl

section Run

variable {overrides : Overrides} {start : VehicleCanNode}

/-- The firehose leaves no signals behind, since it has a publisher whenever signals are collected
for it. -/
theorem publishFirehose_allSigs (hStart : Constructed E overrides start) {n : VehicleCanNode}
    (hSetup : SameSetup start n) (header : Header)
    (hSigs : start.params.publishAllSignals = false → n.allSigs = []) :
    (publishFirehose header n).1.allSigs = [] := by
  unfold publishFirehose
  rw [hSetup.pubs, hSetup.params, hStart.allSignals]
  cases hAll : start.params.publishAllSignals with
  | false => exact hSigs hAll
  | true =>
    by_cases hNil : n.allSigs = []
    · simp [hNil]
    · simp [hNil]

/-- An assigned signal has a domain of the configuration. -/
theorem Constructed.domain_mem (hDeclare : E.rclcpp.DeclareDocumented)
    (hStart : Constructed E overrides start) (rawName : ByteString) (canId : UInt32)
    (hAssigned : ((start.path E).resolve rawName canId).isAssigned = true) :
    ((start.path E).resolve rawName canId).domain ∈ overrides.assignable := by
  obtain ⟨order, l, hConfigured, rfl⟩ := hStart.configured hDeclare
  have hRes : ((ofLoaded order l (overrides.strings "domain_names")).path E).resolve rawName canId =
      resolveSignal rawName canId l.router l.params.signalToDomain := rfl
  have hDomain := resolve_domain hConfigured rawName canId
  rw [hRes, SignalResolution.isAssigned, decide_eq_true_eq] at hAssigned
  rw [hRes]
  generalize resolveSignal rawName canId l.router l.params.signalToDomain = res at hDomain hAssigned
  simp only at hDomain
  unfold Overrides.assignable
  split at hDomain
  · rename_i hNone
    rw [if_pos hNone]
    cases hLast : overrides.lastCanDomain canId with
    | none => exact absurd (hDomain.trans (by rw [hLast]; rfl)) hAssigned
    | some domain =>
      obtain ⟨dc, hDc, rfl⟩ := Option.map_eq_some_iff.mp hLast
      have hMem := (SignalRouter.lastDomainWith_mem _ hDc).1
      obtain ⟨name, hName, rfl⟩ := List.mem_map.mp hMem
      rw [hDomain, hLast]
      exact hName
  · rename_i hSome
    rw [if_neg hSome]
    cases hLast : overrides.lastSchemaDomain res.name with
    | none => exact absurd (hDomain.trans (by rw [hLast]; rfl)) hAssigned
    | some domain =>
      rw [hDomain, hLast]
      exact (List.mem_filter.mp (List.mem_of_getLast? hLast)).1

section Frame

variable {network : INetwork} {d : DbcDecoder} {ok : Bool} {n : VehicleCanNode} {frame : CanFrame}
  {decoded : List RawSignal}

/-- What the loop over the decoded signals adds is named in the DBC and in the configuration. -/
theorem Within.gathered (hDeclare : E.rclcpp.DeclareDocumented)
    (hStart : Constructed E overrides start)
    (hLoad : d.load (.parsed network) = some (start.decoder, ok)) (hSetup : SameSetup start n)
    (hDecode : start.decoder.decode frame.id frame.data frame.dlc = some decoded)
    (h : Within ((start.path E).watched network) overrides.assignable n) :
    Within ((start.path E).watched network) overrides.assignable
      (gathered frame.id n decoded E) := by
  refine (Machine.run_invariant_mem (I := fun s => SameSetup start s ∧
    Within ((start.path E).watched network) overrides.assignable s)
    (fun raw hRaw s hs => ⟨hs.1.trans (processSignal_setup frame.id s raw),
      hs.2.processSignal ?_⟩) ⟨hSetup, h⟩).2
  rw [hs.1.path]
  exact fun hAssigned => ⟨(start.path E).mem_watched hLoad hDecode hRaw hAssigned,
    hStart.domain_mem hDeclare raw.name frame.id hAssigned⟩

/-- What a frame puts into the buffers it moves out again. -/
theorem Settled.processFrame (hDeclare : E.rclcpp.DeclareDocumented)
    (hStart : Constructed E overrides start)
    (hLoad : d.load (.parsed network) = some (start.decoder, ok)) (hSetup : SameSetup start n)
    (h : Settled ((start.path E).watched network) overrides.assignable n) (order : HashOrder)
    (stamp : Time) :
    Settled ((start.path E).watched network) overrides.assignable
      (n.processFrame E order frame stamp).1 := by
  cases hDecode : n.decoder.decode frame.id frame.data frame.dlc with
  | none =>
    rw [processFrame_unknown order n frame stamp hDecode]
    exact ⟨h.toWithin.same rfl rfl, h.moved, h.allSigs⟩
  | some decoded =>
    rw [processFrame_decoded order n frame stamp hDecode]
    rw [hSetup.decoder] at hDecode
    let header : Header := ⟨E.rclcpp.stamp stamp, ""⟩
    let loop := VehicleCanNode.gathered frame.id n.cleared decoded E
    let groups := (Machine.run (publishGroup header) loop (loop.frameSignals.items order)).1
    have hCleared : Within ((start.path E).watched network) overrides.assignable n.cleared :=
      ⟨h.monitor, fun domain hDomain => absurd hDomain (by simp [cleared])⟩
    have hClearedSetup : SameSetup start n.cleared := hSetup.trans (cleared_setup n)
    have hLoop := hCleared.gathered hDeclare hStart hLoad hClearedSetup hDecode
    obtain ⟨hMonitor, hMoved⟩ := publishGroups_moves header loop order
    obtain ⟨hGroupsSetup, hSigs⟩ := publishGroups_keeps header loop (loop.frameSignals.items order)
    have hSetup' : SameSetup start groups :=
      (hClearedSetup.trans (gathered_setup frame.id n.cleared decoded)).trans hGroupsSetup
    have hAllSigs := publishFirehose_allSigs hStart hSetup' header fun hAll => by
      rw [hSigs, gathered_allSigs, hClearedSetup.params, hAll]
      rfl
    have hFirehose : (publishFirehose header groups).1.timeoutMonitor = groups.timeoutMonitor ∧
        (publishFirehose header groups).1.frameSignals = groups.frameSignals := by
      rcases publishFirehose_cases header groups with hEq | ⟨topic, hEq⟩
      · rw [hEq]
        exact ⟨rfl, rfl⟩
      · rw [hEq]
        exact ⟨rfl, rfl⟩
    have hGroups : Within ((start.path E).watched network) overrides.assignable groups := by
      refine ⟨fun name hName => hLoop.monitor name (hMonitor ▸ hName), fun domain hDomain => ?_⟩
      rw [hMoved, Option.isSome_map] at hDomain
      exact hLoop.buffer domain hDomain
    refine ⟨hGroups.same hFirehose.1 hFirehose.2, fun domain signals hSignals => ?_, hAllSigs⟩
    have hHere : groups.frameSignals.lookup domain = some signals := hFirehose.2 ▸ hSignals
    rw [hMoved, Option.map_eq_some_iff] at hHere
    obtain ⟨_, -, rfl⟩ := hHere
    rfl

end Frame

theorem Settled.onDiagnosticsTimer {names domains : List ByteString} {n : VehicleCanNode}
    (h : Settled names domains n) (checkOrder listOrder : HashOrder) (now : Stamp) :
    Settled names domains (n.onDiagnosticsTimer E checkOrder listOrder now).1 := by
  refine ⟨⟨fun name hName => h.monitor name ?_, h.buffer⟩, h.moved, h.allSigs⟩
  have hLookup := TimeoutMonitor.checkTimeouts_lookup checkOrder n.timeoutMonitor
    (E.steadyClock n.clockReads) n.params.signalTimeoutMs name
  rw [show (n.onDiagnosticsTimer E checkOrder listOrder now).1.timeoutMonitor.states.lookup name =
    _ from hLookup, Option.isSome_map] at hName
  exact hName

/-- Between any two callbacks of any run. -/
theorem Runs.settled (hDeclare : E.rclcpp.DeclareDocumented)
    (hStart : Constructed E overrides start) {network : INetwork} {d : DbcDecoder} {ok : Bool}
    (hLoad : d.load (.parsed network) = some (start.decoder, ok)) {n : VehicleCanNode}
    {out : List Effect} (h : Runs E start n out) :
    Settled ((start.path E).watched network) overrides.assignable n := by
  induction h with
  | start =>
    obtain ⟨order, l, -, hNode⟩ := hStart.configured hDeclare
    refine ⟨⟨fun name hName => ?_, fun domain hDomain => ?_⟩, fun domain signals hSignals => ?_, ?_⟩
    · rw [hStart.timeoutMonitor] at hName
      contradiction
    all_goals rw [hNode] at *
    · contradiction
    · contradiction
    · rfl
  | frame h order frame stamp ih =>
    exact ih.processFrame hDeclare hStart hLoad h.setup order stamp
  | diagnostics h checkOrder listOrder now ih =>
    exact ih.onDiagnosticsTimer checkOrder listOrder now
  | schema h order now ih => exact ih

/-- However long a node runs, the timeout monitor has at most one entry for each signal of the DBC
that has a domain, and reports no other; the buffer has at most one entry for each domain of the
configuration, and both buffers hold no signal between two callbacks. -/
theorem runs_bounded (hDeclare : E.rclcpp.DeclareDocumented)
    (hStart : Constructed E overrides start) {n : VehicleCanNode} {out : List Effect}
    (hRuns : Runs E start n out) :
    ∃ network, E.openDbc start.params.dbcFile = .parsed network ∧
      n.timeoutMonitor.states.size ≤ ((start.path E).watched network).length ∧
      (∀ order, ∀ name ∈ n.timeoutMonitor.timedOutSignals order,
        name ∈ (start.path E).watched network) ∧
      n.frameSignals.size ≤ overrides.assignable.length ∧
      (∀ domain signals, n.frameSignals.lookup domain = some signals → signals = []) ∧
      n.allSigs = [] := by
  obtain ⟨order, l, hConfigured, rfl⟩ := hStart.configured hDeclare
  obtain ⟨network, hOpen, hLoad⟩ := hConfigured.decoder
  have hFile : l.params.dbcFile = overrides.text "dbc_file" "" :=
    congrArg NodeParams.dbcFile hConfigured.params
  have hSettled := hRuns.settled hDeclare hStart hLoad
  refine ⟨network, hFile ▸ hOpen, UnorderedMap.size_le_length hSettled.monitor,
    fun order name hName => ?_, UnorderedMap.size_le_length hSettled.buffer, hSettled.moved,
    hSettled.allSigs⟩
  obtain ⟨state, hState, -⟩ := (TimeoutMonitor.mem_timedOutSignals order _ name).mp hName
  exact hSettled.monitor name (Option.isSome_of_eq_some hState)

end Run

/-- A frame with both signals of the DBC, and a tick. -/
theorem runs_bounded_sample :
    let E := sampleEnv (sampleNetwork 256)
    let start := sampleNode (sampleNetwork 256) sampleOverrides
    let n := ((start.processFrame E .listed (sampleFrame 256) 0).1.onDiagnosticsTimer E .listed
      .listed ⟨1, 0⟩).1
    n.timeoutMonitor.states.size ≤ 2 ∧ n.frameSignals.size ≤ 1 ∧ n.allSigs = [] := by
  intro E start n
  have hStart : Constructed E sampleOverrides start := ⟨.listed, ⟨0, 0⟩, _, rfl⟩
  obtain ⟨network, hOpen, hMonitor, -, hBuffer, -, hAllSigs⟩ :=
    runs_bounded Rclcpp.documented_declare hStart (.diagnostics
      (.frame .start .listed (sampleFrame 256) 0) .listed .listed ⟨1, 0⟩)
  obtain rfl : sampleNetwork 256 = network := DbcSource.parsed.inj hOpen
  exact ⟨hMonitor.trans (by decide +kernel), hBuffer.trans (by decide +kernel), hAllSigs⟩

end VehicleCanNode

end VehicleCanDecoder
