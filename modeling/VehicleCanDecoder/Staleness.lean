import VehicleCanDecoder.Frames

/-! The staleness reports of a run.  The monitor keeps the last receipt of each signal and a status
that may date from an earlier check; with a clock that does not run backwards, a status that an
earlier check has set is what a new check would set, so the report is a function of the receipts. -/

namespace VehicleCanDecoder

namespace Effect

/-- The reading at which a receipt of `name` was passed to the monitor. -/
def asReceipt (name : ByteString) : Effect → Option UInt64
  | .received signal nowMs => if signal = name then some nowMs else none
  | _ => none

/-- The last receipt of a signal. -/
def lastReceipt (effects : List Effect) (name : ByteString) : Option UInt64 :=
  (effects.filterMap (asReceipt name)).getLast?

theorem lastReceipt_append (effects later : List Effect) (name : ByteString)
    (h : later.filterMap (asReceipt name) = []) :
    lastReceipt (effects ++ later) name = lastReceipt effects name := by
  rw [lastReceipt, List.filterMap_append, h, List.append_nil]
  rfl

end Effect

namespace VehicleCanNode

open Effect

variable {E : Env}

/-- How the monitor of a node reflects the receipts so far and the readings so far of the clock. -/
structure Monitored (E : Env) (n : VehicleCanNode) (out : List Effect) : Prop where
  seen : ∀ name,
    (n.timeoutMonitor.states.lookup name).map SignalState.lastSeenMs = lastReceipt out name
  past : ∀ name state, n.timeoutMonitor.states.lookup name = some state →
    ∃ i < n.clockReads, state.lastSeenMs = E.steadyClock i
  status : ∀ name state, n.timeoutMonitor.states.lookup name = some state →
    state.status = .ok ∨ (state.status = .timeout ∧ ∃ i < n.clockReads,
      (n.params.signalTimeoutMs.toNat : Int) <
        ((E.steadyClock i).toNat : Int) - state.lastSeenMs.toNat)

/-- Nothing that the monitor reflects has changed. -/
theorem Monitored.same {n n' : VehicleCanNode} {out later : List Effect} (h : Monitored E n out)
    (hMonitor : n'.timeoutMonitor = n.timeoutMonitor) (hReads : n'.clockReads = n.clockReads)
    (hParams : n'.params = n.params) (hLater : ∀ name, later.filterMap (asReceipt name) = []) :
    Monitored E n' (out ++ later) := by
  refine ⟨fun name => ?_, fun name state => ?_, fun name state => ?_⟩
  · rw [hMonitor, lastReceipt_append out later name (hLater name)]
    exact h.seen name
  · rw [hMonitor, hReads]
    exact h.past name state
  · rw [hMonitor, hReads, hParams]
    exact h.status name state

/-- A change of the state that has nothing to do with receipts, and puts out nothing. -/
theorem Monitored.quiet {n n' : VehicleCanNode} {out : List Effect} (h : Monitored E n out)
    (hMonitor : n'.timeoutMonitor = n.timeoutMonitor) (hReads : n'.clockReads = n.clockReads)
    (hParams : n'.params = n.params) : Monitored E n' out := by
  rw [← List.append_nil out]
  exact h.same hMonitor hReads hParams fun _ => rfl

theorem Monitored.receive {n : VehicleCanNode} {out : List Effect} (h : Monitored E n out)
    (name domain : ByteString) (sigMsg : Signal) :
    Monitored E (n.receive E name domain sigMsg).1
      (out ++ [.received name (E.steadyClock n.clockReads)]) := by
  have hLookup : ∀ other, (n.receive E name domain sigMsg).1.timeoutMonitor.states.lookup other =
      if other = name then some ⟨E.steadyClock n.clockReads, .ok⟩
      else n.timeoutMonitor.states.lookup other :=
    fun other => UnorderedMap.lookup_insert_eq _ _ _ _
  have hReads : (n.receive E name domain sigMsg).1.clockReads = n.clockReads + 1 := rfl
  refine ⟨fun other => ?_, fun other state hState => ?_, fun other state hState => ?_⟩
  · rw [hLookup]
    by_cases hName : other = name
    · subst hName
      simp [lastReceipt, asReceipt]
    · rw [if_neg hName, lastReceipt_append _ _ _ (by simp [asReceipt, Ne.symm hName])]
      exact h.seen other
  · rw [hLookup] at hState
    rw [hReads]
    by_cases hName : other = name
    · rw [if_pos hName] at hState
      obtain rfl := Option.some.inj hState
      exact ⟨n.clockReads, by omega, rfl⟩
    · rw [if_neg hName] at hState
      obtain ⟨i, hi, hSeen⟩ := h.past other state hState
      exact ⟨i, by omega, hSeen⟩
  · rw [hLookup] at hState
    rw [hReads]
    by_cases hName : other = name
    · rw [if_pos hName] at hState
      obtain rfl := Option.some.inj hState
      exact .inl rfl
    · rw [if_neg hName] at hState
      rcases h.status other state hState with hOk | ⟨hTimeout, i, hi, hAge⟩
      · exact .inl hOk
      · exact .inr ⟨hTimeout, i, by omega, hAge⟩

theorem Monitored.processSignal {n : VehicleCanNode} {out : List Effect} (h : Monitored E n out)
    (canId : UInt32) (raw : RawSignal) :
    Monitored E (processSignal E canId n raw).1 (out ++ (processSignal E canId n raw).2) := by
  have hPromoted : ∀ name value other,
      (n.publishPromoted name value).filterMap (asReceipt other) = [] :=
    fun name value other => publishPromoted_other (fun _ _ => rfl) n name value
  obtain ⟨t, -, ⟨-, name, what, hEq⟩ | ⟨r, -, -, hEq⟩ | ⟨r, -, -, hEq⟩⟩ :=
    processSignal_cases (E := E) canId n raw
  · rw [hEq]
    exact h.same rfl rfl rfl fun _ => rfl
  · have hSame : Monitored E { n with transformer := t } out := h.quiet rfl rfl rfl
    have hReceived := hSame.receive r.res.name r.res.domain r.signal
    have hAll := hReceived.same rfl rfl rfl (hPromoted r.res.name r.value)
    rw [hEq]
    rwa [List.append_assoc] at hAll
  · rw [hEq]
    exact h.same rfl rfl rfl (hPromoted _ _)

theorem Monitored.publishGroup {n : VehicleCanNode} {out : List Effect} (h : Monitored E n out)
    (header : Header) (entry : ByteString × List Signal) :
    Monitored E (publishGroup header n entry).1 (out ++ (publishGroup header n entry).2) :=
  h.same rfl rfl rfl fun _ => publishGroup_other (fun _ _ => rfl) header n entry

theorem Monitored.publishFirehose {n : VehicleCanNode} {out : List Effect} (h : Monitored E n out)
    (header : Header) :
    Monitored E (publishFirehose header n).1 (out ++ (publishFirehose header n).2) := by
  rcases publishFirehose_cases header n with hNone | ⟨topic, hAll⟩
  · rw [hNone]
    exact h.same rfl rfl rfl fun _ => rfl
  · rw [hAll]
    exact h.same rfl rfl rfl fun _ => rfl

theorem Monitored.processFrame {n : VehicleCanNode} {out : List Effect} (h : Monitored E n out)
    (order : HashOrder) (frame : CanFrame) (stamp : Time) :
    Monitored E (n.processFrame E order frame stamp).1
      (out ++ (n.processFrame E order frame stamp).2) := by
  cases hDecoded : n.decoder.decode frame.id frame.data frame.dlc with
  | none =>
    rw [processFrame_unknown order n frame stamp hDecoded]
    exact h.same rfl rfl rfl fun _ => rfl
  | some decoded =>
    rw [processFrame_decoded order n frame stamp hDecoded]
    have hCleared : Monitored E n.cleared out := h.quiet rfl rfl rfl
    have hLoop := Machine.run_trace (I := Monitored E)
      (fun s out raw hs => hs.processSignal frame.id raw) hCleared decoded
    have hGroups := Machine.run_trace (I := Monitored E)
      (fun s out entry hs => hs.publishGroup ⟨E.rclcpp.stamp stamp, ""⟩ entry) hLoop
      ((gathered frame.id n.cleared decoded E).frameSignals.items order)
    have hFirehose := hGroups.publishFirehose ⟨E.rclcpp.stamp stamp, ""⟩
    rw [List.append_assoc, List.append_assoc, ← List.append_assoc (Prod.snd _)] at hFirehose
    exact hFirehose

/-- A check ages the signals that it finds expired, and leaves the receipts alone. -/
theorem Monitored.onDiagnosticsTimer {n : VehicleCanNode} {out : List Effect}
    (h : Monitored E n out) (checkOrder listOrder : HashOrder) (now : Stamp) :
    Monitored E (n.onDiagnosticsTimer E checkOrder listOrder now).1
      (out ++ (n.onDiagnosticsTimer E checkOrder listOrder now).2) := by
  let nowMs := E.steadyClock n.clockReads
  let timeoutMs := n.params.signalTimeoutMs
  have hLookup : ∀ name, (n.onDiagnosticsTimer E checkOrder listOrder
        now).1.timeoutMonitor.states.lookup name =
      (n.timeoutMonitor.states.lookup name).map
        (TimeoutMonitor.SignalState.checked · nowMs timeoutMs) :=
    TimeoutMonitor.checkTimeouts_lookup checkOrder n.timeoutMonitor nowMs timeoutMs
  have hReads : (n.onDiagnosticsTimer E checkOrder listOrder now).1.clockReads =
      n.clockReads + 1 := rfl
  have hSeen : ∀ state, (TimeoutMonitor.SignalState.checked state nowMs timeoutMs).lastSeenMs =
      state.lastSeenMs := by
    intro state
    unfold TimeoutMonitor.SignalState.checked
    split <;> rfl
  refine ⟨fun name => ?_, fun name state hState => ?_, fun name state hState => ?_⟩
  · rw [hLookup, lastReceipt_append _ _ _ rfl, Option.map_map, ← h.seen name]
    congr 1
    funext state
    exact hSeen state
  · rw [hLookup, Option.map_eq_some_iff] at hState
    obtain ⟨old, hOld, rfl⟩ := hState
    obtain ⟨i, hi, hPast⟩ := h.past name old hOld
    exact ⟨i, by omega, (hSeen old).trans hPast⟩
  · rw [hLookup, Option.map_eq_some_iff] at hState
    obtain ⟨old, hOld, rfl⟩ := hState
    rw [hSeen]
    unfold TimeoutMonitor.SignalState.checked
    split
    · rename_i hExpires
      refine .inr ⟨rfl, n.clockReads, by omega, ?_⟩
      exact ((TimeoutMonitor.expires_iff old nowMs timeoutMs).mp hExpires).2
    · rcases h.status name old hOld with hOk | ⟨hTimeout, i, hi, hAge⟩
      · exact .inl hOk
      · exact .inr ⟨hTimeout, i, by omega, hAge⟩

theorem Runs.monitored {start n : VehicleCanNode} {out : List Effect}
    (hStart : start.timeoutMonitor = TimeoutMonitor.empty) (h : Runs E start n out) :
    Monitored E n out := by
  induction h with
  | start =>
    have hNone : ∀ name, start.timeoutMonitor.states.lookup name = none := by
      intro name
      rw [hStart]
      rfl
    exact ⟨fun name => by rw [hNone]; rfl, fun name state hState => by simp [hNone] at hState,
      fun name state hState => by simp [hNone] at hState⟩
  | frame h order frame stamp ih => exact ih.processFrame order frame stamp
  | diagnostics h checkOrder listOrder now ih => exact ih.onDiagnosticsTimer checkOrder listOrder now
  | schema h order now ih => exact ih.same rfl rfl rfl fun _ => rfl

theorem Constructed.timeoutMonitor {overrides : Overrides} {n : VehicleCanNode}
    (h : Constructed E overrides n) : n.timeoutMonitor = TimeoutMonitor.empty := by
  obtain ⟨order, declared, hSetUp⟩ := h.setUp
  obtain ⟨l, names, rfl⟩ := setUp_ofLoaded hSetUp
  rfl

/-- In every run with a clock that does not run backwards, a diagnostics tick lists, each once,
exactly the signals whose last receipt is more than the timeout ago. -/
theorem onDiagnosticsTimer_exact {overrides : Overrides} {start n : VehicleCanNode}
    {out : List Effect} (hClock : ∀ i j, i ≤ j → E.steadyClock i ≤ E.steadyClock j)
    (hStart : Constructed E overrides start) (hRuns : Runs E start n out)
    (checkOrder listOrder : HashOrder) (now : Stamp) :
    ∃ diag, (n.onDiagnosticsTimer E checkOrder listOrder now).2 = [.publishDiagnostics diag] ∧
      diag.timedOutSignals.Nodup ∧
      ∀ name, name ∈ diag.timedOutSignals ↔ ∃ r, lastReceipt out name = some r ∧
        (start.params.signalTimeoutMs.toNat : Int) <
          ((E.steadyClock n.clockReads).toNat : Int) - r.toNat := by
  refine ⟨_, rfl, TimeoutMonitor.timedOutSignals_nodup _ _, fun name => ?_⟩
  have hMonitored := hRuns.monitored hStart.timeoutMonitor
  rw [TimeoutMonitor.mem_timedOutSignals, TimeoutMonitor.checkTimeouts_lookup,
    ← hMonitored.seen name, hRuns.setup.params]
  cases hState : n.timeoutMonitor.states.lookup name with
  | none => simp
  | some state =>
    simp only [Option.map_some, Option.some.injEq, exists_eq_left']
    have hExpires := TimeoutMonitor.expires_iff state (E.steadyClock n.clockReads)
      start.params.signalTimeoutMs
    unfold TimeoutMonitor.SignalState.checked
    rcases hMonitored.status name state hState with hOk | ⟨hTimeout, i, hi, hAge⟩
    · rw [hOk] at hExpires
      split
      · rename_i hNow
        exact iff_of_true rfl (hExpires.mp hNow).2
      · rename_i hNow
        rw [hOk]
        simp only [reduceCtorEq, false_iff]
        exact fun hOld => hNow (hExpires.mpr ⟨rfl, hOld⟩)
    · -- The earlier check found it expired, and it is older now.
      rw [hRuns.setup.params] at hAge
      have hLater := UInt64.le_iff_toNat_le.mp (hClock i n.clockReads hi.le)
      split
      · exact iff_of_true rfl (by omega)
      · exact iff_of_true hTimeout (by omega)

theorem sampleEnv_clock (network : INetwork) (i j : Nat) (h : i ≤ j) :
    (sampleEnv network).steadyClock i ≤ (sampleEnv network).steadyClock j := by
  have hClock : ∀ n, ((sampleEnv network).steadyClock n).toNat = 300 * min n 1000 := fun n =>
    UInt64.toNat_ofNat_of_lt' (by simp [UInt64.size]; omega)
  rw [UInt64.le_iff_toNat_le, hClock, hClock]
  omega

theorem onDiagnosticsTimer_exact_sample :
    let E := sampleEnv (sampleNetwork 256)
    let start := sampleNode (sampleNetwork 256) sampleOverrides
    let after := start.processFrame E .listed (sampleFrame 256) 0
    ∃ diag, (after.1.onDiagnosticsTimer E .listed .listed ⟨1, 0⟩).2 = [.publishDiagnostics diag] ∧
      diag.timedOutSignals.Nodup ∧
      ∀ name, name ∈ diag.timedOutSignals ↔ ∃ r, lastReceipt ([] ++ after.2) name = some r ∧
        (500 : Int) < (E.steadyClock after.1.clockReads).toNat - r.toNat := by
  intro E start after
  have hStart : Constructed E sampleOverrides start := ⟨.listed, ⟨0, 0⟩, _, rfl⟩
  exact onDiagnosticsTimer_exact (sampleEnv_clock _) hStart
    (.frame .start .listed (sampleFrame 256) 0) .listed .listed ⟨1, 0⟩

end VehicleCanNode

end VehicleCanDecoder
