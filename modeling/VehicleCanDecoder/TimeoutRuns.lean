import VehicleCanDecoder.Lib.Machine
import VehicleCanDecoder.Timeouts

/-! Runs of a `TimeoutMonitor`: any calls, in any order, at any times.  A receipt makes a signal
due one report, and the check that reports it takes the due report away, so no signal is reported
twice between two of its receipts. -/

namespace VehicleCanDecoder

namespace TimeoutMonitor

/-- A call on a monitor.  A check names the order in which its loop meets the signals. -/
inductive Call
  | registerSignal (signalName : ByteString)
  | signalReceived (signalName : ByteString) (nowMs : UInt64)
  | checkTimeouts (order : HashOrder) (nowMs timeoutMs : UInt64)

/-- The monitor after a call, and the names that the call returns. -/
def step (m : TimeoutMonitor) : Call → TimeoutMonitor × List ByteString
  | .registerSignal signalName => (m.registerSignal signalName, [])
  | .signalReceived signalName nowMs => (m.signalReceived signalName nowMs, [])
  | .checkTimeouts order nowMs timeoutMs => m.checkTimeouts order nowMs timeoutMs

/-- The time of a receipt of `name`. -/
def Call.receipt (name : ByteString) : Call → Option UInt64
  | .signalReceived signalName nowMs => if signalName = name then some nowMs else none
  | _ => none

/-- The time of the last receipt of `name` among the calls. -/
def lastReceived (name : ByteString) (calls : List Call) : Option UInt64 :=
  (calls.filterMap (Call.receipt name)).getLast?

/-- The last receipt that the monitor holds for a signal. -/
def lastReceipt (m : TimeoutMonitor) (name : ByteString) : Option UInt64 :=
  (m.states.lookup name).bind fun state =>
    if state.status = .initial then none else some state.lastSeenMs

/-! ### What each call does to one signal -/

theorem registerSignal_lookup (m : TimeoutMonitor) (signalName name : ByteString) :
    (m.registerSignal signalName).states.lookup name =
      if name = signalName then some ((m.states.lookup signalName).getD ⟨0, .initial⟩)
      else m.states.lookup name :=
  UnorderedMap.lookup_emplace _ _ _ _

theorem registerSignal_getStatus (m : TimeoutMonitor) (signalName name : ByteString) :
    (m.registerSignal signalName).getStatus name = m.getStatus name := by
  unfold getStatus
  rw [registerSignal_lookup]
  by_cases hName : name = signalName
  · subst hName
    cases m.states.lookup name <;> simp
  · rw [if_neg hName]

theorem registerSignal_lastReceipt (m : TimeoutMonitor) (signalName name : ByteString) :
    (m.registerSignal signalName).lastReceipt name = m.lastReceipt name := by
  unfold lastReceipt
  rw [registerSignal_lookup]
  by_cases hName : name = signalName
  · subst hName
    cases m.states.lookup name <;> simp
  · rw [if_neg hName]

theorem signalReceived_getStatus_ne (m : TimeoutMonitor) {signalName name : ByteString}
    (h : name ≠ signalName) (nowMs : UInt64) :
    (m.signalReceived signalName nowMs).getStatus name = m.getStatus name := by
  unfold getStatus signalReceived
  rw [UnorderedMap.lookup_insert_eq, if_neg h]

theorem signalReceived_lastReceipt (m : TimeoutMonitor) (signalName name : ByteString)
    (nowMs : UInt64) : (m.signalReceived signalName nowMs).lastReceipt name =
      if name = signalName then some nowMs else m.lastReceipt name := by
  unfold lastReceipt signalReceived
  rw [UnorderedMap.lookup_insert_eq]
  by_cases hName : name = signalName <;> simp [hName]

/-- A check ages a signal, and leaves the time of its last receipt alone. -/
theorem checkTimeouts_lastReceipt (order : HashOrder) (m : TimeoutMonitor)
    (nowMs timeoutMs : UInt64) (name : ByteString) :
    (m.checkTimeouts order nowMs timeoutMs).1.lastReceipt name = m.lastReceipt name := by
  unfold lastReceipt
  rw [checkTimeouts_lookup]
  cases m.states.lookup name with
  | none => rfl
  | some state =>
    by_cases hExpires : SignalState.expires state nowMs timeoutMs = true
    · have hOk : state.status = .ok := ((expires_iff _ _ _).mp hExpires).1
      simp [SignalState.checked, hExpires, hOk]
    · simp [SignalState.checked, hExpires]

theorem foldl_checkSignal_listed (nowMs timeoutMs : UInt64)
    (entries : List (ByteString × SignalState)) (s : TimeoutMonitor × List ByteString) :
    (entries.foldl (checkSignal nowMs timeoutMs) s).2 =
      s.2 ++ (entries.filter (SignalState.expires ·.2 nowMs timeoutMs)).map Prod.fst := by
  induction entries generalizing s with
  | nil => simp
  | cons e rest ih =>
    rw [List.foldl_cons, ih]
    by_cases hExpires : SignalState.expires e.2 nowMs timeoutMs = true <;>
      simp [checkSignal, hExpires]

/-- A check lists the signals that have expired, in the order of its loop. -/
theorem checkTimeouts_listed (order : HashOrder) (m : TimeoutMonitor) (nowMs timeoutMs : UInt64) :
    (m.checkTimeouts order nowMs timeoutMs).2 =
      ((m.states.items order).filter (SignalState.expires ·.2 nowMs timeoutMs)).map Prod.fst :=
  foldl_checkSignal_listed nowMs timeoutMs _ _

theorem listed_nodup (order : HashOrder) (m : TimeoutMonitor) (nowMs timeoutMs : UInt64) :
    (m.checkTimeouts order nowMs timeoutMs).2.Nodup := by
  rw [checkTimeouts_listed]
  exact (m.states.items_keys_nodup order).sublist (List.filter_sublist.map _)

theorem mem_listed (order : HashOrder) (m : TimeoutMonitor) (nowMs timeoutMs : UInt64)
    (name : ByteString) : name ∈ (m.checkTimeouts order nowMs timeoutMs).2 ↔
      ∃ state, m.states.lookup name = some state ∧
        SignalState.expires state nowMs timeoutMs = true := by
  rw [checkTimeouts_listed]
  simp only [List.mem_map, List.mem_filter, Prod.exists, UnorderedMap.mem_items]
  constructor
  · rintro ⟨name, state, h, rfl⟩
    exact ⟨state, h⟩
  · rintro ⟨state, h⟩
    exact ⟨name, state, h, rfl⟩

theorem getStatus_eq_of_ne_initial {m : TimeoutMonitor} {name : ByteString} {status : Status}
    (hNe : status ≠ .initial) : m.getStatus name = status ↔
      ∃ state, m.states.lookup name = some state ∧ state.status = status := by
  unfold getStatus
  cases m.states.lookup name with
  | none => simp [Ne.symm hNe]
  | some state => simp

/-- A check lists a signal just when it moves it. -/
theorem mem_listed_iff_moves (order : HashOrder) (m : TimeoutMonitor) (nowMs timeoutMs : UInt64)
    (name : ByteString) : name ∈ (m.checkTimeouts order nowMs timeoutMs).2 ↔
      m.getStatus name = .ok ∧
        (m.checkTimeouts order nowMs timeoutMs).1.getStatus name = .timeout := by
  rw [mem_listed, getStatus_eq_of_ne_initial (by decide), getStatus_eq_of_ne_initial (by decide),
    checkTimeouts_lookup]
  cases m.states.lookup name with
  | none => simp
  | some state =>
    by_cases hExpires : SignalState.expires state nowMs timeoutMs = true
    · have hOk : state.status = .ok := ((expires_iff _ _ _).mp hExpires).1
      simp [SignalState.checked, hExpires, hOk]
    · have hStays : ¬ (state.status = .ok ∧ state.status = .timeout) := by
        rintro ⟨hOk, hTimeout⟩
        simp [hOk] at hTimeout
      simpa [SignalState.checked, hExpires] using hStays

/-- A check leaves a signal alone that it does not list. -/
theorem getStatus_of_not_listed (order : HashOrder) {m : TimeoutMonitor} {nowMs timeoutMs : UInt64}
    {name : ByteString} (h : name ∉ (m.checkTimeouts order nowMs timeoutMs).2) :
    (m.checkTimeouts order nowMs timeoutMs).1.getStatus name = m.getStatus name := by
  rw [mem_listed] at h
  unfold getStatus
  rw [checkTimeouts_lookup]
  cases hLookup : m.states.lookup name with
  | none => rfl
  | some state =>
    have hStays : ¬ SignalState.expires state nowMs timeoutMs = true := fun hExpires =>
      h ⟨state, hLookup, hExpires⟩
    simp [SignalState.checked, hStays]

/-- A check lists a signal that is `ok`, by the time since its last receipt. -/
theorem mem_listed_iff_late (order : HashOrder) (m : TimeoutMonitor) (nowMs timeoutMs : UInt64)
    (name : ByteString) : name ∈ (m.checkTimeouts order nowMs timeoutMs).2 ↔
      m.getStatus name = .ok ∧ ∃ last, m.lastReceipt name = some last ∧
        nowMs > last ∧ nowMs - last > timeoutMs := by
  rw [mem_listed, getStatus_eq_of_ne_initial (by decide)]
  unfold lastReceipt SignalState.expires
  cases m.states.lookup name with
  | none => simp
  | some state =>
    cases hStatus : state.status <;> simp [hStatus]

/-- What has timed out after a check is what had timed out before it and what the check lists, and
nothing is in both. -/
theorem timedOutSignals_checkTimeouts (order before after : HashOrder) (m : TimeoutMonitor)
    (nowMs timeoutMs : UInt64) :
    ((m.checkTimeouts order nowMs timeoutMs).1.timedOutSignals after).Perm
        (m.timedOutSignals before ++ (m.checkTimeouts order nowMs timeoutMs).2) ∧
      (m.timedOutSignals before).Disjoint (m.checkTimeouts order nowMs timeoutMs).2 := by
  have hTimedOut : ∀ (order : HashOrder) (m : TimeoutMonitor) (name : ByteString),
      name ∈ m.timedOutSignals order ↔ m.getStatus name = .timeout := fun order m name => by
    rw [mem_timedOutSignals, getStatus_eq_of_ne_initial (by decide)]
  have hDisjoint :
      (m.timedOutSignals before).Disjoint (m.checkTimeouts order nowMs timeoutMs).2 := by
    intro name hBefore hListed
    rw [hTimedOut] at hBefore
    rw [mem_listed_iff_moves, hBefore] at hListed
    exact absurd hListed.1 (by decide)
  refine ⟨?_, hDisjoint⟩
  refine (List.perm_ext_iff_of_nodup (timedOutSignals_nodup _ _)
    ((timedOutSignals_nodup _ _).append (listed_nodup _ _ _ _) hDisjoint)).mpr fun name => ?_
  rw [List.mem_append, hTimedOut, hTimedOut, mem_listed, getStatus_eq_of_ne_initial (by decide),
    getStatus_eq_of_ne_initial (by decide), checkTimeouts_lookup]
  cases m.states.lookup name with
  | none => simp
  | some state =>
    by_cases hExpires : SignalState.expires state nowMs timeoutMs = true <;>
      simp [SignalState.checked, hExpires]

/-! ### Runs -/

/-- The reports that a signal is due: one when it is `ok`. -/
def due (name : ByteString) (m : TimeoutMonitor) : Nat := if m.getStatus name = .ok then 1 else 0

/-- A call that is no receipt of a signal lists it as often as it takes a due report away. -/
theorem step_count (name : ByteString) (call : Call) (hCall : call.receipt name = none)
    (m : TimeoutMonitor) :
    (m.step call).2.countP (· == name) + due name (m.step call).1 = due name m := by
  cases call with
  | registerSignal signalName =>
    show 0 + due name (m.registerSignal signalName) = _
    unfold due
    rw [registerSignal_getStatus, Nat.zero_add]
  | signalReceived signalName nowMs =>
    have hName : name ≠ signalName := by
      rintro rfl
      simp [Call.receipt] at hCall
    show 0 + due name (m.signalReceived signalName nowMs) = _
    unfold due
    rw [signalReceived_getStatus_ne m hName, Nat.zero_add]
  | checkTimeouts order nowMs timeoutMs =>
    show List.count name _ + _ = _
    have hMoves := mem_listed_iff_moves order m nowMs timeoutMs name
    by_cases hListed : name ∈ (m.checkTimeouts order nowMs timeoutMs).2
    · obtain ⟨hOk, hTimeout⟩ := hMoves.mp hListed
      have hOne := List.count_eq_one_of_mem (listed_nodup order m nowMs timeoutMs) hListed
      simp [step, due, hOk, hTimeout, hOne]
    · have hZero := List.count_eq_zero_of_not_mem hListed
      show List.count name (m.checkTimeouts order nowMs timeoutMs).2 +
        due name (m.checkTimeouts order nowMs timeoutMs).1 = _
      unfold due
      rw [hZero, getStatus_of_not_listed order hListed, Nat.zero_add]

/-- Without a receipt of the signal, a run lists it as often as it takes a due report away. -/
theorem run_count (name : ByteString) {calls : List Call}
    (hCalls : calls.filterMap (Call.receipt name) = []) (m : TimeoutMonitor) :
    (Machine.run step m calls).2.count name + due name (Machine.run step m calls).1 =
      due name m :=
  Machine.run_countP (fun call hCall m => step_count name call
    (List.filterMap_eq_nil_iff.mp hCalls call hCall) m) m

theorem step_lastReceipt (name : ByteString) (m : TimeoutMonitor) (call : Call) :
    (m.step call).1.lastReceipt name = (call.receipt name).or (m.lastReceipt name) := by
  cases call with
  | registerSignal signalName => exact registerSignal_lastReceipt m signalName name
  | signalReceived signalName nowMs =>
    refine (signalReceived_lastReceipt m signalName name nowMs).trans ?_
    by_cases hName : name = signalName
    · simp [Call.receipt, hName]
    · simp [Call.receipt, hName, Ne.symm hName]
  | checkTimeouts order nowMs timeoutMs => exact checkTimeouts_lastReceipt order m nowMs _ name

/-- The monitor holds the last receipt of every signal. -/
theorem run_lastReceipt (name : ByteString) (calls : List Call) (m : TimeoutMonitor) :
    (Machine.run step m calls).1.lastReceipt name =
      (lastReceived name calls).or (m.lastReceipt name) := by
  induction calls generalizing m with
  | nil => rfl
  | cons call rest ih =>
    rw [Machine.run_cons, ih, step_lastReceipt]
    unfold lastReceived
    cases hReceipt : call.receipt name with
    | none => rw [List.filterMap_cons_none hReceipt, Option.none_or]
    | some nowMs =>
      rw [List.filterMap_cons_some hReceipt, List.getLast?_cons]
      cases (rest.filterMap (Call.receipt name)).getLast? <;> rfl

/-- After any calls, a check lists a signal just when it moves it from `ok` to `timeout`, and that
by the time since its last receipt; as long as the signal is not received again, no calls list it
twice. -/
theorem timeout_reported_once (calls : List Call) (name : ByteString) :
    let m := (Machine.run step empty calls).1
    (∀ order nowMs timeoutMs,
      let checked := m.checkTimeouts order nowMs timeoutMs
      (name ∈ checked.2 ↔ m.getStatus name = .ok ∧ checked.1.getStatus name = .timeout) ∧
      (name ∈ checked.2 ↔ m.getStatus name = .ok ∧ ∃ last, lastReceived name calls = some last ∧
        nowMs > last ∧ nowMs - last > timeoutMs) ∧
      ∀ before after,
        (checked.1.timedOutSignals after).Perm (m.timedOutSignals before ++ checked.2) ∧
          (m.timedOutSignals before).Disjoint checked.2) ∧
    (∀ later : List Call, later.filterMap (Call.receipt name) = [] →
      (Machine.run step m later).2.count name ≤ 1) ∧
    (lastReceived name calls = none → name ∉ (Machine.run step empty calls).2) ∧
    m.lastReceipt name = lastReceived name calls ∧
    ∀ signalName, (m.registerSignal signalName).getStatus name = m.getStatus name ∧
      (m.registerSignal signalName).lastReceipt name = m.lastReceipt name := by
  intro m
  have hLast : m.lastReceipt name = lastReceived name calls := by
    rw [run_lastReceipt]
    exact Option.or_none
  refine ⟨fun order nowMs timeoutMs => ?_, fun later hLater => ?_, fun hNever => ?_, hLast,
    fun signalName => ?_⟩
  · refine ⟨mem_listed_iff_moves order m nowMs timeoutMs name, ?_, fun before after =>
      timedOutSignals_checkTimeouts order before after m nowMs timeoutMs⟩
    rw [← hLast]
    exact mem_listed_iff_late order m nowMs timeoutMs name
  · have hCount := run_count name hLater m
    have hDue : due name m ≤ 1 := by
      unfold due
      split <;> omega
    omega
  · have hCount := run_count name (List.getLast?_eq_none_iff.mp hNever) empty
    have hDue : due name empty = 0 := rfl
    exact List.count_eq_zero.mp (by omega)
  · exact ⟨registerSignal_getStatus m signalName name, registerSignal_lastReceipt m signalName name⟩

end TimeoutMonitor

end VehicleCanDecoder
