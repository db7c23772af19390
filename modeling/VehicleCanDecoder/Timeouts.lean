import VehicleCanDecoder.Cpp
import VehicleCanDecoder.Lib.UnorderedMap
import Mathlib.Data.List.Induction

/-! `TimeoutMonitor`: the last receipt of each signal, and a status that a check sets and a receipt
clears. -/

namespace VehicleCanDecoder

inductive Status
  | ok
  | timeout
  | initial
  deriving DecidableEq

structure SignalState where
  lastSeenMs : UInt64
  status : Status
  deriving DecidableEq

structure TimeoutMonitor where
  states : UnorderedMap ByteString SignalState

namespace TimeoutMonitor

def empty : TimeoutMonitor := ⟨∅⟩

def registerSignal (m : TimeoutMonitor) (signalName : ByteString) : TimeoutMonitor :=
  ⟨(m.states.emplace signalName ⟨0, .initial⟩).1⟩

def signalReceived (m : TimeoutMonitor) (signalName : ByteString) (nowMs : UInt64) :
    TimeoutMonitor :=
  ⟨m.states.insert signalName ⟨nowMs, .ok⟩⟩

def getStatus (m : TimeoutMonitor) (signalName : ByteString) : Status :=
  ((m.states.lookup signalName).map SignalState.status).getD .initial

/-- The test of `check_timeouts`: the subtraction is unsigned, and guarded. -/
def SignalState.expires (state : SignalState) (nowMs timeoutMs : UInt64) : Bool :=
  state.status = .ok ∧ nowMs > state.lastSeenMs ∧ nowMs - state.lastSeenMs > timeoutMs

/-- The body of the loop of `check_timeouts`, on the monitor and the names so far. -/
def checkSignal (nowMs timeoutMs : UInt64) (s : TimeoutMonitor × List ByteString)
    (entry : ByteString × SignalState) : TimeoutMonitor × List ByteString :=
  if SignalState.expires entry.2 nowMs timeoutMs then
    (⟨s.1.states.insert entry.1 { entry.2 with status := .timeout }⟩, s.2 ++ [entry.1])
  else s

/-- `check_timeouts`: the monitor after it, and the names that have newly timed out. -/
def checkTimeouts (order : HashOrder) (m : TimeoutMonitor) (nowMs timeoutMs : UInt64) :
    TimeoutMonitor × List ByteString :=
  (m.states.items order).foldl (checkSignal nowMs timeoutMs) (m, [])

def timedOutSignals (order : HashOrder) (m : TimeoutMonitor) : List ByteString :=
  ((m.states.items order).filter (·.2.status = .timeout)).map Prod.fst

/-! ### What a check leaves -/

/-- A signal after a check. -/
def SignalState.checked (state : SignalState) (nowMs timeoutMs : UInt64) : SignalState :=
  if SignalState.expires state nowMs timeoutMs then { state with status := .timeout } else state

theorem lookup_foldl_checkSignal (nowMs timeoutMs : UInt64)
    (entries : List (ByteString × SignalState)) (s : TimeoutMonitor × List ByteString)
    (name : ByteString) :
    (entries.foldl (checkSignal nowMs timeoutMs) s).1.states.lookup name =
      (((entries.filter (·.1 = name)).filter fun e =>
          SignalState.expires e.2 nowMs timeoutMs).getLast?.map
        fun e => { e.2 with status := .timeout }).or (s.1.states.lookup name) := by
  induction entries using List.reverseRecOn with
  | nil => rfl
  | append_singleton rest e ih =>
    rw [List.foldl_concat, List.filter_append, List.filter_append]
    unfold checkSignal at ih ⊢
    by_cases hExpires : SignalState.expires e.2 nowMs timeoutMs = true
    · rw [if_pos hExpires, UnorderedMap.lookup_insert_eq, ih]
      by_cases hName : e.1 = name
      · simp [hName, hExpires]
      · simp [hName, Ne.symm hName]
    · rw [if_neg hExpires, ih]
      by_cases hName : e.1 = name <;> simp [hName, hExpires]

theorem checkTimeouts_lookup (order : HashOrder) (m : TimeoutMonitor) (nowMs timeoutMs : UInt64)
    (name : ByteString) :
    (m.checkTimeouts order nowMs timeoutMs).1.states.lookup name =
      (m.states.lookup name).map (SignalState.checked · nowMs timeoutMs) := by
  rw [checkTimeouts, lookup_foldl_checkSignal, UnorderedMap.items_filter_key]
  cases m.states.lookup name with
  | none => rfl
  | some state =>
    unfold SignalState.checked
    by_cases hExpires : SignalState.expires state nowMs timeoutMs = true <;> simp [hExpires]

theorem mem_timedOutSignals (order : HashOrder) (m : TimeoutMonitor) (name : ByteString) :
    name ∈ m.timedOutSignals order ↔
      ∃ state, m.states.lookup name = some state ∧ state.status = .timeout := by
  simp only [timedOutSignals, List.mem_map, List.mem_filter, Prod.exists, decide_eq_true_eq,
    UnorderedMap.mem_items]
  constructor
  · rintro ⟨name, state, h, rfl⟩
    exact ⟨state, h⟩
  · rintro ⟨state, h⟩
    exact ⟨name, state, h, rfl⟩

theorem timedOutSignals_nodup (order : HashOrder) (m : TimeoutMonitor) :
    (m.timedOutSignals order).Nodup :=
  (m.states.items_keys_nodup order).sublist (List.filter_sublist.map _)

/-- The guarded unsigned comparison is the comparison of the integers. -/
theorem expires_iff (state : SignalState) (nowMs timeoutMs : UInt64) :
    SignalState.expires state nowMs timeoutMs = true ↔
      state.status = .ok ∧
        (timeoutMs.toNat : Int) < (nowMs.toNat : Int) - state.lastSeenMs.toNat := by
  unfold SignalState.expires
  simp only [decide_eq_true_eq, gt_iff_lt, UInt64.lt_iff_toNat_lt]
  refine and_congr_right fun _ => ?_
  by_cases h : state.lastSeenMs.toNat < nowMs.toNat
  · rw [UInt64.toNat_sub_of_le _ _ (UInt64.le_iff_toNat_le.mpr h.le)]
    omega
  · omega

end TimeoutMonitor

end VehicleCanDecoder
