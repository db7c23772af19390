import VehicleCanDecoder.Lib.Lists

/-! Runs of a machine that takes one input at a time, changes its state, and puts out a list of
outputs.  The rules lift what one step does to a whole run: an invariant of every step is an
invariant of every run, outputs that do not depend on the state are put out input by input, and
where one machine follows another, so do their runs. -/

universe u v w

namespace Machine

variable {σ : Type u} {ι : Type v} {ο : Type w}

/-- The state after the inputs, and the outputs of all the steps, in order. -/
def run (step : σ → ι → σ × List ο) : σ → List ι → σ × List ο
  | s, [] => (s, [])
  | s, i :: rest =>
    let here := step s i
    let later := run step here.1 rest
    (later.1, here.2 ++ later.2)

variable {step : σ → ι → σ × List ο}

@[simp] theorem run_nil (s : σ) : run step s [] = (s, []) := rfl

theorem run_cons (s : σ) (i : ι) (rest : List ι) :
    run step s (i :: rest) =
      ((run step (step s i).1 rest).1, (step s i).2 ++ (run step (step s i).1 rest).2) := rfl

/-- What every step keeps, every run keeps. -/
theorem run_invariant {I : σ → Prop} (hStep : ∀ s i, I s → I (step s i).1) {s : σ} (h : I s)
    (l : List ι) : I (run step s l).1 := by
  induction l generalizing s with
  | nil => exact h
  | cons i rest ih => exact ih (hStep s i h)

/-- The same for the inputs of one run. -/
theorem run_invariant_mem {I : σ → Prop} {l : List ι} (hStep : ∀ i ∈ l, ∀ s, I s → I (step s i).1)
    {s : σ} (h : I s) : I (run step s l).1 := by
  induction l generalizing s with
  | nil => exact h
  | cons i rest ih =>
    exact ih (fun j hj => hStep j (List.mem_cons_of_mem i hj)) (hStep i List.mem_cons_self s h)

/-- A relation between the state and all the outputs so far, kept by every step, holds after every
run. -/
theorem run_trace {I : σ → List ο → Prop}
    (hStep : ∀ s out i, I s out → I (step s i).1 (out ++ (step s i).2)) {s : σ} {out : List ο}
    (h : I s out) (l : List ι) : I (run step s l).1 (out ++ (run step s l).2) := by
  induction l generalizing s out with
  | nil => simpa using h
  | cons i rest ih =>
    rw [run_cons, ← List.append_assoc]
    exact ih (hStep s out i h)

/-- Where an invariant fixes what a step puts out of one kind by its input alone, the outputs of
that kind of a run are those of its inputs, one after the other. -/
theorem run_filterMap {π : Type*} {I : σ → Prop} {kind : ο → Option π} {out : ι → List π}
    (hStep : ∀ s i, I s → I (step s i).1 ∧ (step s i).2.filterMap kind = out i) {s : σ} (h : I s)
    (l : List ι) : (run step s l).2.filterMap kind = l.flatMap out := by
  induction l generalizing s with
  | nil => rfl
  | cons i rest ih =>
    obtain ⟨hNext, hOut⟩ := hStep s i h
    rw [run_cons, List.filterMap_append, List.flatMap_cons, ih hNext, hOut]

/-- What no step puts out, no run puts out. -/
theorem run_filterMap_nil {π : Type*} {kind : ο → Option π}
    (hStep : ∀ s i, (step s i).2.filterMap kind = []) (s : σ) (l : List ι) :
    (run step s l).2.filterMap kind = [] := by
  induction l generalizing s with
  | nil => rfl
  | cons i rest ih => rw [run_cons, List.filterMap_append, hStep, ih, List.nil_append]

/-- Where each of the inputs turns what it takes from the state into as many outputs of one kind, so
does the run. -/
theorem run_countP {p : ο → Bool} {held : σ → Nat} {l : List ι}
    (hStep : ∀ i ∈ l, ∀ s, (step s i).2.countP p + held (step s i).1 = held s) (s : σ) :
    (run step s l).2.countP p + held (run step s l).1 = held s := by
  induction l generalizing s with
  | nil => simp
  | cons i rest ih =>
    have hHere := hStep i List.mem_cons_self s
    have hLater := ih (fun j hj => hStep j (List.mem_cons_of_mem i hj)) (step s i).1
    show ((step s i).2 ++ (run step (step s i).1 rest).2).countP p +
      held (run step (step s i).1 rest).1 = held s
    rw [List.countP_append]
    omega

/-- A component of the state that evolves by itself, under an invariant, folds over the inputs. -/
theorem run_component {τ : Type*} {I : σ → Prop} (proj : σ → τ) (next : τ → ι → τ)
    (hStep : ∀ s i, I s → I (step s i).1 ∧ proj (step s i).1 = next (proj s) i) {s : σ} (h : I s)
    (l : List ι) : proj (run step s l).1 = l.foldl next (proj s) := by
  induction l generalizing s with
  | nil => rfl
  | cons i rest ih =>
    obtain ⟨hNext, hProj⟩ := hStep s i h
    rw [run_cons, List.foldl_cons, ← hProj]
    exact ih hNext

/-! ### Machines that stop -/

section Stops

variable {ε : Type*} {step : σ → ι → Except ε (σ × List ο)}

/-- What is put out until the inputs end, or until a step fails. -/
def outputs (step : σ → ι → Except ε (σ × List ο)) : σ → List ι → List ο
  | _, [] => []
  | s, i :: rest =>
    match step s i with
    | .ok (s', out) => out ++ outputs step s' rest
    | .error _ => []

/-- Where some inputs carry a message, the others put out nothing of a kind, and what a message puts
out of it is related to the message, a run puts out a part for each message, up to the first with
which a step fails. -/
theorem outputs_parts {β π : Type*} {I : σ → Prop} {m : ι → Option β} {g : β → Bool}
    {k : ο → Option π} {R : β → List π → Prop}
    (hGoes : ∀ {s i s' effects}, I s → step s i = .ok (s', effects) → I s' ∧
      (∀ b, m i = some b → g b = true ∧ R b (effects.filterMap k)) ∧
      (m i = none → effects.filterMap k = []))
    (hFails : ∀ {s i e}, step s i = .error e → ∃ b, m i = some b ∧ g b = false) {s : σ} (h : I s)
    (l : List ι) : ∃ parts, List.Forall₂ R ((l.filterMap m).takeWhile g) parts ∧
      (outputs step s l).filterMap k = parts.flatten := by
  induction l generalizing s with
  | nil => exact ⟨[], .nil, rfl⟩
  | cons i rest ih =>
    unfold outputs
    cases hStep : step s i with
    | error e =>
      obtain ⟨b, hMessage, hStops⟩ := hFails hStep
      refine ⟨[], ?_, rfl⟩
      rw [List.filterMap_cons_some hMessage, List.takeWhile_cons_of_neg (by simp [hStops])]
      exact .nil
    | ok r =>
      obtain ⟨hNext, hSome, hNone⟩ := hGoes h hStep
      obtain ⟨parts, hParts, hOut⟩ := ih hNext
      cases hMessage : m i with
      | none =>
        refine ⟨parts, ?_, ?_⟩
        · rwa [List.filterMap_cons_none hMessage]
        · rw [List.filterMap_append, hNone hMessage, hOut, List.nil_append]
      | some b =>
        obtain ⟨hGo, hHere⟩ := hSome b hMessage
        refine ⟨r.2.filterMap k :: parts, ?_, ?_⟩
        · rw [List.filterMap_cons_some hMessage, List.takeWhile_cons_of_pos hGo]
          exact .cons hHere hParts
        · rw [List.filterMap_append, hOut, List.flatten_cons]

/-- Every output is one of a step from a state with the invariant. -/
theorem mem_outputs {I : σ → Prop} {P : ο → Prop}
    (hStep : ∀ {s i s' effects}, I s → step s i = .ok (s', effects) → I s' ∧ ∀ o ∈ effects, P o)
    {s : σ} (h : I s) (l : List ι) : ∀ o ∈ outputs step s l, P o := by
  induction l generalizing s with
  | nil => simp [outputs]
  | cons i rest ih =>
    unfold outputs
    cases hHere : step s i with
    | error e => simp
    | ok r =>
      obtain ⟨hNext, hOut⟩ := hStep h hHere
      intro o hMem
      exact (List.mem_append.mp hMem).elim (hOut o) (ih hNext o)

end Stops

/-! ### Machines that can get stuck -/

section Follows

variable {τ : Type*} {step : σ → ι → Option σ} {next : τ → ι → τ} {R : σ → τ → Prop}
  {guard : τ → ι → Prop}

/-- A machine whose steps may fail follows one whose steps do not, as long as a guard holds of the
state of the second; where the guard fails, so does the step. -/
structure Follows (step : σ → ι → Option σ) (next : τ → ι → τ) (R : σ → τ → Prop)
    (guard : τ → ι → Prop) : Prop where
  follow : ∀ {s t i}, R s t → guard t i → ∃ s', step s i = some s' ∧ R s' (next t i)
  stuck : ∀ {s t i}, R s t → ¬ guard t i → step s i = none

theorem Follows.related (hFollows : Follows step next R guard) {s s' : σ} {t : τ} (h : R s t)
    {l : List ι} (hRun : l.foldlM step s = some s') : R s' (l.foldl next t) := by
  induction l generalizing s t with
  | nil =>
    obtain rfl := Option.some.inj hRun
    exact h
  | cons i rest ih =>
    rw [List.foldlM_cons] at hRun
    by_cases hGuard : guard t i
    · obtain ⟨s₁, hs₁, hR⟩ := hFollows.follow h hGuard
      rw [hs₁] at hRun
      exact ih hR hRun
    · rw [hFollows.stuck h hGuard] at hRun
      contradiction

/-- A run comes to its end just when every input meets the guard. -/
theorem Follows.isSome_iff (hFollows : Follows step next R guard) {s : σ} {t : τ} (h : R s t)
    (l : List ι) : (l.foldlM step s).isSome ↔
      ∀ done i, done ++ [i] <+: l → guard (done.foldl next t) i := by
  induction l generalizing s t with
  | nil =>
    refine iff_of_true rfl fun done i hPrefix => ?_
    exact absurd (List.prefix_nil.mp hPrefix) (by simp)
  | cons i rest ih =>
    rw [List.foldlM_cons]
    by_cases hGuard : guard t i
    · obtain ⟨s', hs', hR⟩ := hFollows.follow h hGuard
      rw [hs', Option.bind_eq_bind, Option.bind_some, ih hR]
      constructor
      · intro hRest done i' hPrefix
        cases done with
        | nil =>
          obtain rfl : i' = i := (List.cons_prefix_cons.mp hPrefix).1
          exact hGuard
        | cons first done =>
          obtain ⟨rfl, hTail⟩ := List.cons_prefix_cons.mp hPrefix
          exact hRest done i' hTail
      · exact fun hAll done i' hPrefix =>
          hAll (i :: done) i' (List.cons_prefix_cons.mpr ⟨rfl, hPrefix⟩)
    · rw [hFollows.stuck h hGuard]
      refine iff_of_false (by simp) fun hAll => hGuard (hAll [] i ?_)
      exact List.cons_prefix_cons.mpr ⟨rfl, List.nil_prefix⟩

end Follows

end Machine
