import Mathlib.Data.List.Forall2

/-! Layers of definitions, of which the last one that defines a key decides.  A store that the
layers are written to, one after the other, holds what they decide, and keeps what none of them
defines. -/

universe u v w

namespace Layers

variable {α : Type u} {κ : Type v} {ν : Type w}

/-- No layer defines `k`. -/
def Undefined (defs : α → κ → ν → Prop) (layers : List α) (k : κ) : Prop :=
  ∀ layer ∈ layers, ∀ v, ¬ defs layer k v

/-- The last layer that defines `k` gives it the value `v`. -/
def Decides (defs : α → κ → ν → Prop) (layers : List α) (k : κ) (v : ν) : Prop :=
  ∃ before layer after, layers = before ++ layer :: after ∧ defs layer k v ∧
    Undefined defs after k

variable {defs : α → κ → ν → Prop} {layers : List α} {k : κ} {v : ν}

theorem undefined_nil : Undefined defs [] k := by simp [Undefined]

theorem undefined_cons (layer : α) : Undefined defs (layer :: layers) k ↔
    (∀ v, ¬ defs layer k v) ∧ Undefined defs layers k := List.forall_mem_cons

theorem not_decides_nil : ¬ Decides defs [] k v := by
  rintro ⟨before, layer, after, hSplit, -⟩
  simp at hSplit

/-- The first layer decides a key that no other one defines. -/
theorem decides_cons (layer : α) : Decides defs (layer :: layers) k v ↔
    Decides defs layers k v ∨ (Undefined defs layers k ∧ defs layer k v) := by
  constructor
  · rintro ⟨before, layer', after, hSplit, hDefs, hAfter⟩
    cases before with
    | nil =>
      obtain ⟨rfl, rfl⟩ := List.cons.inj hSplit
      exact .inr ⟨hAfter, hDefs⟩
    | cons first before =>
      obtain ⟨-, rfl⟩ := List.cons.inj hSplit
      exact .inl ⟨before, layer', after, rfl, hDefs, hAfter⟩
  · rintro (⟨before, layer', after, rfl, hDefs, hAfter⟩ | ⟨hRest, hDefs⟩)
    · exact ⟨layer :: before, layer', after, rfl, hDefs, hAfter⟩
    · exact ⟨[], layer, layers, rfl, hDefs, hRest⟩

/-- Layers that define the same decide the same. -/
theorem decides_congr {β : Type*} {defs' : β → κ → ν → Prop} {layers' : List β}
    (h : List.Forall₂ (fun a b => ∀ k v, defs a k v ↔ defs' b k v) layers layers') :
    Decides defs layers k v ↔ Decides defs' layers' k v := by
  have hBoth : (Undefined defs layers k ↔ Undefined defs' layers' k) ∧
      (Decides defs layers k v ↔ Decides defs' layers' k v) := by
    induction h with
    | nil => exact ⟨iff_of_true undefined_nil undefined_nil,
        iff_of_false not_decides_nil not_decides_nil⟩
    | cons hHead _ ih =>
      obtain ⟨hUndefined, hDecides⟩ := ih
      constructor
      · rw [undefined_cons, undefined_cons, hUndefined]
        exact and_congr_left fun _ => forall_congr' fun v' => not_congr (hHead k v')
      · rw [decides_cons, decides_cons, hUndefined, hDecides, hHead]
  exact hBoth.2

/-! ### Writing layers to a store -/

/-- What a store holds after the layers have been written to it. -/
def Over (defs : α → κ → ν → Prop) (layers : List α) (store : κ → Option ν) (k : κ) (v : ν) :
    Prop :=
  Decides defs layers k v ∨ (Undefined defs layers k ∧ store k = some v)

theorem over_nil (store : κ → Option ν) : Over defs [] store k v ↔ store k = some v := by
  simp [Over, not_decides_nil, undefined_nil]

/-- In an empty store, the layers decide alone. -/
theorem over_empty : Over defs layers (fun _ => none) k v ↔ Decides defs layers k v := by
  simp [Over]

/-- To write a layer first is to write the others to the store that has it. -/
theorem over_cons {layer : α} {store loaded : κ → Option ν}
    (hLayer : ∀ v, loaded k = some v ↔ defs layer k v) :
    Over defs layers (fun k => (loaded k).or (store k)) k v ↔
      Over defs (layer :: layers) store k v := by
  show Decides defs layers k v ∨ (Undefined defs layers k ∧ (loaded k).or (store k) = some v) ↔
    Decides defs (layer :: layers) k v ∨ (Undefined defs (layer :: layers) k ∧ store k = some v)
  rw [decides_cons, undefined_cons, ← hLayer v]
  cases hLoaded : loaded k with
  | none =>
    have hNot : ∀ v', ¬ defs layer k v' := fun v' hDefs => by
      have := (hLayer v').mpr hDefs
      simp [hLoaded] at this
    simp [hNot]
  | some v' =>
    have hDefs : ¬ ∀ v', ¬ defs layer k v' := fun hNot => hNot v' ((hLayer v').mp hLoaded)
    simp only [Option.some_or, hDefs, false_and, or_false]

end Layers
