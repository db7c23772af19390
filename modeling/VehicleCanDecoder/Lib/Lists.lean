import Mathlib.Data.List.Forall2
import Mathlib.Data.List.Perm.Basic

/-! Lists that are related element by element, and lists that are the same but for the order. -/

namespace List

/-- Each result of a relation of lists comes from an element, and each element has one. -/
theorem forall₂_exists {α β : Type*} {R : α → β → Prop} {l : List α} {l' : List β}
    (h : Forall₂ R l l') : (∀ a ∈ l, ∃ b ∈ l', R a b) ∧ ∀ b ∈ l', ∃ a ∈ l, R a b := by
  induction h with
  | nil => simp
  | cons hHere _ ih =>
    obtain ⟨hLeft, hRight⟩ := ih
    constructor
    · rintro a (_ | ⟨_, ha⟩)
      · exact ⟨_, .head _, hHere⟩
      · obtain ⟨b, hb, hR⟩ := hLeft a ha
        exact ⟨b, .tail _ hb, hR⟩
    · rintro b (_ | ⟨_, hb⟩)
      · exact ⟨_, .head _, hHere⟩
      · obtain ⟨a, ha, hR⟩ := hRight b hb
        exact ⟨a, .tail _ ha, hR⟩

/-- What is related to the same list is related to one another. -/
theorem forall₂_same_left {α β γ : Type*} {R : α → β → Prop} {S : α → γ → Prop}
    {T : β → γ → Prop} (hT : ∀ a b c, R a b → S a c → T b c) {l : List α} {l' : List β}
    {l'' : List γ} (h : Forall₂ R l l') (h' : Forall₂ S l l'') : Forall₂ T l' l'' := by
  induction h generalizing l'' with
  | nil =>
    cases h'
    exact .nil
  | cons hR _ ih =>
    cases h' with
    | cons hS hRest => exact .cons (hT _ _ _ hR hS) (ih hRest)

/-- A list that is related to another as a function is its image. -/
theorem forall₂_eq_map {α β : Type*} {f : α → β} {l : List α} {l' : List β}
    (h : Forall₂ (fun a b => b = f a) l l') : l' = l.map f := by
  induction h with
  | nil => rfl
  | cons hHere _ ih => rw [map_cons, hHere, ih]

/-- Lists with the same elements of each key, in the same order, are the same but for the order. -/
theorem perm_of_filter_eq {α κ : Type*} [DecidableEq κ] (key : α → κ) {l l' : List α}
    (h : ∀ k, l.filter (key · = k) = l'.filter (key · = k)) : l.Perm l' := by
  classical
  refine perm_iff_count.mpr fun a => ?_
  have hCount : ∀ l : List α, (l.filter (key · = key a)).count a = l.count a := fun l =>
    count_filter (decide_eq_true rfl)
  rw [← hCount l, h, hCount]

end List
