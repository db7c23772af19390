import Mathlib.Logic.Equiv.Basic
import Mathlib.Data.List.Induction

/-! Resources that have one owner at a time, by the history of what was done to them: they are
acquired, handed over and released.  In a legal history nobody acquires what is owned, and only its
owner hands over or releases a resource; then each resource is released once for each time it is
acquired, up to the one time that it may be owned at the end. -/

universe u v

namespace Ownership

inductive Event (κ : Type u) (ρ : Type v)
  | acquired (by_ : κ) (r : ρ)
  | handedOver (from_ to_ : κ) (r : ρ)
  | released (by_ : κ) (r : ρ)

variable {κ : Type u} {ρ : Type v} [DecidableEq ρ]

/-- The owner of `r` after an event, by the one before. -/
def Event.owner (r : ρ) (o : Option κ) : Event κ ρ → Option κ
  | .acquired k r' => if r' = r then some k else o
  | .handedOver _ k r' => if r' = r then some k else o
  | .released _ r' => if r' = r then none else o

def owner (log : List (Event κ ρ)) (r : ρ) : Option κ := log.foldl (Event.owner r) none

@[simp] theorem owner_nil (r : ρ) : owner ([] : List (Event κ ρ)) r = none := rfl

@[simp] theorem owner_concat (log : List (Event κ ρ)) (e : Event κ ρ) (r : ρ) :
    owner (log ++ [e]) r = e.owner r (owner log r) := by
  simp [owner]

def Event.acquires (r : ρ) : Event κ ρ → Bool
  | .acquired _ r' => r' = r
  | _ => false

def Event.releases (r : ρ) : Event κ ρ → Bool
  | .released _ r' => r' = r
  | _ => false

/-- What may happen after a history. -/
def Permitted (log : List (Event κ ρ)) : Event κ ρ → Prop
  | .acquired _ r => owner log r = none
  | .handedOver k _ r => owner log r = some k
  | .released k r => owner log r = some k

def Legal (log : List (Event κ ρ)) : Prop := ∀ done e, done ++ [e] <+: log → Permitted done e

theorem legal_nil : Legal ([] : List (Event κ ρ)) := fun done e h =>
  absurd (List.prefix_nil.mp h) (by simp)

theorem Legal.concat {log : List (Event κ ρ)} (h : Legal log) {e : Event κ ρ}
    (he : Permitted log e) : Legal (log ++ [e]) := by
  intro done e' hPrefix
  rcases List.prefix_concat_iff.mp hPrefix with hAll | hBefore
  · obtain ⟨rfl, hLast⟩ := List.append_inj' hAll rfl
    obtain rfl := List.singleton_inj.mp hLast
    exact he
  · exact h done e' hBefore

theorem Legal.of_prefix {log past : List (Event κ ρ)} (h : Legal log) (hPast : past <+: log) :
    Legal past := fun done e hPrefix => h done e (hPrefix.trans hPast)

/-- A resource is released once for each time it is acquired, but the last while it is owned. -/
theorem Legal.count {log : List (Event κ ρ)} (h : Legal log) (r : ρ) :
    log.countP (Event.acquires r) =
      log.countP (Event.releases r) + if (owner log r).isSome then 1 else 0 := by
  induction log using List.reverseRecOn with
  | nil => rfl
  | append_singleton log e ih =>
    have hBefore := ih (h.of_prefix (List.prefix_append log [e]))
    have hLast := h log e List.prefix_rfl
    rw [owner_concat, List.countP_append, List.countP_append, hBefore, List.countP_singleton,
      List.countP_singleton]
    cases e with
    | acquired k r' =>
      by_cases hr : r' = r
      · subst hr
        have hFree : owner log r' = none := hLast
        simp [Event.acquires, Event.releases, Event.owner, hFree]
      · simp [Event.acquires, Event.releases, Event.owner, hr]
    | handedOver k k' r' =>
      by_cases hr : r' = r
      · subst hr
        have hOwned : owner log r' = some k := hLast
        simp [Event.acquires, Event.releases, Event.owner, hOwned]
      · simp [Event.acquires, Event.releases, Event.owner, hr]
    | released k r' =>
      by_cases hr : r' = r
      · subst hr
        have hOwned : owner log r' = some k := hLast
        simp [Event.acquires, Event.releases, Event.owner, hOwned]
      · simp [Event.acquires, Event.releases, Event.owner, hr]

/-! ### Holders that keep one resource each -/

/-- Each holder has what the history says it owns, and nothing else. -/
def Agrees (holding : κ → Option ρ) (log : List (Event κ ρ)) : Prop :=
  ∀ k r, holding k = some r ↔ owner log r = some k

/-- No two holders have the same resource. -/
theorem Agrees.exclusive {holding : κ → Option ρ} {log : List (Event κ ρ)}
    (h : Agrees holding log) {k k' : κ} {r : ρ} (hk : holding k = some r)
    (hk' : holding k' = some r) : k = k' :=
  Option.some.inj (((h k r).mp hk).symm.trans ((h k' r).mp hk'))

section Agrees

variable [DecidableEq κ] {holding : κ → Option ρ} {log : List (Event κ ρ)}

omit [DecidableEq ρ] in
theorem exists_update_iff {k : κ} (hEmpty : holding k = none) {r r' : ρ} (hr : r' ≠ r) :
    (∃ j, Function.update holding k (some r) j = some r') ↔ ∃ j, holding j = some r' := by
  refine exists_congr fun j => ?_
  by_cases hj : j = k
  · simp [hj, hEmpty, Ne.symm hr]
  · rw [Function.update_of_ne hj]

theorem Agrees.acquired (h : Agrees holding log) {k : κ} {r : ρ} (hEmpty : holding k = none)
    (hFree : owner log r = none) :
    Agrees (Function.update holding k (some r)) (log ++ [.acquired k r]) := by
  intro k' r'
  rw [owner_concat]
  by_cases hk : k' = k
  · subst hk
    have hOther : owner log r' ≠ some k' := fun ho => by simp [(h k' r').mpr ho] at hEmpty
    by_cases hr : r = r' <;> simp [Event.owner, hr, hOther]
  · rw [Function.update_of_ne hk]
    by_cases hr : r = r'
    · subst hr
      have hNot : holding k' ≠ some r := fun hh => by simp [(h k' r).mp hh] at hFree
      simp [Event.owner, hNot, Ne.symm hk]
    · simpa [Event.owner, hr] using h k' r'

theorem Agrees.released (h : Agrees holding log) {k : κ} {r : ρ} (hHas : holding k = some r) :
    Agrees (Function.update holding k none) (log ++ [.released k r]) := by
  intro k' r'
  rw [owner_concat]
  by_cases hk : k' = k
  · subst hk
    have hOther : r ≠ r' → owner log r' ≠ some k' := fun hr ho =>
      hr (Option.some.inj (hHas.symm.trans ((h k' r').mpr ho)))
    by_cases hr : r = r'
    · simp [Event.owner, hr]
    · simp [Event.owner, hr, hOther hr]
  · rw [Function.update_of_ne hk]
    by_cases hr : r = r'
    · subst hr
      have hNot : holding k' ≠ some r := fun hh => hk (h.exclusive hh hHas)
      simp [Event.owner, hNot]
    · simpa [Event.owner, hr] using h k' r'

omit [DecidableEq ρ] in
/-- What passes from a holder to one that has nothing is what they would exchange. -/
theorem update_eq_swap {k k' : κ} (hEmpty : holding k' = none) :
    Function.update (Function.update holding k none) k' (holding k) =
      holding ∘ Equiv.swap k k' := by
  funext j
  rw [Function.comp_apply]
  by_cases hj' : j = k'
  · rw [hj', Function.update_self, Equiv.swap_apply_right]
  · rw [Function.update_of_ne hj']
    by_cases hj : j = k
    · rw [hj, Function.update_self, Equiv.swap_apply_left, hEmpty]
    · rw [Function.update_of_ne hj, Equiv.swap_apply_of_ne_of_ne hj hj']

/-- To hand over is to release for another one to acquire. -/
theorem Agrees.handedOver (h : Agrees holding log) {k k' : κ} {r : ρ} (hNe : k' ≠ k)
    (hHas : holding k = some r) (hEmpty : holding k' = none) :
    Agrees (holding ∘ Equiv.swap k k') (log ++ [.handedOver k k' r]) := by
  have hFree : owner (log ++ [.released k r]) r = none := by simp [Event.owner]
  have hBoth := (h.released hHas).acquired ((Function.update_of_ne hNe _ _).trans hEmpty) hFree
  rw [← hHas, update_eq_swap hEmpty] at hBoth
  intro j r'
  rw [hBoth j r', owner_concat, owner_concat, owner_concat]
  by_cases hr : r = r' <;> simp [Event.owner, hr]

end Agrees

end Ownership
