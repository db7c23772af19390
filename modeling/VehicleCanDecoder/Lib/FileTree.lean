import VehicleCanDecoder.Lib.UnorderedMap
import Mathlib.Data.List.Infix

/-! File systems without links: what stands at each path, which is the list of the names on the way
to it.  A step that works on one path changes what stands at that path and below it; so paths of
which neither is above the other do not meet. -/

/-- What stands at a path. -/
inductive Entry (δ : Type)
  | dir
  | file (data : δ)
  deriving DecidableEq

/-- A path, from the root: the names of the directories on the way, and its own. -/
abbrev FilePath (κ : Type) := List κ

abbrev FileTree (κ : Type) (δ : Type) := UnorderedMap (FilePath κ) (Entry δ)

/-- Neither path is at or above the other. -/
def FilePath.Apart {κ : Type} (p q : FilePath κ) : Prop := ¬ p <+: q ∧ ¬ q <+: p

theorem FilePath.Apart.symm {κ : Type} {p q : FilePath κ} (h : FilePath.Apart p q) :
    FilePath.Apart q p := And.symm h

/-- A path below one of two paths that do not meet. -/
theorem FilePath.Apart.append_left {κ : Type} {p q : FilePath κ} (h : FilePath.Apart p q)
    (r : FilePath κ) : FilePath.Apart (p ++ r) q := by
  refine ⟨fun hBelow => h.1 ((List.prefix_append p r).trans hBelow), fun hAbove => ?_⟩
  rcases List.prefix_or_prefix_of_prefix (List.prefix_append p r) hAbove with hp | hq
  · exact h.1 hp
  · exact h.2 hq

namespace FileTree

variable {κ : Type} {δ : Type} [DecidableEq κ]

/-- What stands at a path and below it. -/
def below (fs : FileTree κ δ) (p : FilePath κ) : FilePath κ → Option (Entry δ) :=
  fun q => fs.lookup (p ++ q)

/-- Whatever is at a path and above every other entry is a directory. -/
def WellFormed (fs : FileTree κ δ) : Prop :=
  ∀ p q, q ≠ [] → fs.lookup (p ++ q) ≠ none → fs.lookup p = some .dir

theorem WellFormed.below_eq_none {fs : FileTree κ δ} (h : fs.WellFormed) {p : FilePath κ}
    (hp : fs.lookup p = none) (q : FilePath κ) : fs.below p q = none := by
  cases q with
  | nil => rwa [below, List.append_nil]
  | cons name rest =>
    by_contra hSome
    have hDir := h p (name :: rest) (by simp) hSome
    rw [hp] at hDir
    contradiction

/-- Nothing stands below a file. -/
theorem WellFormed.eq_of_above {fs : FileTree κ δ} (h : fs.WellFormed) {p q : FilePath κ} {d : δ}
    (hFile : fs.lookup p = some (.file d)) (hPrefix : p <+: q) (hq : fs.lookup q ≠ none) : p = q := by
  obtain ⟨rest, rfl⟩ := hPrefix
  by_contra hNe
  have hDir := h p rest (fun hNil => hNe (by simp [hNil])) hq
  simp [hFile] at hDir

/-- It is enough to look at the paths above each entry. -/
theorem wellFormed_of_keys {fs : FileTree κ δ}
    (h : ∀ k ∈ fs.keys, ∀ p ∈ k.inits, p = k ∨ fs.lookup p = some .dir) : fs.WellFormed := by
  intro p q hq hSome
  have hAbove : p ∈ (p ++ q).inits := (List.mem_inits p _).mpr (List.prefix_append p q)
  rcases h _ (UnorderedMap.mem_keys_iff.mpr hSome) p hAbove with hEq | hDir
  · exact absurd (List.self_eq_append_right.mp hEq) hq
  · exact hDir

/-! ### Steps -/

/-- Everything at a path and below it removed. -/
def removeTree (fs : FileTree κ δ) (p : FilePath κ) : FileTree κ δ :=
  fs.filterKeys fun q => !decide (p <+: q)

/-- A tree at a path, in place of what is there. -/
def graft (fs : FileTree κ δ) (p : FilePath κ) (t : FileTree κ δ) : FileTree κ δ :=
  (t.items .listed).foldl (fun fs e => fs.insert (p ++ e.1) e.2) (fs.removeTree p)

theorem lookup_removeTree (fs : FileTree κ δ) (p q : FilePath κ) :
    (fs.removeTree p).lookup q = if p <+: q then none else fs.lookup q := by
  by_cases h : p <+: q <;> simp [removeTree, h]

theorem graft_below (fs : FileTree κ δ) (p : FilePath κ) (t : FileTree κ δ) :
    (fs.graft p t).below p = fun q => t.lookup q := by
  funext q
  have hEntry : (t.items .listed).filter (fun e => decide (p ++ e.1 = p ++ q)) =
      (t.lookup q).toList.map (q, ·) := by
    rw [← t.items_filter_key .listed q]
    simp
  unfold below graft
  rw [UnorderedMap.lookup_foldl_insert, hEntry, lookup_removeTree, if_pos (List.prefix_append p q)]
  cases t.lookup q <;> rfl

theorem graft_lookup (fs : FileTree κ δ) {p q : FilePath κ} (t : FileTree κ δ) (h : ¬ p <+: q) :
    (fs.graft p t).lookup q = fs.lookup q := by
  have hNone : (t.items .listed).filter (fun e => decide (p ++ e.1 = q)) = [] := by
    rw [List.filter_eq_nil_iff]
    rintro e - he
    exact h ⟨e.1, of_decide_eq_true he⟩
  unfold graft
  rw [UnorderedMap.lookup_foldl_insert, hNone, lookup_removeTree, if_neg h]
  rfl

/-! ### What a step leaves alone -/

/-- Nothing has changed except at a path and below it. -/
def SameOff (p : FilePath κ) (fs fs' : FileTree κ δ) : Prop :=
  ∀ q, ¬ p <+: q → fs'.lookup q = fs.lookup q

/-- Whatever was there is still there. -/
def Extends (fs fs' : FileTree κ δ) : Prop := ∀ q e, fs.lookup q = some e → fs'.lookup q = some e

theorem sameOff_graft (fs : FileTree κ δ) (p : FilePath κ) (t : FileTree κ δ) :
    SameOff p fs (fs.graft p t) := fun _ h => fs.graft_lookup t h

theorem sameOff_removeTree (fs : FileTree κ δ) (p : FilePath κ) : SameOff p fs (fs.removeTree p) := by
  intro q h
  rw [lookup_removeTree, if_neg h]

/-- A path that is apart from where the change was. -/
theorem SameOff.below {p q : FilePath κ} {fs fs' : FileTree κ δ} (h : SameOff p fs fs')
    (hApart : FilePath.Apart p q) : fs'.below q = fs.below q := by
  funext r
  exact h (q ++ r) (hApart.symm.append_left r).2

theorem Extends.none {fs fs' : FileTree κ δ} (h : fs.Extends fs') {p : FilePath κ}
    (hNone : fs'.lookup p = none) : fs.lookup p = none := by
  by_contra hSome
  obtain ⟨e, he⟩ := Option.ne_none_iff_exists'.mp hSome
  rw [h p e he] at hNone
  contradiction

/-- A change at and below a path where nothing was to begin with. -/
theorem SameOff.extends {p : FilePath κ} {base fs fs' : FileTree κ δ} (h : SameOff p fs fs')
    (hBase : base.WellFormed) (hExtends : base.Extends fs) (hNone : base.lookup p = none) :
    base.Extends fs' := by
  intro q e hq
  rw [h q, hExtends q e hq]
  rintro ⟨r, rfl⟩
  have hBelow := hBase.below_eq_none hNone r
  rw [FileTree.below, hq] at hBelow
  contradiction

/-! ### Steps that leave a tree well-formed -/

/-- Every path above a directory is one. -/
theorem WellFormed.above {fs : FileTree κ δ} (h : fs.WellFormed) {p q : FilePath κ}
    (hDir : fs.lookup p = some .dir) (hPrefix : q <+: p) : fs.lookup q = some .dir := by
  obtain ⟨rest, rfl⟩ := hPrefix
  cases rest with
  | nil => rwa [List.append_nil] at hDir
  | cons name rest => exact h q (name :: rest) (by simp) (by simp [hDir])

/-- A part of a tree that has, with an entry, everything above it. -/
theorem WellFormed.filterKeys {fs : FileTree κ δ} (h : fs.WellFormed) {keep : FilePath κ → Bool}
    (hAbove : ∀ p q, fs.lookup (p ++ q) ≠ none → keep (p ++ q) = true → keep p = true) :
    WellFormed (fs.filterKeys keep) := by
  intro p q hq hSome
  rw [UnorderedMap.lookup_filterKeys] at hSome ⊢
  cases hKeep : keep (p ++ q) with
  | false => simp [hKeep] at hSome
  | true =>
    rw [hKeep, if_pos rfl] at hSome
    rw [if_pos (hAbove p q hSome hKeep)]
    exact h p q hq hSome

theorem WellFormed.removeTree {fs : FileTree κ δ} (h : fs.WellFormed) (p : FilePath κ) :
    (fs.removeTree p).WellFormed := by
  refine h.filterKeys fun q rest _ hKeep => ?_
  simp only [Bool.not_eq_true', decide_eq_false_iff_not] at hKeep ⊢
  exact fun hAbove => hKeep (hAbove.trans (List.prefix_append q rest))

/-- A directory made in another one. -/
theorem WellFormed.insert_dir {fs : FileTree κ δ} (h : fs.WellFormed) {p : FilePath κ}
    (hAbove : ∀ q, q <+: p → q ≠ p → fs.lookup q = some .dir) :
    WellFormed (fs.insert p .dir) := by
  intro q rest hRest hSome
  rw [UnorderedMap.lookup_insert_eq] at hSome ⊢
  split
  · rfl
  · rename_i hNe
    by_cases hHere : q ++ rest = p
    · exact hAbove q ⟨rest, hHere⟩ hNe
    · rw [if_neg hHere] at hSome
      exact h q rest hRest hSome

/-- A tree put into a directory. -/
theorem WellFormed.graft {fs t : FileTree κ δ} (h : fs.WellFormed) (ht : t.WellFormed)
    {p : FilePath κ} (hAbove : ∀ q, q <+: p → q ≠ p → fs.lookup q = some .dir) :
    (fs.graft p t).WellFormed := by
  intro q rest hRest hSome
  by_cases hBelow : p <+: q
  · obtain ⟨inner, rfl⟩ := hBelow
    have hInner : ∀ r, (fs.graft p t).lookup (p ++ r) = t.lookup r :=
      congrFun (graft_below fs p t)
    rw [List.append_assoc, hInner] at hSome
    rw [hInner]
    exact ht inner rest hRest hSome
  · rw [graft_lookup fs t hBelow]
    by_cases hOver : p <+: q ++ rest
    · have hWay := (List.prefix_or_prefix_of_prefix hOver (List.prefix_append q rest)).resolve_left
        hBelow
      exact hAbove q hWay fun hEq => hBelow (hEq ▸ List.prefix_rfl)
    · rw [graft_lookup fs t hOver] at hSome
      exact h q rest hRest hSome

end FileTree

/-- A file tree as a file system holds it. -/
structure FileSystem (κ : Type) [DecidableEq κ] (δ : Type) where
  tree : FileTree κ δ
  wellFormed : tree.WellFormed
