import VehicleCanDecoder.Converter.Main
import VehicleCanDecoder.Converter.RunLaw

/-! What the calls of the file system and `convert_one` leave, whatever fails on the way.  The
specifications speak of what can be seen of a state: the file system and the installed
transforms. -/

namespace VehicleCanDecoder

namespace Converter

open Hoare FileTree

variable {δ : Type} {M : MainEnv δ}

structure Visible (δ : Type) where
  fs : FileTree ByteString δ
  installed : ByteString → Option (ByteString × ByteString)

def World.visible (s : World δ) : Visible δ := ⟨s.fs, s.transformer.installed⟩

/-! ### Calls of the file system -/

section Calls

variable {v : Visible δ}

theorem call_steps (s₀ : World δ) : Triple (fun s => s = s₀) (call M)
    (fun _ s => M.fault s₀.calls = none ∧ s = { s₀ with calls := s₀.calls + 1 })
    (fun _ s => M.fault s₀.calls ≠ none ∧ s = { s₀ with calls := s₀.calls + 1 }) := by
  refine Triple.get_bind fun s hs => ?_
  subst hs
  refine Triple.bind (Q := fun _ s' => s' = { s with calls := s.calls + 1 })
    (Triple.set fun _ _ => rfl) fun _ => ?_
  cases hFault : M.fault s.calls with
  | none => exact Triple.pure fun _ hs => ⟨rfl, hs⟩
  | some e => exact Triple.throw fun _ hs => ⟨Option.some_ne_none e, hs⟩

theorem call_visible : Triple (fun s => s.visible = v) (call M) (fun _ s => s.visible = v)
    (fun _ s => s.visible = v) := by
  refine Triple.of_eq fun s₀ hs₀ => (call_steps s₀).weaken ?_ ?_
  · rintro _ s ⟨-, rfl⟩
    exact hs₀
  · rintro _ s ⟨-, rfl⟩
    exact hs₀

/-- A call that only looks at the file system. -/
theorem query_visible {β : Type} (f : FileTree ByteString δ → β) :
    Triple (fun s => s.visible = v) (do call M; let s ← get; pure (f s.fs) : Main δ β)
      (fun b s => b = f v.fs ∧ s.visible = v) (fun _ s => s.visible = v) := by
  refine Triple.bind call_visible fun _ => Triple.get_bind fun s₀ hs₀ => Triple.pure ?_
  rintro s rfl
  exact ⟨by rw [← hs₀]; rfl, hs₀⟩

theorem pathExists_visible (p : Path) : Triple (fun s => s.visible = v) (pathExists M p)
    (fun b s => b = (v.fs.lookup p).isSome ∧ s.visible = v) (fun _ s => s.visible = v) :=
  query_visible fun fs => (fs.lookup p).isSome

/-- The data of a file is given just where there is one. -/
theorem fileData_reads (p : Path) (s₀ : World δ) : Triple (fun s => s = s₀) (fileData p)
    (fun d s => s₀.fs.lookup p = some (.file d) ∧ s = s₀)
    (fun _ s => isFile (s₀.fs.lookup p) = false ∧ s = s₀) := by
  refine Triple.get_bind fun s hs => ?_
  subst hs
  cases hLookup : s.fs.lookup p with
  | none => exact Triple.throw fun _ hs => ⟨rfl, hs⟩
  | some e =>
    cases e with
    | dir => exact Triple.throw fun _ hs => ⟨rfl, hs⟩
    | file d => exact Triple.pure fun _ hs => ⟨rfl, hs⟩

/-- Directories may have been added on the way to a path. -/
structure DirsAdded (p : Path) (fs fs' : FileTree ByteString δ) : Prop where
  extends_ : fs.Extends fs'
  same : ∀ q, ¬ q <+: p → fs'.lookup q = fs.lookup q
  files : ∀ q, isFile (fs'.lookup q) = isFile (fs.lookup q)
  wellFormed : fs.WellFormed → fs'.WellFormed

/-- The directory at a path has been made, with those on the way to it. -/
structure DirsMade (p : Path) (fs fs' : FileTree ByteString δ) : Prop extends
    DirsAdded p fs fs' where
  made : fs'.lookup p = some .dir

theorem DirsAdded.refl (p : Path) (fs : FileTree ByteString δ) : DirsAdded p fs fs :=
  ⟨fun _ _ h => h, fun _ _ => rfl, fun _ => rfl, fun h => h⟩

theorem DirsAdded.mono {p p' : Path} {fs fs' : FileTree ByteString δ} (h : DirsAdded p fs fs')
    (hPrefix : p <+: p') : DirsAdded p' fs fs' :=
  ⟨h.extends_, fun q hq => h.same q fun hAbove => hq (hAbove.trans hPrefix), h.files,
    h.wellFormed⟩

/-- Where there is nothing new at the path, there is nothing new below it. -/
theorem DirsAdded.below_eq {p : Path} {fs fs' : FileTree ByteString δ} (h : DirsAdded p fs fs')
    (hSame : fs'.lookup p = fs.lookup p) : fs'.below p = fs.below p := by
  funext q
  by_cases hNil : q = []
  · rw [FileTree.below, FileTree.below, hNil, List.append_nil, hSame]
  · refine h.same _ fun hAbove => hNil ?_
    simpa using hAbove.length_le

theorem createDirectory_visible {p : Path} {fs : FileTree ByteString δ}
    (hAdded : DirsAdded p fs v.fs)
    (hAbove : v.fs.WellFormed → ∀ q, q <+: p → q ≠ p → v.fs.lookup q = some .dir) :
    Triple (fun s => s.visible = v) (createDirectory M p)
      (fun _ s => ∃ fs', DirsMade p fs fs' ∧ s.visible = { v with fs := fs' })
      (fun _ s => s.visible = v) := by
  refine Triple.bind call_visible fun _ => Triple.get_bind fun s₀ hs₀ => ?_
  subst hs₀
  change DirsAdded p fs s₀.fs at hAdded
  cases hLookup : s₀.fs.lookup p with
  | none =>
    refine Triple.set fun s _ => ⟨s₀.fs.insert p .dir,
      ⟨⟨fun q e hq => ?_, fun q hq => ?_, fun q => ?_, fun h => ?_⟩, AList.lookup_insert _⟩, rfl⟩
    · rw [UnorderedMap.lookup_insert_eq, if_neg]
      · exact hAdded.extends_ q e hq
      · rintro rfl
        rw [hAdded.extends_ q e hq] at hLookup
        contradiction
    · rw [UnorderedMap.lookup_insert_eq, if_neg]
      · exact hAdded.same q hq
      · rintro rfl
        exact hq List.prefix_rfl
    · rw [← hAdded.files, UnorderedMap.lookup_insert_eq]
      split
      · rename_i hEq
        rw [hEq, hLookup]
        rfl
      · rfl
    · exact (hAdded.wellFormed h).insert_dir (hAbove (hAdded.wellFormed h))
  | some e =>
    cases e with
    | dir => exact Triple.pure fun s hs => ⟨s₀.fs, ⟨hAdded, hLookup⟩, hs ▸ rfl⟩
    | file d => exact Triple.throw fun s hs => hs ▸ rfl

theorem createDirectories_concat (p : Path) (name : ByteString) :
    createDirectories M (p ++ [name]) = (do
      createDirectories M p
      createDirectory M (p ++ [name])) := by
  simp [createDirectories, List.inits_append]

/-- The directories on the way to a path are made one after the other. -/
theorem createDirectories_along {p : Path} {P : World δ → Prop} {I : Path → World δ → Prop}
    {E : StdException → World δ → Prop}
    (hRoot : Triple P (createDirectory M []) (fun _ => I []) E)
    (hNext : ∀ q name, q ++ [name] <+: p →
      Triple (I q) (createDirectory M (q ++ [name])) (fun _ => I (q ++ [name])) E) :
    Triple P (createDirectories M p) (fun _ => I p) E := by
  induction p using List.reverseRecOn with
  | nil =>
    have hOnly : createDirectories M [] = createDirectory M [] := by simp [createDirectories]
    rwa [hOnly]
  | append_singleton p name ih =>
    rw [createDirectories_concat]
    exact Triple.bind (ih fun q next h => hNext q next (h.trans (List.prefix_append ..)))
      fun _ => hNext p name List.prefix_rfl

/-- A failure has not come to the path itself. -/
theorem createDirectories_visible (p : Path) :
    Triple (fun s => s.visible = v) (createDirectories M p)
      (fun _ s => ∃ fs', DirsMade p v.fs fs' ∧ s.visible = { v with fs := fs' })
      (fun _ s => ∃ fs', (DirsAdded p v.fs fs' ∧ fs'.lookup p = v.fs.lookup p) ∧
        s.visible = { v with fs := fs' }) := by
  refine createDirectories_along
    (I := fun q s => ∃ fs', DirsMade q v.fs fs' ∧ s.visible = { v with fs := fs' })
    ((createDirectory_visible (DirsAdded.refl [] v.fs) fun _ q hq hNe =>
      absurd (List.prefix_nil.mp hq) hNe).exits fun _ s hs => ⟨v.fs, ⟨.refl _ _, rfl⟩, hs⟩)
    fun q name hPrefix => ?_
  refine Triple.exists fun fs' => Triple.assume fun hMade => ?_
  have hAbove : q <+: p := (List.prefix_append q [name]).trans hPrefix
  refine (createDirectory_visible (v := { v with fs := fs' })
    (hMade.toDirsAdded.mono (List.prefix_append q [name])) fun h r hr hNe => ?_).exits
      fun _ s hs => ⟨fs', ⟨hMade.toDirsAdded.mono hAbove, hMade.same p fun hBelow => ?_⟩, hs⟩
  · exact h.above hMade.made ((List.prefix_concat_iff.mp hr).resolve_left hNe)
  · have hLength := (hPrefix.trans hBelow).length_le
    simp at hLength

/-- A call that leaves something behind where it fails. -/
theorem call_leaving {s₀ : World δ} (hs₀ : s₀.visible = v) {f : World δ → World δ}
    {Left : World δ → Prop} (hLeft : ∀ s, s.visible = v → Left (f s)) :
    Triple (fun s => s = s₀) (tryCatch (call M) fun e => do modify f; throw e)
      (fun _ s => s.visible = v) (fun _ s => Left s) := by
  refine Triple.tryCatch (call_visible.pre ?_) fun e => ?_
  · rintro s rfl
    exact hs₀
  · exact Triple.bind (Triple.modify (Q := fun _ s => Left s) hLeft) fun _ =>
      Triple.throw fun _ hs => hs

theorem removeAll_visible (p : Path) :
    Triple (fun s => s.visible = v) (removeAll M p)
      (fun _ s => ∃ fs', SameOff p v.fs fs' ∧ s.visible = { v with fs := fs' })
      (fun _ s => ∃ fs', SameOff p v.fs fs' ∧ s.visible = { v with fs := fs' }) := by
  refine Triple.get_bind fun s₀ hs₀ => Triple.bind (call_leaving hs₀ ?_) fun _ => ?_
  · rintro s rfl
    refine ⟨_, fun q hq => ?_, rfl⟩
    simp [World.visible, hq]
  · apply Triple.modify
    rintro s rfl
    exact ⟨_, sameOff_removeTree s.fs p, rfl⟩

theorem rename_visible (src dst : Path) (s₀ : World δ) :
    Triple (fun s => s = s₀) (rename M src dst)
      (fun _ s => ∃ d, s₀.fs.lookup src = some (.file d) ∧
        s.visible = { s₀.visible with fs := (s₀.fs.removeTree src).graft dst (leaf d) })
      (fun _ s => (isFile (s₀.fs.lookup src) = false ∨
          M.fault s₀.calls ≠ none ∧ s.calls = s₀.calls + 1) ∧ s.visible = s₀.visible) := by
  refine Triple.bind ((fileData_reads src s₀).exits fun _ s hs => ⟨.inl hs.1, by rw [hs.2]⟩)
    fun d => Triple.assume fun hData => ?_
  refine Triple.bind ((call_steps s₀).exits ?_) fun _ => Triple.modify ?_
  · rintro _ s ⟨hFault, rfl⟩
    exact ⟨.inr ⟨hFault, rfl⟩, rfl⟩
  · rintro s ⟨-, rfl⟩
    exact ⟨d, hData, rfl⟩

/-- What a copy that fails leaves. -/
def Visible.copied (v : Visible δ) (dst : Path) (left : Option δ) : Visible δ :=
  { v with fs := v.fs.graft dst ((left.map leaf).getD ∅) }

theorem copyFile_visible (src dst : Path) (s₀ : World δ) :
    Triple (fun s => s = s₀) (copyFile M src dst)
      (fun _ s => ∃ d, s₀.fs.lookup src = some (.file d) ∧
        s.visible = { s₀.visible with fs := s₀.fs.graft dst (leaf d) })
      (fun _ s => s.visible = s₀.visible ∨ isFile (s₀.fs.lookup src) = true ∧
        M.fault s₀.calls ≠ none ∧ s.visible = s₀.visible.copied dst (M.copied s₀.calls)) := by
  refine Triple.bind ((fileData_reads src s₀).exits fun _ s hs => .inl (by rw [hs.2]))
    fun d => Triple.assume fun hData => Triple.get_bind fun s hs => ?_
  subst hs
  refine Triple.bind (Triple.tryCatch (call_steps s) fun e => ?_) fun _ => Triple.modify ?_
  · refine Triple.assume fun hFault => Triple.bind (Triple.modify (Q := fun _ s' =>
      s'.visible = s.visible.copied dst (M.copied s.calls)) ?_) fun _ =>
        Triple.throw fun _ hs => .inr ⟨by rw [hData]; rfl, hFault, hs⟩
    rintro _ rfl
    rfl
  · rintro _ ⟨-, rfl⟩
    exact ⟨d, hData, rfl⟩

/-- A file has been moved: the data is at the new path, and nothing else has changed but the old
path. -/
structure Moved (src dst : Path) (d : δ) (fs fs' : FileTree ByteString δ) : Prop where
  data : fs.lookup src = some (.file d)
  moved : fs'.below dst = fun q => (leaf d).lookup q
  same : ∀ q, ¬ src <+: q → ¬ dst <+: q → fs'.lookup q = fs.lookup q
  wellFormed : fs.WellFormed → (∀ q, q <+: dst → q ≠ dst → fs.lookup q = some .dir) →
    fs'.WellFormed

theorem leaf_wellFormed (d : δ) : (leaf d).WellFormed := by
  intro p q hq hSome
  exact absurd (AList.lookup_eq_none.mpr (by simp [leaf, AList.mem_keys, hq])) hSome

theorem moved_rename {src dst : Path} (hApart : FilePath.Apart src dst) {d : δ}
    {fs : FileTree ByteString δ} (hData : fs.lookup src = some (.file d)) :
    Moved src dst d fs ((fs.removeTree src).graft dst (leaf d)) where
  data := hData
  moved := graft_below _ _ _
  same q hSrc hDst := (sameOff_graft _ _ _ q hDst).trans (sameOff_removeTree fs src q hSrc)
  wellFormed h hAbove := by
    refine (h.removeTree src).graft (leaf_wellFormed d) fun q hq hNe => ?_
    rw [lookup_removeTree, if_neg fun hBelow => hApart.1 (hBelow.trans hq)]
    exact hAbove q hq hNe

theorem moved_copy {src dst : Path} (hApart : FilePath.Apart src dst) {d : δ}
    {fs : FileTree ByteString δ} (hData : fs.lookup src = some (.file d)) :
    Moved src dst d fs ((fs.graft dst (leaf d)).removeTree src) where
  data := hData
  moved := ((sameOff_removeTree _ src).below hApart).trans (graft_below _ _ _)
  same q hSrc hDst := (sameOff_removeTree _ src q hSrc).trans (sameOff_graft fs dst _ q hDst)
  wellFormed h hAbove := (h.graft (leaf_wellFormed d) hAbove).removeTree src

theorem moved_copied {src dst : Path} {d : δ} {fs : FileTree ByteString δ}
    (hData : fs.lookup src = some (.file d)) : Moved src dst d fs (fs.graft dst (leaf d)) where
  data := hData
  moved := graft_below _ _ _
  same q _ hDst := sameOff_graft fs dst _ q hDst
  wellFormed h hAbove := h.graft (leaf_wellFormed d) hAbove

/-- A rename fails and then the copy in its place, which leaves a part or nothing. -/
def MainEnv.FailedCopy (M : MainEnv δ) (left : Option δ) : Prop :=
  ∃ k, M.fault k ≠ none ∧ M.fault (k + 1) ≠ none ∧ M.copied (k + 1) = left

/-- A move that fails has changed nothing, or copied a part, or all. -/
theorem moveFile_visible {src dst : Path} (hApart : FilePath.Apart src dst) :
    Triple (fun s => s.visible = v) (moveFile M src dst)
      (fun _ s => ∃ d fs', Moved src dst d v.fs fs' ∧ s.visible = { v with fs := fs' })
      (fun _ s => s.visible = v ∨
        (∃ left, M.FailedCopy left ∧ s.visible = v.copied dst left) ∨
        ∃ d fs', Moved src dst d v.fs fs' ∧ s.visible = { v with fs := fs' }) := by
  refine Triple.of_eq fun s₀ hs₀ => ?_
  subst hs₀
  refine Triple.tryCatch ((rename_visible src dst s₀).post fun _ s hs => ?_) fun _ => ?_
  · obtain ⟨d, hData, hView⟩ := hs
    exact ⟨d, _, moved_rename hApart hData, hView⟩
  refine Triple.of_eq fun s₁ hs₁ => ?_
  obtain ⟨hRename, hView⟩ := hs₁
  have hFs : s₁.fs = s₀.fs := congrArg Visible.fs hView
  refine Triple.bind ((copyFile_visible src dst s₁).exits fun _ s hs => ?_) fun _ => ?_
  · rw [hFs, hView] at hs
    rcases hs with hs | ⟨hThere, hCopy, hs⟩
    · exact .inl hs
    · -- There is something to copy, so the rename has failed in its call.
      obtain ⟨hFault, hCalls⟩ := hRename.resolve_left (by simp [hThere])
      rw [hCalls] at hCopy hs
      exact .inr (.inl ⟨_, ⟨s₀.calls, hFault, hCopy, rfl⟩, hs⟩)
  · rw [hFs, hView]
    refine Triple.exists fun d => Triple.assume fun hData => ?_
    refine Triple.bind (call_visible.exits
      fun _ s hs => .inr (.inr ⟨d, _, moved_copied hData, hs⟩)) fun _ => Triple.modify ?_
    intro s hs
    refine ⟨d, _, moved_copy hApart hData, ?_⟩
    show { s.visible with fs := s.visible.fs.removeTree src } = _
    rw [hs]
    rfl

end Calls

/-! ### One bag -/

/-- The files of a bag that a conversion of some data has come to the end with. -/
def Conversion (M : MainEnv δ) (r : Ready) (input : Path) (data : δ) (bagDir : Path)
    (files : UnorderedMap ByteString δ) : Prop :=
  ∃ bag k t c, M.openBag data = .ok bag ∧ t.installed = r.transformer.installed ∧
    convertBag (M.convertEnv k) r.cfg r.decoder r.router bag (State.opened 0 t) = .ok ⟨⟩ c ∧
    files = M.bagFiles bagDir (inferStorage input.string bag.storageIdentifier) c.writer

/-- What a conversion that fails leaves once the directory of its bag has been made. -/
def Visible.wrote (v : Visible δ) (output : Path) (left : UnorderedMap ByteString δ) : Visible δ :=
  { v with fs := v.fs.graft output (bagTree left) }

/-- How `convert_one` ends: with the whole bag, or without having come to its output, or with a part
of the bag.  Directories may have been made on the way. -/
inductive OneEnds (M : MainEnv δ) (r : Ready) (input output : Path) (v : Visible δ) :
    Option Nat → Visible δ → Prop
  | complete {data files fs'} (hNew : v.fs.lookup output = none)
      (hData : v.fs.lookup input = some (.file data))
      (hConversion : Conversion M r input data output files) (hDirs : DirsMade output v.fs fs') :
    OneEnds M r input output v (some 0) { v with fs := fs'.graft output (bagTree files) }
  | untouched {ret fs'} (hRet : ret ≠ some 0) (hDirs : DirsAdded output v.fs fs')
      (hSame : fs'.lookup output = v.fs.lookup output) :
    OneEnds M r input output v ret { v with fs := fs' }
  | partly {ret fs'} (hRet : ret ≠ some 0) (hNew : v.fs.lookup output = none)
      (hDirs : DirsMade output v.fs fs') (left : UnorderedMap ByteString δ) :
    OneEnds M r input output v ret (Visible.wrote { v with fs := fs' } output left)

section One

variable {v : Visible δ} {r : Ready} {input output : Path}

theorem OneEnds.unchanged {ret : Option Nat} (hRet : ret ≠ some 0) :
    OneEnds M r input output v ret v :=
  .untouched hRet (DirsAdded.refl output v.fs) rfl

theorem openInput_visible (input : Path) :
    Triple (fun s => s.visible = v) (openInput M input)
      (fun opened s => (∀ bag, opened = some bag → ∃ data,
        v.fs.lookup input = some (.file data) ∧ M.openBag data = .ok bag) ∧ s.visible = v)
      (fun _ _ => False) := by
  refine Triple.tryCatch (C := fun _ s => s.visible = v) ?_ fun _ =>
    Triple.pure fun s hs => ⟨by simp, hs⟩
  refine Triple.bind call_visible fun _ => Triple.of_eq fun s₀ hs₀ => ?_
  subst hs₀
  refine Triple.bind ((fileData_reads input s₀).exits fun _ _ hs => by rw [hs.2]) fun d =>
    Triple.assume fun hData => ?_
  cases hOpen : M.openBag d with
  | error e => exact Triple.throw fun _ hs => by rw [hs]
  | ok bag =>
    refine Triple.pure fun s hs => ⟨?_, by rw [hs]⟩
    rintro _ ⟨⟩
    exact ⟨d, hData, hOpen⟩

theorem leavePart_visible (output : Path) :
    Triple (fun s => s.visible = v) (leavePart M output)
      (fun _ s => ∃ left, s.visible = v.wrote output left) (fun _ _ => False) := by
  apply Triple.modify
  rintro s rfl
  exact ⟨_, rfl⟩

theorem callWriting_visible (output : Path) :
    Triple (fun s => s.visible = v) (callWriting M output) (fun _ s => s.visible = v)
      (fun _ s => ∃ left, s.visible = v.wrote output left) :=
  Triple.tryCatch call_visible fun _ => Triple.bind (leavePart_visible output).nothrow fun _ =>
    Triple.throw fun _ hs => hs

/-- Once the directory has been made, whatever fails leaves a part of the bag. -/
theorem openWriter_visible (hNew : v.fs.lookup output = none) :
    Triple (fun s => s.visible = v) (openWriter M output)
      (fun _ s => ∃ fs', DirsMade output v.fs fs' ∧ s.visible = { v with fs := fs' })
      (fun _ s => ∀ ret, ret ≠ some 0 → OneEnds M r input output v ret s.visible) := by
  refine Triple.bind ((createDirectories_visible output).exits ?_) fun _ =>
    Triple.exists fun fs' => Triple.assume fun hDirs => (callWriting_visible output).weaken ?_ ?_
  · rintro _ s ⟨fs', ⟨hDirs, hSame⟩, hs⟩ ret hRet
    exact hs ▸ .untouched hRet hDirs hSame
  · exact fun _ s hs => ⟨fs', hDirs, hs⟩
  · rintro _ s ⟨left, hs⟩ ret hRet
    exact hs ▸ .partly hRet hNew hDirs left

theorem giveUp_keeps {I : Visible δ → Prop} :
    Triple (fun s => I s.visible) (giveUp M) (fun ret s => ret = 1 ∧ I s.visible)
      (fun _ s => I s.visible) :=
  Triple.at fun _ hv => Triple.bind (call_visible.exits fun _ _ hs => hs ▸ hv) fun _ =>
    Triple.pure fun _ hs => ⟨rfl, hs ▸ hv⟩

section Opened

variable {fs' : FileTree ByteString δ} (hNew : v.fs.lookup output = none)
  (hDirs : DirsMade output v.fs fs')

include hNew hDirs

/-- An exception leaves what a return of 1 leaves. -/
theorem leavePart_throw_visible {α : Type} (e : StdException) {Q : α → World δ → Prop} :
    Triple (fun s => s.visible = { v with fs := fs' }) (do leavePart M output; throw e) Q
      (fun _ s => OneEnds M r input output v none s.visible) := by
  refine Triple.bind (leavePart_visible output).nothrow fun _ => Triple.throw ?_
  rintro s ⟨left, hs⟩
  exact hs ▸ .partly (by simp) hNew hDirs left

theorem leavePart_giveUp_visible :
    Triple (fun s => s.visible = { v with fs := fs' }) (do leavePart M output; giveUp M)
      (fun ret s => OneEnds M r input output v (some ret) s.visible)
      (fun _ s => OneEnds M r input output v none s.visible) := by
  refine Triple.bind (leavePart_visible output).nothrow fun _ => Triple.exists fun left => ?_
  refine (giveUp_keeps (I := fun w => w = Visible.wrote { v with fs := fs' } output left)).weaken
    ?_ ?_
  · rintro _ s ⟨rfl, hs⟩
    exact hs ▸ .partly (by simp) hNew hDirs left
  · exact fun _ s hs => hs ▸ .partly (by simp) hNew hDirs left

end Opened

theorem convertBag_ok {C : ConvertEnv} {cfg : Config} {decoder : DbcDecoder} {router : SignalRouter}
    {bag : InputBag} {s c c' : State}
    (hTopics : registerTopics C cfg bag.topics (domainToTopic C.schemaOrder cfg) s = .ok ⟨⟩ c)
    (hLoop : convertMessages C cfg decoder router (domainToTopic C.schemaOrder cfg) bag.messages c =
      .ok ⟨⟩ c') : convertBag C cfg decoder router bag s = .ok ⟨⟩ c' := by
  show EStateM.bind _ _ s = _
  unfold EStateM.bind
  rw [hTopics]
  exact hLoop

/-- The installed transforms are those from before, however the loop ends. -/
theorem convertMessages_installed {C : ConvertEnv} {cfg : Config} (decoder : DbcDecoder)
    (router : SignalRouter) {bag : InputBag} {t : SignalTransformer} {c : State}
    (hTopics : registerTopics C cfg bag.topics (domainToTopic C.schemaOrder cfg)
      (State.opened 0 t) = .ok ⟨⟩ c) :
    (final (convertMessages C cfg decoder router (domainToTopic C.schemaOrder cfg)
      bag.messages c)).transformer.installed = t.installed := by
  have hReady : c.view = View.ready C cfg t bag.topics :=
    (registerTopics_opened bag.topics 0).ok rfl hTopics
  have hLoop : Triple (fun s => s.view = View.ready C cfg t bag.topics)
      (convertMessages C cfg decoder router (domainToTopic C.schemaOrder cfg) bag.messages)
      (fun _ s => s.view.installed = t.installed) (fun _ s => s.view.installed = t.installed) := by
    refine (convertMessages_view (View.ready_installed bag.topics)
      (View.ready_registered bag)).weaken ?_ ?_
    · intro _ s hs
      rcases hs with ⟨segments, -, hs⟩
      rw [hs, (View.afterAll_keeps _ segments).2.2, View.ready_installed]
    · exact fun _ s hs => hs.keeps.installed.trans (View.ready_installed bag.topics)
  exact hLoop.final hReady

theorem writeBag_visible (hNew : v.fs.lookup output = none)
    (hInstalled : v.installed = r.transformer.installed) {data : δ}
    (hData : v.fs.lookup input = some (.file data)) {bag : InputBag}
    (hOpen : M.openBag data = .ok bag) :
    Triple (fun s => s.visible = v)
      (writeBag M r output (inferStorage input.string bag.storageIdentifier) bag)
      (fun ret s => OneEnds M r input output v (some ret) s.visible)
      (fun _ s => OneEnds M r input output v none s.visible) := by
  refine Triple.bind (Q := fun opened s => if opened = true then
      ∃ fs', DirsMade output v.fs fs' ∧ s.visible = { v with fs := fs' }
    else ∀ ret, ret ≠ some 0 → OneEnds M r input output v ret s.visible) ?_ fun opened => ?_
  · refine Triple.tryCatch (Triple.bind (openWriter_visible hNew) fun _ => Triple.pure ?_)
      fun _ => Triple.pure fun _ hs => by simpa using hs
    exact fun _ hs => by simpa using hs
  cases opened with
  | false =>
    refine (giveUp_keeps (I := fun w => ∀ ret, ret ≠ some 0 →
      OneEnds M r input output v ret w)).conseq (fun _ hs => by simpa using hs) ?_ ?_
    · rintro _ s ⟨rfl, hs⟩
      exact hs (some 1) (by simp)
    · exact fun _ s hs => hs none (by simp)
  | true =>
    simp only [if_true]
    refine Triple.exists fun fs' => Triple.assume fun hDirs => ?_
    refine Triple.get_bind fun s₀ hs₀ => ?_
    refine Triple.bind (Q := fun _ s => s.visible = { v with fs := fs' })
      (Triple.set fun _ _ => hs₀) fun _ => ?_
    have hVariables : s₀.transformer.installed = v.installed := congrArg Visible.installed hs₀
    cases hTopics : registerTopics (M.convertEnv s₀.conversions) r.cfg bag.topics
        (domainToTopic (M.convertEnv s₀.conversions).schemaOrder r.cfg)
        (State.opened 0 s₀.transformer) with
    | error stop c =>
      cases stop with
      | thrown e => exact leavePart_throw_visible hNew hDirs e
      | outOfMemory => exact leavePart_giveUp_visible hNew hDirs
    | ok u c =>
      simp only
      have hKept := convertMessages_installed r.decoder r.router hTopics
      cases hLoop : convertMessages (M.convertEnv s₀.conversions) r.cfg r.decoder r.router
          (domainToTopic (M.convertEnv s₀.conversions).schemaOrder r.cfg) bag.messages c with
      | error stop c' =>
        simp only
        rw [hLoop] at hKept
        refine Triple.bind (Triple.modify (Q := fun _ s => s.visible = { v with fs := fs' }) ?_)
          fun _ => leavePart_giveUp_visible hNew hDirs
        intro s hs
        show { s.visible with installed := c'.transformer.installed } = _
        rw [hs, show c'.transformer.installed = v.installed from hKept.trans hVariables]
      | ok u c' =>
        simp only
        rw [hLoop] at hKept
        refine Triple.bind ((callWriting_visible output).exits ?_) fun _ => ?_
        · rintro _ s ⟨left, hs⟩
          exact hs ▸ .partly (by simp) hNew hDirs left
        · refine Triple.bind (Triple.modify (Q := fun _ s =>
            OneEnds M r input output v (some 0) s.visible) ?_) fun _ => Triple.pure fun _ hs => hs
          intro s hs
          let files := M.bagFiles output (inferStorage input.string bag.storageIdentifier) c'.writer
          show OneEnds M r input output v (some 0)
            ⟨s.visible.fs.graft output (bagTree files), c'.transformer.installed⟩
          rw [hs, show c'.transformer.installed = v.installed from hKept.trans hVariables]
          exact .complete hNew hData ⟨bag, s₀.conversions, s₀.transformer, c', hOpen,
            hVariables.trans hInstalled, convertBag_ok hTopics hLoop, rfl⟩ hDirs

theorem convertOne_visible (hInstalled : v.installed = r.transformer.installed)
    (input output : Path) :
    Triple (fun s => s.visible = v) (convertOne M r input output)
      (fun ret s => OneEnds M r input output v (some ret) s.visible)
      (fun _ s => OneEnds M r input output v none s.visible) := by
  have hUnchanged : ∀ (ret : Option Nat) (s : World δ), ret ≠ some 0 → s.visible = v →
      OneEnds M r input output v ret s.visible := fun _ s hRet hs => hs ▸ .unchanged hRet
  refine Triple.bind ((pathExists_visible output).exits
    fun _ s hs => hUnchanged none s (by simp) hs) fun there => Triple.assume fun hThere => ?_
  cases there with
  | true => exact Triple.pure fun s hs => hUnchanged (some 1) s (by simp) hs
  | false =>
    have hNew : v.fs.lookup output = none := by simpa using hThere.symm
    refine Triple.bind ((openInput_visible input).exits
      fun _ _ hs => hs.elim) fun opened => Triple.assume fun hOpened => ?_
    cases opened with
    | none => exact Triple.pure fun s hs => hUnchanged (some 1) s (by simp) hs
    | some bag =>
      obtain ⟨data, hData, hOpen⟩ := hOpened bag rfl
      refine Triple.bind (call_visible.exits fun _ s hs => hUnchanged none s (by simp) hs)
        fun _ => ?_
      exact writeBag_visible hNew hInstalled hData hOpen

end One

end Converter

end VehicleCanDecoder
