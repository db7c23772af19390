import VehicleCanDecoder.Converter.Single

/-! The output paths of a run.  A batch writes each bag next to its output path, under a name that
no output path has, so a run can only spoil an output path where a copy fails; a single bag is
written to its output path at once, so a run spoils it where anything fails once its directory has
been made. -/

namespace VehicleCanDecoder

namespace Converter

open Hoare FileTree

variable {δ : Type} {M : MainEnv δ}

/-! ### The paths of a batch -/

theorem parentPath_filename {p : Path} (h : p ≠ []) : p.parentPath ++ [p.filename] = p := by
  rw [Path.parentPath, Path.filename, List.getLastD_eq_getLast?, List.getLast?_eq_getLast_of_ne_nil h]
  exact List.dropLast_append_getLast h

theorem bagSuffix_in_string {p : Path} {name : ByteString} (h : name ++ bagSuffix ∈ p) :
    bagSuffix <:+: p.string := by
  obtain ⟨before, after, rfl⟩ := List.append_of_mem h
  refine ⟨Path.string before ++ str "/" ++ name, Path.string after, ?_⟩
  simp [Path.string]

/-- A bag of a batch: a file strictly below the directory. -/
structure Listed (fs : FileTree ByteString δ) (dir file : Path) : Prop where
  under : ∃ rel, rel ≠ [] ∧ file = dir ++ rel
  data : ∃ d, fs.lookup file = some (.file d)
  name : ¬ bagSuffix <:+: file.string

theorem isFile_iff {e : Option (Entry δ)} : isFile e = true ↔ ∃ d, e = some (.file d) := by
  cases e with
  | none => simp [isFile]
  | some e => cases e <;> simp [isFile]

/-- A file is not the directory itself. -/
theorem strictly_below {fs : FileTree ByteString δ} {dir file : Path}
    (hDir : isDir (fs.lookup dir) = true) (hUnder : dir <+: file)
    (hFile : isFile (fs.lookup file) = true) : ∃ rel, rel ≠ [] ∧ file = dir ++ rel := by
  obtain ⟨rel, rfl⟩ := hUnder
  refine ⟨rel, fun hNil => ?_, rfl⟩
  obtain ⟨d, hData⟩ := isFile_iff.mp hFile
  rw [hNil, List.append_nil] at hData
  simp [hData, isDir] at hDir

theorem listed_of_mem {fs : FileTree ByteString δ} {dir file : Path}
    (hDir : isDir (fs.lookup dir) = true) (h : file ∈ findBagFiles fs dir) :
    Listed fs dir file := by
  unfold findBagFiles at h
  rw [List.mem_insertionSort, List.mem_filter, isBagFile] at h
  simp only [Bool.and_eq_true, decide_eq_true_eq, Bool.not_eq_true', decide_eq_false_iff_not] at h
  obtain ⟨-, ⟨⟨⟨hUnder, hFile⟩, -⟩, hName⟩, -⟩ := h
  exact ⟨strictly_below hDir hUnder hFile, isFile_iff.mp hFile, hName⟩

/-- A file strictly below the directory, with no name on its path that a temporary directory has. -/
structure Source (fs : FileTree ByteString δ) (dir file : Path) : Prop where
  under : ∃ rel, rel ≠ [] ∧ file = dir ++ rel
  data : ∃ d, fs.lookup file = some (.file d)
  clear : ∀ name ∈ file, ¬ bagSuffix <:+ name

theorem Listed.source {fs : FileTree ByteString δ} {dir file : Path} (h : Listed fs dir file) :
    Source fs dir file where
  under := h.under
  data := h.data
  clear := by
    rintro name hName ⟨stem, rfl⟩
    exact h.name (bagSuffix_in_string hName)

theorem source_of_mem {fs : FileTree ByteString δ} {dir file : Path}
    (hDir : isDir (fs.lookup dir) = true) (h : file ∈ findBagFiles fs dir) : Source fs dir file :=
  (listed_of_mem hDir h).source

section Paths

variable {disk : FileSystem ByteString δ} {args : Args} {file other : Path}

theorem outputPath_append (rel : Path) : outputPath args (args.input ++ rel) = args.output ++ rel := by
  simp [outputPath]

theorem outputPath_ne_nil (hFile : Source disk.tree args.input file) :
    outputPath args file ≠ [] := by
  obtain ⟨rel, hRel, rfl⟩ := hFile.under
  rw [outputPath_append]
  exact List.append_ne_nil_of_right_ne_nil _ hRel

theorem eq_of_outputPath_above (hFile : Source disk.tree args.input file)
    (hOther : Source disk.tree args.input other)
    (h : outputPath args file <+: outputPath args other) : file = other := by
  obtain ⟨d, hData⟩ := hFile.data
  obtain ⟨d', hData'⟩ := hOther.data
  refine disk.wellFormed.eq_of_above hData ?_ (by simp [hData'])
  obtain ⟨⟨rel, -, rfl⟩, ⟨rel', -, rfl⟩⟩ := And.intro hFile.under hOther.under
  rw [outputPath_append, outputPath_append, List.prefix_append_right_inj] at h
  rwa [List.prefix_append_right_inj]

theorem outputPath_apart (hFile : Source disk.tree args.input file)
    (hOther : Source disk.tree args.input other) (hNe : file ≠ other) :
    FilePath.Apart (outputPath args file) (outputPath args other) :=
  ⟨fun h => hNe (eq_of_outputPath_above hFile hOther h),
    fun h => hNe (eq_of_outputPath_above hOther hFile h).symm⟩

/-- No output path is on the way to another. -/
theorem outputPath_not_above (hFile : Source disk.tree args.input file)
    (hOther : Source disk.tree args.input other) :
    ¬ outputPath args other <+: (outputPath args file).parentPath := by
  intro h
  obtain rfl := eq_of_outputPath_above hOther hFile (h.trans (List.dropLast_prefix _))
  obtain ⟨rel, hRel, rfl⟩ := hFile.under
  have hLength := h.length_le
  have hPos := List.length_pos_iff.mpr hRel
  rw [Path.parentPath, outputPath_append, List.length_dropLast, List.length_append] at hLength
  omega

/-- The temporary directory is not on the way to its output path. -/
theorem bagTmp_not_on_way {out : Path} : ¬ bagTmp out <+: out.parentPath := by
  intro h
  have hLength := h.length_le
  simp [bagTmp] at hLength

theorem bagTmp_not_above (hFile : Source disk.tree args.input file)
    (hOther : Source disk.tree args.input other) :
    ¬ bagTmp (outputPath args file) <+: outputPath args other := by
  obtain ⟨⟨rel, hRel, rfl⟩, ⟨rel', -, rfl⟩⟩ := And.intro hFile.under hOther.under
  rw [bagTmp, outputPath_append, outputPath_append, Path.parentPath,
    List.dropLast_append_of_ne_nil hRel, List.append_assoc, List.prefix_append_right_inj]
  intro h
  have hTmp : (Path.filename (args.output ++ rel)) ++ bagSuffix ∈ rel' :=
    h.subset (List.mem_append_right _ List.mem_cons_self)
  exact hOther.clear _ (List.mem_append_right _ hTmp) (List.suffix_append _ _)

theorem bagTmp_apart (hFile : Source disk.tree args.input file)
    (hOther : Source disk.tree args.input other) :
    FilePath.Apart (bagTmp (outputPath args file)) (outputPath args other) := by
  refine ⟨bagTmp_not_above hFile hOther, fun h => ?_⟩
  rcases List.prefix_concat_iff.mp h with hEq | hAbove
  · exact bagTmp_not_above hFile hOther (hEq ▸ List.prefix_rfl)
  · exact outputPath_not_above hFile hOther hAbove

end Paths

/-! ### What is at an output path -/

/-- The one data file among the files of a bag. -/
def OnlyDataFile (files : UnorderedMap ByteString δ) (d : δ) : Prop :=
  ∃ name, Path.extension name ∈ kBagExtensions ∧ files.lookup name = some d ∧
    ∀ other, Path.extension other ∈ kBagExtensions → files.lookup other ≠ none → other = name

/-- What a conversion that has come to its end is at its output path: the directory of the bag, or
the data file alone in a batch. -/
inductive Whole (M : MainEnv δ) (disk : FileTree ByteString δ) (input output : Path) :
    Bool → (Path → Option (Entry δ)) → Prop
  | bag {r data files} (hReady : M.prepare = .ok (some r))
      (hData : disk.lookup input = some (.file data))
      (hConversion : Conversion M r input data output files) :
    Whole M disk input output false fun q => (bagTree files).lookup q
  | file {r data files d} (hReady : M.prepare = .ok (some r))
      (hData : disk.lookup input = some (.file data))
      (hConversion : Conversion M r input data (bagTmp output) files)
      (hOnly : OnlyDataFile files d) :
    Whole M disk input output true fun q => (leaf d).lookup q

/-- An output path is as it was, or holds the whole conversion. -/
def Kept (M : MainEnv δ) (disk : FileTree ByteString δ) (batch : Bool) (io : Path × Path)
    (fs : FileTree ByteString δ) : Prop :=
  fs.below io.2 = disk.below io.2 ∨ Whole M disk io.1 io.2 batch (fs.below io.2)

/-- The inputs of a run, with their output paths. -/
def outputs (disk : FileTree ByteString δ) (args : Args) : List (Path × Path) :=
  if isDir (disk.lookup args.input) then
    (findBagFiles disk args.input).map fun file => (file, outputPath args file)
  else [(args.input, args.output)]

/-- A copy, tried after a rename that has failed, fails with a part of its target made. -/
def MainEnv.CopiesPart (M : MainEnv δ) : Prop := ∃ d, M.FailedCopy (some d)

/-! ### The data file of a bag -/

theorem bagTree_lookup (files : UnorderedMap ByteString δ) (name : ByteString) :
    (bagTree files).lookup [name] = (files.lookup name).map .file := by
  have hEntry : (files.items .listed).filter (fun e => decide ([e.1] = [name])) =
      (files.lookup name).toList.map (name, ·) := by
    rw [← files.items_filter_key .listed name]
    simp
  unfold bagTree
  rw [UnorderedMap.lookup_foldl_insert, hEntry]
  cases files.lookup name <;> rfl

theorem mem_dataFiles {fs : FileTree ByteString δ} {dir p : Path} :
    p ∈ dataFiles fs dir ↔ ∃ name, p = dir ++ [name] ∧ Path.extension name ∈ kBagExtensions ∧
      fs.lookup p ≠ none := by
  unfold dataFiles
  rw [List.mem_filter, UnorderedMap.mem_keys_iff]
  simp only [decide_eq_true_eq]
  constructor
  · rintro ⟨hLookup, hNil, rfl, hExtension⟩
    exact ⟨p.filename, (parentPath_filename hNil).symm, hExtension, hLookup⟩
  · rintro ⟨name, rfl, hExtension, hLookup⟩
    exact ⟨hLookup, by simp, by simp [Path.parentPath], by simpa [Path.filename] using hExtension⟩

/-- What is found in the directory of a bag that has just been written. -/
theorem dataFiles_graft {fs : FileTree ByteString δ} {dir data : Path}
    {files : UnorderedMap ByteString δ} {d : δ}
    (hFound : dataFiles (fs.graft dir (bagTree files)) dir = [data])
    (hData : (fs.graft dir (bagTree files)).lookup data = some (.file d)) :
    dir <+: data ∧ OnlyDataFile files d := by
  have hLookup : ∀ name, (fs.graft dir (bagTree files)).lookup (dir ++ [name]) =
      (files.lookup name).map .file := fun name =>
    (congrFun (graft_below fs dir (bagTree files)) [name]).trans (bagTree_lookup files name)
  have hMem : ∀ p, p ∈ dataFiles (fs.graft dir (bagTree files)) dir ↔ p = data := by
    intro p
    rw [hFound, List.mem_singleton]
  obtain ⟨name, rfl, hExtension, -⟩ := mem_dataFiles.mp ((hMem data).mpr rfl)
  refine ⟨List.prefix_append dir [name], name, hExtension, ?_, fun other hOther hSome => ?_⟩
  · rw [hLookup] at hData
    cases hFile : files.lookup name with
    | none => simp [hFile] at hData
    | some d' => simpa [hFile] using hData
  · have hHere := (hMem (dir ++ [other])).mp (mem_dataFiles.mpr ⟨other, rfl, hOther, by
      rw [hLookup]
      simpa using hSome⟩)
    simpa using hHere

/-! ### One file of a batch -/

/-- Nothing that was there is gone, and what has changed is on the way to an output path, in its
temporary directory, or at the path itself. -/
structure Changed (disk : FileTree ByteString δ) (out : Path) (v v' : Visible δ) : Prop where
  extends_ : disk.Extends v'.fs
  installed : v'.installed = v.installed
  same : ∀ q, ¬ q <+: out.parentPath → ¬ bagTmp out <+: q → ¬ out <+: q →
    v'.fs.lookup q = v.fs.lookup q

/-- A change that has not come to the output path itself. -/
structure Quiet (disk : FileTree ByteString δ) (out : Path) (v v' : Visible δ) : Prop
    extends Changed disk out v v' where
  output : v'.fs.below out = v.fs.below out ∨ v'.fs.below out = disk.below out

/-- The whole conversion at an output path, with the changes that led there. -/
structure Arrived (M : MainEnv δ) (disk : FileTree ByteString δ) (file out : Path)
    (v v' : Visible δ) : Prop extends Changed disk out v v' where
  new : disk.lookup out = none
  whole : Whole M disk file out true (v'.fs.below out)

/-- How the body of the loop ends: before it has come to the output path, or with the whole
conversion there, or with a part of a copy. -/
inductive FileEnds (M : MainEnv δ) (disk : FileTree ByteString δ) (file out : Path) (v : Visible δ) :
    Option Nat → Visible δ → Prop
  | quiet {ret v'} (hRet : ret ≠ some 0) (hQuiet : Quiet disk out v v') :
    FileEnds M disk file out v ret v'
  | arrived {ret v'} (hArrived : Arrived M disk file out v v') : FileEnds M disk file out v ret v'
  | partly {v'} (hPart : M.CopiesPart) : FileEnds M disk file out v none v'

theorem Quiet.thrown {disk : FileTree ByteString δ} {file out : Path} {v v' : Visible δ}
    (h : Quiet disk out v v') : FileEnds M disk file out v none v' := .quiet (by simp) h

section File

variable {r : Ready} {disk : FileSystem ByteString δ} {args : Args} {file : Path}
  {v v' : Visible δ} {fs' : FileTree ByteString δ}
  (hReady : M.prepare = .ok (some r)) (hFile : Source disk.tree args.input file)

theorem Quiet.refl {out : Path} (h : disk.tree.Extends v.fs) : Quiet disk.tree out v v where
  extends_ := h
  installed := rfl
  same _ _ _ _ := rfl
  output := .inl rfl

include hFile in
/-- Directories on the way to an output path or to its temporary directory. -/
theorem Quiet.dirs (h : Quiet disk.tree (outputPath args file) v v')
    (hAdded : DirsAdded (bagTmp (outputPath args file)) v'.fs fs') :
    Quiet disk.tree (outputPath args file) v { v' with fs := fs' } where
  extends_ q e hq := hAdded.extends_ q e (h.extends_ q e hq)
  installed := h.installed
  same q hWay hTmp hOut := by
    refine (hAdded.same q fun hAbove => ?_).trans (h.same q hWay hTmp hOut)
    rcases List.prefix_concat_iff.mp hAbove with rfl | hParent
    · exact hTmp List.prefix_rfl
    · exact hWay hParent
  output := by
    have hBelow : fs'.below (outputPath args file) = v'.fs.below (outputPath args file) :=
      funext fun q => hAdded.same _ fun hAbove =>
        (bagTmp_apart hFile hFile).2 ((List.prefix_append _ q).trans hAbove)
    show fs'.below _ = _ ∨ fs'.below _ = _
    rw [hBelow]
    exact h.output

/-- Whatever happens in the temporary directory, where nothing was at first. -/
theorem Changed.inTmp {out : Path} (h : Changed disk.tree out v v')
    (hTmp : disk.tree.lookup (bagTmp out) = none) (hSame : SameOff (bagTmp out) v'.fs fs') :
    Changed disk.tree out v { v' with fs := fs' } where
  extends_ := hSame.extends disk.wellFormed h.extends_ hTmp
  installed := h.installed
  same q hWay hNotTmp hOut := (hSame q hNotTmp).trans (h.same q hWay hNotTmp hOut)

include hFile in
theorem Quiet.inTmp (h : Quiet disk.tree (outputPath args file) v v')
    (hTmp : disk.tree.lookup (bagTmp (outputPath args file)) = none)
    (hSame : SameOff (bagTmp (outputPath args file)) v'.fs fs') :
    Quiet disk.tree (outputPath args file) v { v' with fs := fs' } where
  toChanged := h.toChanged.inTmp hTmp hSame
  output := by
    show fs'.below _ = _ ∨ fs'.below _ = _
    rw [hSame.below (bagTmp_apart hFile hFile)]
    exact h.output

/-- Something put at an output path that is free. -/
theorem Changed.atOutput {out : Path} (h : Changed disk.tree out v v')
    (hTmp : disk.tree.lookup (bagTmp out) = none) (hNew : disk.tree.lookup out = none)
    (hSame : ∀ q, ¬ bagTmp out <+: q → ¬ out <+: q → fs'.lookup q = v'.fs.lookup q) :
    Changed disk.tree out v { v' with fs := fs' } where
  extends_ q e hq := by
    have hNotBelow : ∀ p, disk.tree.lookup p = none → ¬ p <+: q := by
      rintro p hp ⟨rest, rfl⟩
      have hNone := disk.wellFormed.below_eq_none hp rest
      rw [FileTree.below, hq] at hNone
      contradiction
    exact (hSame q (hNotBelow _ hTmp) (hNotBelow _ hNew)).trans (h.extends_ q e hq)
  installed := h.installed
  same q hWay hNotTmp hOut := (hSame q hNotTmp hOut).trans (h.same q hWay hNotTmp hOut)

include hFile in
/-- However `convert_one` ends, it has been in the temporary directory only, and on the way there. -/
theorem OneEnds.quiet {ret : Option Nat} {w w' : Visible δ}
    (hEnds : OneEnds M r file (bagTmp (outputPath args file)) w ret w')
    (h : Quiet disk.tree (outputPath args file) v w)
    (hTmp : disk.tree.lookup (bagTmp (outputPath args file)) = none) :
    Quiet disk.tree (outputPath args file) v w' := by
  have hWritten : ∀ {fs'} files, DirsAdded (bagTmp (outputPath args file)) w.fs fs' →
      Quiet disk.tree (outputPath args file) v
        (Visible.wrote { w with fs := fs' } (bagTmp (outputPath args file)) files) := by
    intro fs' files hDirs
    have hBoth := (h.dirs hFile hDirs).inTmp hFile hTmp (sameOff_graft fs' _ (bagTree files))
    exact hBoth
  cases hEnds with
  | untouched _ hDirs => exact h.dirs hFile hDirs
  | complete _ _ _ hDirs => exact hWritten _ hDirs.toDirsAdded
  | partly _ _ hDirs left => exact hWritten left hDirs.toDirsAdded

include hFile in
theorem createDirectories_quiet (hExtends : disk.tree.Extends v.fs) :
    Triple (fun s => s.visible = v) (createDirectories M (outputPath args file).parentPath)
      (fun _ s => Quiet disk.tree (outputPath args file) v s.visible)
      (fun _ s => Quiet disk.tree (outputPath args file) v s.visible) := by
  refine (createDirectories_visible _).weaken ?_ ?_
  · rintro _ s ⟨fs', hMade, hs⟩
    exact hs ▸ (Quiet.refl hExtends).dirs hFile
      (hMade.toDirsAdded.mono (List.prefix_append ..))
  · rintro _ s ⟨fs', ⟨hAdded, -⟩, hs⟩
    exact hs ▸ (Quiet.refl hExtends).dirs hFile (hAdded.mono (List.prefix_append ..))

/-- A removal keeps whatever does not depend on what is at a path and below it. -/
theorem removeAll_keeps {p : Path} {I : Visible δ → Prop}
    (hKeeps : ∀ w fs', I w → SameOff p w.fs fs' → I { w with fs := fs' }) :
    Triple (fun s => I s.visible) (removeAll M p) (fun _ s => I s.visible)
      (fun _ s => I s.visible) := by
  refine Triple.at fun w hw => (removeAll_visible p).weaken ?_ ?_
  · intro _ s hs
    rcases hs with ⟨fs', hSame, hs⟩
    exact hs ▸ hKeeps w fs' hw hSame
  · intro _ s hs
    rcases hs with ⟨fs', hSame, hs⟩
    exact hs ▸ hKeeps w fs' hw hSame

include hFile in
theorem Arrived.inTmp (h : Arrived M disk.tree file (outputPath args file) v v')
    (hTmp : disk.tree.lookup (bagTmp (outputPath args file)) = none)
    (hSame : SameOff (bagTmp (outputPath args file)) v'.fs fs') :
    Arrived M disk.tree file (outputPath args file) v { v' with fs := fs' } where
  toChanged := h.toChanged.inTmp hTmp hSame
  new := h.new
  whole := by
    show Whole M disk.tree file _ true (fs'.below _)
    rw [hSame.below (bagTmp_apart hFile hFile)]
    exact h.whole

include hFile in
/-- The move of the data file to the output path, once the bag has been written. -/
theorem moveFile_ends {w : Visible δ} (hQuiet : Quiet disk.tree (outputPath args file) v w)
    (hTmp : disk.tree.lookup (bagTmp (outputPath args file)) = none)
    (hNew : disk.tree.lookup (outputPath args file) = none) (name : ByteString)
    (hWhole : ∀ d, w.fs.lookup (bagTmp (outputPath args file) ++ [name]) = some (.file d) →
      Whole M disk.tree file (outputPath args file) true fun q => (leaf d).lookup q) :
    Triple (fun s => s.visible = w)
      (moveFile M (bagTmp (outputPath args file) ++ [name]) (outputPath args file))
      (fun _ s => Arrived M disk.tree file (outputPath args file) v s.visible)
      (fun _ s => FileEnds M disk.tree file (outputPath args file) v none s.visible) := by
  have hArrived : ∀ d fs', Moved (bagTmp (outputPath args file) ++ [name]) (outputPath args file)
      d w.fs fs' → Arrived M disk.tree file (outputPath args file) v { w with fs := fs' } := by
    intro d fs' hMoved
    refine ⟨hQuiet.toChanged.atOutput hTmp hNew fun q hq hq' => ?_, hNew, ?_⟩
    · exact hMoved.same q (fun h => hq ((List.prefix_append ..).trans h)) hq'
    · show Whole M disk.tree file _ true (fs'.below _)
      rw [hMoved.moved]
      exact hWhole d hMoved.data
  refine (moveFile_visible ((bagTmp_apart hFile hFile).append_left [name])).weaken ?_ ?_
  · intro _ s hs
    rcases hs with ⟨d, fs', hMoved, hs⟩
    exact hs ▸ hArrived d fs' hMoved
  · intro _ s hs
    rcases hs with hs | ⟨left, hFailed, hs⟩ | ⟨d, fs', hMoved, hs⟩
    · exact .quiet (by simp) (hs ▸ hQuiet)
    · cases left with
      | some d => exact .partly ⟨d, hFailed⟩
      | none =>
        -- Nothing has been copied, so the output path is still free.
        rw [hs]
        refine .quiet (by simp) ⟨hQuiet.toChanged.atOutput hTmp hNew
          fun q _ hq => sameOff_graft _ _ _ q hq, .inr (funext fun q => ?_)⟩
        rw [disk.wellFormed.below_eq_none hNew, Visible.copied, graft_below]
        rfl
    · exact hs ▸ .arrived (hArrived d fs' hMoved)

include hReady hFile in
/-- The end of the loop body, after a conversion into the temporary directory. -/
theorem unwrap_ends {v₁ : Visible δ} {data : δ} {files : UnorderedMap ByteString δ}
    (hQuiet : Quiet disk.tree (outputPath args file) v v₁)
    (hTmp : disk.tree.lookup (bagTmp (outputPath args file)) = none)
    (hNew : disk.tree.lookup (outputPath args file) = none)
    (hInput : disk.tree.lookup file = some (.file data))
    (hConversion : Conversion M r file data (bagTmp (outputPath args file)) files) :
    Triple (fun s => s.visible =
        { v₁ with fs := v₁.fs.graft (bagTmp (outputPath args file)) (bagTree files) })
      (do
        call M
        let s ← get
        match dataFiles s.fs (bagTmp (outputPath args file)) with
        | [data] => do
          moveFile M data (outputPath args file)
          removeAll M (bagTmp (outputPath args file))
          pure 0
        | _ => pure 1 : Main δ Nat)
      (fun ret s => FileEnds M disk.tree file (outputPath args file) v (some ret) s.visible)
      (fun _ s => FileEnds M disk.tree file (outputPath args file) v none s.visible) := by
  have hWritten := hQuiet.inTmp hFile hTmp (sameOff_graft _ _ (bagTree files))
  refine Triple.bind (call_visible.exits fun _ s hs => Quiet.thrown (hs ▸ hWritten)) fun _ =>
    Triple.get_bind fun s₀ hs₀ => ?_
  have hFs : s₀.fs = v₁.fs.graft (bagTmp (outputPath args file)) (bagTree files) :=
    congrArg Visible.fs hs₀
  have hStart : ∀ s, s = s₀ → s.visible = _ := fun s hs => hs ▸ hs₀
  rw [hFs]
  split
  · rename_i found hFound
    obtain ⟨name, rfl, -, -⟩ :
        ∃ name, found = bagTmp (outputPath args file) ++ [name] ∧ _ :=
      mem_dataFiles.mp (hFound ▸ List.mem_singleton_self found)
    have hMove := moveFile_ends (M := M) hFile hWritten hTmp hNew name fun d hd =>
      .file hReady hInput hConversion (dataFiles_graft hFound hd).2
    have hRemove := removeAll_keeps (M := M)
      (I := Arrived M disk.tree file (outputPath args file) v)
      fun w fs' hw hSame => hw.inTmp hFile hTmp hSame
    refine Triple.bind (hMove.pre hStart) fun _ => ?_
    exact Triple.bind (hRemove.exits fun _ _ hs => .arrived hs) fun _ =>
      Triple.pure fun _ hs => .arrived hs
  · exact Triple.pure fun s hs => .quiet (by simp) (hStart s hs ▸ hWritten)

include hReady hFile in
theorem convertFile_visible (hExtends : disk.tree.Extends v.fs)
    (hInstalled : v.installed = r.transformer.installed) :
    Triple (fun s => s.visible = v) (convertFile M r args file)
      (fun ret s => FileEnds M disk.tree file (outputPath args file) v (some ret) s.visible)
      (fun _ s => FileEnds M disk.tree file (outputPath args file) v none s.visible) := by
  refine Triple.bind ((createDirectories_quiet hFile hExtends).exits fun _ _ => Quiet.thrown) fun _ =>
    Triple.at fun v₁ hQuiet => ?_
  have hHere : ∀ s : World δ, s.visible = v₁ → Quiet disk.tree (outputPath args file) v s.visible :=
    fun s hs => hs ▸ hQuiet
  have hReturn : ∀ s : World δ, s.visible = v₁ →
      FileEnds M disk.tree file (outputPath args file) v (some 1) s.visible :=
    fun s hs => .quiet (by simp) (hHere s hs)
  refine Triple.bind ((pathExists_visible _).exits fun _ s hs => (hHere s hs).thrown)
    fun there => Triple.assume fun hThere => ?_
  cases there with
  | true => exact Triple.pure hReturn
  | false =>
  have hNew := hQuiet.extends_.none (p := outputPath args file) (by simpa using hThere.symm)
  refine Triple.bind ((pathExists_visible _).exits fun _ s hs => (hHere s hs).thrown)
    fun there => Triple.assume fun hThere' => ?_
  cases there with
  | true => exact Triple.pure hReturn
  | false =>
  have hTmp := hQuiet.extends_.none (p := bagTmp (outputPath args file))
    (by simpa using hThere'.symm)
  refine Triple.bind ((convertOne_visible (hQuiet.installed.trans hInstalled) file
    (bagTmp (outputPath args file))).exits ?_) fun ret => ?_
  · exact fun _ s hs => (hs.quiet hFile hQuiet hTmp).thrown
  by_cases hRet : ret = 0
  · subst hRet
    refine Triple.at fun v₂ hEnds => ?_
    cases hEnds with
    | untouched hRet => exact absurd rfl hRet
    | partly hRet => exact absurd rfl hRet
    | @complete data _ _ hFree hData hConversion hDirs =>
      have hInput : disk.tree.lookup file = some (.file data) := by
        obtain ⟨d, hd⟩ := hFile.data
        rw [hd, ← hData, hQuiet.extends_ file _ hd]
      exact unwrap_ends hReady hFile (hQuiet.dirs hFile hDirs.toDirsAdded) hTmp hNew hInput
        hConversion
  · rw [if_pos hRet]
    have hRemove := removeAll_keeps (M := M) (I := Quiet disk.tree (outputPath args file) v)
      fun w fs' hw hSame => hw.inTmp hFile hTmp hSame
    refine Triple.bind ((hRemove.pre fun s hs => ?_).exits fun _ _ => Quiet.thrown) fun _ =>
      Triple.pure fun s hs => .quiet (by simpa using hRet) hs
    exact hs.quiet hFile hQuiet hTmp

end File

/-! ### The invariant of a batch -/

/-- Nothing that was there has been touched, and each output path is kept. -/
structure BatchInv (M : MainEnv δ) (r : Ready) (disk : FileTree ByteString δ) (args : Args)
    (v : Visible δ) : Prop where
  extends_ : disk.Extends v.fs
  installed : v.installed = r.transformer.installed
  kept : ∀ file ∈ findBagFiles disk args.input, Kept M disk true (file, outputPath args file) v.fs

/-- The invariant at an exit: it may fail only where a copy has left a part. -/
def Settled (M : MainEnv δ) (r : Ready) (disk : FileTree ByteString δ) (args : Args)
    (v : Visible δ) : Prop :=
  BatchInv M r disk args v ∨ M.CopiesPart

section Batch

variable {r : Ready} {disk : FileSystem ByteString δ} {args : Args} {v v' : Visible δ} {file : Path}
  (hReady : M.prepare = .ok (some r)) (hDir : isDir (disk.tree.lookup args.input) = true)
  (hFile : file ∈ findBagFiles disk.tree args.input)

theorem Kept.of_below_eq {tree fs fs' : FileTree ByteString δ} {batch : Bool} {io : Path × Path}
    (h : Kept M tree batch io fs) (hBelow : fs'.below io.2 = fs.below io.2) :
    Kept M tree batch io fs' := by
  unfold Kept
  rw [hBelow]
  exact h

/-- The conversion of a file leaves the output path of every other one alone. -/
theorem Changed.below_eq {other : Path} (h : Changed disk.tree (outputPath args file) v v')
    (hFile : Source disk.tree args.input file) (hOther : Source disk.tree args.input other)
    (hNe : other ≠ file) :
    v'.fs.below (outputPath args other) = v.fs.below (outputPath args other) := by
  refine funext fun q => h.same _ (fun hAbove => ?_) ?_ ?_
  · exact outputPath_not_above hFile hOther ((List.prefix_append _ q).trans hAbove)
  · exact ((bagTmp_apart hFile hOther).symm.append_left q).2
  · exact ((outputPath_apart hFile hOther (Ne.symm hNe)).symm.append_left q).2

include hDir hFile in
theorem BatchInv.changed (h : BatchInv M r disk.tree args v)
    (hChanged : Changed disk.tree (outputPath args file) v v')
    (hKept : Kept M disk.tree true (file, outputPath args file) v'.fs) :
    BatchInv M r disk.tree args v' where
  extends_ := hChanged.extends_
  installed := hChanged.installed.trans h.installed
  kept other hOther := by
    by_cases hEq : other = file
    · exact hEq ▸ hKept
    · exact (h.kept other hOther).of_below_eq
        (hChanged.below_eq (source_of_mem hDir hFile) (source_of_mem hDir hOther) hEq)

include hDir hFile in
theorem FileEnds.batchInv {ret : Option Nat}
    (hEnds : FileEnds M disk.tree file (outputPath args file) v ret v')
    (h : BatchInv M r disk.tree args v) :
    BatchInv M r disk.tree args v' ∨ ret = none ∧ M.CopiesPart := by
  cases hEnds with
  | quiet _ hQuiet =>
    refine .inl (h.changed hDir hFile hQuiet.toChanged ?_)
    rcases hQuiet.output with hSame | hSame
    · exact (h.kept file hFile).of_below_eq hSame
    · exact .inl hSame
  | arrived hArrived => exact .inl (h.changed hDir hFile hArrived.toChanged (.inr hArrived.whole))
  | partly hPart => exact .inr ⟨rfl, hPart⟩

include hReady hDir hFile in
theorem convertFile_inv :
    Triple (fun s => BatchInv M r disk.tree args s.visible) (convertFile M r args file)
      (fun _ s => BatchInv M r disk.tree args s.visible)
      (fun _ s => Settled M r disk.tree args s.visible) := by
  refine Triple.at fun v hInv => (convertFile_visible hReady (source_of_mem hDir hFile)
    hInv.extends_ hInv.installed).weaken ?_ ?_
  · intro ret s hs
    exact (hs.batchInv hDir hFile hInv).resolve_right fun hNone => by simp at hNone
  · exact fun _ s hs => (hs.batchInv hDir hFile hInv).imp_right And.right

include hReady hDir in
theorem convertFiles_inv (files : List Path)
    (hFiles : ∀ file ∈ files, file ∈ findBagFiles disk.tree args.input) :
    Triple (fun s => BatchInv M r disk.tree args s.visible) (convertFiles M r args files)
      (fun _ s => BatchInv M r disk.tree args s.visible)
      (fun _ s => Settled M r disk.tree args s.visible) := by
  induction files with
  | nil => exact Triple.pure fun _ hs => hs
  | cons file rest ih =>
    refine Triple.bind (convertFile_inv hReady hDir (hFiles file List.mem_cons_self)) fun ret => ?_
    by_cases hRet : ret = 0
    · rw [if_neg (not_not.mpr hRet)]
      exact ih fun file hFile => hFiles file (List.mem_cons_of_mem _ hFile)
    · rw [if_pos hRet]
      exact Triple.pure fun _ hs => hs

include hReady hDir in
theorem convertBatch_inv (hFs : v.fs = disk.tree)
    (hInv : BatchInv M r disk.tree args v) :
    Triple (fun s => s.visible = v) (convertBatch M r args)
      (fun _ s => BatchInv M r disk.tree args s.visible)
      (fun _ s => Settled M r disk.tree args s.visible) := by
  refine Triple.bind (call_visible.exits fun _ s hs => .inl (hs ▸ hInv)) fun _ =>
    Triple.get_bind fun s₀ hs₀ => ?_
  have hDisk : s₀.fs = disk.tree := (congrArg Visible.fs hs₀).trans hFs
  have hStart : ∀ s, s = s₀ → BatchInv M r disk.tree args s.visible := by
    rintro s rfl
    exact hs₀ ▸ hInv
  rw [hDisk]
  simp only
  split
  · exact Triple.pure hStart
  · exact (convertFiles_inv hReady hDir _ fun _ h => h).pre hStart

end Batch

/-! ### A whole run -/

/-- The calls of a run on a single bag before the storage of its output is opened: those up to the
reading of the bag, and one for each directory on the way. -/
def callsBeforeStorage (args : Args) : Nat := args.output.length + 6

/-- What must not happen in a run: for a batch, that a copy fails with a part made; for a single bag
whose output comes to be opened, that a call fails from there on, or a message. -/
def Safe (M : MainEnv δ) (disk : FileTree ByteString δ) (args : Args) : Prop :=
  if isDir (disk.lookup args.input) then ¬ M.CopiesPart
  else ∀ r bag, M.prepare = .ok (some r) →
    Opens M disk args.input args.output bag (callsBeforeStorage args) →
    Through M r bag (callsBeforeStorage args) 0

/-- Each output path is kept. -/
def Finished (M : MainEnv δ) (disk : FileTree ByteString δ) (args : Args) (v : Visible δ) : Prop :=
  ∀ io ∈ outputs disk args, Kept M disk (isDir (disk.lookup args.input)) io v.fs

/-- The state in which the conversion starts. -/
def Ready.start (r : Ready) (disk : FileTree ByteString δ) : Visible δ :=
  ⟨disk, r.transformer.installed⟩

section Run

variable {disk : FileSystem ByteString δ} {args : Args} {v : Visible δ} {r : Ready}

theorem finished_of_same (h : v.fs = disk.tree) : Finished M disk.tree args v :=
  fun _ _ => .inl (by rw [h])

theorem finished_of_settled (hDir : isDir (disk.tree.lookup args.input) = true)
    (hSafe : Safe M disk.tree args) (h : Settled M r disk.tree args v) :
    Finished M disk.tree args v := by
  rw [Safe, if_pos hDir] at hSafe
  unfold Finished outputs
  rw [hDir, if_pos rfl]
  simpa using (h.resolve_right hSafe).kept

theorem outputs_single (hDir : isDir (disk.tree.lookup args.input) = false) :
    outputs disk.tree args = [(args.input, args.output)] := by simp [outputs, hDir]

/-- A single bag is written at its output path. -/
theorem finished_of_singleEnds (hReady : M.prepare = .ok (some r))
    (hDir : isDir (disk.tree.lookup args.input) = false) (hSafe : Safe M disk.tree args)
    {ret : Option Nat} {v' : Visible δ}
    (hOne : OneEnds M r args.input args.output (r.start disk.tree) ret v')
    (hSingle : SingleEnds M r args.input args.output (callsBeforeStorage args) 0
      (r.start disk.tree) ret v') : Finished M disk.tree args v' := by
  unfold Safe at hSafe
  unfold Finished
  rw [hDir] at hSafe ⊢
  simp only [outputs_single hDir, List.mem_singleton, forall_eq]
  cases hSingle with
  | before _ _ hSame => exact .inl hSame
  | after hOpens hLeft =>
    obtain rfl := hLeft.through (hSafe r _ hReady hOpens)
    cases hOne with
    | untouched hRet => exact absurd rfl hRet
    | partly hRet => exact absurd rfl hRet
    | complete _ hData hConversion =>
      right
      rw [graft_below]
      exact .bag hReady hData hConversion

/-- What `main` ends with, from what the conversion of a directory and of a single bag end with; two
calls have been made before them, and one is made after them. -/
theorem main_ends {Q : Nat → Visible δ → Prop} {E : Visible δ → Prop}
    (hNone : (∀ r, M.prepare ≠ .ok (some r)) → ∀ v : Visible δ, v.fs = disk.tree → Q 1 v)
    (hStart : (∀ r, M.prepare ≠ .ok (some r)) ∨ (∃ k < 2, M.fault k ≠ none) →
      ∀ v : Visible δ, v.fs = disk.tree → E v)
    (hExit : (∃ k, M.fault k ≠ none) → ∀ ret v, Q ret v → E v)
    (hBatch : ∀ r, M.prepare = .ok (some r) → isDir (disk.tree.lookup args.input) = true →
      Triple (fun s => s.visible = r.start disk.tree) (convertBatch M r args)
        (fun ret s => Q ret s.visible) (fun _ s => E s.visible))
    (hOne : ∀ r, M.prepare = .ok (some r) → isDir (disk.tree.lookup args.input) = false →
      Triple (fun s => s.visible = r.start disk.tree ∧ M.Clean 2 0 s)
        (convertOne M r args.input args.output) (fun ret s => Q ret s.visible)
        (fun _ s => E s.visible)) :
    Triple (fun s => s = World.start disk.tree) (main M args) (fun ret s => Q ret s.visible)
      (fun _ s => E s.visible) := by
  unfold main
  cases hPrepare : M.prepare with
  | error e => exact Triple.throw fun s hs => hs ▸ hStart (.inl (by simp [hPrepare])) _ rfl
  | ok ready =>
  cases ready with
  | none => exact Triple.pure fun s hs => hs ▸ hNone (by simp [hPrepare]) _ rfl
  | some r =>
  refine Triple.bind (Q := fun _ s => s.visible = r.start disk.tree ∧ M.Clean 0 0 s)
    (Triple.modify ?_) fun _ => ?_
  · rintro s rfl
    exact ⟨rfl, rfl, rfl, by simp⟩
  have hThrown : ∀ {k : Nat} (s : World δ), k < 2 →
      M.fault k ≠ none ∧ s.visible = r.start disk.tree → E s.visible :=
    fun _ hk hs => hs.2 ▸ hStart (.inr ⟨_, hk, hs.1⟩) _ rfl
  refine Triple.bind (call_clean.exits fun _ s hs => hThrown s (by omega) hs) fun _ => ?_
  refine Triple.bind ((query_clean fun fs => isDir (fs.lookup args.input)).exits
    fun _ s hs => hThrown s (by omega) hs) fun batch => Triple.assume fun hThere => ?_
  have hLast : ∀ ret : Nat, Triple (fun s => Q ret s.visible) (do call M; pure ret : Main δ Nat)
      (fun ret s => Q ret s.visible) (fun _ s => E s.visible) := by
    refine fun ret => Triple.of_eq fun s₀ hs₀ => Triple.bind ((call_steps s₀).exits ?_) fun _ =>
      Triple.pure ?_
    · rintro _ s ⟨hFault, rfl⟩
      exact hExit ⟨_, hFault⟩ ret _ hs₀
    · rintro s ⟨-, rfl⟩
      exact hs₀
  cases batch with
  | true =>
    exact Triple.bind ((hBatch r hPrepare hThere.symm).pre fun _ hs => hs.1) hLast
  | false => exact Triple.bind (hOne r hPrepare hThere.symm) hLast

/-- How a single bag ends, in both views. -/
theorem convertOne_single (r : Ready) (disk : FileTree ByteString δ) (args : Args) :
    Triple (fun s => s.visible = r.start disk ∧ M.Clean 2 0 s)
      (convertOne M r args.input args.output)
      (fun ret s => OneEnds M r args.input args.output (r.start disk) (some ret) s.visible ∧
        SingleEnds M r args.input args.output (callsBeforeStorage args) 0 (r.start disk)
          (some ret) s.visible)
      (fun _ s => OneEnds M r args.input args.output (r.start disk) none s.visible ∧
        SingleEnds M r args.input args.output (callsBeforeStorage args) 0 (r.start disk)
          none s.visible) := by
  have hClean := convertOne_clean (M := M) (v := r.start disk) (k := 2) (c := 0) (r := r) rfl
    args.input args.output
  rw [show 2 + args.output.length + 4 = callsBeforeStorage args by rw [callsBeforeStorage]; omega]
    at hClean
  exact ((convertOne_visible rfl args.input args.output).pre fun _ hs => hs.1).and hClean

theorem main_finished (M : MainEnv δ) (disk : FileSystem ByteString δ) (args : Args)
    (hSafe : Safe M disk.tree args) :
    Triple (fun s => s = World.start disk.tree) (main M args)
      (fun _ s => Finished M disk.tree args s.visible)
      (fun _ s => Finished M disk.tree args s.visible) := by
  refine main_ends (Q := fun _ => Finished M disk.tree args) (fun _ v hv => finished_of_same hv)
    (fun _ v hv => finished_of_same hv) (fun _ _ _ h => h) (fun r hPrepare hDir => ?_)
    fun r hPrepare hDir => ?_
  · have hInv : BatchInv M r disk.tree args (r.start disk.tree) :=
      ⟨fun _ _ h => h, rfl, fun _ _ => .inl rfl⟩
    exact (convertBatch_inv hPrepare hDir rfl hInv).weaken
      (fun _ s hs => finished_of_settled hDir hSafe (.inl hs))
      fun _ s hs => finished_of_settled hDir hSafe hs
  · exact (convertOne_single r disk.tree args).weaken
      (fun _ s hs => finished_of_singleEnds hPrepare hDir hSafe hs.1 hs.2)
      fun _ s hs => finished_of_singleEnds hPrepare hDir hSafe hs.1 hs.2

/-- However a safe run ends, each of its output paths is as it was or holds the whole conversion. -/
theorem main_outputs (M : MainEnv δ) (disk : FileSystem ByteString δ) (args : Args)
    (hSafe : Safe M disk.tree args) :
    ∀ io ∈ outputs disk.tree args, Kept M disk.tree (isDir (disk.tree.lookup args.input)) io
      (final (main M args (World.start disk.tree))).fs :=
  (main_finished M disk args hSafe).final
    (Q := fun s : World δ => Finished M disk.tree args s.visible) rfl

/-- No conversion of a bag with a message that fails comes to its end. -/
theorem not_whole_of_fails {disk : FileTree ByteString δ} {input output : Path} {batch : Bool}
    {t : Path → Option (Entry δ)} {bag : InputBag} {msg : BagMessage}
    (hReady : M.prepare = .ok (some r)) (hBag : bagAt M disk input = some bag)
    (hMem : msg ∈ bag.messages)
    (hFails : Fails (M.convertEnv 0) r.cfg r.decoder r.router r.transformer msg) :
    ¬ Whole M disk input output batch t := by
  have hNone : ∀ {r' : Ready} {data : δ} {bagDir : Path} {files : UnorderedMap ByteString δ},
      M.prepare = .ok (some r') → disk.lookup input = some (.file data) →
      ¬ Conversion M r' input data bagDir files := by
    rintro r' data bagDir files hReady' hData ⟨bag', k, t, c, hOpen, hInstalled, hRun, -⟩
    obtain rfl : r = r' := Option.some.inj (Except.ok.inj (hReady.symm.trans hReady'))
    obtain rfl : bag' = bag := by simpa [bagAt, hData, hOpen, Except.toOption] using hBag
    exact convertBag_not_fails hRun msg hMem ((fails_congr hInstalled k msg).mpr hFails)
  intro h
  cases h with
  | bag hReady' hData hConversion => exact hNone hReady' hData hConversion
  | file hReady' hData hConversion _ => exact hNone hReady' hData hConversion

/-- A single bag with a message that fails spoils its output path, wherever that comes to be
opened. -/
theorem main_spoils (hReady : M.prepare = .ok (some r))
    (hDir : isDir (disk.tree.lookup args.input) = false) {bag : InputBag}
    (hOpens : Opens M disk.tree args.input args.output bag (callsBeforeStorage args))
    {msg : BagMessage} (hMem : msg ∈ bag.messages)
    (hFails : Fails (M.convertEnv 0) r.cfg r.decoder r.router r.transformer msg) :
    ¬ Kept M disk.tree false (args.input, args.output)
      (final (main M args (World.start disk.tree))).fs := by
  let Spoiled : Visible δ → Prop := fun v => v.fs.lookup args.output = some .dir
  have hSpoiled : Triple (fun s => s = World.start disk.tree) (main M args)
      (fun _ s => Spoiled s.visible) (fun _ s => Spoiled s.visible) := by
    refine main_ends (Q := fun _ => Spoiled) (fun hNone => absurd hReady (hNone r)) (fun hNot => ?_)
      (fun _ _ _ h => h) (fun r' _ hDir' => ?_) fun r' hReady' _ => ?_
    · rcases hNot with hNone | ⟨k, hk, hFault⟩
      · exact absurd hReady (hNone r)
      · exact absurd (hOpens.calls k (by rw [callsBeforeStorage]; omega)) hFault
    · rw [hDir] at hDir'
      contradiction
    · have hDir : ∀ {ret v'}, SingleEnds M r' args.input args.output (callsBeforeStorage args) 0
          (r'.start disk.tree) ret v' → Spoiled v' := by
        intro ret v' h
        cases h with
        | before hNot => exact absurd hOpens (hNot bag)
        | after _ hLeft => exact hLeft.dir
      exact (convertOne_single r' disk.tree args).weaken (fun _ s hs => hDir hs.2)
        fun _ s hs => hDir hs.2
  have hDir := hSpoiled.final rfl
  rintro (hSame | hWhole)
  · have hHere := congrFun hSame []
    rw [FileTree.below, FileTree.below, List.append_nil, hOpens.new] at hHere
    exact Option.some_ne_none _ (hDir.symm.trans hHere)
  · exact not_whole_of_fails hReady hOpens.bag hMem hFails hWhole

end Run

/-! ### Sample runs -/

/-- An environment in which every bag is empty and no call fails. -/
def emptyBagEnv : MainEnv Nat where
  yaml := sampleYaml
  params := .ok sampleParams
  dbc := .parsed (VehicleCanNode.sampleNetwork 256)
  exprtk := sampleConvertEnv.exprtk
  deserialize := sampleConvertEnv.deserialize
  routerOrder := .listed
  transformOrder := .listed
  openBag _ := .ok ⟨"", [], [], by decide, by decide⟩
  bagFiles _ _ _ := AList.singleton "bag_0.mcap" 1
  fault _ := none
  convertFault _ _ := none
  schemaOrder _ := .listed
  topicsOrder _ := .listed
  groupOrder _ _ := .listed
  debris _ := ∅
  copied _ := none
  kept _ _ := false

/-- A bag whose one frame does not deserialize. -/
def brokenBag : InputBag where
  storageIdentifier := ""
  topics := [⟨"/vehicle/from_can_bus", "can_msgs/msg/Frame", "cdr"⟩]
  messages := [⟨"/vehicle/from_can_bus", 1, []⟩]
  topics_nodup := by decide
  messages_topics := by decide

/-- No call fails, and every bag is the broken one. -/
def brokenEnv : MainEnv Nat := { emptyBagEnv with openBag := fun _ => .ok brokenBag }

def brokenDisk : FileSystem ByteString Nat where
  tree := List.toAList [⟨[], .dir⟩, ⟨["in"], .dir⟩, ⟨["in", "a.mcap"], .file 0⟩]
  wellFormed := wellFormed_of_keys (by decide)

theorem brokenEnv_safe {disk : FileTree ByteString Nat} {args : Args}
    (hDir : isDir (disk.lookup args.input) = true) : Safe brokenEnv disk args := by
  rw [Safe, if_pos hDir]
  rintro ⟨d, k, hFault, -⟩
  exact hFault rfl

theorem emptyBagEnv_safe {disk : FileTree ByteString Nat} {args : Args}
    (hDir : isDir (disk.lookup args.input) = false) : Safe emptyBagEnv disk args := by
  unfold Safe
  rw [hDir]
  intro r bag _ hOpens
  have hBag := hOpens.bag
  unfold bagAt at hBag
  split at hBag
  · obtain rfl := Option.some.inj hBag
    exact ⟨rfl, fun _ => rfl, by simp, rfl⟩
  · contradiction

/-- The value with which a run has ended, unless it has thrown. -/
def returned {ε σ α : Type} : EStateM.Result ε σ α → Option α
  | .ok a _ => some a
  | .error _ _ => none

/-- In a batch, the broken bag leaves its output path alone; an empty bag by itself is converted. -/
theorem main_outputs_batch :
    let run := main brokenEnv ⟨["in"], ["out"]⟩ (World.start brokenDisk.tree)
    let single := main emptyBagEnv ⟨["in", "a.mcap"], ["out"]⟩ (World.start brokenDisk.tree)
    (returned run = some 1 ∧
      Kept brokenEnv brokenDisk.tree true (["in", "a.mcap"], ["out", "a.mcap"]) (final run).fs) ∧
      returned single = some 0 ∧
      Kept emptyBagEnv brokenDisk.tree false (["in", "a.mcap"], ["out"]) (final single).fs :=
  ⟨⟨by decide +kernel, main_outputs brokenEnv brokenDisk ⟨["in"], ["out"]⟩
      (brokenEnv_safe (by decide +kernel)) _ (by decide +kernel)⟩,
    by decide +kernel, main_outputs emptyBagEnv brokenDisk ⟨["in", "a.mcap"], ["out"]⟩
      (emptyBagEnv_safe (by decide +kernel)) _ (by decide +kernel)⟩

theorem brokenEnv_prepare : ∃ r, brokenEnv.prepare = .ok (some r) ∧
    r.cfg.canTopic = str "/vehicle/from_can_bus" := by
  have hTopic : (brokenEnv.prepare.map fun r => r.map fun r => r.cfg.canTopic) =
      .ok (some (str "/vehicle/from_can_bus")) := by decide +kernel
  cases hPrepare : brokenEnv.prepare with
  | error e => simp [hPrepare, Except.map] at hTopic
  | ok ready =>
    cases ready with
    | none => simp [hPrepare, Except.map] at hTopic
    | some r => exact ⟨r, rfl, by simpa [hPrepare, Except.map] using hTopic⟩

/-- By itself, it leaves a directory at the output path, and the converter returns 1. -/
theorem main_leaves_part :
    let run := main brokenEnv ⟨["in", "a.mcap"], ["out"]⟩ (World.start brokenDisk.tree)
    returned run = some 1 ∧ ¬ ∀ io ∈ outputs brokenDisk.tree ⟨["in", "a.mcap"], ["out"]⟩,
      Kept brokenEnv brokenDisk.tree false io (final run).fs := by
  obtain ⟨r, hReady, hTopic⟩ := brokenEnv_prepare
  refine ⟨by decide +kernel, fun hKept => ?_⟩
  have hOpens : Opens brokenEnv brokenDisk.tree ["in", "a.mcap"] ["out"] brokenBag 7 :=
    ⟨by decide +kernel, rfl, by decide +kernel, fun _ _ => rfl⟩
  exact main_spoils hReady (by decide +kernel) hOpens List.mem_cons_self
    ⟨hTopic.symm, .inl ⟨_, rfl⟩⟩ (hKept _ (by decide +kernel))

end Converter

end VehicleCanDecoder
