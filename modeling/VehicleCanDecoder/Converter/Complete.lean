import VehicleCanDecoder.Converter.Outputs

/-! Completeness of a batch.  The converter goes by the whole path of a file where it leaves out
temporary directories, so a batch that ends well has converted every bag but those that have the
name of such a directory somewhere else on their path. -/

namespace VehicleCanDecoder

namespace Converter

open Hoare FileTree

variable {δ : Type} {M : MainEnv δ}

/-! ### The bags of a directory -/

/-- A regular file below the directory with the extension of a bag, not inside a temporary
directory. -/
structure Candidate (fs : FileTree ByteString δ) (dir file : Path) : Prop where
  under : dir <+: file
  data : isFile (fs.lookup file) = true
  extension : Path.extension file.filename ∈ kBagExtensions
  outside : ∀ name ∈ file.parentPath, ¬ bagSuffix <:+ name

/-- The name of a temporary directory is not that of a bag. -/
theorem extension_bagSuffix (stem : ByteString) :
    Path.extension (stem ++ bagSuffix) ∉ kBagExtensions := by
  have hAfterDot : (stem ++ bagSuffix).reverse.takeWhile (· ≠ 46) = bagSuffix.tail.reverse := by
    rw [List.reverse_append]
    rfl
  unfold Path.extension
  simp only [hAfterDot]
  split
  · decide
  · decide

section Candidates

variable {disk : FileSystem ByteString δ} {dir file : Path}

theorem Candidate.source (h : Candidate disk.tree dir file)
    (hDir : isDir (disk.tree.lookup dir) = true) : Source disk.tree dir file where
  under := strictly_below hDir h.under h.data
  data := isFile_iff.mp h.data
  clear name hName := by
    have hNil : file ≠ [] := List.ne_nil_of_mem hName
    rw [← parentPath_filename hNil, List.mem_append, List.mem_singleton] at hName
    rcases hName with hParent | rfl
    · exact h.outside name hParent
    · intro hSuffix
      obtain ⟨stem, hStem⟩ := hSuffix
      have hExtension := h.extension
      rw [← hStem] at hExtension
      exact extension_bagSuffix stem hExtension

/-- `find_bag_files` finds the bags with no name of a temporary directory anywhere in the path. -/
theorem mem_findBagFiles :
    file ∈ findBagFiles disk.tree dir ↔
      Candidate disk.tree dir file ∧ ¬ bagSuffix <:+: file.string := by
  unfold findBagFiles
  rw [List.mem_insertionSort, List.mem_filter, isBagFile]
  simp only [Bool.and_eq_true, decide_eq_true_eq, Bool.not_eq_true', decide_eq_false_iff_not]
  constructor
  · intro h
    obtain ⟨-, ⟨⟨⟨hUnder, hFile⟩, -⟩, hName⟩, hExtension⟩ := h
    refine ⟨⟨hUnder, hFile, hExtension, fun name hMem hSuffix => ?_⟩, hName⟩
    obtain ⟨stem, rfl⟩ := hSuffix
    exact hName (bagSuffix_in_string (List.mem_of_mem_dropLast hMem))
  · intro h
    obtain ⟨hCandidate, hName⟩ := h
    obtain ⟨d, hData⟩ := isFile_iff.mp hCandidate.data
    refine ⟨?_, ⟨⟨⟨hCandidate.under, hCandidate.data⟩, ?_⟩, hName⟩, hCandidate.extension⟩
    · exact UnorderedMap.mem_keys_iff.mpr (by simp [hData])
    · -- Whatever is on the way to a file is a directory.
      refine List.all_eq_true.mpr fun q hq => ?_
      obtain ⟨rest, rfl⟩ := (List.mem_inits q file).mp hq
      by_cases hRest : rest = []
      · simp [hRest]
      · have hWay := disk.wellFormed q rest hRest (by simp [hData])
        simp [hWay, isDir]

end Candidates

/-! ### Completeness -/

/-- The whole conversion of a file is at its output path, where nothing was. -/
structure Converted (M : MainEnv δ) (disk : FileTree ByteString δ) (args : Args)
    (fs : FileTree ByteString δ) (file : Path) : Prop where
  new : disk.lookup (outputPath args file) = none
  whole : Whole M disk file (outputPath args file) true (fs.below (outputPath args file))

/-- What a batch over the tree `disk` should leave in `fs`. -/
structure Complete (M : MainEnv δ) (disk : FileTree ByteString δ) (args : Args)
    (fs : FileTree ByteString δ) : Prop where
  converted : ∀ file, Candidate disk args.input file → Converted M disk args fs file
  distinct : ∀ file other, Candidate disk args.input file → Candidate disk args.input other →
    outputPath args file = outputPath args other → file = other
  apart : ∀ file other, Candidate disk args.input file → Candidate disk args.input other →
    ¬ bagTmp (outputPath args file) <+: outputPath args other
  kept : disk.Extends fs

theorem Converted.of_below_eq {disk fs fs' : FileTree ByteString δ} {args : Args} {file : Path}
    (h : Converted M disk args fs file)
    (hBelow : fs'.below (outputPath args file) = fs.below (outputPath args file)) :
    Converted M disk args fs' file where
  new := h.new
  whole := hBelow ▸ h.whole

theorem Converted.present {disk fs : FileTree ByteString δ} {args : Args} {file : Path}
    (h : Converted M disk args fs file) : fs.lookup (outputPath args file) ≠ none := by
  have hWhole := h.whole
  have hRoot : fs.below (outputPath args file) [] = fs.lookup (outputPath args file) := by
    rw [FileTree.below, List.append_nil]
  rw [← hRoot]
  generalize fs.below (outputPath args file) = t at hWhole
  cases hWhole with
  | file => exact Option.some_ne_none _

/-- How far a batch has come: the files that are done have been converted, and the output path of
every other bag is as it was. -/
structure Progress (M : MainEnv δ) (r : Ready) (disk : FileTree ByteString δ) (args : Args)
    (done : List Path) (v : Visible δ) : Prop where
  extends_ : disk.Extends v.fs
  installed : v.installed = r.transformer.installed
  converted : ∀ file ∈ done, Converted M disk args v.fs file
  skipped : ∀ file, Candidate disk args.input file → file ∉ done →
    v.fs.below (outputPath args file) = disk.below (outputPath args file)

section Batch

variable {r : Ready} {disk : FileSystem ByteString δ} {args : Args} {v v' : Visible δ} {file : Path}
  {done : List Path} (hReady : M.prepare = .ok (some r))
  (hDir : isDir (disk.tree.lookup args.input) = true)

include hDir in
theorem Progress.arrived (h : Progress M r disk.tree args done v)
    (hDone : ∀ other ∈ done, Candidate disk.tree args.input other)
    (hFile : Candidate disk.tree args.input file)
    (hArrived : Arrived M disk.tree file (outputPath args file) v v') :
    Progress M r disk.tree args (done ++ [file]) v' := by
  have hElsewhere : ∀ other, Candidate disk.tree args.input other → other ≠ file →
      v'.fs.below (outputPath args other) = v.fs.below (outputPath args other) :=
    fun other hOther hNe =>
      hArrived.toChanged.below_eq (hFile.source hDir) (hOther.source hDir) hNe
  refine ⟨hArrived.extends_, hArrived.installed.trans h.installed, fun other hMem => ?_,
    fun other hOther hNot => ?_⟩
  · by_cases hEq : other = file
    · exact hEq ▸ ⟨hArrived.new, hArrived.whole⟩
    · have hBefore : other ∈ done := by simpa [hEq] using hMem
      exact (h.converted other hBefore).of_below_eq (hElsewhere other (hDone other hBefore) hEq)
  · obtain ⟨hNotDone, hNe⟩ : other ∉ done ∧ other ≠ file := by simpa using hNot
    exact (hElsewhere other hOther hNe).trans (h.skipped other hOther hNotDone)

include hReady hDir in
/-- The loop returns 0 only when every file of it has been converted. -/
theorem convertFiles_progress (done files : List Path)
    (hFiles : ∀ file ∈ files, Candidate disk.tree args.input file)
    (hDone : ∀ file ∈ done, Candidate disk.tree args.input file) :
    Triple (fun s => Progress M r disk.tree args done s.visible) (convertFiles M r args files)
      (fun ret s => ret = 0 → Progress M r disk.tree args (done ++ files) s.visible)
      (fun _ _ => True) := by
  induction files generalizing done with
  | nil => exact Triple.pure fun s hs _ => by rwa [List.append_nil]
  | cons file rest ih =>
    have hFile := hFiles file List.mem_cons_self
    refine Triple.at fun v hv => ?_
    refine Triple.bind ((convertFile_visible hReady (hFile.source hDir) hv.extends_
      hv.installed).exits fun _ _ _ => trivial) fun ret => ?_
    by_cases hRet : ret = 0
    · subst hRet
      rw [if_neg (by simp)]
      have hNext := ih (done ++ [file])
        (fun other hOther => hFiles other (List.mem_cons_of_mem _ hOther)) fun other hOther => by
          rcases List.mem_append.mp hOther with hBefore | hLast
          · exact hDone other hBefore
          · exact List.mem_singleton.mp hLast ▸ hFile
      rw [List.append_assoc, List.singleton_append] at hNext
      refine hNext.pre fun s hs => ?_
      cases hs with
      | quiet hNotZero => exact absurd rfl hNotZero
      | arrived hArrived => exact hv.arrived hDir hDone hFile hArrived
    · rw [if_pos hRet]
      exact Triple.pure fun s _ hZero => absurd hZero hRet

include hReady hDir in
theorem convertBatch_progress (hFs : v.fs = disk.tree)
    (hInstalled : v.installed = r.transformer.installed) :
    Triple (fun s => s.visible = v) (convertBatch M r args)
      (fun ret s => ret = 0 →
        Progress M r disk.tree args (findBagFiles disk.tree args.input) s.visible)
      (fun _ _ => True) := by
  refine Triple.bind (call_visible.exits fun _ _ _ => trivial) fun _ =>
    Triple.get_bind fun s₀ hs₀ => ?_
  have hDisk : s₀.fs = disk.tree := (congrArg Visible.fs hs₀).trans hFs
  have hStart : ∀ s, s = s₀ → Progress M r disk.tree args [] s.visible := by
    intro s hs
    rw [hs, hs₀]
    exact ⟨fun _ _ h => hFs ▸ h, hInstalled, by simp, fun _ _ _ => by rw [hFs]⟩
  rw [hDisk]
  simp only
  split
  · exact Triple.pure fun s _ hZero => by simp at hZero
  · exact (convertFiles_progress hReady hDir [] _
      (fun file hFile => (mem_findBagFiles.mp hFile).1) (by simp)).pre hStart

include hDir in
theorem main_progress (M : MainEnv δ) :
    Triple (fun s => s = World.start disk.tree) (main M args)
      (fun ret s => ret = 0 →
        ∃ r, Progress M r disk.tree args (findBagFiles disk.tree args.input) s.visible)
      (fun _ _ => True) := by
  refine main_ends (Q := fun ret v => ret = 0 →
    ∃ r, Progress M r disk.tree args (findBagFiles disk.tree args.input) v)
    (fun _ v _ hZero => by simp at hZero) (fun _ _ _ => trivial) (fun _ _ _ _ => trivial)
    (fun r hPrepare _ => ?_) fun r _ hNot => ?_
  · exact (convertBatch_progress hPrepare hDir rfl rfl).post fun _ s hs hZero => ⟨r, hs hZero⟩
  · rw [hDir] at hNot
    contradiction

end Batch

theorem returned_eq_some {ε σ α : Type} {run : EStateM.Result ε σ α} {a : α}
    (h : returned run = some a) : run = .ok a (final run) := by
  cases run with
  | ok b s => rw [show b = a from Option.some.inj h]; rfl
  | error e s => contradiction

/-- A batch that returns 0 is complete exactly if no bag of the tree has the name of a temporary
directory somewhere in its path. -/
theorem complete_iff (M : MainEnv δ) (disk : FileSystem ByteString δ) (args : Args)
    (hDir : isDir (disk.tree.lookup args.input) = true)
    (hZero : returned (main M args (World.start disk.tree)) = some 0) :
    Complete M disk.tree args (final (main M args (World.start disk.tree))).fs ↔
      ∀ file, Candidate disk.tree args.input file → ¬ bagSuffix <:+: file.string := by
  obtain ⟨r, hProgress⟩ :=
    (main_progress hDir M).ok (P := fun s => s = World.start disk.tree) rfl
      (returned_eq_some hZero) rfl
  constructor
  · intro hComplete file hFile hSuffix
    have hNot : file ∉ findBagFiles disk.tree args.input :=
      fun hMem => (mem_findBagFiles.mp hMem).2 hSuffix
    have hConverted := hComplete.converted file hFile
    have hSame := congrFun (hProgress.skipped file hFile hNot) []
    rw [FileTree.below, FileTree.below, List.append_nil, hConverted.new] at hSame
    exact hConverted.present hSame
  · intro hNames
    refine ⟨fun file hFile => ?_, fun file other hFile hOther hSame => ?_,
      fun file other hFile hOther => ?_, hProgress.extends_⟩
    · exact hProgress.converted file (mem_findBagFiles.mpr ⟨hFile, hNames file hFile⟩)
    · exact eq_of_outputPath_above (hFile.source hDir) (hOther.source hDir)
        (hSame ▸ List.prefix_rfl)
    · exact bagTmp_not_above (hFile.source hDir) (hOther.source hDir)

/-! ### Sample runs -/

/-- A bag, and a file that an interrupted run has left. -/
def leftoverDisk : FileSystem ByteString Nat where
  tree := List.toAList [⟨[], .dir⟩, ⟨["in"], .dir⟩, ⟨["in", "a.mcap"], .file 0⟩,
    ⟨["in", "b.mcap.__bag"], .dir⟩, ⟨["in", "b.mcap.__bag", "b_0.mcap"], .file 0⟩]
  wellFormed := wellFormed_of_keys (by decide)

/-- Two bags, one of which has the name of a temporary directory within its own. -/
def renamedDisk : FileSystem ByteString Nat where
  tree := List.toAList [⟨[], .dir⟩, ⟨["in"], .dir⟩, ⟨["in", "a.mcap"], .file 0⟩,
    ⟨["in", "b.__bag.mcap"], .file 0⟩]
  wellFormed := wellFormed_of_keys (by decide)

theorem complete_iff_leftover :
    Complete emptyBagEnv leftoverDisk.tree ⟨["in"], ["out"]⟩
      (final (main emptyBagEnv ⟨["in"], ["out"]⟩ (World.start leftoverDisk.tree))).fs := by
  have hNames : ∀ file ∈ leftoverDisk.tree.keys, isFile (leftoverDisk.tree.lookup file) = true →
      (∀ name ∈ Path.parentPath file, ¬ bagSuffix <:+ name) →
      ¬ bagSuffix <:+: Path.string file := by
    decide +kernel
  refine (complete_iff emptyBagEnv leftoverDisk ⟨["in"], ["out"]⟩ (by decide +kernel)
    (by decide +kernel)).mpr fun file hFile => ?_
  obtain ⟨d, hData⟩ := isFile_iff.mp hFile.data
  exact hNames file (UnorderedMap.mem_keys_iff.mpr (by simp [hData])) hFile.data hFile.outside

/-- The second bag is passed over, and the converter returns 0. -/
theorem renamed_passed_over :
    let run := main emptyBagEnv ⟨["in"], ["out"]⟩ (World.start renamedDisk.tree)
    isDir (renamedDisk.tree.lookup [str "in"]) = true ∧ returned run = some 0 ∧
      ¬ Complete emptyBagEnv renamedDisk.tree ⟨["in"], ["out"]⟩ (final run).fs := by
  intro run
  have hCandidate : Candidate renamedDisk.tree ["in"] ["in", "b.__bag.mcap"] :=
    ⟨by decide +kernel, by decide +kernel, by decide +kernel, by decide +kernel⟩
  have hNone : (final run).fs.lookup [str "out", "b.__bag.mcap"] = none := by decide +kernel
  refine ⟨by decide +kernel, by decide +kernel, fun hComplete => ?_⟩
  exact (hComplete.converted _ hCandidate).present hNone

end Converter

end VehicleCanDecoder
