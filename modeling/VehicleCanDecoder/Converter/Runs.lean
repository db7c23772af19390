import VehicleCanDecoder.Converter.Complete

/-! Runs of the converter, one after the other on one file system.  However they end, they leave a
file system, they take nothing away and change nothing that was there: what they add is on the way
to their `--output` paths, there, or below. -/

namespace VehicleCanDecoder

open Hoare FileTree

namespace Converter

variable {δ : Type} {M : MainEnv δ}

/-! ### What is left is a file system -/

theorem bagTree_wellFormed (files : UnorderedMap ByteString δ) : (bagTree files).WellFormed := by
  intro p rest hRest hSome
  obtain rfl : p = [] := by
    by_contra hNe
    refine hSome ?_
    have hEntry : (files.items .listed).filter (fun e => decide ([e.1] = p ++ rest)) = [] := by
      refine List.filter_eq_nil_iff.mpr fun e _ => ?_
      rw [decide_eq_true_eq]
      intro hEq
      have hLength := congrArg List.length hEq
      have hOne := List.length_pos_iff.mpr hNe
      have hOther := List.length_pos_iff.mpr hRest
      rw [List.length_singleton, List.length_append] at hLength
      omega
    unfold bagTree
    rw [UnorderedMap.lookup_foldl_insert, hEntry]
    exact AList.lookup_eq_none.mpr (by simp [AList.mem_keys, hRest])
  exact bagTree_root files

theorem DirsMade.graft {p : Path} {fs fs' t : FileTree ByteString δ} (h : DirsMade p fs fs')
    (hFs : fs.WellFormed) (ht : t.WellFormed) : (fs'.graft p t).WellFormed :=
  (h.wellFormed hFs).graft ht fun _ hPrefix _ => (h.wellFormed hFs).above h.made hPrefix

section Placed

variable {r : Ready} {input output : Path} {ret : Option Nat} {v v' : Visible δ}

theorem OneEnds.wellFormed (h : OneEnds M r input output v ret v') (hv : v.fs.WellFormed) :
    v'.fs.WellFormed := by
  cases h with
  | untouched _ hDirs => exact hDirs.wellFormed hv
  | complete _ _ _ hDirs => exact hDirs.graft hv (bagTree_wellFormed _)
  | partly _ _ hDirs left => exact hDirs.graft hv (bagTree_wellFormed left)

/-- A well-formed tree with a directory for a path. -/
structure Placed (out : Path) (v : Visible δ) : Prop where
  wellFormed : v.fs.WellFormed
  parent : v.fs.lookup out.parentPath = some .dir

theorem Placed.above {out : Path} (h : Placed out v) (hNe : out ≠ []) {q : Path}
    (hPrefix : q <+: out) (hq : q ≠ out) : v.fs.lookup q = some .dir := by
  rw [← parentPath_filename hNe] at hPrefix hq
  exact h.wellFormed.above h.parent ((List.prefix_concat_iff.mp hPrefix).resolve_left hq)

theorem OneEnds.placed {out : Path} (h : OneEnds M r input (bagTmp out) v ret v')
    (hv : Placed out v) : Placed out v' := by
  have hGraft : ∀ fs' t, DirsMade (bagTmp out) v.fs fs' →
      (fs'.graft (bagTmp out) t).lookup out.parentPath = some .dir := fun fs' t hDirs =>
    (graft_lookup fs' t bagTmp_not_on_way).trans (hDirs.extends_ _ _ hv.parent)
  refine ⟨h.wellFormed hv.wellFormed, ?_⟩
  cases h with
  | untouched _ hDirs => exact hDirs.extends_ _ _ hv.parent
  | complete _ _ _ hDirs => exact hGraft _ _ hDirs
  | partly _ _ hDirs left => exact hGraft _ _ hDirs

theorem removeAll_wellFormed (p : Path) :
    Triple (fun s => s.fs.WellFormed) (removeAll M p) (fun _ s => s.fs.WellFormed)
      (fun _ s => s.fs.WellFormed) := by
  refine Triple.get_bind fun s₀ hs₀ => Triple.bind (call_leaving (v := s₀.visible) rfl ?_) fun _ =>
    Triple.modify fun s hs => ?_
  · intro s hs
    have hFs : s.fs = s₀.fs := congrArg Visible.fs hs
    rw [← hFs] at hs₀
    -- What is kept is kept with the directories that it is in.
    refine hs₀.filterKeys fun q rest _ hKeep => ?_
    simp only [Bool.or_eq_true, Bool.not_eq_true', decide_eq_false_iff_not, List.any_eq_true,
      Bool.and_eq_true, decide_eq_true_eq] at hKeep ⊢
    refine hKeep.imp (fun hOff hBelow => hOff (hBelow.trans (List.prefix_append q rest))) ?_
    rintro ⟨kept, hMem, hBelow, hKept⟩
    exact ⟨kept, hMem, (List.prefix_append q rest).trans hBelow, hKept⟩
  · have hFs : s.fs = s₀.fs := congrArg Visible.fs hs
    rw [← hFs] at hs₀
    exact hs₀.removeTree p

end Placed

/-! ### One file -/

section File

variable {r : Ready} {disk : FileSystem ByteString δ} {args : Args} {file : Path}
  {v w : Visible δ} (hFile : Source disk.tree args.input file)

include hFile in
/-- The move of the data file, however it ends. -/
theorem moveFile_changes (h : Changed disk.tree (outputPath args file) v w)
    (hTmp : disk.tree.lookup (bagTmp (outputPath args file)) = none)
    (hNew : disk.tree.lookup (outputPath args file) = none) (name : ByteString) :
    Triple (fun s => s.visible = w)
      (moveFile M (bagTmp (outputPath args file) ++ [name]) (outputPath args file))
      (fun _ s => Changed disk.tree (outputPath args file) v s.visible)
      (fun _ s => Changed disk.tree (outputPath args file) v s.visible) := by
  have hMoved : ∀ d fs', Moved (bagTmp (outputPath args file) ++ [name]) (outputPath args file)
      d w.fs fs' → Changed disk.tree (outputPath args file) v { w with fs := fs' } :=
    fun d fs' hMoved => h.atOutput hTmp hNew fun q hq hq' => hMoved.same q
      (fun hBelow => hq ((List.prefix_append ..).trans hBelow)) hq'
  refine (moveFile_visible ((bagTmp_apart hFile hFile).append_left [name])).weaken ?_ ?_
  · rintro _ s ⟨d, fs', hMove, hs⟩
    exact hs ▸ hMoved d fs' hMove
  · rintro _ s (hs | ⟨left, -, hs⟩ | ⟨d, fs', hMove, hs⟩)
    · exact hs ▸ h
    · exact hs ▸ h.atOutput hTmp hNew fun q _ hq => sameOff_graft _ _ _ q hq
    · exact hs ▸ hMoved d fs' hMove

include hFile in
theorem moveFile_wellFormed (h : Placed (outputPath args file) w) (name : ByteString) :
    Triple (fun s => s.visible = w)
      (moveFile M (bagTmp (outputPath args file) ++ [name]) (outputPath args file))
      (fun _ s => s.fs.WellFormed) (fun _ s => s.fs.WellFormed) := by
  have hAbove : ∀ q, q <+: outputPath args file → q ≠ outputPath args file →
      w.fs.lookup q = some .dir := fun q => h.above (outputPath_ne_nil hFile)
  have hFs : ∀ {s : World δ} {fs'}, s.visible = { w with fs := fs' } → fs'.WellFormed →
      s.fs.WellFormed := by
    rintro s fs' hs hFs'
    rwa [show s.fs = fs' from congrArg Visible.fs hs]
  refine (moveFile_visible ((bagTmp_apart hFile hFile).append_left [name])).weaken ?_ ?_
  · rintro _ s ⟨d, fs', hMove, hs⟩
    exact hFs hs (hMove.wellFormed h.wellFormed hAbove)
  · rintro _ s (hs | ⟨left, -, hs⟩ | ⟨d, fs', hMove, hs⟩)
    · exact hFs hs h.wellFormed
    · refine hFs hs (h.wellFormed.graft ?_ hAbove)
      cases left with
      | none => exact fun _ _ _ hSome => absurd (AList.lookup_empty _) hSome
      | some d => exact leaf_wellFormed d
    · exact hFs hs (hMove.wellFormed h.wellFormed hAbove)

include hFile in
/-- The body of the loop, however it ends. -/
theorem convertFile_changes (hExtends : disk.tree.Extends v.fs)
    (hInstalled : v.installed = r.transformer.installed) :
    Triple (fun s => s.visible = v) (convertFile M r args file)
      (fun _ s => Changed disk.tree (outputPath args file) v s.visible)
      (fun _ s => Changed disk.tree (outputPath args file) v s.visible) := by
  refine Triple.bind ((createDirectories_quiet hFile hExtends).exits fun _ _ hs => hs.toChanged)
    fun _ => Triple.at fun v₁ hQuiet => ?_
  have hHere : ∀ s : World δ, s.visible = v₁ →
      Changed disk.tree (outputPath args file) v s.visible := fun s hs => hs ▸ hQuiet.toChanged
  refine Triple.bind ((pathExists_visible _).exits fun _ => hHere)
    fun there => Triple.assume fun hThere => ?_
  cases there with
  | true => exact Triple.pure hHere
  | false =>
  have hNew := hQuiet.extends_.none (p := outputPath args file) (by simpa using hThere.symm)
  refine Triple.bind ((pathExists_visible _).exits fun _ => hHere)
    fun there => Triple.assume fun hThere' => ?_
  cases there with
  | true => exact Triple.pure hHere
  | false =>
  have hTmp := hQuiet.extends_.none (p := bagTmp (outputPath args file))
    (by simpa using hThere'.symm)
  have hRemove := removeAll_keeps (M := M) (I := Changed disk.tree (outputPath args file) v)
    fun w fs' hw hSame => hw.inTmp hTmp hSame
  have hOne : Triple (fun s => s.visible = v₁)
      (convertOne M r file (bagTmp (outputPath args file)))
      (fun _ s => Changed disk.tree (outputPath args file) v s.visible)
      (fun _ s => Changed disk.tree (outputPath args file) v s.visible) :=
    (convertOne_visible (hQuiet.installed.trans hInstalled) file _).weaken
      (fun _ _ hs => (hs.quiet hFile hQuiet hTmp).toChanged)
      fun _ _ hs => (hs.quiet hFile hQuiet hTmp).toChanged
  refine Triple.bind hOne fun ret => ?_
  split
  · exact Triple.bind hRemove fun _ => Triple.pure fun _ hs => hs
  · refine Triple.bind (Triple.at fun w hw => call_visible.weaken (fun _ s hs => hs ▸ hw)
      fun _ s hs => hs ▸ hw) fun _ => Triple.get_bind fun s₀ hs₀ => ?_
    split
    · rename_i found hFound
      obtain ⟨name, rfl, -, -⟩ :
          ∃ name, found = bagTmp (outputPath args file) ++ [name] ∧ _ :=
        mem_dataFiles.mp (hFound ▸ List.mem_singleton_self found)
      refine Triple.bind ((moveFile_changes hFile hs₀ hTmp hNew name).pre ?_) fun _ =>
        Triple.bind hRemove fun _ => Triple.pure fun _ hs => hs
      rintro s rfl
      rfl
    · exact Triple.pure fun s hs => hs ▸ hs₀

include hFile in
theorem convertFile_wellFormed (hv : v.fs.WellFormed)
    (hInstalled : v.installed = r.transformer.installed) :
    Triple (fun s => s.visible = v) (convertFile M r args file)
      (fun _ s => s.fs.WellFormed) (fun _ s => s.fs.WellFormed) := by
  let out := outputPath args file
  refine Triple.bind ((createDirectories_visible out.parentPath).exits ?_) fun _ =>
    Triple.exists fun fs' => Triple.assume fun hMade => ?_
  · rintro _ s ⟨fs', ⟨hDirs, -⟩, hs⟩
    rw [show s.fs = fs' from congrArg Visible.fs hs]
    exact hDirs.wellFormed hv
  have hPlaced : Placed out { v with fs := fs' } := ⟨hMade.wellFormed hv, hMade.made⟩
  have hHere : ∀ s : World δ, s.visible = { v with fs := fs' } → s.fs.WellFormed := fun s hs => by
    rw [show s.fs = fs' from congrArg Visible.fs hs]
    exact hPlaced.wellFormed
  refine Triple.bind ((pathExists_visible _).exits fun _ => hHere)
    fun there => Triple.assume fun _ => ?_
  cases there with
  | true => exact Triple.pure hHere
  | false =>
  refine Triple.bind ((pathExists_visible _).exits fun _ => hHere)
    fun there => Triple.assume fun _ => ?_
  cases there with
  | true => exact Triple.pure hHere
  | false =>
  have hOne : Triple (fun s => s.visible = { v with fs := fs' }) (convertOne M r file (bagTmp out))
      (fun _ s => Placed out s.visible) (fun _ s => s.fs.WellFormed) :=
    (convertOne_visible (v := { v with fs := fs' }) hInstalled file _).weaken
      (fun _ _ hs => hs.placed hPlaced) fun _ _ hs => hs.wellFormed hPlaced.wellFormed
  refine Triple.bind hOne fun ret => ?_
  split
  · exact Triple.bind ((removeAll_wellFormed _).pre fun _ hs => hs.wellFormed) fun _ =>
      Triple.pure fun _ hs => hs
  · refine Triple.bind (Triple.at fun w hw => call_visible.weaken (fun _ s hs => hs ▸ hw)
      fun _ s hs => (hs ▸ hw : Placed out s.visible).wellFormed) fun _ =>
        Triple.get_bind fun s₀ hs₀ => ?_
    split
    · rename_i found hFound
      obtain ⟨name, rfl, -, -⟩ : ∃ name, found = bagTmp out ++ [name] ∧ _ :=
        mem_dataFiles.mp (hFound ▸ List.mem_singleton_self found)
      refine Triple.bind ((moveFile_wellFormed hFile hs₀ name).pre ?_) fun _ =>
        Triple.bind (removeAll_wellFormed _) fun _ => Triple.pure fun _ hs => hs
      rintro s rfl
      rfl
    · exact Triple.pure fun s hs => hs ▸ hs₀.wellFormed

end File

/-! ### A whole run -/

/-- A path on the way to another, there, or below it. -/
def Near (out q : Path) : Prop := q <+: out ∨ out <+: q

/-- A file system from which nothing has been taken away, where nothing has been changed, and where
what has been added is near the output path. -/
structure Grown (disk : FileTree ByteString δ) (out : Path) (fs : FileTree ByteString δ) :
    Prop where
  extends_ : disk.Extends fs
  same : ∀ q, ¬ Near out q → fs.lookup q = disk.lookup q
  wellFormed : fs.WellFormed

theorem Grown.refl (disk : FileSystem ByteString δ) (out : Path) :
    Grown disk.tree out disk.tree :=
  ⟨fun _ _ h => h, fun _ _ => rfl, disk.wellFormed⟩

section Run

variable {r : Ready} {disk : FileSystem ByteString δ} {args : Args} {v v' : Visible δ}

/-- What the conversion of a file changes is near the output path of the batch. -/
theorem Grown.changed {file : Path} (hFile : Source disk.tree args.input file)
    (h : Grown disk.tree args.output v.fs)
    (hChanged : Changed disk.tree (outputPath args file) v v') (hWellFormed : v'.fs.WellFormed) :
    Grown disk.tree args.output v'.fs where
  wellFormed := hWellFormed
  extends_ := hChanged.extends_
  same q hq := by
    obtain ⟨⟨rel, hRel, rfl⟩, -, -⟩ := hFile
    rw [outputPath_append] at hChanged
    have hParent : Path.parentPath (args.output ++ rel) = args.output ++ rel.dropLast :=
      List.dropLast_append_of_ne_nil hRel
    refine (hChanged.same q (fun hAbove => ?_) (fun hBelow => ?_) fun hBelow => ?_).trans
      (h.same q hq)
    · rw [hParent] at hAbove
      exact hq (List.prefix_or_prefix_of_prefix hAbove (List.prefix_append ..))
    · rw [bagTmp, hParent, List.append_assoc] at hBelow
      exact hq (.inr ((List.prefix_append ..).trans hBelow))
    · exact hq (.inr ((List.prefix_append ..).trans hBelow))

theorem OneEnds.grown {input output : Path} {ret : Option Nat} (hFs : v.fs = disk.tree)
    (h : OneEnds M r input output v ret v') : Grown disk.tree output v'.fs := by
  have hWellFormed := h.wellFormed (hFs ▸ disk.wellFormed)
  have hDirs : ∀ {fs'}, DirsAdded output v.fs fs' → disk.tree.Extends fs' ∧
      ∀ q, ¬ Near output q → fs'.lookup q = disk.tree.lookup q := by
    rw [hFs]
    exact fun h => ⟨h.extends_, fun q hq => h.same q fun hAbove => hq (.inl hAbove)⟩
  have hGraft : ∀ {fs'} t, v.fs.lookup output = none → DirsAdded output v.fs fs' →
      disk.tree.Extends (fs'.graft output t) ∧
        ∀ q, ¬ Near output q → (fs'.graft output t).lookup q = disk.tree.lookup q := by
    intro fs' t hNew h
    have hSame := sameOff_graft fs' output t
    exact ⟨hSame.extends disk.wellFormed (hDirs h).1 (hFs ▸ hNew),
      fun q hq => (hSame q fun h => hq (.inr h)).trans ((hDirs h).2 q hq)⟩
  cases h with
  | untouched _ h => exact ⟨(hDirs h).1, (hDirs h).2, hWellFormed⟩
  | @complete data files fs' hNew _ _ h =>
    have hBoth := hGraft (bagTree files) hNew h.toDirsAdded
    exact ⟨hBoth.1, hBoth.2, hWellFormed⟩
  | partly _ hNew h left =>
    have hBoth := hGraft (bagTree left) hNew h.toDirsAdded
    exact ⟨hBoth.1, hBoth.2, hWellFormed⟩

theorem convertFiles_grows (files : List Path)
    (hFiles : ∀ file ∈ files, Source disk.tree args.input file) :
    Triple (fun s => Grown disk.tree args.output s.visible.fs ∧
        s.visible.installed = r.transformer.installed)
      (convertFiles M r args files)
      (fun _ s => Grown disk.tree args.output s.visible.fs)
      (fun _ s => Grown disk.tree args.output s.visible.fs) := by
  induction files with
  | nil => exact Triple.pure fun _ hs => hs.1
  | cons file rest ih =>
    have hFile := hFiles file List.mem_cons_self
    have hBody : Triple (fun s => Grown disk.tree args.output s.visible.fs ∧
          s.visible.installed = r.transformer.installed)
        (convertFile M r args file)
        (fun _ s => Grown disk.tree args.output s.visible.fs ∧
          s.visible.installed = r.transformer.installed)
        (fun _ s => Grown disk.tree args.output s.visible.fs) :=
      Triple.at (I := fun v : Visible δ => Grown disk.tree args.output v.fs ∧
        v.installed = r.transformer.installed) fun v hv =>
        ((convertFile_changes hFile hv.1.extends_ hv.2).and
          (convertFile_wellFormed hFile hv.1.wellFormed hv.2)).weaken
          (fun _ _ hs => ⟨hv.1.changed hFile hs.1 hs.2, hs.1.installed.trans hv.2⟩)
          fun _ _ hs => hv.1.changed hFile hs.1 hs.2
    refine Triple.bind hBody fun ret => ?_
    by_cases hRet : ret = 0
    · rw [if_neg (not_not.mpr hRet)]
      exact ih fun file hFile => hFiles file (List.mem_cons_of_mem _ hFile)
    · rw [if_pos hRet]
      exact Triple.pure fun _ hs => hs.1

theorem convertBatch_grows (hDir : isDir (disk.tree.lookup args.input) = true)
    (hFs : v.fs = disk.tree) (hInstalled : v.installed = r.transformer.installed) :
    Triple (fun s => s.visible = v) (convertBatch M r args)
      (fun _ s => Grown disk.tree args.output s.visible.fs)
      (fun _ s => Grown disk.tree args.output s.visible.fs) := by
  have hStart : Grown disk.tree args.output v.fs := hFs ▸ Grown.refl disk args.output
  refine Triple.bind (call_visible.exits fun _ s hs => hs ▸ hStart) fun _ =>
    Triple.get_bind fun s₀ hs₀ => ?_
  have hDisk : s₀.fs = disk.tree := (congrArg Visible.fs hs₀).trans hFs
  rw [hDisk]
  simp only
  split
  · exact Triple.pure fun s hs => hs ▸ hs₀ ▸ hStart
  · refine (convertFiles_grows _ fun file hFile => source_of_mem hDir hFile).pre ?_
    rintro s rfl
    rw [hs₀]
    exact ⟨hStart, hInstalled⟩

/-- However a run ends, it leaves a file system, and has only added to it, near its output path. -/
theorem main_grows (M : MainEnv δ) (disk : FileSystem ByteString δ) (args : Args) :
    Grown disk.tree args.output (final (main M args (World.start disk.tree))).fs := by
  have hRefl : ∀ v : Visible δ, v.fs = disk.tree → Grown disk.tree args.output v.fs :=
    fun v hv => hv ▸ Grown.refl disk args.output
  exact (main_ends (Q := fun _ v => Grown disk.tree args.output v.fs) (fun _ => hRefl)
    (fun _ => hRefl) (fun _ _ _ h => h) (fun r _ hDir => convertBatch_grows hDir rfl rfl)
    fun r _ _ => (convertOne_single r disk.tree args).weaken
      (fun _ _ hs => hs.1.grown rfl) fun _ _ hs => hs.1.grown rfl).final
    (Q := fun s : World δ => Grown disk.tree args.output s.fs) rfl

end Run

/-! ### One run after the other -/

/-- A run of the converter: its options, and what goes on outside while it runs. -/
structure Run (δ : Type) where
  env : MainEnv δ
  args : Args

/-- The file system that a run leaves, whether it succeeds or not. -/
def Run.leaves (run : Run δ) (disk : FileSystem ByteString δ) : FileSystem ByteString δ where
  tree := (final (main run.env run.args (World.start disk.tree))).fs
  wellFormed := (main_grows run.env disk run.args).wellFormed

/-- The file system that runs leave, each on what those before it have left. -/
def afterRuns (disk : FileSystem ByteString δ) (runs : List (Run δ)) : FileSystem ByteString δ :=
  runs.foldl (fun disk run => run.leaves disk) disk

theorem afterRuns_cons (disk : FileSystem ByteString δ) (run : Run δ) (rest : List (Run δ)) :
    afterRuns disk (run :: rest) = afterRuns (run.leaves disk) rest := rfl

theorem runs_extend (disk : FileSystem ByteString δ) (runs : List (Run δ)) :
    disk.tree.Extends (afterRuns disk runs).tree := by
  induction runs generalizing disk with
  | nil => exact fun _ _ h => h
  | cons run rest ih =>
    exact fun q e hq => ih (run.leaves disk) q e
      ((main_grows run.env disk run.args).extends_ q e hq)

/-- No sequence of runs takes anything away from the file system or changes anything there: all
inputs, all outputs of earlier runs and all other files are as they were.  What is new is near the
output path of one of the runs. -/
theorem runs_grow (disk : FileSystem ByteString δ) (runs : List (Run δ)) :
    disk.tree.Extends (afterRuns disk runs).tree ∧
      ∀ q, (∀ run ∈ runs, ¬ Near run.args.output q) →
        (afterRuns disk runs).tree.lookup q = disk.tree.lookup q := by
  refine ⟨runs_extend disk runs, fun q hq => ?_⟩
  induction runs generalizing disk with
  | nil => rfl
  | cons run rest ih =>
    rw [afterRuns_cons, ih (run.leaves disk) fun run hMem => hq run (List.mem_cons_of_mem _ hMem)]
    exact (main_grows run.env disk run.args).same q (hq run List.mem_cons_self)

/-- The file system after a batch of one empty bag. -/
def batchDisk : FileSystem ByteString Nat where
  tree := List.toAList [⟨["out", "a.mcap"], .file 1⟩, ⟨["out"], .dir⟩, ⟨[], .dir⟩, ⟨["in"], .dir⟩,
    ⟨["in", "a.mcap"], .file 0⟩]
  wellFormed := wellFormed_of_keys (by decide)

theorem batch_ends :
    (final (main emptyBagEnv ⟨["in"], ["out"]⟩ (World.start brokenDisk.tree))).fs =
      batchDisk.tree :=
  AList.ext (by decide +kernel)

/-- The broken bag by itself, which leaves a part of its output in a directory that is new. -/
def partRun : Run Nat := ⟨brokenEnv, ⟨["in", "a.mcap"], ["new", "part"]⟩⟩

theorem runs_grow_sample :
    isDir ((afterRuns batchDisk [partRun]).tree.lookup [str "new", str "part"]) = true ∧
      (afterRuns batchDisk [partRun]).tree.below ["out"] = batchDisk.tree.below ["out"] := by
  have hGrow := runs_grow batchDisk [partRun]
  refine ⟨by decide +kernel, funext fun q => hGrow.2 _ fun run hRun => ?_⟩
  obtain rfl := List.mem_singleton.mp hRun
  rintro (hWay | hBelow)
  · exact absurd ((List.prefix_append ..).trans hWay) (by decide)
  · exact absurd (List.prefix_or_prefix_of_prefix hBelow (List.prefix_append ..)) (by decide)

/-- Nothing comes to stand below a file. -/
theorem below_of_extends {disk disk' : FileSystem ByteString δ}
    (h : disk.tree.Extends disk'.tree) {p : Path} {d : δ}
    (hFile : disk.tree.lookup p = some (.file d)) : disk'.tree.below p = disk.tree.below p := by
  have hNone : ∀ (disk : FileSystem ByteString δ), disk.tree.lookup p = some (.file d) →
      ∀ q, q ≠ [] → disk.tree.below p q = none := by
    intro disk hFile q hq
    by_contra hSome
    have hEq := disk.wellFormed.eq_of_above hFile (List.prefix_append p q) hSome
    exact hq (List.self_eq_append_right.mp hEq)
  have hHere := h p _ hFile
  funext q
  by_cases hq : q = []
  · rw [hq, FileTree.below, FileTree.below, List.append_nil, hHere, hFile]
  · rw [hNone disk hFile q hq, hNone disk' hHere q hq]

theorem Converted.isFile {disk fs : FileTree ByteString δ} {args : Args} {file : Path}
    (h : Converted M disk args fs file) :
    ∃ d, fs.lookup (outputPath args file) = some (.file d) := by
  have hWhole := h.whole
  have hRoot : fs.below (outputPath args file) [] = fs.lookup (outputPath args file) := by
    rw [FileTree.below, List.append_nil]
  rw [← hRoot]
  generalize fs.below (outputPath args file) = t at hWhole
  cases hWhole with
  | @file r data files d => exact ⟨d, rfl⟩

/-- What a batch that returned 0 has put at its output paths is there after any later runs. -/
theorem runs_keep_converted {disk : FileSystem ByteString δ} {run : Run δ} (later : List (Run δ))
    (hDir : isDir (disk.tree.lookup run.args.input) = true)
    (hZero : returned (main run.env run.args (World.start disk.tree)) = some 0) :
    ∀ file ∈ findBagFiles disk.tree run.args.input,
      Converted run.env disk.tree run.args (afterRuns disk (run :: later)).tree file := by
  intro file hFile
  obtain ⟨r, hProgress⟩ := (main_progress hDir run.env).ok rfl (returned_eq_some hZero) rfl
  have hConverted : Converted run.env disk.tree run.args (run.leaves disk).tree file :=
    hProgress.converted file hFile
  obtain ⟨d, hData⟩ := hConverted.isFile
  exact hConverted.of_below_eq (below_of_extends (runs_extend (run.leaves disk) later) hData)

theorem runs_keep_converted_sample :
    Converted emptyBagEnv brokenDisk.tree ⟨["in"], ["out"]⟩
      (afterRuns brokenDisk [⟨emptyBagEnv, ⟨["in"], ["out"]⟩⟩, partRun]).tree ["in", "a.mcap"] := by
  have hFile : (["in", "a.mcap"] : Path) ∈ findBagFiles brokenDisk.tree ["in"] := by
    decide +kernel
  exact @runs_keep_converted _ brokenDisk ⟨emptyBagEnv, ⟨["in"], ["out"]⟩⟩ [partRun]
    (by decide +kernel) (by decide +kernel) _ hFile

/-! ### A batch that is run again -/

section Again

/-- The file system looks as it did. -/
def Unchanged (disk : FileTree ByteString δ) (v : Visible δ) : Prop :=
  ∀ q, v.fs.lookup q = disk.lookup q

variable {disk disk' : FileSystem ByteString δ} {args : Args} {v : Visible δ}

/-- Making the directories on the way to something that is there changes nothing. -/
theorem createDirectories_present {out : Path} (hNe : out ≠ [])
    (hThere : disk.tree.lookup out ≠ none) (hSame : Unchanged disk.tree v) :
    Triple (fun s => s.visible = v) (createDirectories M out.parentPath)
      (fun _ s => Unchanged disk.tree s.visible) (fun _ s => Unchanged disk.tree s.visible) := by
  have hKept : ∀ fs', DirsAdded out.parentPath v.fs fs' →
      Unchanged disk.tree { v with fs := fs' } := by
    intro fs' hAdded q
    show fs'.lookup q = _
    by_cases hWay : q <+: out.parentPath
    · obtain ⟨rest, hRest⟩ := hWay
      have hDir : disk.tree.lookup q = some .dir := by
        refine disk.wellFormed q (rest ++ [out.filename]) (by simp) ?_
        rwa [← List.append_assoc, hRest, parentPath_filename hNe]
      rw [hDir]
      exact hAdded.extends_ q .dir ((hSame q).trans hDir)
    · rw [hAdded.same q hWay, hSame]
  refine (createDirectories_visible _).weaken ?_ ?_
  · rintro _ s ⟨fs', hMade, hs⟩
    exact hs ▸ hKept fs' hMade.toDirsAdded
  · rintro _ s ⟨fs', ⟨hAdded, -⟩, hs⟩
    exact hs ▸ hKept fs' hAdded

/-- The body of the loop stops at an output that is there. -/
theorem convertFile_present {r : Ready} {file : Path} (hNe : outputPath args file ≠ [])
    (hThere : disk.tree.lookup (outputPath args file) ≠ none) (hSame : Unchanged disk.tree v) :
    Triple (fun s => s.visible = v) (convertFile M r args file)
      (fun ret s => ret = 1 ∧ Unchanged disk.tree s.visible)
      (fun _ s => Unchanged disk.tree s.visible) := by
  refine Triple.bind (createDirectories_present hNe hThere hSame) fun _ =>
    Triple.at fun w hw => ?_
  refine Triple.bind ((pathExists_visible _).exits fun _ s hs => hs ▸ hw)
    fun there => Triple.assume fun hHere => ?_
  have hTrue : there = true := by
    rw [hHere, hw, Option.isSome_iff_ne_none]
    exact hThere
  rw [if_pos hTrue]
  exact Triple.pure fun s hs => ⟨rfl, hs ▸ hw⟩

/-- A bag of the directory after the batch was a bag of it before. -/
theorem findBagFiles_before (hGrown : Grown disk.tree args.output disk'.tree)
    (hIn : ¬ args.input <+: args.output) (hOut : ¬ args.output <+: args.input) {file : Path}
    (hFile : file ∈ findBagFiles disk'.tree args.input) :
    file ∈ findBagFiles disk.tree args.input := by
  obtain ⟨hCandidate, hName⟩ := mem_findBagFiles.mp hFile
  have hFar : ¬ Near args.output file := by
    rintro (hAbove | hBelow)
    · exact hIn (hCandidate.under.trans hAbove)
    · exact (List.prefix_or_prefix_of_prefix hCandidate.under hBelow).elim hIn hOut
  refine mem_findBagFiles.mpr ⟨⟨hCandidate.under, ?_, hCandidate.extension, hCandidate.outside⟩,
    hName⟩
  rw [← hGrown.same file hFar]
  exact hCandidate.data

/-- Once a batch has returned 0, the same batch can only fail, whatever the rest of its command line
is, and leaves everything as it is. -/
theorem main_again {M' : MainEnv δ} (hDir : isDir (disk.tree.lookup args.input) = true)
    (hIn : ¬ args.input <+: args.output) (hOut : ¬ args.output <+: args.input)
    (hZero : returned (main M args (World.start disk.tree)) = some 0)
    (hRun : (final (main M args (World.start disk.tree))).fs = disk'.tree) :
    Triple (fun s => s = World.start disk'.tree) (main M' args)
      (fun ret s => ret ≠ 0 ∧ Unchanged disk'.tree s.visible)
      (fun _ s => Unchanged disk'.tree s.visible) := by
  obtain ⟨r, hProgress⟩ := (main_progress hDir M).ok rfl (returned_eq_some hZero) rfl
  have hGrown : Grown disk.tree args.output disk'.tree := hRun ▸ main_grows M disk args
  have hStart : ∀ v : Visible δ, v.fs = disk'.tree → Unchanged disk'.tree v :=
    fun v hv q => by rw [hv]
  refine main_ends (Q := fun ret v => ret ≠ 0 ∧ Unchanged disk'.tree v)
    (fun _ v hv => ⟨one_ne_zero, hStart v hv⟩) (fun _ => hStart) (fun _ _ _ h => h.2)
    (fun r' _ hDir' => ?_) fun r' _ hNot => ?_
  · refine Triple.bind (call_visible.exits fun _ s hs => hs ▸ hStart _ rfl) fun _ =>
      Triple.get_bind fun s₀ hs₀ => ?_
    have hDisk : s₀.fs = disk'.tree := congrArg Visible.fs hs₀
    rw [hDisk]
    simp only
    split
    · exact Triple.pure fun s hs => ⟨one_ne_zero, hStart _ (hs ▸ hDisk)⟩
    · cases hFiles : findBagFiles disk'.tree args.input with
      | nil => contradiction
      | cons file rest =>
        have hMem : file ∈ findBagFiles disk'.tree args.input := hFiles ▸ List.mem_cons_self
        have hConverted := hProgress.converted file (findBagFiles_before hGrown hIn hOut hMem)
        have hThere : disk'.tree.lookup (outputPath args file) ≠ none := hRun ▸ hConverted.present
        have hNe : outputPath args file ≠ [] := outputPath_ne_nil (source_of_mem hDir' hMem)
        have hFirst : Triple (fun s => s = s₀) (convertFile M' r' args file)
            (fun ret s => ret = 1 ∧ Unchanged disk'.tree s.visible)
            (fun _ s => Unchanged disk'.tree s.visible) :=
          (convertFile_present hNe hThere (hStart s₀.visible hDisk)).pre (by rintro s rfl; rfl)
        refine Triple.bind hFirst fun ret => Triple.assume fun hRet => ?_
        rw [hRet, if_pos one_ne_zero]
        exact Triple.pure fun s hs => ⟨one_ne_zero, hs⟩
  · have hHere : disk.tree.lookup args.input = some .dir := by
      revert hDir
      cases disk.tree.lookup args.input with
      | none => simp [isDir]
      | some e => cases e <;> simp [isDir]
    rw [hGrown.extends_ _ _ hHere] at hNot
    contradiction

end Again

theorem main_again_sample :
    returned (main brokenEnv ⟨["in"], ["out"]⟩ (World.start batchDisk.tree)) ≠ some 0 := by
  have hAgain : Triple (fun s => s = World.start batchDisk.tree)
      (main brokenEnv ⟨["in"], ["out"]⟩)
      (fun ret s => ret ≠ 0 ∧ Unchanged batchDisk.tree s.visible)
      (fun _ s => Unchanged batchDisk.tree s.visible) :=
    main_again (by decide +kernel) (by decide) (by decide) (by decide +kernel) batch_ends
  intro hZero
  exact (hAgain.ok rfl (returned_eq_some hZero)).1 rfl

end Converter

end VehicleCanDecoder
