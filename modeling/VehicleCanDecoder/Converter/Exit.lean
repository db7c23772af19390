import VehicleCanDecoder.Converter.Runs
import VehicleCanDecoder.Converter.Summary

/-! Which runs of the converter return 0, where no call fails.  A bag is converted if nothing is in
the way of its output and its own contents do not make the conversion fail, whatever has been
converted before it. -/

namespace VehicleCanDecoder

open Hoare FileTree

namespace Converter

/-- No call fails. -/
structure MainEnv.Faultless {δ : Type} (M : MainEnv δ) : Prop where
  calls : ∀ k, M.fault k = none
  conversions : ∀ conversion k, M.convertFault conversion k = none

/-- The writer leaves one data file in the directory of a bag. -/
def MainEnv.WritesOneFile {δ : Type} (M : MainEnv δ) : Prop :=
  ∀ output storageId writer, ∃ d, OnlyDataFile (M.bagFiles output storageId writer) d

/-- A bag that can be opened, and of which no message fails. -/
def Convertible {δ : Type} (M : MainEnv δ) (r : Ready) (fs : FileTree ByteString δ)
    (input : Path) : Prop :=
  ∃ bag ∈ bagAt M fs input, ∀ msg ∈ bag.messages,
    ¬ Fails (M.convertEnv 0) r.cfg r.decoder r.router r.transformer msg

/-- A file of a batch that can be converted. -/
structure Passes {δ : Type} (M : MainEnv δ) (r : Ready) (args : Args) (fs : FileTree ByteString δ)
    (file : Path) : Prop where
  way : WayFree fs (outputPath args file).parentPath
  new : fs.lookup (outputPath args file) = none
  tmp : fs.lookup (bagTmp (outputPath args file)) = none
  converts : Convertible M r fs file

variable {δ : Type} {M : MainEnv δ} {v : Visible δ}

/-! ### Calls that do not fail -/

theorem MainEnv.Faultless.clean (h : M.Faultless) (s : World δ) :
    M.Clean s.calls s.conversions s := ⟨rfl, rfl, fun k _ => h.calls k⟩

section Calls

variable (hFaultless : M.Faultless)

include hFaultless

theorem call_returns : Returns (call M) := by
  refine Returns.get_bind fun s => Returns.bind (Triple.set fun _ _ => trivial) fun _ => ?_
  rw [hFaultless.calls]
  exact Returns.pure _

theorem removeAll_returns (p : Path) : Returns (removeAll M p) :=
  Returns.get_bind fun _ => ((call_returns hFaultless).tryCatch _).bind fun _ => Returns.modify _

theorem call_stays : Triple (fun s => s.visible = v) (call M) (fun _ s => s.visible = v)
    (fun _ _ => False) :=
  call_visible.returns (call_returns hFaultless)

theorem query_stays {β : Type} (f : FileTree ByteString δ → β) :
    Triple (fun s => s.visible = v) (do call M; let s ← get; pure (f s.fs) : Main δ β)
      (fun b s => b = f v.fs ∧ s.visible = v) (fun _ _ => False) :=
  (query_visible f).returns ((call_returns hFaultless).bind fun _ =>
    Returns.get_bind fun _ => Returns.pure _)

theorem pathExists_stays (p : Path) : Triple (fun s => s.visible = v) (pathExists M p)
    (fun b s => b = (v.fs.lookup p).isSome ∧ s.visible = v) (fun _ _ => False) :=
  query_stays hFaultless fun fs => (fs.lookup p).isSome

/-- The directories are made just if no file is in the way. -/
theorem createDirectories_files (p : Path) :
    Triple (fun s : World δ => s.visible = v) (createDirectories M p)
      (fun _ s => WayFree v.fs p ∧ ∃ fs', DirsAdded p v.fs fs' ∧ s.visible = { v with fs := fs' })
      (fun _ _ => ¬ WayFree v.fs p) := by
  refine Triple.of_eq fun s₀ hs₀ => ?_
  have hMade := (createDirectories_clean (M := M) (v := v) (k := s₀.calls) (c := s₀.conversions)
    p).and ((createDirectories_visible (M := M) (v := v) p).pre fun _ hs => hs.1)
  refine hMade.conseq ?_ ?_ fun _ _ hs => hs.1.resolve_right fun ⟨j, _, hFault⟩ =>
    hFault (hFaultless.calls j)
  · rintro s rfl
    exact ⟨hs₀, hFaultless.clean s⟩
  · rintro _ s ⟨hs, fs', hDirs, hView⟩
    exact ⟨hs.1, fs', hDirs.toDirsAdded, hView⟩

/-! ### One bag -/

theorem convertOne_exits {r : Ready} (hInstalled : v.installed = r.transformer.installed)
    (input output : Path) :
    Triple (fun s => s.visible = v) (convertOne M r input output)
      (fun ret _ => ret = 0 ↔
        v.fs.lookup output = none ∧ WayFree v.fs output ∧ Convertible M r v.fs input)
      (fun _ _ => ¬ (v.fs.lookup output = none ∧ WayFree v.fs output ∧
        Convertible M r v.fs input)) := by
  have hEnds : ∀ {n c ret v'}, SingleEnds M r input output n c v ret v' → (ret = some 0 ↔
      v.fs.lookup output = none ∧ WayFree v.fs output ∧ Convertible M r v.fs input) := by
    intro n c ret v' h
    cases h with
    | before hNot hRet =>
      refine iff_of_false hRet fun ⟨hNew, hWay, bag, hBag, _⟩ => ?_
      exact hNot bag ⟨hNew, hBag, hWay, fun j _ => hFaultless.calls j⟩
    | @after bag hOpens hLeft =>
      refine ⟨fun hRet => ⟨hOpens.new, hOpens.way, bag, hOpens.bag, hLeft.converted hRet⟩, ?_⟩
      rintro ⟨-, -, bag', hBag', hMessages⟩
      obtain rfl : bag' = bag := Option.some.inj (hBag'.symm.trans hOpens.bag)
      exact hLeft.through ⟨hFaultless.calls _, hFaultless.conversions _, hMessages,
        hFaultless.calls _⟩
  refine Triple.of_eq fun s₀ hs₀ => (convertOne_clean (M := M) (v := v) (k := s₀.calls)
    (c := s₀.conversions) hInstalled input output).conseq ?_ (fun ret _ hs => ?_) fun _ _ hs h => ?_
  · rintro s rfl
    exact ⟨hs₀, hFaultless.clean s⟩
  · rw [← hEnds hs, Option.some.injEq]
  · exact absurd ((hEnds hs).mpr h) (by simp)

/-- The rename does not fail. -/
theorem moveFile_renames {src : Path} {d : δ} (hData : v.fs.lookup src = some (.file d))
    (dst : Path) :
    Triple (fun s => s.visible = v) (moveFile M src dst)
      (fun _ s => s.visible = { v with fs := (v.fs.removeTree src).graft dst (leaf d) })
      (fun _ _ => False) := by
  refine Triple.tryCatch (C := fun _ _ => False) ?_ fun _ s hs => hs.elim
  refine Triple.of_eq fun s₀ hs₀ => ?_
  subst hs₀
  change s₀.fs.lookup src = _ at hData
  refine Triple.bind ((fileData_reads src s₀).exits fun _ s hs => ?_) fun d' =>
    Triple.assume fun hData' => ?_
  · simp [hData, isFile] at hs
  · obtain rfl : d = d' := by simpa using hData.symm.trans hData'
    refine Triple.bind ((call_stays hFaultless).pre (by rintro s rfl; rfl)) fun _ =>
      Triple.modify ?_
    intro s hs
    show { s.visible with fs := (s.visible.fs.removeTree src).graft dst (leaf d) } = _
    rw [hs]

end Calls

/-! ### One file of a batch -/

/-- A list without repetition that has one member. -/
theorem eq_singleton_of_nodup {α : Type} {l : List α} {a : α} (hNodup : l.Nodup)
    (hMem : ∀ x, x ∈ l ↔ x = a) : l = [a] := by
  have hPerm : l.Perm [a] :=
    (List.perm_ext_iff_of_nodup hNodup (List.nodup_singleton a)).mpr fun x => by
      rw [hMem, List.mem_singleton]
  exact List.perm_singleton.mp hPerm

/-- The data file of a bag that has just been written is found. -/
theorem dataFiles_of_only (fs : FileTree ByteString δ) (dir : Path)
    {files : UnorderedMap ByteString δ} {d : δ} (hOnly : OnlyDataFile files d) :
    ∃ name, dataFiles (fs.graft dir (bagTree files)) dir = [dir ++ [name]] ∧
      (fs.graft dir (bagTree files)).lookup (dir ++ [name]) = some (.file d) := by
  obtain ⟨name, hExtension, hFile, hOther⟩ := hOnly
  have hLookup : ∀ name, (fs.graft dir (bagTree files)).lookup (dir ++ [name]) =
      (files.lookup name).map .file := fun name =>
    (congrFun (graft_below fs dir (bagTree files)) [name]).trans (bagTree_lookup files name)
  refine ⟨name, eq_singleton_of_nodup ((fs.graft dir (bagTree files)).nodupKeys.filter _) ?_, ?_⟩
  · intro p
    rw [mem_dataFiles]
    constructor
    · rintro ⟨other, rfl, hExtension', hSome⟩
      rw [hLookup] at hSome
      rw [hOther other hExtension' (by simpa using hSome)]
    · rintro rfl
      exact ⟨name, rfl, hExtension, by simp [hLookup, hFile]⟩
  · rw [hLookup, hFile]
    rfl

section File

variable {r : Ready} {disk : FileSystem ByteString δ} {args : Args} {file other : Path}
  {fs' : FileTree ByteString δ}

theorem WayFree.of_same {fs : FileTree ByteString δ} {out : Path}
    (h : WayFree fs out.parentPath) (hFile : Source disk.tree args.input file)
    (hOut : out = outputPath args file)
    (hSame : ∀ q, ¬ bagTmp out <+: q → ¬ out <+: q → fs'.lookup q = fs.lookup q) :
    WayFree fs' out.parentPath := by
  intro q hPrefix
  rw [hSame q (fun hTmp => bagTmp_not_on_way (hTmp.trans hPrefix)) fun hBelow =>
    outputPath_not_above hFile hFile (hOut ▸ hBelow.trans hPrefix)]
  exact h q hPrefix

/-- What is added to a file system does not change the bag of a file that is there. -/
theorem bagAt_of_source (hFile : Source disk.tree args.input file)
    {fs : FileTree ByteString δ} (hExtends : disk.tree.Extends fs) :
    bagAt M fs file = bagAt M disk.tree file := by
  obtain ⟨d, hData⟩ := hFile.data
  rw [bagAt, bagAt, hExtends file _ hData, hData]

/-- A file can be converted before the directories of its output are made just if it can be
after that, where they can be made. -/
theorem passes_iff_of_dirsAdded (hFile : Source disk.tree args.input file)
    {fs : FileTree ByteString δ} (hExtends : disk.tree.Extends fs)
    (hAdded : DirsAdded (outputPath args file).parentPath fs fs')
    (hWay : WayFree fs (outputPath args file).parentPath) :
    Passes M r args fs file ↔ fs'.lookup (outputPath args file) = none ∧
      fs'.lookup (bagTmp (outputPath args file)) = none ∧ Convertible M r fs' file := by
  have hBag : bagAt M fs' file = bagAt M fs file :=
    (bagAt_of_source hFile fun q e h => hAdded.extends_ q e (hExtends q e h)).trans
      (bagAt_of_source hFile hExtends).symm
  rw [hAdded.same _ (outputPath_not_above hFile hFile), hAdded.same _ bagTmp_not_on_way,
    Convertible, hBag]
  exact ⟨fun h => ⟨h.new, h.tmp, h.converts⟩, fun ⟨hNew, hTmp, hConverts⟩ =>
    ⟨hWay, hNew, hTmp, hConverts⟩⟩

variable (hFaultless : M.Faultless) (hWrites : M.WritesOneFile)
  (hFile : Source disk.tree args.input file)

include hFaultless hWrites hFile

omit hWrites in
/-- The end of the loop body, once a bag with one data file has been written. -/
theorem unwrap_exits {files : UnorderedMap ByteString δ} {d : δ} (hOnly : OnlyDataFile files d)
    (hWay : WayFree v.fs (outputPath args file).parentPath) :
    Triple (fun s => s.visible =
        { v with fs := v.fs.graft (bagTmp (outputPath args file)) (bagTree files) })
      (do
        call M
        let s ← get
        match dataFiles s.fs (bagTmp (outputPath args file)) with
        | [data] => do
          moveFile M data (outputPath args file)
          removeAll M (bagTmp (outputPath args file))
          pure 0
        | _ => pure 1 : Main δ Nat)
      (fun ret s => ret = 0 ∧ WayFree s.visible.fs (outputPath args file).parentPath)
      (fun _ _ => False) := by
  let out := outputPath args file
  obtain ⟨name, hFound, hData⟩ := dataFiles_of_only v.fs (bagTmp out) hOnly
  refine Triple.bind (call_stays hFaultless) fun _ => Triple.get_bind fun s₀ hs₀ => ?_
  have hFs : s₀.fs = v.fs.graft (bagTmp out) (bagTree files) := congrArg Visible.fs hs₀
  rw [hFs, hFound]
  have hHere : s₀.visible.fs.lookup (bagTmp out ++ [name]) = some (.file d) := by
    rw [hs₀]
    exact hData
  have hMove := moveFile_renames hFaultless hHere out
  have hRemove := fun w : Visible δ => (removeAll_visible (M := M) (v := w)
    (bagTmp out)).returns (removeAll_returns hFaultless _)
  refine Triple.bind (hMove.pre fun s hs => by rw [hs]) fun _ => Triple.bind (hRemove _) fun _ => ?_
  refine Triple.exists fun fs' => Triple.assume fun hRemoved => Triple.pure fun s hs => ⟨rfl, ?_⟩
  refine hs ▸ hWay.of_same hFile rfl fun q hTmp hOut => ?_
  have hNotData : ¬ bagTmp out ++ [name] <+: q := fun h => hTmp ((List.prefix_append ..).trans h)
  calc fs'.lookup q
    _ = _ := hRemoved q hTmp
    _ = _ := graft_lookup _ _ hOut
    _ = s₀.visible.fs.lookup q := by rw [lookup_removeTree, if_neg hNotData]
    _ = v.fs.lookup q := by rw [hs₀]; exact graft_lookup _ _ hTmp

/-- The body of the loop returns 0 just for a file that can be converted. -/
theorem convertFile_exits (hExtends : disk.tree.Extends v.fs)
    (hInstalled : v.installed = r.transformer.installed) :
    Triple (fun s => s.visible = v) (convertFile M r args file)
      (fun ret s => (ret = 0 ↔ Passes M r args v.fs file) ∧
        (ret = 0 → WayFree s.visible.fs (outputPath args file).parentPath))
      (fun _ _ => ¬ Passes M r args v.fs file) := by
  let out := outputPath args file
  refine Triple.bind ((createDirectories_files hFaultless out.parentPath).exits
    fun _ s hs hPasses => hs hPasses.way) fun _ => Triple.assume fun hWay =>
      Triple.exists fun fs' => Triple.assume fun hAdded => ?_
  have hWay' : WayFree fs' out.parentPath := hAdded.wayFree hWay
  rw [passes_iff_of_dirsAdded hFile hExtends hAdded hWay]
  refine Triple.bind (pathExists_stays hFaultless out).nothrow fun there =>
    Triple.assume fun hThere => ?_
  cases there with
  | true =>
    refine Triple.pure fun s _ => ⟨iff_of_false one_ne_zero fun h => ?_, by simp⟩
    simp [out, h.1] at hThere
  | false =>
  refine Triple.bind (pathExists_stays hFaultless (bagTmp out)).nothrow fun there =>
    Triple.assume fun hThere' => ?_
  cases there with
  | true =>
    refine Triple.pure fun s _ => ⟨iff_of_false one_ne_zero fun h => ?_, by simp⟩
    simp [out, h.2.1] at hThere'
  | false =>
  have hNew : fs'.lookup out = none := by simpa using hThere.symm
  have hOne := (convertOne_exits hFaultless (v := { v with fs := fs' }) (r := r) hInstalled file
    (bagTmp out)).and (convertOne_visible (v := { v with fs := fs' }) hInstalled file (bagTmp out))
  have hTmp : fs'.lookup (bagTmp out) = none := by simpa using hThere'.symm
  have hTmpWay : WayFree fs' (bagTmp out) := by
    intro q hq
    rcases List.prefix_concat_iff.mp hq with rfl | hAbove
    · exact congrArg isFile hTmp
    · exact hWay' q hAbove
  simp only [hTmpWay, true_and] at hOne
  refine Triple.bind (hOne.exits fun _ _ hs hPasses => hs.1 hPasses.2) fun ret =>
    Triple.assume fun hRet => ?_
  have hPasses := hRet.trans (and_iff_right hNew).symm
  by_cases hZero : ret = 0
  · subst hZero
    refine Triple.at (I := fun w => OneEnds M r file (bagTmp out) { v with fs := fs' } (some 0) w)
      fun w hEnds => ?_
    cases hEnds with
    | untouched hRet => exact absurd rfl hRet
    | partly hRet => exact absurd rfl hRet
    | @complete _ _ fs'' _ _ hConversion hMade =>
      obtain ⟨bag, k, t, c, -, -, -, hFiles⟩ := hConversion
      obtain ⟨d, hOnly⟩ := hFiles ▸ hWrites _ _ _
      exact (unwrap_exits hFaultless hFile (v := { v with fs := fs'' }) hOnly
        (hMade.toDirsAdded.wayFree hWay')).nothrow.post
          fun ret s hs => ⟨iff_of_true hs.1 (hPasses.mp rfl), fun _ => hs.2⟩
  · rw [if_pos hZero]
    refine Triple.bind ((Triple.nothrow (removeAll_returns hFaultless _)).pre
      fun _ _ => trivial) fun _ => ?_
    exact Triple.pure fun s _ => ⟨hPasses, fun h => absurd h hZero⟩

omit hFaultless hWrites in
/-- A temporary directory is not at that of another file, nor above it. -/
theorem bagTmp_not_above_bagTmp (hOther : Source disk.tree args.input other) (hNe : file ≠ other) :
    ¬ bagTmp (outputPath args file) <+: bagTmp (outputPath args other) := by
  intro h
  rcases List.prefix_concat_iff.mp h with hEq | hAbove
  · obtain ⟨hParent, hName⟩ := List.append_inj' hEq rfl
    have hOut : outputPath args file = outputPath args other := by
      rw [← parentPath_filename (outputPath_ne_nil hFile),
        ← parentPath_filename (outputPath_ne_nil hOther), hParent,
        List.append_cancel_right (List.singleton_inj.mp hName)]
    exact hNe (eq_of_outputPath_above hFile hOther (hOut ▸ List.prefix_rfl))
  · exact bagTmp_not_above hFile hOther (hAbove.trans (List.dropLast_prefix _))

omit hFaultless hWrites in
/-- What the conversion of a file leaves does not decide whether another one can be converted. -/
theorem passes_changed {v' : Visible δ} (hOther : Source disk.tree args.input other)
    (hNe : file ≠ other) (hExtends : disk.tree.Extends v.fs)
    (hChanged : Changed disk.tree (outputPath args file) v v')
    (hWay : WayFree v.fs (outputPath args file).parentPath)
    (hWay' : WayFree v'.fs (outputPath args file).parentPath) :
    Passes M r args v'.fs other ↔ Passes M r args v.fs other := by
  have hOut : v'.fs.lookup (outputPath args other) = v.fs.lookup (outputPath args other) := by
    have hBelow := congrFun (hChanged.below_eq hFile hOther (Ne.symm hNe)) []
    rwa [FileTree.below, FileTree.below, List.append_nil] at hBelow
  have hTmp : v'.fs.lookup (bagTmp (outputPath args other)) =
      v.fs.lookup (bagTmp (outputPath args other)) :=
    hChanged.same _
      (fun h => bagTmp_not_above hOther hFile (h.trans (List.dropLast_prefix _)))
      (bagTmp_not_above_bagTmp hFile hOther hNe) (bagTmp_apart hOther hFile).2
  have hBag : bagAt M v'.fs other = bagAt M v.fs other :=
    (bagAt_of_source hOther hChanged.extends_).trans (bagAt_of_source hOther hExtends).symm
  have hOtherWay : WayFree v'.fs (outputPath args other).parentPath ↔
      WayFree v.fs (outputPath args other).parentPath := by
    refine forall₂_congr fun q hPrefix => ?_
    by_cases hAbove : q <+: (outputPath args file).parentPath
    · rw [hWay q hAbove, hWay' q hAbove]
    · rw [hChanged.same q hAbove
        (fun h => bagTmp_not_above hFile hOther
          (h.trans (hPrefix.trans (List.dropLast_prefix _))))
        fun h => outputPath_not_above hOther hFile (h.trans hPrefix)]
  constructor
  · intro h
    exact ⟨hOtherWay.mp h.way, hOut ▸ h.new, hTmp ▸ h.tmp, by
      simpa only [Convertible, hBag] using h.converts⟩
  · intro h
    exact ⟨hOtherWay.mpr h.way, hOut.trans h.new, hTmp.trans h.tmp, by
      simpa only [Convertible, hBag] using h.converts⟩

omit hFile in
/-- The loop returns 0 just if every file can be converted, as the file system is before it. -/
theorem convertFiles_exits (files : List Path) (hNodup : files.Nodup)
    (hFiles : ∀ file ∈ files, Source disk.tree args.input file)
    (hExtends : disk.tree.Extends v.fs) (hInstalled : v.installed = r.transformer.installed) :
    Triple (fun s => s.visible = v) (convertFiles M r args files)
      (fun ret _ => ret = 0 ↔ ∀ file ∈ files, Passes M r args v.fs file)
      (fun _ _ => ¬ ∀ file ∈ files, Passes M r args v.fs file) := by
  induction files generalizing v with
  | nil => exact Triple.pure fun _ _ => by simp
  | cons file rest ih =>
    have hFile := hFiles file List.mem_cons_self
    obtain ⟨hNot, hRest⟩ := List.nodup_cons.mp hNodup
    have hBody := (convertFile_exits hFaultless hWrites hFile hExtends hInstalled).and
      (convertFile_changes (M := M) hFile hExtends hInstalled)
    refine Triple.bind (hBody.exits fun _ _ hs hAll => hs.1 (hAll file List.mem_cons_self))
      fun ret => Triple.at (I := fun w : Visible δ => ((ret = 0 ↔ Passes M r args v.fs file) ∧
        (ret = 0 → WayFree w.fs (outputPath args file).parentPath)) ∧
        Changed disk.tree (outputPath args file) v w) fun w hw => ?_
    obtain ⟨⟨hRet, hWay⟩, hChanged⟩ := hw
    by_cases hZero : ret = 0
    · rw [if_neg (not_not.mpr hZero)]
      have hPasses := hRet.mp hZero
      have hSame : (∀ other ∈ rest, Passes M r args w.fs other) ↔
          ∀ other ∈ file :: rest, Passes M r args v.fs other := by
        rw [List.forall_mem_cons, and_iff_right hPasses]
        refine forall₂_congr fun other hOther => passes_changed hFile
          (hFiles other (List.mem_cons_of_mem _ hOther)) (fun hEq => hNot (hEq ▸ hOther)) hExtends
          hChanged hPasses.way (hWay hZero)
      have hLater := ih (v := w) hRest
        (fun other hOther => hFiles other (List.mem_cons_of_mem _ hOther)) hChanged.extends_
        (hChanged.installed.trans hInstalled)
      rwa [hSame] at hLater
    · rw [if_pos hZero]
      exact Triple.pure fun _ _ => iff_of_false hZero fun hAll =>
        hZero (hRet.mpr (hAll file List.mem_cons_self))

end File

/-! ### A whole run -/

theorem findBagFiles_nodup (fs : FileTree ByteString δ) (dir : Path) :
    (findBagFiles fs dir).Nodup :=
  (List.perm_insertionSort _ _).nodup_iff.mpr (fs.nodupKeys.filter _)

/-- The runs that do all that they are asked for. -/
def Succeeds (M : MainEnv δ) (disk : FileTree ByteString δ) (args : Args) : Prop :=
  ∃ r, M.prepare = .ok (some r) ∧
    if isDir (disk.lookup args.input) then
      findBagFiles disk args.input ≠ [] ∧
        ∀ file ∈ findBagFiles disk args.input, Passes M r args disk file
    else disk.lookup args.output = none ∧ WayFree disk args.output ∧
      Convertible M r disk args.input

section Run

variable {disk : FileSystem ByteString δ} {args : Args}
  (hFaultless : M.Faultless) (hWrites : M.WritesOneFile)

include hFaultless hWrites

theorem convertBatch_exits {r : Ready} (hDir : isDir (disk.tree.lookup args.input) = true)
    (hFs : v.fs = disk.tree) (hInstalled : v.installed = r.transformer.installed) :
    Triple (fun s => s.visible = v) (convertBatch M r args)
      (fun ret _ => ret = 0 ↔ findBagFiles disk.tree args.input ≠ [] ∧
        ∀ file ∈ findBagFiles disk.tree args.input, Passes M r args disk.tree file)
      (fun _ _ => ¬ (findBagFiles disk.tree args.input ≠ [] ∧
        ∀ file ∈ findBagFiles disk.tree args.input, Passes M r args disk.tree file)) := by
  refine Triple.bind (call_stays hFaultless).nothrow fun _ =>
    Triple.get_bind fun s₀ hs₀ => ?_
  have hDisk : s₀.fs = disk.tree := (congrArg Visible.fs hs₀).trans hFs
  rw [hDisk]
  simp only
  split
  · rename_i hNone
    exact Triple.pure fun _ _ => iff_of_false one_ne_zero fun h => h.1 hNone
  · rename_i hSome
    have hLoop := convertFiles_exits hFaultless hWrites (v := v) (r := r) _
      (findBagFiles_nodup disk.tree args.input) (fun file hFile => source_of_mem hDir hFile)
      (fun _ _ h => hFs ▸ h) hInstalled
    rw [hFs] at hLoop
    refine Triple.conseq hLoop (fun s hs => by rw [hs, hs₀]) (fun ret _ hs => ?_) fun _ _ hs => ?_
    · rw [hs, and_iff_right hSome]
    · exact fun h => hs h.2

theorem main_exits :
    Triple (fun s => s = World.start disk.tree) (main M args)
      (fun ret _ => ret = 0 ↔ Succeeds M disk.tree args)
      (fun _ _ => ¬ Succeeds M disk.tree args) := by
  have hNot : (∀ r, M.prepare ≠ .ok (some r)) → ¬ Succeeds M disk.tree args :=
    fun hNone ⟨r, hReady, _⟩ => hNone r hReady
  have hNever : ∀ {k}, M.fault k ≠ none → False := fun hFault => hFault (hFaultless.calls _)
  have hSucceeds : ∀ {r}, M.prepare = .ok (some r) → (Succeeds M disk.tree args ↔
      if isDir (disk.tree.lookup args.input) then
        findBagFiles disk.tree args.input ≠ [] ∧
          ∀ file ∈ findBagFiles disk.tree args.input, Passes M r args disk.tree file
      else disk.tree.lookup args.output = none ∧ WayFree disk.tree args.output ∧
        Convertible M r disk.tree args.input) := by
    intro r hReady
    simp only [Succeeds, hReady, Except.ok.injEq, Option.some.injEq, exists_eq_left']
  refine main_ends (Q := fun ret _ => ret = 0 ↔ Succeeds M disk.tree args)
    (E := fun _ => ¬ Succeeds M disk.tree args) (fun hNone _ _ => iff_of_false one_ne_zero
      (hNot hNone)) ?_ (fun ⟨_, hFault⟩ _ _ _ => (hNever hFault).elim) (fun r hReady hDir => ?_)
        fun r hReady hDir => ?_
  · rintro (hNone | ⟨k, -, hFault⟩) _ _
    · exact hNot hNone
    · exact (hNever hFault).elim
  · rw [hSucceeds hReady, if_pos hDir]
    exact convertBatch_exits hFaultless hWrites hDir rfl rfl
  · rw [hSucceeds hReady]
    simp only [hDir, Bool.false_eq_true, if_false]
    exact (convertOne_exits hFaultless (v := r.start disk.tree) rfl args.input args.output).pre
      fun _ hs => hs.1

/-- Where no call fails and the writer leaves one data file, a run returns 0 exactly if it succeeds:
its options can be used, there is something to convert, and of every bag that it is to convert, the
output is free, no file is on the way to it, and the contents do not fail. -/
theorem main_returns_zero_iff (disk : FileSystem ByteString δ) (args : Args) :
    returned (main M args (World.start disk.tree)) = some 0 ↔ Succeeds M disk.tree args := by
  have hExits : Triple (fun s => s = World.start disk.tree) (main M args)
      (fun ret _ => ret = 0 ↔ Succeeds M disk.tree args)
      (fun _ _ => ¬ Succeeds M disk.tree args) := main_exits hFaultless hWrites
  cases hRun : main M args (World.start disk.tree) with
  | ok ret s => simpa [returned] using hExits.ok rfl hRun
  | error e s => exact iff_of_false (by simp [returned]) (hExits.error rfl hRun)

end Run

theorem emptyBagEnv_faultless : emptyBagEnv.Faultless := ⟨fun _ => rfl, fun _ _ => rfl⟩

theorem emptyBagEnv_writesOneFile : emptyBagEnv.WritesOneFile := by
  intro _ _ _
  refine ⟨1, "bag_0.mcap", by decide, rfl, fun other _ hSome => ?_⟩
  by_contra hNe
  exact hSome (AList.lookup_eq_none.mpr fun hMem =>
    hNe (List.mem_singleton.mp (AList.mem_keys.mp hMem)))

/-- A batch of one empty bag, the same batch once more, and the bag by itself, with an output below
a file. -/
theorem main_returns_zero_iff_sample :
    Succeeds emptyBagEnv brokenDisk.tree ⟨["in"], ["out"]⟩ ∧
      ¬ Succeeds emptyBagEnv batchDisk.tree ⟨["in"], ["out"]⟩ ∧
      ¬ Succeeds emptyBagEnv batchDisk.tree ⟨["in", "a.mcap"], ["out", "a.mcap", "b"]⟩ := by
  have hIff := main_returns_zero_iff emptyBagEnv_faultless emptyBagEnv_writesOneFile
  refine ⟨(hIff brokenDisk _).mp (by decide +kernel), fun h => ?_, fun h => ?_⟩
  · exact absurd ((hIff batchDisk _).mpr h) (by decide +kernel)
  · exact absurd ((hIff batchDisk _).mpr h) (by decide +kernel)

end Converter

end VehicleCanDecoder
