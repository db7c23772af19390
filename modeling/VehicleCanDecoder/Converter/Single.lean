import VehicleCanDecoder.Converter.Failure

/-! `convert_one`, call by call.  Until the directory of the output has been made, nothing is at the
output path; from then on there is a directory, and it is given up just if a call or a message
fails.  The specifications count the calls, so that they can say which ones must not fail. -/

namespace VehicleCanDecoder

namespace Converter

open Hoare FileTree

variable {δ : Type} {M : MainEnv δ}

/-- The bag at a path, if there is one that can be opened. -/
def bagAt (M : MainEnv δ) (fs : FileTree ByteString δ) (p : Path) : Option InputBag :=
  match fs.lookup p with
  | some (.file d) => (M.openBag d).toOption
  | _ => none

/-- No file is at a path or on the way to it. -/
def WayFree (fs : FileTree ByteString δ) (p : Path) : Prop :=
  ∀ q, q <+: p → isFile (fs.lookup q) = false

instance (fs : FileTree ByteString δ) (p : Path) : Decidable (WayFree fs p) :=
  decidable_of_iff (∀ q ∈ p.inits, isFile (fs.lookup q) = false) (by simp [WayFree])

/-- The bag at the input can be opened, and its output comes to be opened: nothing is there, no file
is on the way to it, and the first calls do not fail. -/
structure Opens (M : MainEnv δ) (fs : FileTree ByteString δ) (input output : Path) (bag : InputBag)
    (calls : Nat) : Prop where
  new : fs.lookup output = none
  bag : bagAt M fs input = some bag
  way : WayFree fs output
  calls : ∀ k < calls, M.fault k = none

/-- From there to the end, no call fails, and no message does. -/
structure Through (M : MainEnv δ) (r : Ready) (bag : InputBag) (calls conversions : Nat) :
    Prop where
  storage : M.fault calls = none
  conversion : ∀ k, M.convertFault conversions k = none
  messages : ∀ msg ∈ bag.messages,
    ¬ Fails (M.convertEnv 0) r.cfg r.decoder r.router r.transformer msg
  close : M.fault (calls + 1) = none

/-- So many calls have been made and so many bags written, and no call has failed. -/
structure MainEnv.Clean (M : MainEnv δ) (calls conversions : Nat) (s : World δ) : Prop where
  made : s.calls = calls
  written : s.conversions = conversions
  faults : ∀ k < calls, M.fault k = none

/-- Whether a message fails depends neither on the number of the conversion nor on the variables of
the expressions. -/
theorem fails_congr {r : Ready} {t : SignalTransformer}
    (hInstalled : t.installed = r.transformer.installed) (conversion : Nat) (msg : BagMessage) :
    Fails (M.convertEnv conversion) r.cfg r.decoder r.router t msg ↔
      Fails (M.convertEnv 0) r.cfg r.decoder r.router r.transformer msg := by
  have hPath : path r.cfg r.router t (M.convertEnv conversion) =
      path r.cfg r.router r.transformer (M.convertEnv 0) :=
    SignalPath.of_congr hInstalled rfl (fun _ => rfl) _ _
  unfold Fails
  rw [hPath]
  exact Iff.rfl

theorem bagAt_of_not_file {fs : FileTree ByteString δ} {p : Path}
    (h : isFile (fs.lookup p) = false) : bagAt M fs p = none := by
  unfold bagAt
  cases hLookup : fs.lookup p with
  | none => rfl
  | some e =>
    cases e with
    | dir => rfl
    | file d => simp [hLookup, isFile] at h

theorem DirsAdded.wayFree {p q : Path} {fs fs' : FileTree ByteString δ} (h : DirsAdded p fs fs')
    (hWay : WayFree fs q) : WayFree fs' q :=
  fun r hr => (h.files r).trans (hWay r hr)

/-! ### Calls -/

section Calls

variable {v : Visible δ} {k c : Nat}

theorem call_clean : Triple (fun s => s.visible = v ∧ M.Clean k c s) (call M)
    (fun _ s => s.visible = v ∧ M.Clean (k + 1) c s)
    (fun _ s => M.fault k ≠ none ∧ s.visible = v) := by
  refine Triple.of_eq fun s₀ hs₀ => ?_
  obtain ⟨rfl, hCalls, hConversions, hFaults⟩ := hs₀
  subst hCalls
  refine (call_steps s₀).weaken ?_ ?_
  · rintro _ s ⟨hFault, rfl⟩
    refine ⟨rfl, rfl, hConversions, fun j hj => ?_⟩
    rcases Nat.lt_succ_iff_lt_or_eq.mp hj with hLt | rfl
    · exact hFaults j hLt
    · exact hFault
  · rintro _ s ⟨hFault, rfl⟩
    exact ⟨hFault, rfl⟩

/-- A call that only looks at the file system. -/
theorem query_clean {β : Type} (f : FileTree ByteString δ → β) :
    Triple (fun s => s.visible = v ∧ M.Clean k c s)
      (do call M; let s ← get; pure (f s.fs) : Main δ β)
      (fun b s => b = f v.fs ∧ s.visible = v ∧ M.Clean (k + 1) c s)
      (fun _ s => M.fault k ≠ none ∧ s.visible = v) := by
  refine Triple.bind call_clean fun _ => Triple.get_bind fun s₀ hs₀ => Triple.pure ?_
  rintro s rfl
  exact ⟨congrArg f (congrArg Visible.fs hs₀.1), hs₀⟩

/-- One directory is made unless its call fails or a file is there. -/
theorem createDirectory_clean (fs : FileTree ByteString δ) (q : Path) :
    Triple (fun s => M.Clean k c s ∧ ∀ p, isFile (s.fs.lookup p) = isFile (fs.lookup p))
      (createDirectory M q)
      (fun _ s => isFile (fs.lookup q) = false ∧ s.fs.lookup q = some .dir ∧
        M.Clean (k + 1) c s ∧ ∀ p, isFile (s.fs.lookup p) = isFile (fs.lookup p))
      (fun _ _ => isFile (fs.lookup q) = true ∨ M.fault k ≠ none) := by
  refine Triple.of_eq fun s₀ hs₀ => ?_
  obtain ⟨hClean, hFiles⟩ := hs₀
  have hCall : Triple (fun s => s = s₀) (call M)
      (fun _ s => s.visible = s₀.visible ∧ M.Clean (k + 1) c s)
      (fun _ s => M.fault k ≠ none ∧ s.visible = s₀.visible) :=
    call_clean.pre (by rintro s rfl; exact ⟨rfl, hClean⟩)
  refine Triple.bind (hCall.exits fun _ _ hs => .inr hs.1) fun _ =>
    Triple.get_bind fun s₁ hs₁ => ?_
  obtain ⟨hView, hClean'⟩ := hs₁
  have hFs : s₁.fs = s₀.fs := congrArg Visible.fs hView
  rw [← hFs] at hFiles
  have hHere := hFiles q
  cases hLookup : s₁.fs.lookup q with
  | none =>
    rw [hLookup] at hHere
    refine Triple.set fun _ _ => ⟨hHere.symm, ?_,
      ⟨hClean'.made, hClean'.written, hClean'.faults⟩, fun p => ?_⟩
    · exact AList.lookup_insert _
    · show isFile ((s₁.fs.insert q .dir).lookup p) = _
      rw [UnorderedMap.lookup_insert_eq]
      split
      · rename_i hEq
        rw [hEq, ← hHere]
        rfl
      · exact hFiles p
  | some e =>
    rw [hLookup] at hHere
    cases e with
    | dir => exact Triple.pure fun s hs => hs ▸ ⟨hHere.symm, hLookup, hClean', hFiles⟩
    | file d => exact Triple.throw fun _ _ => .inl hHere.symm

/-- The directories are made just if no file is in the way and no call fails. -/
theorem createDirectories_clean (p : Path) :
    Triple (fun s => s.visible = v ∧ M.Clean k c s) (createDirectories M p)
      (fun _ s => WayFree v.fs p ∧ s.fs.lookup p = some .dir ∧
        M.Clean (k + p.length + 1) c s ∧ ∀ q, isFile (s.fs.lookup q) = isFile (v.fs.lookup q))
      (fun _ _ => ¬ WayFree v.fs p ∨ ∃ j < k + p.length + 1, M.fault j ≠ none) := by
  refine createDirectories_along (I := fun q s => WayFree v.fs q ∧ s.fs.lookup q = some .dir ∧
    M.Clean (k + q.length + 1) c s ∧ ∀ q, isFile (s.fs.lookup q) = isFile (v.fs.lookup q))
    ?_ fun q name hPrefix => ?_
  · refine (createDirectory_clean v.fs []).conseq (fun s hs => ⟨hs.2, hs.1 ▸ fun _ => rfl⟩)
      (fun _ s hs => ⟨fun q hq => ?_, hs.2⟩) fun _ _ hs => hs.imp (fun hFile hFree => ?_) fun h => ?_
    · rw [List.prefix_nil.mp hq]
      exact hs.1
    · rw [hFree [] (List.nil_prefix)] at hFile
      contradiction
    · exact ⟨k, by omega, h⟩
  · refine Triple.assume fun hWay => ?_
    refine (createDirectory_clean v.fs (q ++ [name])).conseq (fun s hs => hs.2)
      (fun _ s hs => ⟨fun r hr => ?_, hs.2.1, ?_, hs.2.2.2⟩)
        fun _ _ hs => hs.imp (fun hFile hFree => ?_) fun h => ?_
    · rcases List.prefix_concat_iff.mp hr with rfl | hAbove
      · exact hs.1
      · exact hWay r hAbove
    · rw [List.length_append, List.length_singleton, ← Nat.add_assoc]
      exact hs.2.2.1
    · rw [hFree _ hPrefix] at hFile
      contradiction
    · have hLength := hPrefix.length_le
      rw [List.length_append, List.length_singleton] at hLength
      exact ⟨k + q.length + 1, by omega, h⟩

theorem openInput_clean (input : Path) :
    Triple (fun s => s.visible = v ∧ M.Clean k c s) (openInput M input)
      (fun opened s => (opened = bagAt M v.fs input ∧ M.Clean (k + 1) c s ∨
        opened = none ∧ M.fault k ≠ none) ∧ s.visible = v) (fun _ _ => False) := by
  refine Triple.tryCatch (C := fun _ s => (bagAt M v.fs input = none ∧ M.Clean (k + 1) c s ∨
    M.fault k ≠ none) ∧ s.visible = v) ?_ fun _ => Triple.pure fun s hs => ⟨?_, hs.2⟩
  · refine Triple.bind (call_clean.exits fun _ s hs => ⟨.inr hs.1, hs.2⟩) fun _ =>
      Triple.of_eq fun s₀ hs₀ => ?_
    obtain ⟨rfl, hClean⟩ := hs₀
    refine Triple.bind ((fileData_reads input s₀).exits fun _ s hs => ?_) fun d =>
      Triple.assume fun hData => ?_
    · rw [hs.2]
      exact ⟨.inl ⟨bagAt_of_not_file hs.1, hClean⟩, rfl⟩
    have hBag : bagAt M s₀.fs input = (M.openBag d).toOption := by rw [bagAt, hData]
    change Triple (fun s => s = s₀) _ (fun opened s => (opened = bagAt M s₀.fs input ∧ _ ∨ _) ∧ _)
      fun _ s => (bagAt M s₀.fs input = none ∧ _ ∨ _) ∧ _
    rw [hBag]
    cases M.openBag d with
    | error e =>
      refine Triple.throw ?_
      rintro s rfl
      exact ⟨.inl ⟨rfl, hClean⟩, rfl⟩
    | ok bag =>
      refine Triple.pure ?_
      rintro s rfl
      exact ⟨.inl ⟨rfl, hClean⟩, rfl⟩
  · exact hs.1.imp (fun h => ⟨h.1.symm, h.2⟩) fun h => ⟨rfl, h⟩

theorem bagTree_root (files : UnorderedMap ByteString δ) :
    (bagTree files).lookup [] = some .dir := by
  unfold bagTree
  rw [UnorderedMap.lookup_foldl_insert]
  have hNone : (files.items .listed).filter (fun e => decide ([e.1] = ([] : Path))) = [] := by simp
  rw [hNone]
  rfl

/-- The directory of a bag is there once the bag has been put there. -/
theorem graft_bagTree_root (fs : FileTree ByteString δ) (output : Path)
    (files : UnorderedMap ByteString δ) :
    (fs.graft output (bagTree files)).lookup output = some .dir := by
  have hRoot := congrFun (graft_below fs output (bagTree files)) []
  rwa [FileTree.below, List.append_nil, bagTree_root] at hRoot

theorem leavePart_dir {P : World δ → Prop} (output : Path) :
    Triple P (leavePart M output) (fun _ s => s.fs.lookup output = some .dir)
      (fun _ _ => False) :=
  Triple.modify fun s _ => graft_bagTree_root s.fs output _

theorem callWriting_clean (output : Path) :
    Triple (fun s => s.visible = v ∧ M.Clean k c s) (callWriting M output)
      (fun _ s => s.visible = v ∧ M.Clean (k + 1) c s)
      (fun _ s => M.fault k ≠ none ∧ s.fs.lookup output = some .dir) :=
  Triple.tryCatch call_clean fun _ => Triple.assume fun hFault =>
    Triple.bind (leavePart_dir output).nothrow fun _ => Triple.throw fun _ hs => ⟨hFault, hs⟩

/-- The directory of the output is made just if nothing is in the way, and then a failure of the
storage leaves it. -/
theorem openWriter_clean (output : Path) :
    Triple (fun s => s.visible = v ∧ M.Clean k c s) (openWriter M output)
      (fun _ s => WayFree v.fs output ∧ s.fs.lookup output = some .dir ∧
        s.visible.installed = v.installed ∧ M.Clean (k + output.length + 2) c s)
      (fun _ s => ((¬ WayFree v.fs output ∨ ∃ j < k + output.length + 1, M.fault j ≠ none) ∧
          s.fs.below output = v.fs.below output) ∨
        (WayFree v.fs output ∧ ∀ j < k + output.length + 1, M.fault j = none) ∧
          M.fault (k + output.length + 1) ≠ none ∧ s.fs.lookup output = some .dir) := by
  have hMade := (createDirectories_clean (M := M) (v := v) (k := k) (c := c) output).and
    ((createDirectories_visible (M := M) (v := v) output).pre fun _ hs => hs.1)
  refine Triple.bind (hMade.exits ?_) fun _ => Triple.of_eq fun s₀ hs₀ => ?_
  · rintro _ s ⟨hNot, fs', ⟨hDirs, hSame⟩, hs⟩
    rw [show s.fs = fs' from congrArg Visible.fs hs]
    exact .inl ⟨hNot, hDirs.below_eq hSame⟩
  obtain ⟨⟨hWay, hDir, hClean, -⟩, fs', -, hs₀⟩ := hs₀
  have hInstalled : s₀.visible.installed = v.installed := by rw [hs₀]
  refine (callWriting_clean (M := M) (v := s₀.visible) (k := k + output.length + 1) (c := c)
    output).conseq ?_ ?_ ?_
  · rintro s rfl
    exact ⟨rfl, hClean⟩
  · rintro _ s ⟨hs, hClean'⟩
    refine ⟨hWay, ?_, hs ▸ hInstalled, hClean'⟩
    rw [show s.fs = s₀.fs from congrArg Visible.fs hs, hDir]
  · rintro _ s ⟨hFault, hDir'⟩
    exact .inr ⟨⟨hWay, hClean.faults⟩, hFault, hDir'⟩

end Calls

/-! ### The output of one bag -/

/-- What is at the output once its directory has been made, with what has been returned. -/
structure Left (M : MainEnv δ) (r : Ready) (output : Path) (bag : InputBag)
    (calls conversions : Nat) (ret : Option Nat) (v : Visible δ) : Prop where
  dir : v.fs.lookup output = some .dir
  converted : ret = some 0 → ∀ msg ∈ bag.messages,
    ¬ Fails (M.convertEnv 0) r.cfg r.decoder r.router r.transformer msg
  through : Through M r bag calls conversions → ret = some 0

/-- How the conversion of a bag ends, by whether its output has come to be opened. -/
inductive SingleEnds (M : MainEnv δ) (r : Ready) (input output : Path) (calls conversions : Nat)
    (v : Visible δ) : Option Nat → Visible δ → Prop
  | before {ret v'} (hNot : ∀ bag, ¬ Opens M v.fs input output bag calls) (hRet : ret ≠ some 0)
      (hSame : v'.fs.below output = v.fs.below output) :
    SingleEnds M r input output calls conversions v ret v'
  | after {ret v' bag} (hOpens : Opens M v.fs input output bag calls)
      (hLeft : Left M r output bag calls conversions ret v') :
    SingleEnds M r input output calls conversions v ret v'

section One

variable {v : Visible δ} {r : Ready} {input output : Path} {bag : InputBag} {n k c : Nat}

/-- A failure after the directory has been made. -/
theorem Left.failed {ret : Option Nat} (hNot : ¬ Through M r bag n c) (hRet : ret ≠ some 0)
    (hDir : v.fs.lookup output = some .dir) : Left M r output bag n c ret v where
  dir := hDir
  converted h := absurd h hRet
  through h := absurd h hNot

theorem giveUp_left {P : World δ → Prop} (hNot : ¬ Through M r bag n c)
    (hDir : ∀ s, P s → s.visible.fs.lookup output = some .dir) :
    Triple P (giveUp M) (fun ret s => Left M r output bag n c (some ret) s.visible)
      (fun _ s => Left M r output bag n c none s.visible) := by
  refine (giveUp_keeps (I := fun w => w.fs.lookup output = some .dir)).conseq hDir ?_
    fun _ _ hs => .failed hNot (by simp) hs
  rintro _ s ⟨rfl, hs⟩
  exact .failed hNot (by simp) hs

/-- A conversion comes to its end where no call and no message fails. -/
theorem Through.ends (h : Through M r bag n c) {t : SignalTransformer}
    (hInstalled : t.installed = r.transformer.installed) :
    ∃ s, convertBag (M.convertEnv c) r.cfg r.decoder r.router bag (State.opened 0 t) = .ok ⟨⟩ s :=
  convertBag_ends bag 0 h.conversion fun msg hMsg hFails =>
    h.messages msg hMsg ((fails_congr hInstalled c msg).mp hFails)

theorem convertBag_error {C : ConvertEnv} {cfg : Config} {decoder : DbcDecoder}
    {router : SignalRouter} {s c c' : State} {stop : Stop}
    (hTopics : registerTopics C cfg bag.topics (domainToTopic C.schemaOrder cfg) s = .ok ⟨⟩ c)
    (hLoop : convertMessages C cfg decoder router (domainToTopic C.schemaOrder cfg) bag.messages c =
      .error stop c') : convertBag C cfg decoder router bag s = .error stop c' := by
  simp only [convertBag, bind, EStateM.bind, hTopics, hLoop]

/-- What follows the opening of the writer. -/
theorem writeBag_clean (hInstalled : v.installed = r.transformer.installed)
    (hBag : bagAt M v.fs input = some bag) (hNew : v.fs.lookup output = none)
    (storageId : ByteString) :
    Triple (fun s => s.visible = v ∧ M.Clean k c s) (writeBag M r output storageId bag)
      (fun ret s => SingleEnds M r input output (k + output.length + 1) c v (some ret) s.visible)
      (fun _ s => SingleEnds M r input output (k + output.length + 1) c v none s.visible) := by
  let n := k + output.length + 1
  refine Triple.bind (Q := fun opened s => if opened = true then
      Opens M v.fs input output bag n ∧ s.fs.lookup output = some .dir ∧
        s.visible.installed = v.installed ∧ M.Clean (n + 1) c s
    else ∀ ret, ret ≠ some 0 → SingleEnds M r input output n c v ret s.visible) ?_
      fun opened => ?_
  · refine Triple.tryCatch (Triple.bind (openWriter_clean output) fun _ => Triple.pure ?_)
      fun _ => Triple.pure ?_
    · rintro s ⟨hWay, hs⟩
      exact ⟨⟨hNew, hBag, hWay, fun j hj => hs.2.2.faults j (Nat.lt_succ_of_lt hj)⟩, hs⟩
    · rintro s (⟨hNot, hSame⟩ | ⟨⟨hWay, hCalls⟩, hFault, hDir⟩) ret hRet
      · refine .before (fun _ hOpens => ?_) hRet hSame
        rcases hNot with hBlocked | ⟨j, hj, hFault⟩
        · exact hBlocked hOpens.way
        · exact hFault (hOpens.calls j hj)
      · exact .after ⟨hNew, hBag, hWay, hCalls⟩ (.failed (fun h => hFault h.storage) hRet hDir)
  cases opened with
  | false =>
    refine (giveUp_keeps (I := fun w => ∀ ret, ret ≠ some 0 →
      SingleEnds M r input output n c v ret w)).conseq (fun _ hs => by simpa using hs) ?_
        fun _ _ hs => hs none (by simp)
    rintro _ s ⟨rfl, hs⟩
    exact hs (some 1) (by simp)
  | true =>
    simp only [if_true]
    refine Triple.assume fun hOpens => ?_
    refine Triple.weaken (Q := fun ret (s : World δ) => Left M r output bag n c (some ret) s.visible)
      (E := fun _ (s : World δ) => Left M r output bag n c none s.visible) ?_
        (fun _ _ hs => .after hOpens hs) fun _ _ hs => .after hOpens hs
    refine Triple.get_bind fun s₀ hs₀ => ?_
    obtain ⟨hDir, hKept, hClean⟩ := hs₀
    obtain rfl := hClean.written
    have hVariables : s₀.transformer.installed = r.transformer.installed := hKept.trans hInstalled
    refine Triple.bind (Q := fun _ s => s.visible = s₀.visible ∧
      M.Clean (n + 1) (s₀.conversions + 1) s)
        (Triple.set fun _ _ => ⟨rfl, hClean.made, rfl, hClean.faults⟩) fun _ => ?_
    cases hTopics : registerTopics (M.convertEnv s₀.conversions) r.cfg bag.topics
        (domainToTopic (M.convertEnv s₀.conversions).schemaOrder r.cfg)
        (State.opened 0 s₀.transformer) with
    | error stop c' =>
      have hNot : ¬ Through M r bag n s₀.conversions := fun h => by
        obtain ⟨⟨j, hj⟩, -⟩ := (registerTopics_opened bag.topics 0).error rfl hTopics
        have hNone : (M.convertEnv s₀.conversions).fault j = none := h.conversion j
        simp [hNone] at hj
      cases stop with
      | thrown e =>
        exact Triple.bind (leavePart_dir output).nothrow fun _ =>
          Triple.throw fun _ hs => .failed hNot (by simp) hs
      | outOfMemory =>
        exact Triple.bind (leavePart_dir output).nothrow fun _ => giveUp_left hNot fun _ hs => hs
    | ok u c' =>
      simp only
      cases hLoop : convertMessages (M.convertEnv s₀.conversions) r.cfg r.decoder r.router
          (domainToTopic (M.convertEnv s₀.conversions).schemaOrder r.cfg) bag.messages c' with
      | error stop c'' =>
        have hNot : ¬ Through M r bag n s₀.conversions := fun h => by
          obtain ⟨s, hRun⟩ := h.ends hVariables
          rw [convertBag_error hTopics hLoop] at hRun
          contradiction
        exact Triple.bind (Triple.modify (Q := fun _ _ => True) fun _ _ => trivial) fun _ =>
          Triple.bind (leavePart_dir output).nothrow fun _ => giveUp_left hNot fun _ hs => hs
      | ok u c'' =>
        refine Triple.bind ((callWriting_clean output).exits fun _ s hs =>
          .failed (fun h => hs.1 h.close) (by simp) hs.2) fun _ => ?_
        refine Triple.bind (Triple.modify (Q := fun _ s =>
          s.visible.fs.lookup output = some .dir) fun s _ => graft_bagTree_root s.fs output _)
            fun _ => Triple.pure fun s hs => ⟨hs, fun _ msg hMsg hFails => ?_, fun _ => rfl⟩
        exact convertBag_not_fails (convertBag_ok hTopics hLoop) msg hMsg
          ((fails_congr hVariables s₀.conversions msg).mpr hFails)

/-- How `convert_one` ends, where no call has failed before it. -/
theorem convertOne_clean (hInstalled : v.installed = r.transformer.installed)
    (input output : Path) :
    Triple (fun s => s.visible = v ∧ M.Clean k c s) (convertOne M r input output)
      (fun ret s => SingleEnds M r input output (k + output.length + 4) c v (some ret) s.visible)
      (fun _ s => SingleEnds M r input output (k + output.length + 4) c v none s.visible) := by
  have hFailed : ∀ {j : Nat} {s : World δ}, j < k + output.length + 4 → M.fault j ≠ none →
      s.visible = v → ∀ ret, ret ≠ some 0 →
      SingleEnds M r input output (k + output.length + 4) c v ret s.visible :=
    fun hj hFault hs _ hRet => .before (fun _ hOpens => hFault (hOpens.calls _ hj)) hRet (by rw [hs])
  refine Triple.bind ((query_clean fun fs => (fs.lookup output).isSome).exits
    fun _ s hs => hFailed (by omega) hs.1 hs.2 none (by simp)) fun there =>
      Triple.assume fun hThere => ?_
  cases there with
  | true =>
    refine Triple.pure fun s hs => .before (fun _ hOpens => ?_) (by simp) (by rw [hs.1])
    simp [hOpens.new] at hThere
  | false =>
  have hNew : v.fs.lookup output = none := by simpa using hThere.symm
  refine Triple.bind (openInput_clean input).nothrow fun opened => ?_
  cases opened with
  | none =>
    refine Triple.pure fun s hs => ?_
    obtain ⟨⟨hNone, -⟩ | ⟨-, hFault⟩, hView⟩ := hs
    · refine .before (fun _ hOpens => ?_) (by simp) (by rw [hView])
      rw [hOpens.bag] at hNone
      contradiction
    · exact hFailed (by omega) hFault hView (some 1) (by simp)
  | some bag =>
    refine Triple.pre (P := fun s => bagAt M v.fs input = some bag ∧
      s.visible = v ∧ M.Clean (k + 2) c s) (Triple.assume fun hBag => ?_) fun s hs => ?_
    · refine Triple.bind (call_clean.exits
        fun _ s hs => hFailed (by omega) hs.1 hs.2 none (by simp)) fun _ => ?_
      have hWrite := writeBag_clean (M := M) (k := k + 3) (c := c) hInstalled hBag hNew
        (inferStorage input.string bag.storageIdentifier)
      rwa [show k + 3 + output.length + 1 = k + output.length + 4 by omega] at hWrite
    · obtain ⟨⟨hSome, hClean⟩ | ⟨hNone, -⟩, hView⟩ := hs
      · exact ⟨hSome.symm, hView, hClean⟩
      · contradiction

end One

end Converter

end VehicleCanDecoder
