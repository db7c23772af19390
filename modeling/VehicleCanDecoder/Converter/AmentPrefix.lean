import VehicleCanDecoder.Converter.Definitions
import VehicleCanDecoder.Converter.Complete
import Mathlib.Logic.Function.Basic

/-! The temporary package index: `ament_prefix::create`, the search path that `main` puts it on, and
what a lookup of a message definition finds there. -/

namespace VehicleCanDecoder

open Hoare FileTree Msg

namespace AmentPrefix

open Converter

/-! ### The directory -/

def pkgIndex : Path := [str "share", str "ament_index", str "resource_index", str "packages"]

def msgDir : Path := [str "share", str "vehicle_can_decoder", str "msg"]

/-- The file that stands for a package in the index. -/
def marker (pkg : ByteString) : Path := pkgIndex ++ [pkg]

/-- The directory for the process `pid`. -/
def tmpPrefix (tempDirectory : Path) (pid : Int) : Path :=
  tempDirectory ++ [str "vcd_mcap_schema_" ++ toSignedDecimal pid]

section Create

variable (M : MainEnv ByteString) (stream : Nat → ByteString → Option ByteString)

/-- `std::ofstream`, what is written to it, and its end.  Nothing throws: `stream` says what of the
text comes into the file, if the file can be opened at all. -/
def writeFile (p : Path) (text : ByteString) : Main ByteString PUnit :=
  modify fun s => { s with
    calls := s.calls + 1
    fs := match stream s.calls text with
      | some written =>
        if isDir (s.fs.lookup p.parentPath) && !isDir (s.fs.lookup p) then
          s.fs.insert p (.file written)
        else s.fs
      | none => s.fs }

def create (pre : Path) : Main ByteString Path := do
  createDirectories M (pre ++ pkgIndex)
  writeFile stream (pre ++ marker "vehicle_can_decoder") []
  createDirectories M (pre ++ msgDir)
  writeFile stream (pre ++ msgDir ++ [str "Signal.msg"]) kSignalMsg
  writeFile stream (pre ++ msgDir ++ [str "SignalGroup.msg"]) kSignalGroupMsg
  pure pre

end Create

/-- The value of `AMENT_PREFIX_PATH` from then on. -/
def updatedPath (pre : Path) (existing : Option ByteString) : ByteString :=
  pre.string ++ match existing with
    | some e => str ":" ++ e
    | none => []

/-! ### What stands in the file system then -/

variable {M : MainEnv ByteString} {stream : Nat → ByteString → Option ByteString}

/-- What stands at each path. -/
abbrev Look := Path → Option (Entry ByteString)

def lookOf (s : World ByteString) : Look := s.fs.lookup

/-- The directories on the way to a path, and at it. -/
def withDirs (p : Path) (look : Look) : Look := fun q => if q <+: p then some .dir else look q

theorem insert_looks (s : World ByteString) (p : Path) (e : Entry ByteString) :
    (fun q => (s.fs.insert p e).lookup q) = Function.update (lookOf s) p (some e) := by
  funext q
  rw [UnorderedMap.lookup_insert_eq, Function.update_apply]
  rfl

theorem createDirectory_looks {look : Look} (p : Path) :
    Triple (fun s => lookOf s = look) (createDirectory M p)
      (fun _ s => isFile (look p) = false ∧ lookOf s = Function.update look p (some .dir))
      (fun _ _ => True) := by
  refine Triple.bind (Q := fun _ s => lookOf s = look)
    (Triple.at (I := fun v : Visible ByteString => v.fs.lookup = look) fun v hv =>
      call_visible.weaken (fun _ s (hs : s.visible = v) => by subst hs; exact hv)
        fun _ _ _ => trivial) fun _ => Triple.get_bind fun s₀ hs₀ => ?_
  subst hs₀
  cases hLookup : s₀.fs.lookup p with
  | none => exact Triple.set fun _ _ => ⟨congrArg isFile hLookup, insert_looks s₀ p .dir⟩
  | some e =>
    cases e with
    | dir =>
      have hDir : lookOf s₀ p = some .dir := hLookup
      refine Triple.pure fun s hs => ⟨congrArg isFile hLookup, ?_⟩
      rw [hs, ← hDir, Function.update_eq_self]
    | file d => exact Triple.throw fun _ _ => trivial

theorem createDirectories_looks {look : Look} (p : Path) :
    Triple (fun s => lookOf s = look) (createDirectories M p)
      (fun _ s => (∀ q, q <+: p → isFile (look q) = false) ∧ lookOf s = withDirs p look)
      (fun _ _ => True) := by
  refine createDirectories_along (I := fun p s => (∀ q, q <+: p → isFile (look q) = false) ∧
    lookOf s = withDirs p look) ((createDirectory_looks []).post fun _ s hs => ?_)
    fun p name _ => Triple.assume fun hWay => (createDirectory_looks (p ++ [name])).post
      fun _ s hs => ?_
  · refine ⟨fun q hq => List.prefix_nil.mp hq ▸ hs.1, hs.2.trans (funext fun q => ?_)⟩
    simp [withDirs, Function.update_apply]
  · have hNew : withDirs p look (p ++ [name]) = look (p ++ [name]) :=
      if_neg fun h => by simpa using h.length_le
    refine ⟨fun q hq => ?_, hs.2.trans (funext fun q => ?_)⟩
    · rcases List.prefix_concat_iff.mp hq with rfl | hAbove
      · exact hNew ▸ hs.1
      · exact hWay q hAbove
    · simp only [withDirs, Function.update_apply, List.prefix_concat_iff]
      by_cases hEq : q = p ++ [name] <;> simp [hEq]

theorem writeFile_looks (hStream : ∀ k text, stream k text = some text) {look : Look} {p : Path}
    (text : ByteString) (hParent : look p.parentPath = some .dir) (hFree : isDir (look p) = false) :
    Triple (fun s => lookOf s = look) (writeFile stream p text)
      (fun _ s => lookOf s = Function.update look p (some (.file text))) (fun _ _ => True) := by
  apply Triple.modify
  rintro s rfl
  have hParent : isDir (s.fs.lookup p.parentPath) = true := congrArg isDir hParent
  have hFree : isDir (s.fs.lookup p) = false := hFree
  simp only [hStream, hParent, hFree, Bool.not_false, Bool.and_self, if_true]
  exact insert_looks s p (.file text)

/-- The files that `create` makes. -/
def messageFiles : List (Path × ByteString) :=
  [(marker "vehicle_can_decoder", []), (msgDir ++ [str "Signal.msg"], kSignalMsg),
    (msgDir ++ [str "SignalGroup.msg"], kSignalGroupMsg)]

/-- The directories and the files have been made below the prefix, and nothing else but directories
on the way there. -/
structure Made (pre : Path) (dirs : List Path) (files : List (Path × ByteString))
    (look look' : Look) : Prop where
  atDirs : ∀ d ∈ dirs, look' (pre ++ d) = some .dir
  atFiles : ∀ f ∈ files, look' (pre ++ f.1) = some (.file f.2)
  elsewhere : ∀ q, (∀ f ∈ files, q ≠ pre ++ f.1) → look' q = look q ∨
    look' q = some .dir ∧ isFile (look q) = false ∧ ∃ d ∈ dirs, q <+: pre ++ d

section Steps

variable {pre : Path} {dirs : List Path} {files : List (Path × ByteString)} {look : Look}

theorem createDirectories_makes (d : Path) :
    Triple (fun s => Made pre dirs files look (lookOf s)) (createDirectories M (pre ++ d))
      (fun _ s => Made pre (dirs ++ [d]) files look (lookOf s)) (fun _ _ => True) := by
  refine Triple.at (I := Made pre dirs files look) fun look' h =>
    (createDirectories_looks (pre ++ d)).post fun _ s hs => ?_
  obtain ⟨hWay, hLook⟩ := hs
  rw [hLook]
  refine ⟨fun d' hd' => ?_, fun f hf => ?_, fun q hq => ?_⟩
  · by_cases hDir : pre ++ d' <+: pre ++ d
    · exact if_pos hDir
    · rcases List.mem_append.mp hd' with hd' | hd'
      · exact (if_neg hDir).trans (h.atDirs d' hd')
      · exact absurd (List.mem_singleton.mp hd' ▸ List.prefix_rfl) hDir
  · -- A file on the way would have been an error.
    refine (if_neg fun hDir => ?_).trans (h.atFiles f hf)
    have hFile := hWay _ hDir
    rw [h.atFiles f hf] at hFile
    contradiction
  · by_cases hDir : q <+: pre ++ d
    · refine .inr ⟨if_pos hDir, ?_, d, List.mem_concat_self, hDir⟩
      rcases h.elsewhere q hq with hSame | ⟨-, hFile, -⟩
      · exact hSame ▸ hWay q hDir
      · exact hFile
    · rw [withDirs, if_neg hDir]
      refine (h.elsewhere q hq).imp_right fun ⟨hMade, hFile, d', hd', hBelow⟩ => ?_
      exact ⟨hMade, hFile, d', List.mem_append_left _ hd', hBelow⟩

theorem writeFile_makes (hStream : ∀ k text, stream k text = some text) {d : Path}
    {name text : ByteString} (hDir : d ∈ dirs) (hFree : isDir (look (pre ++ (d ++ [name]))) = false)
    (hDirs : ∀ d' ∈ dirs, ¬ d ++ [name] <+: d') (hFiles : ∀ f ∈ files, f.1 ≠ d ++ [name]) :
    Triple (fun s => Made pre dirs files look (lookOf s))
      (writeFile stream (pre ++ (d ++ [name])) text)
      (fun _ s => Made pre dirs (files ++ [(d ++ [name], text)]) look (lookOf s))
      (fun _ _ => True) := by
  refine Triple.at (I := Made pre dirs files look) fun look' h => ?_
  have hHere : look' (pre ++ (d ++ [name])) = look (pre ++ (d ++ [name])) :=
    (h.elsewhere _ fun f hf hEq => hFiles f hf (List.append_cancel_left hEq).symm).resolve_right
      fun ⟨_, _, d', hd', hBelow⟩ => hDirs d' hd' ((List.prefix_append_right_inj pre).mp hBelow)
  have hParent : look' (Path.parentPath (pre ++ (d ++ [name]))) = some .dir := by
    rw [Path.parentPath, ← List.append_assoc, List.dropLast_concat]
    exact h.atDirs d hDir
  refine (writeFile_looks hStream text hParent (hHere ▸ hFree)).post fun _ s hs => ?_
  rw [hs]
  refine ⟨fun d' hd' => ?_, fun f hf => ?_, fun q hq => ?_⟩
  · rw [Function.update_of_ne]
    · exact h.atDirs d' hd'
    · exact fun hEq => hDirs d' hd' (List.append_cancel_left hEq ▸ List.prefix_refl _)
  · rcases List.mem_append.mp hf with hf | hf
    · rw [Function.update_of_ne fun hEq => hFiles f hf (List.append_cancel_left hEq)]
      exact h.atFiles f hf
    · obtain rfl := List.mem_singleton.mp hf
      exact Function.update_self ..
  · rw [Function.update_of_ne (hq _ List.mem_concat_self)]
    exact h.elsewhere q fun f hf => hq f (List.mem_append_left _ hf)

end Steps

/-- Where no stream fails and no directory stands in the way, the files are there once `create`
returns. -/
theorem create_makes (hStream : ∀ k text, stream k text = some text) {look : Look} {pre : Path}
    (hFree : ∀ f ∈ messageFiles, isDir (look (pre ++ f.1)) = false) :
    Triple (fun s => lookOf s = look) (create M stream pre)
      (fun r s => r = pre ∧ Made pre [pkgIndex, msgDir] messageFiles look (lookOf s))
      (fun _ _ => True) := by
  have hMarker := hFree (marker "vehicle_can_decoder", []) (by decide)
  have hSignal := hFree (msgDir ++ [str "Signal.msg"], kSignalMsg) (by decide)
  have hGroup := hFree (msgDir ++ [str "SignalGroup.msg"], kSignalGroupMsg) (by decide)
  simp only [create, marker, List.append_assoc]
  refine (Triple.bind (createDirectories_makes _) fun _ => ?_).pre
    fun s hs => (hs ▸ ⟨by simp, by simp, fun _ _ => .inl rfl⟩ : Made pre [] [] look (lookOf s))
  refine Triple.bind (writeFile_makes hStream (by decide) hMarker (by decide) (by simp))
    fun _ => ?_
  refine Triple.bind (createDirectories_makes _) fun _ => ?_
  refine Triple.bind (writeFile_makes hStream (by decide) hSignal (by decide) (by decide))
    fun _ => ?_
  refine Triple.bind (writeFile_makes hStream (by decide) hGroup (by decide) (by decide))
    fun _ => ?_
  exact Triple.pure fun s hs => ⟨rfl, hs⟩

/-! ### Lookups -/

/-- Names that can stand in a search path. -/
def Plain (p : Path) : Prop := ∀ name ∈ p, (47 : UInt8) ∉ name ∧ (58 : UInt8) ∉ name ∧ name ≠ []

instance (p : Path) : Decidable (Plain p) := inferInstanceAs (Decidable (∀ name ∈ p, _))

/-- `ament_index_cpp`: the share directory of a package, by the value of `AMENT_PREFIX_PATH`. -/
structure Ament where
  shareDirectory : FileTree ByteString ByteString → ByteString → ByteString → Option Path

/-- It looks for the file of the package at each prefix of the search path in turn, and for nothing
else. -/
structure Ament.Documented (A : Ament) : Prop where
  found : ∀ fs p existing pkg, Plain p → isFile (fs.lookup (p ++ marker pkg)) = true →
    A.shareDirectory fs (updatedPath p existing) pkg = some (p ++ [str "share", pkg])
  passed : ∀ fs p existing pkg, Plain p → isFile (fs.lookup (p ++ marker pkg)) = false →
    A.shareDirectory fs (updatedPath p existing) pkg =
      existing.bind fun e => A.shareDirectory fs e pkg
  shape : ∀ fs e pkg dir, A.shareDirectory fs e pkg = some dir → ∃ p, dir = p ++ [str "share", pkg]
  markers : ∀ fs fs' e pkg,
    (∀ p, isFile (fs'.lookup (p ++ marker pkg)) = isFile (fs.lookup (p ++ marker pkg))) →
    A.shareDirectory fs' e pkg = A.shareDirectory fs e pkg

/-- The text of a file. -/
def fileText : Option (Entry ByteString) → Option ByteString
  | some (.file text) => some text
  | _ => none

/-- The definition of a type, as its package has it. -/
def packageText (A : Ament) (fs : FileTree ByteString ByteString) (env : Option ByteString)
    (pkg type : ByteString) : Option ByteString := do
  let e ← env
  let share ← A.shareDirectory fs e pkg
  fileText (fs.lookup (share ++ [str "msg", type ++ str ".msg"]))

/-- The definition of a type by its name, which is that of the package and its own. -/
def messageDefinition (A : Ament) (fs : FileTree ByteString ByteString) (env : Option ByteString)
    (name : ByteString) : Option ByteString :=
  match name.splitOn 47 with
  | [pkg, type] => packageText A fs env pkg type
  | _ => none

/-- Where no file has been made, there is one exactly where there was one. -/
theorem Made.fileText_eq {pre : Path} {dirs : List Path} {files : List (Path × ByteString)}
    {look look' : Look} (h : Made pre dirs files look look') {q : Path}
    (hq : ∀ f ∈ files, q ≠ pre ++ f.1) : fileText (look' q) = fileText (look q) := by
  rcases h.elsewhere q hq with hSame | ⟨hDir, hFile, -⟩
  · rw [hSame]
  · rw [hDir]
    cases hLook : look q with
    | none => rfl
    | some e =>
      cases e with
      | dir => rfl
      | file text =>
        rw [hLook] at hFile
        contradiction

theorem isFile_eq_isSome (e : Option (Entry ByteString)) : isFile e = (fileText e).isSome := by
  rcases e with _ | _ | _ <;> rfl

/-- No file that is made is one of another package. -/
theorem marker_ne_made {pkg : ByteString} (hPkg : pkg ≠ str "vehicle_can_decoder") (pre p : Path) :
    ∀ f ∈ messageFiles, p ++ marker pkg ≠ pre ++ f.1 := by
  intro f hf hEq
  have hReversed := congrArg List.reverse hEq
  simp only [messageFiles, List.mem_cons, List.not_mem_nil, or_false] at hf
  rcases hf with rfl | rfl | rfl <;> simp [marker, pkgIndex, msgDir] at hReversed
  · exact hPkg hReversed.1
  · exact absurd hReversed.2.1 (by decide)
  · exact absurd hReversed.2.1 (by decide)

theorem msg_ne_made {pkg : ByteString} (hPkg : pkg ≠ str "vehicle_can_decoder") (pre p : Path)
    (name : ByteString) : ∀ f ∈ messageFiles,
      p ++ [str "share", pkg] ++ [str "msg", name] ≠ pre ++ f.1 := by
  intro f hf hEq
  have hReversed := congrArg List.reverse hEq
  simp only [messageFiles, List.mem_cons, List.not_mem_nil, or_false] at hf
  rcases hf with rfl | rfl | rfl <;> simp [marker, pkgIndex, msgDir] at hReversed
  · exact absurd hReversed.2.1 (by decide)
  · exact hPkg hReversed.2.1
  · exact hPkg hReversed.2.1

section Found

variable {A : Ament} (hA : A.Documented) {pre : Path} (hPlain : Plain pre)
  {fs fs' : FileTree ByteString ByteString}
  (hMade : Made pre [pkgIndex, msgDir] messageFiles fs.lookup fs'.lookup)
  (existing : Option ByteString)

include hA hPlain hMade

theorem packageText_own {type text : ByteString}
    (hFile : (msgDir ++ [type ++ str ".msg"], text) ∈ messageFiles) :
    packageText A fs' (some (updatedPath pre existing)) "vehicle_can_decoder" type = some text := by
  have hShare := hA.found fs' pre existing "vehicle_can_decoder" hPlain
    (congrArg isFile (hMade.atFiles (marker "vehicle_can_decoder", []) (by decide)))
  have hText := hMade.atFiles _ hFile
  unfold packageText
  simp only [Option.bind_eq_bind, Option.bind_some, hShare]
  rw [show pre ++ [str "share", str "vehicle_can_decoder"] ++ [str "msg", type ++ str ".msg"] =
    pre ++ (msgDir ++ [type ++ str ".msg"]) by simp [msgDir], hText]
  rfl

/-- Of another package, the definitions are found as before. -/
theorem packageText_other {pkg : ByteString} (hPkg : pkg ≠ str "vehicle_can_decoder")
    (hOwn : isFile (fs.lookup (pre ++ marker pkg)) = false) (type : ByteString) :
    packageText A fs' (some (updatedPath pre existing)) pkg type =
      packageText A fs existing pkg type := by
  have hMarkers : ∀ p,
      isFile (fs'.lookup (p ++ marker pkg)) = isFile (fs.lookup (p ++ marker pkg)) := fun p => by
    rw [isFile_eq_isSome, isFile_eq_isSome]
    exact congrArg Option.isSome (hMade.fileText_eq (marker_ne_made hPkg pre p))
  have hShare := hA.passed fs' pre existing pkg hPlain ((hMarkers pre).trans hOwn)
  unfold packageText
  cases existing with
  | none => simp [hShare]
  | some e =>
    simp only [Option.bind_eq_bind, Option.bind_some, hShare, hA.markers fs fs' e pkg hMarkers]
    cases hDir : A.shareDirectory fs e pkg with
    | none => rfl
    | some dir =>
      obtain ⟨p, rfl⟩ := hA.shape fs e pkg dir hDir
      exact hMade.fileText_eq (msg_ne_made hPkg pre p _)

/-- Of another package, so is every definition by its name. -/
theorem messageDefinition_other
    (hOwn : ∀ pkg, pkg ≠ str "vehicle_can_decoder" → isFile (fs.lookup (pre ++ marker pkg)) = false)
    {name : ByteString} (hName : (name.splitOn 47).head? ≠ some (str "vehicle_can_decoder")) :
    messageDefinition A fs' (some (updatedPath pre existing)) name =
      messageDefinition A fs existing name := by
  unfold messageDefinition
  split
  · rename_i pkg type hSplit
    rw [hSplit, List.head?_cons] at hName
    have hPkg : pkg ≠ str "vehicle_can_decoder" := fun hEq => hName (congrArg some hEq)
    exact packageText_other hA hPlain hMade existing hPkg (hOwn pkg hPkg) type
  · rfl

theorem messageDefinition_group
    (hOwn : ∀ pkg, pkg ≠ str "vehicle_can_decoder" → isFile (fs.lookup (pre ++ marker pkg)) = false)
    (hStandard : StandardDefinitions (messageDefinition A fs existing)) :
    GroupDefinitions (messageDefinition A fs' (some (updatedPath pre existing))) := by
  have hOther : ∀ {name : ByteString} {lines},
      (name.splitOn 47).head? ≠ some (str "vehicle_can_decoder") →
      Defines (messageDefinition A fs existing) name lines →
      Defines (messageDefinition A fs' (some (updatedPath pre existing))) name lines := by
    rintro name lines hName ⟨text, hText, hLines⟩
    exact ⟨text, (messageDefinition_other hA hPlain hMade existing hOwn hName).trans hText, hLines⟩
  refine ⟨⟨hOther (by decide) hStandard.header, hOther (by decide) hStandard.time⟩, ?_, ?_⟩
  · exact ⟨kSignalGroupMsg, packageText_own hA hPlain hMade existing (by decide), rfl⟩
  · exact ⟨kSignalMsg, packageText_own hA hPlain hMade existing (by decide), rfl⟩

end Found

/-! ### From `create` on -/

theorem toSignedDecimal_plain (n : Int) {b : UInt8} (h : b ∈ toSignedDecimal n) :
    b ≠ 47 ∧ b ≠ 58 := by
  have hDigits : ∀ m, b ∈ toDecimal m → b ≠ 47 ∧ b ≠ 58 := by
    intro m hm
    obtain ⟨c, hc, rfl⟩ := List.mem_map.mp hm
    obtain ⟨hLow, hHigh⟩ := toDigits_range hc
    constructor
    · intro hEq
      have hNat := congrArg UInt8.toNat hEq
      rw [UInt8.toNat_ofNat'] at hNat
      change c.toNat % 256 = 47 at hNat
      omega
    · intro hEq
      have hNat := congrArg UInt8.toNat hEq
      rw [UInt8.toNat_ofNat'] at hNat
      change c.toNat % 256 = 58 at hNat
      omega
  unfold toSignedDecimal at h
  split at h
  · rcases List.mem_append.mp h with h | h
    · obtain rfl : b = 45 := by simpa [show str "-" = [45] by decide] using h
      decide
    · exact hDigits _ h
  · exact hDigits _ h

theorem tmpPrefix_plain {tempDirectory : Path} (h : Plain tempDirectory) (pid : Int) :
    Plain (tmpPrefix tempDirectory pid) := by
  intro name hName
  rcases List.mem_append.mp hName with hName | hName
  · exact h name hName
  · obtain rfl := List.mem_singleton.mp hName
    have hNot : ∀ b : UInt8, b ∉ str "vcd_mcap_schema_" → (b = 47 ∨ b = 58) →
        b ∉ str "vcd_mcap_schema_" ++ toSignedDecimal pid := by
      intro b hFixed hb hMem
      have hPlain := toSignedDecimal_plain pid ((List.mem_append.mp hMem).resolve_left hFixed)
      exact hb.elim hPlain.1 hPlain.2
    exact ⟨hNot 47 (by decide) (.inl rfl), hNot 58 (by decide) (.inr rfl),
      List.append_ne_nil_of_left_ne_nil (by decide) _⟩

/-- Once `create` has returned and the search path begins with its directory, the definitions of
`SignalGroup` are the texts that the converter carries: a reader that has the definitions only reads
each group back from the bytes that the converter writes.  Those of other packages are found as
before. -/
theorem create_describes {A : Ament} (hA : A.Documented)
    (hStream : ∀ k text, stream k text = some text) {tempDirectory : Path}
    (hPlain : Plain tempDirectory) (pid : Int) (existing : Option ByteString)
    {s s' : World ByteString} {pre : Path}
    (hFree : ∀ f ∈ messageFiles, isDir (s.fs.lookup (tmpPrefix tempDirectory pid ++ f.1)) = false)
    (hOwn : ∀ pkg, pkg ≠ str "vehicle_can_decoder" →
      isFile (s.fs.lookup (tmpPrefix tempDirectory pid ++ marker pkg)) = false)
    (hStandard : StandardDefinitions (messageDefinition A s.fs existing))
    (hRun : create M stream (tmpPrefix tempDirectory pid) s = .ok pre s') :
    let definitions := messageDefinition A s'.fs (some (updatedPath pre existing))
    (∀ name, (name.splitOn 47).head? ≠ some (str "vehicle_can_decoder") →
      definitions name = messageDefinition A s.fs existing name) ∧
    ∀ depth, 3 ≤ depth → ∀ sg, CdrBuffer.Encodable sg → ∃ layout payload,
      layoutOf definitions depth "vehicle_can_decoder/SignalGroup" = some layout ∧
      CdrBuffer.serializeSignalGroup sg [] = CdrBuffer.kCdrLeHeader ++ payload ∧
      layout.read.decode payload = some (groupValue sg) := by
  obtain ⟨rfl, hMade⟩ := (create_makes hStream hFree).ok (s := s) rfl hRun
  have hPrefix := tmpPrefix_plain hPlain pid
  have hGroup := messageDefinition_group hA hPrefix hMade existing hOwn hStandard
  exact ⟨fun _ hName => messageDefinition_other hA hPrefix hMade existing hOwn hName,
    fun _ hDepth _ h => CdrBuffer.read_serialized hGroup hDepth h⟩

/-! ### The end -/

theorem removeAll_looks {look : Look} (p : Path) :
    Triple (fun s => lookOf s = look) (removeAll M p)
      (fun _ s => lookOf s = fun q => if p <+: q then none else look q) (fun _ _ => True) := by
  refine Triple.at (I := fun v : Visible ByteString => v.fs.lookup = look) fun v hv =>
    Triple.get_bind fun s₀ hs₀ => Triple.bind (call_leaving hs₀ ?_) fun _ => Triple.modify ?_
  · exact fun _ _ => trivial
  rintro s rfl
  funext q
  rw [← hv]
  exact lookup_removeTree s.fs p q

/-- Outside a prefix, everything is as it was. -/
def Aside (pre : Path) (look look' : Look) : Prop := ∀ q, ¬ pre <+: q → look' q = look q

section Aside

variable {look : Look} {pre : Path}

/-- The directories on the way to the prefix are there already. -/
theorem createDirectories_aside (hWay : ∀ q, q <+: pre → q ≠ pre → look q = some .dir) (d : Path) :
    Triple (fun s => Aside pre look (lookOf s)) (createDirectories M (pre ++ d))
      (fun _ s => Aside pre look (lookOf s)) (fun _ _ => True) := by
  refine Triple.at (I := Aside pre look) fun look' h =>
    (createDirectories_looks (pre ++ d)).post fun _ s hs q hq => ?_
  rw [hs.2]
  by_cases hAbove : q <+: pre ++ d
  · have hPrefix := (List.prefix_or_prefix_of_prefix hAbove (List.prefix_append pre d)).resolve_right
      hq
    exact (if_pos hAbove).trans (hWay q hPrefix fun hEq => hq (hEq ▸ List.prefix_rfl)).symm
  · exact (if_neg hAbove).trans (h q hq)

theorem writeFile_aside (p : Path) (text : ByteString) :
    Triple (fun s => Aside pre look (lookOf s)) (writeFile stream (pre ++ p) text)
      (fun _ s => Aside pre look (lookOf s)) (fun _ _ => True) := by
  refine Triple.modify fun s hs q hq => ?_
  have hOther : ∀ e, (s.fs.insert (pre ++ p) e).lookup q = look q := fun e => by
    rw [UnorderedMap.lookup_insert_eq, if_neg]
    · exact hs q hq
    · rintro rfl
      exact hq (List.prefix_append pre p)
  simp only [lookOf]
  split
  · split
    · exact hOther _
    · exact hs q hq
  · exact hs q hq

/-- Whatever comes into the files, `create` leaves everything outside the prefix as it was. -/
theorem create_aside (hWay : ∀ q, q <+: pre → q ≠ pre → look q = some .dir) :
    Triple (fun s => lookOf s = look) (create M stream pre)
      (fun r s => r = pre ∧ Aside pre look (lookOf s)) (fun _ _ => True) := by
  simp only [create, List.append_assoc]
  refine (Triple.bind (createDirectories_aside hWay _) fun _ => ?_).pre fun s hs q _ => by rw [hs]
  refine Triple.bind (writeFile_aside _ _) fun _ => ?_
  refine Triple.bind (createDirectories_aside hWay _) fun _ => ?_
  refine Triple.bind (writeFile_aside _ _) fun _ => ?_
  refine Triple.bind (writeFile_aside _ _) fun _ => ?_
  exact Triple.pure fun s hs => ⟨rfl, hs⟩

end Aside

/-- The directory leaves no trace in a file system that had a place for it, and nothing there. -/
theorem create_removeAll (disk : FileSystem ByteString ByteString) {tempDirectory : Path}
    (pid : Int) (hPlace : disk.tree.lookup tempDirectory = some .dir)
    (hNew : disk.tree.lookup (tmpPrefix tempDirectory pid) = none) :
    Triple (fun s => lookOf s = disk.tree.lookup)
      (do
        let pre ← create M stream (tmpPrefix tempDirectory pid)
        removeAll M pre)
      (fun _ s => ∀ q, s.fs.lookup q = disk.tree.lookup q) (fun _ _ => True) := by
  have hWay : ∀ q, q <+: tmpPrefix tempDirectory pid → q ≠ tmpPrefix tempDirectory pid →
      disk.tree.lookup q = some .dir := fun q hq hNe =>
    disk.wellFormed.above hPlace ((List.prefix_concat_iff.mp hq).resolve_left hNe)
  refine Triple.bind (create_aside hWay) fun pre => Triple.assume fun hPre =>
    Triple.at (I := Aside _ _) fun look hAside =>
      (removeAll_looks pre).post fun _ s hs q => (congrFun hs q).trans ?_
  subst hPre
  split
  · rename_i hBelow
    obtain ⟨p, rfl⟩ := hBelow
    exact (disk.wellFormed.below_eq_none hNew p).symm
  · rename_i hOff
    exact hAside q hOff

/-! ### A sample -/

/-- A lookup that goes through the search path. -/
def Ament.searching : Ament where
  shareDirectory fs env pkg :=
    ((env.splitOn 58).map fun entry => (entry.splitOn 47).filter (· ≠ [])).findSome? fun p =>
      if isFile (fs.lookup (p ++ marker pkg)) then some (p ++ [str "share", pkg]) else none

theorem splitOn_string {p : Path} (h : Plain p) {name : ByteString} (hName : (47 : UInt8) ∉ name) :
    (name ++ p.string).splitOn 47 = name :: p := by
  induction p generalizing name with
  | nil => simpa [Path.string] using List.splitOn_eq_singleton hName
  | cons next rest ih =>
    have hNext := h next List.mem_cons_self
    have hRest := ih (fun name hMem => h name (List.mem_cons_of_mem next hMem)) hNext.1
    rw [show name ++ Path.string (next :: rest) = name ++ 47 :: (next ++ Path.string rest) by
      simp [Path.string, show str "/" = [47] by decide]]
    rw [List.splitOn_append_cons_self_of_not_mem hName, hRest]

/-- The prefix is the first entry of the search path. -/
theorem splitOn_updatedPath {p : Path} (h : Plain p) (existing : Option ByteString) :
    ((updatedPath p existing).splitOn 58).map (fun entry => (entry.splitOn 47).filter (· ≠ [])) =
      p :: (existing.elim [] fun e => (e.splitOn 58).map fun entry =>
        (entry.splitOn 47).filter (· ≠ [])) := by
  have hColon : (58 : UInt8) ∉ p.string := by
    intro hMem
    obtain ⟨name, hName, hMem⟩ := List.mem_flatMap.mp hMem
    rcases List.mem_append.mp hMem with hMem | hMem
    · exact absurd hMem (by decide)
    · exact (h name hName).2.1 hMem
  have hEntry : (p.string.splitOn 47).filter (· ≠ []) = p := by
    have hSplit : p.string.splitOn 47 = [] :: p := splitOn_string h List.not_mem_nil
    rw [hSplit, List.filter_cons_of_neg (by simp), List.filter_eq_self]
    exact fun name hName => decide_eq_true (h name hName).2.2
  cases existing with
  | none =>
    rw [updatedPath, List.append_nil, List.splitOn_eq_singleton hColon, List.map_cons, hEntry]
    rfl
  | some e =>
    rw [updatedPath, show str ":" ++ e = 58 :: e from rfl,
      List.splitOn_append_cons_self_of_not_mem hColon, List.map_cons, hEntry]
    rfl

theorem Ament.searching_documented : Ament.searching.Documented where
  found fs p existing pkg hPlain hFile := by
    simp only [searching, splitOn_updatedPath hPlain, List.findSome?_cons, hFile, if_true]
  passed fs p existing pkg hPlain hFile := by
    simp only [searching, splitOn_updatedPath hPlain, List.findSome?_cons, hFile]
    cases existing <;> rfl
  shape fs e pkg dir h := by
    obtain ⟨p, -, hp⟩ := List.exists_of_findSome?_eq_some h
    split at hp
    · exact ⟨p, (Option.some.inj hp).symm⟩
    · contradiction
  markers fs fs' e pkg h := by
    simp only [searching, h]

/-- No call fails. -/
def indexEnv : MainEnv ByteString where
  yaml := emptyBagEnv.yaml
  params := emptyBagEnv.params
  dbc := emptyBagEnv.dbc
  exprtk := emptyBagEnv.exprtk
  deserialize := emptyBagEnv.deserialize
  routerOrder := .listed
  transformOrder := .listed
  openBag _ := .error ⟨"not a bag"⟩
  bagFiles _ _ _ := ∅
  fault _ := none
  convertFault _ _ := none
  schemaOrder _ := .listed
  topicsOrder _ := .listed
  groupOrder _ _ := .listed
  debris _ := ∅
  copied _ := none
  kept _ _ := false

/-- A file system with the packages of ROS. -/
def rosDisk : FileTree ByteString ByteString :=
  [([str "tmp"], .dir), (str "opt" :: marker "std_msgs", .file []),
    (str "opt" :: marker "builtin_interfaces", .file []),
    ([str "opt", str "share", str "std_msgs", str "msg", str "Header.msg"],
      .file "# A header\nbuiltin_interfaces/Time stamp\nstring frame_id\n"),
    ([str "opt", str "share", str "builtin_interfaces", str "msg", str "Time.msg"],
      .file "int32 sec  # seconds\nuint32 nanosec\n")].foldl (fun t e => t.insert e.1 e.2) ∅

theorem rosDisk_own (pid : Int) {p : Path} :
    rosDisk.lookup (tmpPrefix ["tmp"] pid ++ p) = none := by
  have hKeys : ∀ k ∈ rosDisk.keys, k.head? = some (str "tmp") → k.length = 1 := by decide +kernel
  by_contra hSome
  have hShort := hKeys _ (UnorderedMap.mem_keys_iff.mpr hSome) rfl
  simp [tmpPrefix] at hShort

theorem create_describes_sample :
    let sg : SignalGroup := ⟨⟨⟨1, 2⟩, "can"⟩, "all", [⟨3, 4⟩]⟩
    let run := create indexEnv (fun _ => some) (tmpPrefix ["tmp"] 42) (World.start rosDisk)
    ∃ layout payload, layoutOf (messageDefinition .searching (final run).fs
        (some (updatedPath (tmpPrefix ["tmp"] 42) (some "/opt")))) 3
          "vehicle_can_decoder/SignalGroup" = some layout ∧
      CdrBuffer.serializeSignalGroup sg [] = CdrBuffer.kCdrLeHeader ++ payload ∧
      layout.read.decode payload = some (groupValue sg) := by
  intro sg run
  have hReturned : returned run = some (tmpPrefix ["tmp"] 42) := by decide +kernel
  have hHeader : messageDefinition .searching rosDisk (some (str "/opt")) "std_msgs/Header" =
      some (str "# A header\nbuiltin_interfaces/Time stamp\nstring frame_id\n") := by decide +kernel
  have hTime : messageDefinition .searching rosDisk (some (str "/opt")) "builtin_interfaces/Time" =
      some (str "int32 sec  # seconds\nuint32 nanosec\n") := by decide +kernel
  have hFree : ∀ f ∈ messageFiles,
      isDir ((World.start rosDisk).fs.lookup (tmpPrefix ["tmp"] 42 ++ f.1)) = false :=
    fun f _ => congrArg isDir (rosDisk_own 42)
  have hDescribes := create_describes Ament.searching_documented (fun _ _ => rfl)
    (show Plain [str "tmp"] by decide) 42 (some (str "/opt")) hFree
    (fun _ _ => congrArg isFile (rosDisk_own 42))
    ⟨⟨_, hHeader, by decide⟩, ⟨_, hTime, by decide⟩⟩ (returned_eq_some hReturned)
  exact hDescribes.2 3 le_rfl sg (by decide)

def tmpDisk : FileSystem ByteString ByteString where
  tree := List.toAList [⟨[], .dir⟩, ⟨[str "tmp"], .dir⟩]
  wellFormed := wellFormed_of_keys (by decide)

/-- The texts do not come into their files here. -/
theorem create_removeAll_sample :
    let run := (do
      let pre ← create indexEnv (fun _ _ => some []) (tmpPrefix ["tmp"] 42)
      removeAll indexEnv pre : Main ByteString PUnit) (World.start tmpDisk.tree)
    ∀ q, (final run).fs.lookup q = tmpDisk.tree.lookup q := by
  intro run
  have hReturned : returned run = some ⟨⟩ := by decide +kernel
  exact (create_removeAll tmpDisk 42 (by decide) (by decide)).ok rfl (returned_eq_some hReturned)

end AmentPrefix

end VehicleCanDecoder
