import VehicleCanDecoder.Converter.Loop
import VehicleCanDecoder.Lib.FileTree
import Mathlib.Data.List.Sort

/-! `main` of the converter: one bag or a directory of bags, and the file system that it works on.
Every call that reads or changes the file system may fail; a call that fails may leave a part of
what it makes, or keep a part of what it removes.  The temporary directory for the message
definitions is not part of the file system here. -/

namespace VehicleCanDecoder

namespace Converter

/-- A path: its names, without `.` and `..`, from the root, or from the working directory where the
paths of a run are typed relative to it. -/
abbrev Path := FilePath ByteString

namespace Path

/-- `path::string()`, as typed but for the first slash of a relative path, which no test on a path
looks at. -/
def string (p : Path) : ByteString := p.flatMap fun name => str "/" ++ name

/-- `path::extension()` of a file name: from the last dot on, unless it is the first character. -/
def extension (name : ByteString) : ByteString :=
  let afterDot := name.reverse.takeWhile (· ≠ 46)
  if name.length ≤ afterDot.length + 1 ∨ name = str ".." then [] else 46 :: afterDot.reverse

def filename (p : Path) : ByteString := p.getLastD []

def parentPath (p : Path) : Path := p.dropLast

end Path

def kBagExtensions : List ByteString := [".mcap", ".db3", ".sqlite3"]

/-- The name of a temporary bag directory. -/
def bagSuffix : ByteString := ".__bag"

structure Args where
  input : Path
  output : Path

/-- What the options that do not name bags come to, once they have been read. -/
structure Ready where
  cfg : Config
  decoder : DbcDecoder
  router : SignalRouter
  transformer : SignalTransformer

structure World (δ : Type) where
  fs : FileTree ByteString δ
  transformer : SignalTransformer
  /-- How often something outside has been called, and how many bags have been written. -/
  calls : Nat
  conversions : Nat

/-- What is outside `main`: the options, the libraries, which calls fail, and what a failed call
leaves: `debris` in the directory of a bag, `copied` of a file, `kept` of a directory that it
removes. -/
structure MainEnv (δ : Type) where
  yaml : YamlCpp
  params : Except StdException ParamMap
  dbc : DbcSource
  exprtk : Exprtk
  deserialize : List UInt8 → Except StdException Frame
  routerOrder : HashOrder
  transformOrder : HashOrder
  openBag : δ → Except StdException InputBag
  bagFiles : Path → ByteString → Writer → UnorderedMap ByteString δ
  fault : Nat → Option StdException
  convertFault : Nat → Nat → Option StdException
  schemaOrder : Nat → HashOrder
  topicsOrder : Nat → HashOrder
  groupOrder : Nat → Nat → HashOrder
  debris : Nat → UnorderedMap ByteString δ
  copied : Nat → Option δ
  kept : Nat → Path → Bool

abbrev Main (δ : Type) := EStateM StdException (World δ)

variable {δ : Type} (M : MainEnv δ)

/-- The environment of the loop of one conversion. -/
def MainEnv.convertEnv (conversion : Nat) : ConvertEnv where
  exprtk := M.exprtk
  deserialize := M.deserialize
  fault := M.convertFault conversion
  schemaOrder := M.schemaOrder conversion
  topicsOrder := M.topicsOrder conversion
  order := M.groupOrder conversion

/-- Everything up to the conversion: nothing where `main` returns 1. -/
def MainEnv.prepare : Except StdException (Option Ready) :=
  match M.params with
  | .error _ => .ok none
  | .ok params => do
    let cfg ← buildConfig M.yaml params
    match DbcDecoder.fresh.load M.dbc with
    | some (decoder, true) =>
      let router := (SignalRouter.empty.configure M.routerOrder cfg.domains cfg.aliases).1
      match SignalTransformer.configure M.exprtk M.transformOrder cfg.transforms .empty with
      | .ok _ transformer => pure (some ⟨cfg, decoder, router, transformer⟩)
      | .error e _ => throw e
    | _ => pure none

/-! ### Calls of the file system -/

def call : Main δ PUnit := do
  let s ← get
  set { s with calls := s.calls + 1 }
  match M.fault s.calls with
  | some e => throw e
  | none => pure ()

/-- `fs::exists`. -/
def pathExists (p : Path) : Main δ Bool := do
  call M
  let s ← get
  pure (s.fs.lookup p).isSome

def isDir : Option (Entry δ) → Bool
  | some .dir => true
  | _ => false

def isFile : Option (Entry δ) → Bool
  | some (.file _) => true
  | _ => false

/-- `fs::is_directory`. -/
def isDirectory (p : Path) : Main δ Bool := do
  call M
  let s ← get
  pure (isDir (s.fs.lookup p))

/-- One directory of `fs::create_directories`. -/
def createDirectory (p : Path) : Main δ PUnit := do
  call M
  let s ← get
  match s.fs.lookup p with
  | some .dir => pure ()
  | some (.file _) => throw ⟨str "cannot create directories: Not a directory [" ++ p.string ++ str "]"⟩
  | none => set { s with fs := s.fs.insert p .dir }

/-- `fs::create_directories`, from the root down. -/
def createDirectories (p : Path) : Main δ PUnit := p.inits.forM (createDirectory M)

/-- `fs::remove_all`, which removes a directory after what is in it. -/
def removeAll (p : Path) : Main δ PUnit := do
  let s ← get
  tryCatch (call M) fun e => do
    modify fun s' => { s' with
      fs := s'.fs.filterKeys fun q =>
        !decide (p <+: q) || s'.fs.keys.any fun r => decide (q <+: r) && M.kept s.calls r }
    throw e
  modify fun s => { s with fs := s.fs.removeTree p }

/-- The data of a file. -/
def fileData (p : Path) : Main δ δ := do
  let s ← get
  match s.fs.lookup p with
  | some (.file d) => pure d
  | _ => throw ⟨str "filesystem error: Is not a regular file [" ++ p.string ++ str "]"⟩

/-- A file by itself. -/
def leaf (d : δ) : FileTree ByteString δ := AList.singleton [] (.file d)

/-- `fs::rename` of a file, which is atomic. -/
def rename (src dst : Path) : Main δ PUnit := do
  let d ← fileData src
  call M
  modify fun s => { s with fs := (s.fs.removeTree src).graft dst (leaf d) }

/-- `fs::copy_file`. -/
def copyFile (src dst : Path) : Main δ PUnit := do
  let d ← fileData src
  let s ← get
  tryCatch (call M) fun e => do
    modify fun s' => { s' with
      fs := s'.fs.graft dst (((M.copied s.calls).map leaf).getD ∅) }
    throw e
  modify fun s => { s with fs := s.fs.graft dst (leaf d) }

/-- `fs::remove` of a file. -/
def remove (p : Path) : Main δ PUnit := do
  call M
  modify fun s => { s with fs := s.fs.removeTree p }

/-! ### `convert_one` -/

/-- The storage of the output: that of the input, or by the extension of its path. -/
def inferStorage (input storageId : ByteString) : ByteString :=
  if storageId ≠ [] then storageId
  else
    let afterDot := (input.reverse.takeWhile (· ≠ 46)).reverse
    if afterDot.length = input.length then []
    else if afterDot = str "mcap" then "mcap"
    else if afterDot = str "db3" then "sqlite3"
    else []

/-- A bag that is written and closed: its directory, with the files in it. -/
def bagTree (files : UnorderedMap ByteString δ) : FileTree ByteString δ :=
  (files.items .listed).foldl (fun t e => t.insert [e.1] (.file e.2)) (AList.singleton [] .dir)

/-- `reader->open`, and everything that the reader gives later; none where it throws. -/
def openInput (input : Path) : Main δ (Option InputBag) :=
  tryCatch (do
    call M
    let d ← fileData input
    match M.openBag d with
    | .ok bag => pure (some bag)
    | .error e => throw e) fun _ => pure none

/-- What a conversion that fails leaves of its output: the directory, and some files in it. -/
def leavePart (output : Path) : Main δ PUnit :=
  modify fun s => { s with fs := s.fs.graft output (bagTree (M.debris s.calls)) }

/-- A call after the directory of a bag has been made, which leaves it where it fails. -/
def callWriting (output : Path) : Main δ PUnit :=
  tryCatch (call M) fun e => do
    leavePart M output
    throw e

/-- `writer->open`: the directory of the bag is made, with those on the way to it, and the storage
opened in it. -/
def openWriter (output : Path) : Main δ PUnit := do
  createDirectories M output
  callWriting M output

/-- A return of 1: the writer's destructor closes what there is. -/
def giveUp : Main δ Nat := do
  call M
  pure 1

/-- `convert_one` from the opening of the writer on. -/
def writeBag (r : Ready) (output : Path) (storageId : ByteString) (bag : InputBag) : Main δ Nat := do
  let opened ← tryCatch (do openWriter M output; pure true) fun _ => pure false
  if !opened then giveUp M
  else
    let s ← get
    let C := M.convertEnv s.conversions
    let topicOf := domainToTopic C.schemaOrder r.cfg
    set { s with conversions := s.conversions + 1 }
    match registerTopics C r.cfg bag.topics topicOf (State.opened 0 s.transformer) with
    | .error (.thrown e) _ => do
      -- The registration is not in the try block.
      leavePart M output
      throw e
    | .error .outOfMemory _ => do
      leavePart M output
      giveUp M
    | .ok _ c =>
      match convertMessages C r.cfg r.decoder r.router topicOf bag.messages c with
      | .error _ c => do
        modify fun s => { s with transformer := c.transformer }
        leavePart M output
        giveUp M
      | .ok _ c => do
        callWriting M output
        modify fun s => { s with
          transformer := c.transformer
          fs := s.fs.graft output (bagTree (M.bagFiles output storageId c.writer)) }
        pure 0

/-- `convert_one`. -/
def convertOne (r : Ready) (input output : Path) : Main δ Nat := do
  if ← pathExists M output then pure 1
  else
    match ← openInput M input with
    | none => pure 1
    | some bag => do
      call M
      writeBag M r output (inferStorage input.string bag.storageIdentifier) bag

/-! ### A directory of bags -/

/-- A regular file below `dir`, reached through directories, with the name of a bag; `.__bag` is
looked for in the whole path, as it is typed. -/
def isBagFile (fs : FileTree ByteString δ) (dir p : Path) : Bool :=
  decide (dir <+: p) && isFile (fs.lookup p) &&
    p.inits.all (fun q => !decide (dir <+: q) || decide (q = p) || isDir (fs.lookup q)) &&
    !decide (bagSuffix <:+: p.string) && decide (Path.extension p.filename ∈ kBagExtensions)

/-- `find_bag_files`. -/
def findBagFiles (fs : FileTree ByteString δ) (dir : Path) : List Path :=
  (fs.keys.filter (isBagFile fs dir)).insertionSort (· ≤ ·)

/-- `output / fs::relative(file, input)`. -/
def outputPath (args : Args) (file : Path) : Path := args.output ++ file.drop args.input.length

/-- The directory next to `out` that its bag is written to. -/
def bagTmp (out : Path) : Path := out.parentPath ++ [out.filename ++ bagSuffix]

/-- The data files in a bag directory, in the order of the directory. -/
def dataFiles (fs : FileTree ByteString δ) (dir : Path) : List Path :=
  fs.keys.filter fun p =>
    decide (p ≠ [] ∧ p.parentPath = dir ∧ Path.extension p.filename ∈ kBagExtensions)

/-- The rename, with a copy where it fails. -/
def moveFile (src dst : Path) : Main δ PUnit :=
  tryCatch (rename M src dst) fun _ => do
    copyFile M src dst
    remove M src

/-- The body of the loop over the files. -/
def convertFile (r : Ready) (args : Args) (file : Path) : Main δ Nat := do
  let out := outputPath args file
  createDirectories M out.parentPath
  if ← pathExists M out then pure 1
  else if ← pathExists M (bagTmp out) then pure 1
  else
    let ret ← convertOne M r file (bagTmp out)
    if ret ≠ 0 then do
      removeAll M (bagTmp out)
      pure ret
    else
      call M
      let s ← get
      match dataFiles s.fs (bagTmp out) with
      | [data] => do
        moveFile M data out
        removeAll M (bagTmp out)
        pure 0
      | _ => pure 1

def convertFiles (r : Ready) (args : Args) : List Path → Main δ Nat
  | [] => pure 0
  | file :: rest => do
    let ret ← convertFile M r args file
    if ret ≠ 0 then pure ret else convertFiles r args rest

def convertBatch (r : Ready) (args : Args) : Main δ Nat := do
  call M
  let s ← get
  let files := findBagFiles s.fs args.input
  if files = [] then pure 1 else convertFiles M r args files

/-! ### `main` -/

def main (args : Args) : Main δ Nat :=
  match M.prepare with
  | .error e => throw e
  | .ok none => pure 1
  | .ok (some r) => do
    modify fun s => { s with transformer := r.transformer }
    -- The temporary directory is made here, and removed at the end.
    call M
    let ret ← if ← isDirectory M args.input then convertBatch M r args
      else convertOne M r args.input args.output
    call M
    pure ret

def World.start (fs : FileTree ByteString δ) : World δ := ⟨fs, .empty, 0, 0⟩

end Converter

end VehicleCanDecoder
