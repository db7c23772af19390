import VehicleCanDecoder.Converter.Complete
import VehicleCanDecoder.Converter.ConfigFiles
import VehicleCanDecoder.Lib.Options

/-! The command line of the converter: `parse_args`, and `main` from there on. -/

namespace VehicleCanDecoder

namespace CommandLine

open Converter Options

structure Args where
  input : ByteString
  output : ByteString
  dbc : ByteString
  configs : List ByteString
  deriving DecidableEq

/-- What an option does with its value; none where the word is no option. -/
def Args.take (a : Args) (f value : ByteString) : Option Args :=
  if f = str "--input" then some { a with input := value }
  else if f = str "--output" then some { a with output := value }
  else if f = str "--dbc" then some { a with dbc := value }
  else if f = str "--config" then some { a with configs := a.configs ++ [value] }
  else none

/-- The loop of `parse_args`: it takes no value from behind the last word. -/
def parseWords (a : Args) : List ByteString → Args
  | f :: value :: rest =>
    match a.take f value with
    | some a => parseWords a rest
    | none => parseWords a (value :: rest)
  | _ => a

def parseArgs (argv : List ByteString) : Args := parseWords ⟨[], [], [], []⟩ argv.tail

/-- What is outside: the files and the libraries, and how a word names a path. -/
structure Launch (δ : Type) where
  env : MainEnv δ
  yaml : YamlFiles
  order : Nat → HashOrder
  openDbc : ByteString → DbcSource
  path : ByteString → Path

/-- The environment with the files that the command line names. -/
def Launch.mainEnv {δ : Type} (L : Launch δ) (dbc : ByteString) (configs : List ByteString) :
    MainEnv δ :=
  { L.env.withConfigs L.yaml L.order configs with dbc := L.openDbc dbc }

/-- `main`: it prints the usage and returns 1 where an option is missing. -/
def main {δ : Type} (L : Launch δ) (argv : List ByteString) : Main δ Nat :=
  let args := parseArgs argv
  if args.input = [] ∨ args.output = [] ∨ args.dbc = [] ∨ args.configs = [] then pure 1
  else Converter.main (L.mainEnv args.dbc args.configs) ⟨L.path args.input, L.path args.output⟩

/-! ### What the options come to -/

def isOption (f : ByteString) : Bool :=
  f ∈ [str "--input", str "--output", str "--dbc", str "--config"]

/-- What an item of the command line does. -/
def Args.step (a : Args) : Item ByteString → Args
  | .option f value => (a.take f value).getD a
  | .skipped _ => a

theorem Args.take_isSome (a : Args) (f value : ByteString) :
    (a.take f value).isSome = isOption f := by
  by_cases hOption : isOption f = true
  · rw [hOption]
    simp only [isOption, decide_eq_true_eq, List.mem_cons, List.not_mem_nil, or_false] at hOption
    obtain rfl | rfl | rfl | rfl := hOption <;> rfl
  · have hNot : f ∉ [str "--input", str "--output", str "--dbc", str "--config"] := by
      simpa [isOption] using hOption
    simp only [List.mem_cons, List.not_mem_nil, or_false, not_or] at hNot
    obtain ⟨hInput, hOutput, hDbc, hConfig⟩ := hNot
    rw [take, if_neg hInput, if_neg hOutput, if_neg hDbc, if_neg hConfig]
    simpa using hOption

theorem parseWords_eq (a : Args) (words : List ByteString) :
    parseWords a words = (items isOption words).foldl Args.step a := by
  induction words using items.induct isOption generalizing a with
  | case1 => rfl
  | case2 word => rfl
  | case3 f value rest hOption ih =>
    obtain ⟨a', ha'⟩ := Option.isSome_iff_exists.mp ((a.take_isSome f value).trans hOption)
    have hStep : a.step (.option f value) = a' := by rw [Args.step, ha', Option.getD_some]
    rw [items, if_pos hOption, List.foldl_cons, hStep, ← ih]
    simp only [parseWords, ha']
  | case4 f value rest hOther ih =>
    have hNone : a.take f value = none := by
      rw [← Option.not_isSome_iff_eq_none, a.take_isSome]
      exact hOther
    rw [items, if_neg hOther, List.foldl_cons, Args.step, ← ih]
    simp only [parseWords, hNone]

/-- Each option has its own field. -/
theorem Args.step_option (a : Args) (f value : ByteString) : a.step (.option f value) =
    { input := if f = str "--input" then value else a.input
      output := if f = str "--output" then value else a.output
      dbc := if f = str "--dbc" then value else a.dbc
      configs := if f = str "--config" then a.configs ++ [value] else a.configs } := by
  unfold step take
  by_cases hInput : f = str "--input"
  · subst hInput
    rfl
  by_cases hOutput : f = str "--output"
  · subst hOutput
    rfl
  by_cases hDbc : f = str "--dbc"
  · subst hDbc
    rfl
  by_cases hConfig : f = str "--config"
  · subst hConfig
    rfl
  · simp only [hInput, hOutput, hDbc, hConfig, if_false, Option.getD_none]

/-- The last value of an option counts, and all values of `--config` do. -/
theorem parseArgs_eq (prog : ByteString) {l : List (Item ByteString)} (h : Meets isOption l) :
    parseArgs (prog :: l.flatMap Item.words) =
      ⟨(values (str "--input") l).getLastD [], (values (str "--output") l).getLastD [],
        (values (str "--dbc") l).getLastD [], values (str "--config") l⟩ := by
  have hParse : parseArgs (prog :: l.flatMap Item.words) = l.foldl Args.step ⟨[], [], [], []⟩ := by
    rw [parseArgs, List.tail_cons, parseWords_eq, items_of_meets h]
  have hInput : (l.foldl Args.step ⟨[], [], [], []⟩).input =
      (values (str "--input") l).getLastD [] :=
    foldl_last (fun _ _ => rfl) (fun a f value hNe => by rw [a.step_option, if_neg hNe])
      (fun _ _ => rfl) l _
  have hOutput : (l.foldl Args.step ⟨[], [], [], []⟩).output =
      (values (str "--output") l).getLastD [] :=
    foldl_last (fun _ _ => rfl) (fun a f value hNe => by rw [a.step_option, if_neg hNe])
      (fun _ _ => rfl) l _
  have hDbc : (l.foldl Args.step ⟨[], [], [], []⟩).dbc = (values (str "--dbc") l).getLastD [] :=
    foldl_last (fun _ _ => rfl) (fun a f value hNe => by rw [a.step_option, if_neg hNe])
      (fun _ _ => rfl) l _
  have hConfigs : (l.foldl Args.step ⟨[], [], [], []⟩).configs = [] ++ values (str "--config") l :=
    foldl_all (fun _ _ => rfl) (fun a f value hNe => by rw [a.step_option, if_neg hNe])
      (fun _ _ => rfl) l _
  rw [hParse, ← hInput, ← hOutput, ← hDbc, ← List.nil_append (values (str "--config") l),
    ← hConfigs]

/-- Every command line reads in exactly one way.  The run is that of the last values of `--input`,
`--output` and `--dbc` and of all config files in order, unless one of these is empty or missing;
then nothing is read or written. -/
theorem main_items {δ : Type} (L : Launch δ) :
    (∀ words, ∃! l, Meets isOption l ∧ l.flatMap Item.words = words) ∧
      ∀ (prog : ByteString) (l : List (Item ByteString)), Meets isOption l →
        let last := fun name => (values name l).getLastD []
        let configs := values (str "--config") l
        main L (prog :: l.flatMap Item.words) =
          if (∀ name ∈ [str "--input", str "--output", str "--dbc"], last name ≠ []) ∧
              configs ≠ [] then
            Converter.main (L.mainEnv (last "--dbc") configs)
              ⟨L.path (last "--input"), L.path (last "--output")⟩
          else pure 1 := by
  refine ⟨exists_unique_items, fun prog l h => ?_⟩
  intro last configs
  have hGiven : ((∀ name ∈ [str "--input", str "--output", str "--dbc"], last name ≠ []) ∧
      configs ≠ []) ↔ ¬ (last "--input" = [] ∨ last "--output" = [] ∨ last "--dbc" = [] ∨
        configs = []) := by
    simp only [List.forall_mem_cons, List.not_mem_nil, false_imp_iff, implies_true, and_true,
      not_or, and_assoc, ne_eq]
  unfold main
  rw [parseArgs_eq prog h]
  by_cases hMissing : last "--input" = [] ∨ last "--output" = [] ∨ last "--dbc" = [] ∨ configs = []
  · rw [if_neg fun hAll => hGiven.mp hAll hMissing]
    exact if_pos hMissing
  · rw [if_pos (hGiven.mpr hMissing)]
    exact if_neg hMissing

def sampleLaunch : Launch Nat where
  env := emptyBagEnv
  yaml := layeredFiles overlayDoc
  order _ := .listed
  openDbc _ := .missing
  path word := [word]

/-- An option as the value of another, a word that is skipped, an option that is repeated, and an
option without a value. -/
theorem main_items_sample :
    main sampleLaunch ["mcap_converter", "--input", "--dbc", "x", "--dbc", "a.dbc", "--config",
        "base.yaml", "--output", "out", "--dbc", "b.dbc", "--config", "overlay.yaml", "--input"] =
      Converter.main (sampleLaunch.mainEnv "b.dbc" ["base.yaml", "overlay.yaml"])
        ⟨[str "--dbc"], [str "out"]⟩ :=
  (main_items sampleLaunch).2 "mcap_converter"
    [.option "--input" "--dbc", .skipped "x", .option "--dbc" "a.dbc",
      .option "--config" "base.yaml", .option "--output" "out", .option "--dbc" "b.dbc",
      .option "--config" "overlay.yaml", .skipped "--input"] (by decide)

end CommandLine

end VehicleCanDecoder
