import VehicleCanDecoder.Cpp
import VehicleCanDecoder.Lib.Hoare
import VehicleCanDecoder.Lib.UnorderedMap

/-! `SignalTransformer`: an expression in `x` for each configured signal.  Evaluation writes the
variable `x` of the signal's expression, but always before it reads it, so what a transform returns
does not depend on the transforms before it. -/

namespace VehicleCanDecoder

/-- The expression library.  `value` takes the value of the bound variable `x` to the result and to
the value that the expression leaves in `x`. -/
structure Exprtk where
  compile : ByteString → Except ByteString Unit
  value : ByteString → Double → Except StdException Double × Double

structure TransformConfig where
  expression : ByteString
  unit : ByteString
  deriving DecidableEq

/-- What a configuration installs for a signal: nothing without an expression. -/
def TransformConfig.installs (cfg : TransformConfig) : Option (ByteString × ByteString) :=
  if cfg.expression = [] then none else some (cfg.expression, cfg.unit)

structure TransformResult where
  value : Double
  rawValue : Double
  unit : ByteString
  deriving DecidableEq

/-- A compiled expression, by its source text, with its variable `x`. -/
structure CompiledExpr where
  x : Double
  expression : ByteString
  unit : ByteString

namespace CompiledExpr

variable (X : Exprtk)

def compile (exprStr unitStr : ByteString) : Except StdException CompiledExpr :=
  match X.compile exprStr with
  | .ok () => .ok ⟨0, exprStr, unitStr⟩
  | .error error => .error
      ⟨str "Failed to compile expression \"" ++ exprStr ++ str "\": " ++ error⟩

def evaluate (e : CompiledExpr) (raw : Double) : Except StdException Double × CompiledExpr :=
  let result := X.value e.expression raw
  (result.1, { e with x := result.2 })

theorem compile_ok {exprStr unitStr : ByteString} {e : CompiledExpr}
    (h : compile X exprStr unitStr = .ok e) :
    e = ⟨0, exprStr, unitStr⟩ ∧ X.compile exprStr = .ok () := by
  unfold compile at h
  split at h
  · exact ⟨(Except.ok.inj h).symm, ‹_›⟩
  · contradiction

end CompiledExpr

structure SignalTransformer where
  exprs : UnorderedMap ByteString CompiledExpr

namespace SignalTransformer

variable (X : Exprtk)

def empty : SignalTransformer := ⟨∅⟩

/-- The body of the loop over the configured transforms. -/
def install (signalName : ByteString) (cfg : TransformConfig) :
    EStateM StdException SignalTransformer PUnit := do
  if cfg.expression = [] then
    -- No expression: the absent entry stands for the passthrough.
    pure ()
  else
    match CompiledExpr.compile X cfg.expression cfg.unit with
    | .ok compiled => modify fun t => ⟨(t.exprs.emplace signalName compiled).1⟩
    | .error e => throw e

def configure (order : HashOrder) (configs : UnorderedMap ByteString TransformConfig) :
    EStateM StdException SignalTransformer PUnit := do
  set SignalTransformer.empty
  (configs.items order).forM fun item => install X item.1 item.2

/-- `transform`: what it returns or throws, and the transformer after it. -/
def transform (t : SignalTransformer) (signalName : ByteString) (rawValue : Double) :
    Except StdException TransformResult × SignalTransformer :=
  match t.exprs.lookup signalName with
  | none => (.ok ⟨rawValue, rawValue, ""⟩, t)
  | some e =>
    let result := e.evaluate X rawValue
    (result.1.map fun transformed => ⟨transformed, rawValue, e.unit⟩,
      ⟨t.exprs.insert signalName result.2⟩)

/-! ### Independence of the history -/

/-- The expression and the unit of a signal. -/
def installed (t : SignalTransformer) (signalName : ByteString) :
    Option (ByteString × ByteString) :=
  (t.exprs.lookup signalName).map fun e => (e.expression, e.unit)

theorem transform_installed (t : SignalTransformer) (signalName : ByteString) (rawValue : Double) :
    (t.transform X signalName rawValue).2.installed = t.installed := by
  funext name
  unfold transform installed
  cases h : t.exprs.lookup signalName with
  | none => rfl
  | some e =>
    simp only [UnorderedMap.lookup_insert_eq]
    by_cases hName : name = signalName
    · subst hName
      simp [h, CompiledExpr.evaluate]
    · simp [hName]

/-- What a transform returns or throws is a function of the expression and the unit of its
signal. -/
theorem transform_result (t : SignalTransformer) (signalName : ByteString) (rawValue : Double) :
    (t.transform X signalName rawValue).1 =
      match t.installed signalName with
      | none => .ok ⟨rawValue, rawValue, ""⟩
      | some (expression, unit) =>
        (X.value expression rawValue).1.map fun transformed => ⟨transformed, rawValue, unit⟩ := by
  unfold transform installed
  cases t.exprs.lookup signalName <;> rfl

theorem transform_congr {t t' : SignalTransformer} (h : t.installed = t'.installed)
    (signalName : ByteString) (rawValue : Double) :
    (t.transform X signalName rawValue).1 = (t'.transform X signalName rawValue).1 := by
  rw [transform_result, transform_result, h]

/-! ### What `configure` leaves -/

theorem install_triple (signalName : ByteString) (cfg : TransformConfig)
    (before : ByteString → Option (ByteString × ByteString)) (hFresh : before signalName = none) :
    Hoare.Triple (fun t => t.installed = before) (install X signalName cfg)
      (fun _ t => (cfg.expression ≠ [] → X.compile cfg.expression = .ok ()) ∧
        t.installed = fun name => if name = signalName then cfg.installs else before name)
      fun e t => cfg.expression ≠ [] ∧ CompiledExpr.compile X cfg.expression cfg.unit = .error e ∧
        t.installed = before := by
  unfold install
  by_cases hEmpty : cfg.expression = []
  · rw [if_pos hEmpty]
    refine Hoare.Triple.pure fun t ht => ⟨fun hNe => absurd hEmpty hNe, ?_⟩
    funext name
    by_cases hName : name = signalName
    · subst hName
      simp [ht, hFresh, TransformConfig.installs, hEmpty]
    · simp [ht, hName]
  · rw [if_neg hEmpty]
    cases hCompile : CompiledExpr.compile X cfg.expression cfg.unit with
    | error e => exact Hoare.Triple.throw fun _ ht => ⟨hEmpty, rfl, ht⟩
    | ok compiled =>
      obtain ⟨rfl, hOk⟩ := CompiledExpr.compile_ok X hCompile
      refine Hoare.Triple.modify fun t ht => ⟨fun _ => hOk, ?_⟩
      have hNone : t.exprs.lookup signalName = none := by
        have := congrFun ht signalName
        rw [hFresh] at this
        exact Option.map_eq_none_iff.mp this
      funext name
      unfold installed
      rw [UnorderedMap.lookup_emplace, hNone]
      by_cases hName : name = signalName
      · simp [hName, TransformConfig.installs, hEmpty]
      · simpa [hName, installed] using congrFun ht name

/-- Exactly the expressions of some entries are installed, and they all compile. -/
structure Installs (entries : List (ByteString × TransformConfig)) (t : SignalTransformer) :
    Prop where
  compiles : ∀ entry ∈ entries, entry.2.expression ≠ [] → X.compile entry.2.expression = .ok ()
  installed : ∀ name, t.installed name = (entries.lookup name).bind TransformConfig.installs

/-- The entry `bad` does not compile, and exactly the expressions of the entries before it are
installed. -/
def StopsAt (entries : List (ByteString × TransformConfig)) (e : StdException)
    (t : SignalTransformer) : Prop :=
  ∃ done bad rest, entries = done ++ bad :: rest ∧ Installs X done t ∧
    bad.2.expression ≠ [] ∧ CompiledExpr.compile X bad.2.expression bad.2.unit = .error e

/-- The loop of `configure`: it comes to its end, or stops at an expression that does not
compile. -/
theorem configure_triple (order : HashOrder) (configs : UnorderedMap ByteString TransformConfig) :
    Hoare.Triple (fun _ => True) (configure X order configs)
      (fun _ => Installs X (configs.items order)) (StopsAt X (configs.items order)) := by
  have hKeys := configs.items_keys_nodup order
  refine Hoare.Triple.bind (Q := fun _ => Installs X [])
    (Hoare.Triple.set fun _ _ => ⟨by simp, fun _ => rfl⟩) fun _ => ?_
  refine Hoare.Triple.forM (Installs X) _ fun done ⟨signalName, cfg⟩ rest hItems => ?_
  rw [hItems, List.map_append, List.map_cons] at hKeys
  have hFresh : done.lookup signalName = none := by
    rw [List.lookup_eq_none_iff]
    intro p hp
    have hNe := List.disjoint_of_nodup_append hKeys (List.mem_map_of_mem hp)
    simp only [bne_iff_ne, ne_eq]
    intro hEq
    exact hNe (hEq ▸ List.mem_cons_self)
  intro t ht
  have hInstall := install_triple X signalName cfg _ (by rw [ht.installed, hFresh]; rfl) t rfl
  cases hRun : install X signalName cfg t with
  | error e t' =>
    rw [hRun] at hInstall
    obtain ⟨hEmpty, hError, hSame⟩ := hInstall
    refine ⟨done, (signalName, cfg), rest, hItems, ⟨ht.compiles, fun name => ?_⟩, hEmpty, hError⟩
    rw [hSame, ht.installed]
  | ok u t' =>
    rw [hRun] at hInstall
    obtain ⟨hCompiles, hInstalled⟩ := hInstall
    refine ⟨fun entry hEntry => ?_, fun name => ?_⟩
    · rcases List.mem_append.mp hEntry with hDone | hHere
      · exact ht.compiles entry hDone
      · rw [List.mem_singleton.mp hHere]
        exact hCompiles
    · rw [hInstalled, List.lookup_append]
      by_cases hName : name = signalName
      · subst hName
        simp [hFresh]
      · have hBeq : (name == signalName) = false := by simpa using hName
        simp [hName, List.lookup_cons, hBeq, ht.installed]

/-- After `configure` returns, exactly the configured expressions are installed. -/
theorem configure_ok {order : HashOrder} {configs : UnorderedMap ByteString TransformConfig}
    {t t' : SignalTransformer} {u : PUnit} (h : configure X order configs t = .ok u t')
    (signalName : ByteString) :
    t'.installed signalName = (configs.lookup signalName).bind TransformConfig.installs := by
  rw [((configure_triple X order configs).ok trivial h).installed, configs.lookup_items]

end SignalTransformer

end VehicleCanDecoder
