import VehicleCanDecoder.ParameterNames
import VehicleCanDecoder.Schedules

/-! Which launches the node accepts.  The constructor declares a list of parameters that the
overrides determine, and throws for a name that comes twice, for an override of the wrong type, or
at one of the checks of `load_parameters`; for nothing else. -/

namespace VehicleCanDecoder

open Hoare

/-- `declare_parameter` throws for nothing else than what is documented. -/
structure Rclcpp.DeclareExact (R : Rclcpp) : Prop extends Rclcpp.DeclareDocumented R where
  accepts : ∀ {overrides declared name default}, declared.lookup name = none →
    ((overrides.lookup name).getD default).type = default.type →
      ∃ v, R.declareParameter overrides declared name default = .ok v

theorem Rclcpp.documented_exact : Rclcpp.documented.DeclareExact where
  toDeclareDocumented := Rclcpp.documented_declare
  accepts hNew hType := ⟨_, by simp only [Rclcpp.documented, hNew, hType]; rfl⟩

/-! ### Declared parameters -/

/-- What is declared after some parameters. -/
def held (overrides : Overrides) (ps : Parameters) : Declared :=
  (ps.map fun p => (p.1, (overrides.lookup p.1).getD p.2)).reverse

/-- Exactly some parameters have been declared. -/
def Holds (overrides : Overrides) (ps : Parameters) (declared : Declared) : Prop :=
  declared = held overrides ps ∧ Declarable overrides ps

theorem lookup_held_eq_none {overrides : Overrides} {ps : Parameters} {name : ByteString} :
    (held overrides ps).lookup name = none ↔ name ∉ ps.map Prod.fst := by
  rw [List.lookup_eq_none_iff]
  simp only [held, List.mem_reverse, List.mem_map, bne_iff_ne, ne_eq, forall_exists_index,
    and_imp, forall_apply_eq_imp_iff₂, not_exists, not_and]
  exact forall₂_congr fun p _ => not_congr eq_comm

theorem typed_iff {overrides : Overrides} {name : ByteString} {default : ParameterValue} :
    overrides.Typed name default.type ↔
      ((overrides.lookup name).getD default).type = default.type := by
  unfold Overrides.Typed
  cases overrides.lookup name <;> simp

theorem lookup_held {overrides : Overrides} {ps : Parameters} (h : (ps.map Prod.fst).Nodup)
    {p : ByteString × ParameterValue} (hp : p ∈ ps) :
    (held overrides ps).lookup p.1 = some ((overrides.lookup p.1).getD p.2) := by
  obtain ⟨before, after, rfl⟩ := List.append_of_mem hp
  rw [List.lookup_eq_some_iff]
  refine ⟨held overrides after, held overrides before, by simp [held], ?_⟩
  have hNew : p.1 ∉ after.map Prod.fst := by
    rw [List.map_append, List.map_cons] at h
    exact (List.nodup_cons.mp (List.nodup_append.mp h).2.1).1
  exact List.lookup_eq_none_iff.mp (lookup_held_eq_none.mpr hNew)

theorem Holds.settled {overrides : Overrides} {ps : Parameters} {declared : Declared}
    (h : Holds overrides ps declared) : Settled overrides ps declared := by
  obtain ⟨rfl, h⟩ := h
  exact fun p hp => ⟨_, lookup_held h.nodup hp, rfl, typed_iff.mp (h.typed p hp)⟩

variable {E : Env} {overrides : Overrides} {ps : Parameters}

/-! ### Single steps

A step returns where the launch is acceptable, `A`; where it throws, the launch is not. -/

section Steps

variable {A : Prop}

theorem declareParameter_holds (hExact : E.rclcpp.DeclareExact) (name : ByteString)
    (default : ParameterValue) (hA : A → Declarable overrides (ps ++ [(name, default)])) :
    Triple (Holds overrides ps) (declareParameter E.rclcpp overrides name default)
      (fun _ => Holds overrides (ps ++ [(name, default)])) fun _ _ => ¬ A := by
  refine Triple.get_bind fun declared hs => ?_
  obtain ⟨rfl, hps⟩ := hs
  cases hRun : E.rclcpp.declareParameter overrides (held overrides ps) name default with
  | error e =>
    refine Triple.throw fun _ _ a => ?_
    obtain ⟨-, hNew, hTyped⟩ := declarable_concat.mp (hA a)
    obtain ⟨v, hv⟩ := hExact.accepts (lookup_held_eq_none.mpr hNew) (typed_iff.mp hTyped)
    rw [hRun] at hv
    contradiction
  | ok v =>
    have hNew := lookup_held_eq_none.mp (hExact.new hRun)
    have hValue := hExact.value hRun
    refine Triple.set fun _ _ => ⟨by simp [held, hValue], declarable_concat.mpr ⟨hps, hNew, ?_⟩⟩
    exact typed_iff.mpr (hValue ▸ hExact.type hRun)

/-- Reading a declared parameter by its type never throws. -/
theorem getParameter_holds {α : Type} {expected : ParameterType}
    {as : ParameterValue → Option α} {name : ByteString} {default : ParameterValue} {a : α}
    (hDefault : as default = some a) (hAs : ∀ v, v.type = default.type → (as v).isSome)
    (hp : (name, default) ∈ ps) :
    Triple (Holds overrides ps) (getParameter expected as name)
      (fun x s => x = overrides.value as name a ∧ Holds overrides ps s) fun _ _ => ¬ A := by
  have hReads : Triple (Holds overrides ps) (getParameter expected as name)
      (fun _ s => Holds overrides ps s) fun _ _ => False := by
    refine Triple.get_bind fun s hs => ?_
    obtain ⟨v, hLookup, -, hType⟩ := hs.settled _ hp
    obtain ⟨x, hx⟩ := Option.isSome_iff_exists.mp (hAs v hType)
    simp only [hLookup, hx]
    exact Triple.pure fun s' hs' => hs' ▸ hs
  intro s hs
  cases hRun : getParameter expected as name s with
  | ok x s' =>
    exact ⟨((getParameter_settled hDefault hAs hp).ok hs.settled hRun).1, hReads.ok hs hRun⟩
  | error e s' => exact (hReads.error hs hRun).elim

theorem getString_holds {name d : ByteString} (hp : (name, ParameterValue.string d) ∈ ps) :
    Triple (Holds overrides ps) (getString name)
      (fun x s => x = overrides.text name d ∧ Holds overrides ps s) fun _ _ => ¬ A :=
  getParameter_holds rfl (by rintro ⟨⟩ h <;> first | rfl | contradiction) hp

theorem getStringArray_holds {name : ByteString}
    (hp : (name, ParameterValue.stringArray []) ∈ ps) :
    Triple (Holds overrides ps) (getStringArray name)
      (fun x s => x = overrides.strings name ∧ Holds overrides ps s) fun _ _ => ¬ A :=
  getParameter_holds rfl (by rintro ⟨⟩ h <;> first | rfl | contradiction) hp

theorem getIntegerArray_holds {name : ByteString}
    (hp : (name, ParameterValue.integerArray []) ∈ ps) :
    Triple (Holds overrides ps) (getIntegerArray name)
      (fun x s => x = overrides.value ParameterValue.asIntegerArray name [] ∧ Holds overrides ps s)
      fun _ _ => ¬ A :=
  getParameter_holds rfl (by rintro ⟨⟩ h <;> first | rfl | contradiction) hp

theorem getBool_holds {name : ByteString} {d : Bool} (hp : (name, ParameterValue.bool d) ∈ ps) :
    Triple (Holds overrides ps) (getBool name)
      (fun x s => x = overrides.value ParameterValue.asBool name d ∧ Holds overrides ps s)
      fun _ _ => ¬ A :=
  getParameter_holds rfl (by rintro ⟨⟩ h <;> first | rfl | contradiction) hp

theorem getInt_holds {name : ByteString} {d : Int64} (hp : (name, ParameterValue.int d) ∈ ps) :
    Triple (Holds overrides ps) (getInt name)
      (fun x s => x = overrides.value ParameterValue.asInt name d ∧ Holds overrides ps s)
      fun _ _ => ¬ A :=
  getParameter_holds rfl (by rintro ⟨⟩ h <;> first | rfl | contradiction) hp

theorem getDouble_holds {name : ByteString} {d : Double}
    (hp : (name, ParameterValue.double d) ∈ ps) :
    Triple (Holds overrides ps) (getDouble name)
      (fun x s => x = overrides.value ParameterValue.asDouble name d ∧ Holds overrides ps s)
      fun _ _ => ¬ A :=
  getParameter_holds rfl (by rintro ⟨⟩ h <;> first | rfl | contradiction) hp

theorem requirePositive_holds {P : Declared → Prop} {name : ByteString} {isPositive : Bool}
    {text : ByteString} (hA : A → isPositive = true) :
    Triple P (requirePositive name isPositive text) (fun _ s => isPositive = true ∧ P s)
      fun _ _ => ¬ A := by
  unfold requirePositive
  split
  · rename_i h
    exact Triple.pure fun s hs => ⟨h, hs⟩
  · rename_i h
    exact Triple.throw fun _ _ a => h (hA a)

theorem requireUnitNames_holds {P : Declared → Prop} {signalIdNames unitNames : List ByteString}
    (hA : A → signalIdNames ≠ [] → unitNames.length = signalIdNames.length) :
    Triple P (requireUnitNames signalIdNames unitNames)
      (fun _ s => (signalIdNames ≠ [] → unitNames.length = signalIdNames.length) ∧ P s)
      fun _ _ => ¬ A := by
  unfold requireUnitNames
  split
  · rename_i h
    exact Triple.throw fun _ _ a => h.2 (hA a h.1)
  · rename_i h
    exact Triple.pure fun s hs => ⟨fun hNe => by_contra fun hLength => h ⟨hNe, hLength⟩, hs⟩

theorem requireAtMost65535_holds {P : Declared → Prop} {name : ByteString} {size : Nat}
    (hA : A → size ≤ 65535) :
    Triple P (requireAtMost65535 name size) (fun _ s => size ≤ 65535 ∧ P s) fun _ _ => ¬ A := by
  unfold requireAtMost65535
  split
  · rename_i h
    exact Triple.throw fun _ _ a => absurd (hA a) (by omega)
  · rename_i h
    exact Triple.pure fun s hs => ⟨by omega, hs⟩

/-- The file has a name and parses. -/
def Parses (E : Env) (dbcFile : ByteString) : Prop :=
  dbcFile ≠ [] ∧ ∃ network, E.openDbc dbcFile = .parsed network

theorem loadDbc_holds {P : Declared → Prop} {dbcFile : ByteString} (hA : A → Parses E dbcFile) :
    Triple P (loadDbc E dbcFile) (fun _ s => Parses E dbcFile ∧ P s) fun _ _ => ¬ A := by
  unfold loadDbc
  split
  · rename_i hEmpty
    exact Triple.throw fun _ _ a => (hA a).1 hEmpty
  · rename_i hName
    cases hSource : E.openDbc dbcFile with
    | parsed network => exact Triple.pure fun s hs => ⟨⟨hName, network, hSource⟩, hs⟩
    | _ =>
      refine Triple.throw fun _ _ a => ?_
      obtain ⟨network, hParsed⟩ := (hA a).2
      rw [hSource] at hParsed
      contradiction

/-- All expressions of a configuration compile. -/
def Compiles (X : Exprtk) (configs : UnorderedMap ByteString TransformConfig) : Prop :=
  ∀ sig cfg, configs.lookup sig = some cfg → cfg.expression ≠ [] →
    X.compile cfg.expression = .ok ()

/-- `configure` comes to its end just when all expressions compile, in any order. -/
theorem configure_ok_iff (X : Exprtk) (order : HashOrder)
    (configs : UnorderedMap ByteString TransformConfig) (before : SignalTransformer) :
    (∃ t, SignalTransformer.configure X order configs before = .ok ⟨⟩ t) ↔
      Compiles X configs := by
  have hTriple := SignalTransformer.configure_triple X order configs
  constructor
  · rintro ⟨t, ht⟩ sig cfg hLookup hExpression
    exact (hTriple.ok trivial ht).compiles (sig, cfg)
      ((configs.mem_items order sig cfg).mpr hLookup) hExpression
  · intro hCompiles
    cases hRun : SignalTransformer.configure X order configs before with
    | ok u t => exact ⟨t, rfl⟩
    | error e t =>
      obtain ⟨done, bad, rest, hItems, -, hExpression, hError⟩ := hTriple.error trivial hRun
      have hLookup : configs.lookup bad.1 = some bad.2 :=
        (configs.mem_items order bad.1 bad.2).mp (hItems ▸ by simp)
      simp [CompiledExpr.compile, hCompiles bad.1 bad.2 hLookup hExpression] at hError

theorem configureTransformer_holds {P : Declared → Prop} {order : HashOrder}
    {transforms : UnorderedMap ByteString TransformConfig}
    (hA : A → Compiles E.exprtk transforms) :
    Triple P (configureTransformer E order transforms)
      (fun _ s => Compiles E.exprtk transforms ∧ P s) fun _ _ => ¬ A := by
  have hIff := configure_ok_iff E.exprtk order transforms .empty
  unfold configureTransformer
  split
  · rename_i hRun
    exact Triple.pure fun s hs => ⟨hIff.mp ⟨_, hRun⟩, hs⟩
  · rename_i hRun
    refine Triple.throw fun _ _ a => ?_
    obtain ⟨t, ht⟩ := hIff.mpr (hA a)
    rw [hRun] at ht
    contradiction

end Steps

/-! ### The loops -/

section Loops

variable {A : Prop}

/-- A loop that declares the parameters of each element, and checks `Φ` of it. -/
theorem foldlM_holds {β ι : Type} {f : β → ι → Load β} {g : β → ι → β} {Φ : ι → Prop}
    {parameters : ι → Parameters} (l : List ι) (b : β)
    (hA : A → Declarable overrides (ps ++ l.flatMap parameters))
    (hStep : ∀ {ps'} b, ∀ a ∈ l, (A → Declarable overrides (ps' ++ parameters a)) →
      Triple (Holds overrides ps') (f b a)
        (fun b' s => b' = g b a ∧ Φ a ∧ Holds overrides (ps' ++ parameters a) s)
        fun _ _ => ¬ A) :
    Triple (Holds overrides ps) (l.foldlM f b)
      (fun b' s => b' = l.foldl g b ∧ (∀ a ∈ l, Φ a) ∧
        Holds overrides (ps ++ l.flatMap parameters) s) fun _ _ => ¬ A := by
  refine (Triple.foldlM_indexed
    (P := fun done => Holds overrides (ps ++ done.flatMap parameters)) l b
    fun done a rest b hl => ?_).pre fun s hs => by simpa using hs
  have hHere := @hStep (ps ++ done.flatMap parameters) b a (by simp [hl]) fun h =>
    (hA h).initial (by simp [hl])
  refine hHere.post fun b' s hs => ⟨hs.1, hs.2.1, ?_⟩
  simpa using hs.2.2

variable (hExact : E.rclcpp.DeclareExact)

theorem insertCanId_holds {P : Declared → Prop} (name : ByteString) (ids : UnorderedSet UInt32)
    (id : Int64) (hA : A → CanIdInRange id) :
    Triple P (insertCanId name ids id)
      (fun ids' s => ids' = ids.insert id.toUInt64.toUInt32 ∧ CanIdInRange id ∧ P s)
      fun _ _ => ¬ A := by
  have hIff : CanIdInRange id ↔ ¬ (id < 0 ∨ id > 0x1FFFFFFF) := by
    rw [Int64.lt_iff_toInt_lt, gt_iff_lt, Int64.lt_iff_toInt_lt]
    show _ ∧ _ ↔ ¬ (id.toInt < 0 ∨ 0x1FFFFFFF < id.toInt)
    omega
  unfold insertCanId
  split
  · rename_i hRange
    exact Triple.throw fun _ _ a => hIff.mp (hA a) hRange
  · rename_i hRange
    exact Triple.pure fun s hs => ⟨rfl, hIff.mpr hRange, hs⟩

include hExact

theorem loadDomain_holds (domains : List DomainConfig) (name : ByteString)
    (hA : A → Declarable overrides (ps ++ domainParameters name))
    (hRange : A → ∀ id ∈ overrides.canIds name, CanIdInRange id) :
    Triple (Holds overrides ps) (loadDomain E overrides domains name)
      (fun domains' s => domains' = domains ++ [overrides.domain name] ∧
        (∀ id ∈ overrides.canIds name, CanIdInRange id) ∧
          Holds overrides (ps ++ domainParameters name) s) fun _ _ => ¬ A := by
  refine Triple.bind (declareParameter_holds hExact _ _ fun a =>
    (hA a).initial (by simp [domainParameters])) fun _ => ?_
  refine Triple.bind (declareParameter_holds hExact _ _ fun a => ?_) fun _ => ?_
  · simpa [domainParameters] using hA a
  apply Triple.bind_eq (getString_holds (d := str "/vehicle/" ++ name) (by simp))
  apply Triple.bind_eq (getIntegerArray_holds (by simp))
  refine Triple.bind_eq (Triple.foldlM_forall (Φ := CanIdInRange) _ _ fun ids id hId =>
    insertCanId_holds name ids id fun a => hRange a id hId) ?_
  refine Triple.assume fun hIds => Triple.pure fun s hs => ⟨rfl, hIds, ?_⟩
  simpa [domainParameters] using hs

theorem loadAlias_holds (aliases : UnorderedMap ByteString ByteString) (src : ByteString)
    (hA : A → Declarable overrides (ps ++ aliasParameters src)) :
    Triple (Holds overrides ps) (loadAlias E overrides aliases src)
      (fun aliases' s =>
        aliases' = aliases.insert src (overrides.text (str "aliases." ++ src) src) ∧
          True ∧ Holds overrides (ps ++ aliasParameters src) s) fun _ _ => ¬ A := by
  refine Triple.bind (declareParameter_holds hExact _ _ hA) fun _ => ?_
  apply Triple.bind_eq (getString_holds (d := src) (by simp))
  exact Triple.pure fun s hs => ⟨rfl, trivial, hs⟩

theorem loadTransform_holds (transforms : UnorderedMap ByteString TransformConfig)
    (sig : ByteString) (hA : A → Declarable overrides (ps ++ transformParameters sig)) :
    Triple (Holds overrides ps) (loadTransform E overrides transforms sig)
      (fun transforms' s => transforms' = transforms.insert sig (overrides.transform sig) ∧
        True ∧ Holds overrides (ps ++ transformParameters sig) s) fun _ _ => ¬ A := by
  refine Triple.bind (declareParameter_holds hExact _ _ fun a =>
    (hA a).initial (by simp [transformParameters])) fun _ => ?_
  refine Triple.bind (declareParameter_holds hExact _ _ fun a => ?_) fun _ => ?_
  · simpa [transformParameters] using hA a
  apply Triple.bind_eq (getString_holds (d := "") (by simp))
  apply Triple.bind_eq (getString_holds (d := "") (by simp))
  refine Triple.pure fun s hs => ⟨rfl, trivial, ?_⟩
  simpa [transformParameters] using hs

theorem loadPromoted_holds (promoted : List PromotedSignalConfig) (sig : ByteString)
    (hA : A → Declarable overrides (ps ++ promotedParameters sig)) :
    Triple (Holds overrides ps) (loadPromoted E overrides promoted sig)
      (fun promoted' s => promoted' = promoted ++
          [⟨sig, overrides.text (str "promoted_signals." ++ sig ++ str ".topic_suffix") sig⟩] ∧
        True ∧ Holds overrides (ps ++ promotedParameters sig) s) fun _ _ => ¬ A := by
  refine Triple.bind (declareParameter_holds hExact _ _ hA) fun _ => ?_
  apply Triple.bind_eq (getString_holds (d := sig) (by simp))
  exact Triple.pure fun s hs => ⟨rfl, trivial, hs⟩

theorem loadSchemaDomain_holds (maps : SchemaMaps) (name : ByteString)
    (hA : A → Declarable overrides (ps ++ schemaParameters name)) :
    Triple (Holds overrides ps) (loadSchemaDomain E overrides maps name)
      (fun maps' s =>
        maps' = maps.add name (overrides.schemaTopic name) (overrides.schemaSignals name) ∧
          True ∧ Holds overrides (ps ++ schemaParameters name) s) fun _ _ => ¬ A := by
  refine Triple.bind (declareParameter_holds hExact _ _ fun a =>
    (hA a).initial (by simp [schemaParameters])) fun _ => ?_
  refine Triple.bind (declareParameter_holds hExact _ _ fun a => ?_) fun _ => ?_
  · simpa [schemaParameters] using hA a
  apply Triple.bind_eq (getString_holds (d := str "/vehicle/" ++ name) (by simp))
  apply Triple.bind_eq (getStringArray_holds (by simp))
  refine Triple.pure fun s hs => ⟨rfl, trivial, ?_⟩
  simpa [schemaParameters] using hs

end Loops

/-! ### The constructor -/

/-- What the constructor requires of a launch. -/
structure Accepts (E : Env) (overrides : Overrides) : Prop where
  distinct : ∀ list ∈ nameLists, (overrides.strings list).Nodup
  typed : ∀ p ∈ overrides.parameters, overrides.Typed p.1 p.2.type
  diagnosticsRate :
    (overrides.value ParameterValue.asDouble "diagnostics_rate_hz" one).leZero = false
  signalTimeout : 0 < overrides.value ParameterValue.asInt "signal_timeout_ms" 500
  schemaInterval :
    (overrides.value ParameterValue.asDouble "schema_republish_interval_s" one).leZero = false
  dbcFile : Parses E (overrides.text "dbc_file" "")
  canIds : ∀ name ∈ overrides.strings "domain_names", ∀ id ∈ overrides.canIds name,
    CanIdInRange id
  transforms : Compiles E.exprtk overrides.transforms
  signalIdUnitNames : overrides.strings "signal_id_names" ≠ [] →
    (overrides.strings "signal_id_unit_names").length =
      (overrides.strings "signal_id_names").length
  unitIdNames : (overrides.strings "unit_id_names").length ≤ 65535
  signalIdNames : (overrides.strings "signal_id_names").length ≤ 65535

theorem Accepts.declarable (h : Accepts E overrides) :
    Declarable overrides overrides.parameters :=
  ⟨(nodup_parameters_iff overrides).mpr h.distinct, h.typed⟩

section Constructor

variable {A : Prop} (hExact : E.rclcpp.DeclareExact)

include hExact

theorem declareParameters_holds (hA : A → Declarable overrides overrides.parameters) :
    Triple (Holds overrides []) (declareParameters E overrides)
      (fun _ => Holds overrides declaredFirst.reverse) fun _ _ => ¬ A := by
  unfold declareParameters
  iterate 13 refine Triple.bind (declareParameter_holds hExact _ _ fun a =>
    (hA a).initial ⟨_, rfl⟩) fun _ => ?_
  exact declareParameter_holds hExact _ _ fun a => (hA a).initial ⟨_, rfl⟩

/-- The loader returns from a launch that is acceptable, and from no other. -/
theorem loadParameters_holds (order : HashOrder) :
    Triple (Holds overrides declaredFirst.reverse) (loadParameters E overrides order)
      (fun _ s => Accepts E overrides ∧ Holds overrides overrides.parameters s)
      fun _ _ => ¬ Accepts E overrides := by
  unfold loadParameters
  apply Triple.bind_eq (getString_holds (d := "/vehicle/from_can_bus") (by simp [declaredFirst]))
  apply Triple.bind_eq (getString_holds (d := "") (by simp [declaredFirst]))
  apply Triple.bind_eq (getDouble_holds (d := one) (by simp [declaredFirst]))
  refine Triple.bind (requirePositive_holds fun a => by simp [a.diagnosticsRate]) fun _ => ?_
  refine Triple.assume fun hRate => ?_
  apply Triple.bind_eq (getInt_holds (d := 500) (by simp [declaredFirst]))
  refine Triple.bind (requirePositive_holds fun a => by simp [a.signalTimeout]) fun _ => ?_
  refine Triple.assume fun hTimeout => ?_
  apply Triple.bind_eq (getBool_holds (d := true) (by simp [declaredFirst]))
  apply Triple.bind_eq (getString_holds (d := "/vehicle/decoded_can") (by simp [declaredFirst]))
  apply Triple.bind_eq (getString_holds (d := "/vehicle/diagnostics") (by simp [declaredFirst]))
  apply Triple.bind_eq (getBool_holds (d := true) (by simp [declaredFirst]))
  apply Triple.bind_eq (getDouble_holds (d := one) (by simp [declaredFirst]))
  refine Triple.bind (requirePositive_holds fun a => by simp [a.schemaInterval]) fun _ => ?_
  refine Triple.assume fun hInterval => ?_
  refine Triple.bind (loadDbc_holds fun a => a.dbcFile) fun decoder => ?_
  refine Triple.assume fun hDbc => ?_
  refine Triple.bind (declareParameter_holds hExact _ _ fun a =>
    a.declarable.initial (by simp [Overrides.parameters])) fun _ => ?_
  apply Triple.bind_eq (getStringArray_holds (by simp))
  refine Triple.bind_eq (foldlM_holds _ _ (fun a => a.declarable.initial
    (by simp [Overrides.parameters])) fun ds name hName hDeclarable =>
      loadDomain_holds hExact ds name hDeclarable fun a => a.canIds name hName) ?_
  refine Triple.assume fun hCanIds => ?_
  refine Triple.bind (declareParameter_holds hExact _ _ fun a =>
    a.declarable.initial (by simp [Overrides.parameters])) fun _ => ?_
  apply Triple.bind_eq (getStringArray_holds (by simp))
  refine Triple.bind_eq (foldlM_holds _ _ (fun a => a.declarable.initial
    (by simp [Overrides.parameters])) fun m src _ => loadAlias_holds hExact m src) ?_
  refine Triple.assume fun _ => ?_
  refine Triple.bind (declareParameter_holds hExact _ _ fun a =>
    a.declarable.initial (by simp [Overrides.parameters])) fun _ => ?_
  apply Triple.bind_eq (getStringArray_holds (by simp))
  refine Triple.bind_eq (foldlM_holds _ _ (fun a => a.declarable.initial
    (by simp [Overrides.parameters])) fun m sig _ => loadTransform_holds hExact m sig) ?_
  refine Triple.assume fun _ => ?_
  refine Triple.bind (configureTransformer_holds fun a => a.transforms) fun transformer => ?_
  refine Triple.assume fun hTransforms => ?_
  refine Triple.bind (declareParameter_holds hExact _ _ fun a =>
    a.declarable.initial (by simp [Overrides.parameters])) fun _ => ?_
  apply Triple.bind_eq (getStringArray_holds (by simp))
  refine Triple.bind_eq (foldlM_holds _ _ (fun a => a.declarable.initial
    (by simp [Overrides.parameters])) fun l sig _ => loadPromoted_holds hExact l sig) ?_
  refine Triple.assume fun _ => ?_
  apply Triple.bind_eq (getStringArray_holds (by simp [declaredFirst]))
  refine Triple.bind_eq (foldlM_holds _ _ (fun a => a.declarable.initial
    (by simp [Overrides.parameters])) fun m name _ => loadSchemaDomain_holds hExact m name) ?_
  refine Triple.assume fun _ => ?_
  apply Triple.bind_eq (getString_holds (d := "") (by simp [declaredFirst]))
  apply Triple.bind_eq (getStringArray_holds (by simp [declaredFirst]))
  apply Triple.bind_eq (getStringArray_holds (by simp [declaredFirst]))
  apply Triple.bind_eq (getStringArray_holds (by simp [declaredFirst]))
  refine Triple.bind (requireUnitNames_holds fun a => a.signalIdUnitNames) fun _ => ?_
  refine Triple.assume fun hUnitNames => ?_
  refine Triple.bind (requireAtMost65535_holds fun a => a.unitIdNames) fun _ => ?_
  refine Triple.assume fun hUnits => ?_
  refine Triple.bind (requireAtMost65535_holds fun a => a.signalIdNames) fun _ => ?_
  refine Triple.assume fun hSignals => Triple.pure fun s hs => ?_
  have hs : Holds overrides overrides.parameters s := by simpa [Overrides.parameters] using hs
  refine ⟨?_, hs⟩
  exact
    { distinct := (nodup_parameters_iff overrides).mp hs.2.nodup
      typed := hs.2.typed
      diagnosticsRate := by simpa using hRate
      signalTimeout := of_decide_eq_true hTimeout
      schemaInterval := by simpa using hInterval
      dbcFile := hDbc
      canIds := hCanIds
      transforms := hTransforms
      signalIdUnitNames := hUnitNames
      unitIdNames := hUnits
      signalIdNames := hSignals }

namespace VehicleCanNode

theorem setUp_holds (order : HashOrder) :
    Triple (Holds overrides []) (setUp E overrides order)
      (fun _ s => Accepts E overrides ∧ Holds overrides overrides.parameters s)
      fun _ _ => ¬ Accepts E overrides := by
  refine Triple.bind (declareParameters_holds hExact Accepts.declarable) fun _ => ?_
  refine Triple.bind (loadParameters_holds hExact order) fun l => ?_
  refine Triple.assume fun hAccepts => ?_
  apply Triple.bind_eq (getStringArray_holds (by simp [Overrides.parameters]))
  exact Triple.pure fun _ hs => ⟨hAccepts, hs⟩

/-- The constructor returns exactly from the launches that are acceptable, whatever the order of the
hash tables and the time. -/
theorem construct_ok_iff (order : HashOrder) (now : Stamp) :
    (∃ r, construct E overrides order now = .ok r) ↔ Accepts E overrides := by
  have hStart : Holds overrides [] [] := ⟨rfl, List.nodup_nil, by simp⟩
  unfold construct
  cases hRun : setUp E overrides order [] with
  | ok n declared => exact iff_of_true ⟨_, rfl⟩ ((setUp_holds hExact order).ok hStart hRun).1
  | error e declared =>
    refine iff_of_false ?_ ((setUp_holds hExact order).error hStart hRun)
    rintro ⟨r, hr⟩
    contradiction

omit hExact in
theorem takesStamp_iff (hTime : E.rclcpp.TimeDocumented) (msg : Frame) :
    takesStamp E msg = true ↔ 0 ≤ msg.header.stamp.sec.toInt := by
  have hThrows := hTime.throws msg.header.stamp
  unfold takesStamp
  cases hRun : E.rclcpp.time msg.header.stamp with
  | ok t =>
    refine iff_of_true rfl (not_lt.mp fun hSec => ?_)
    obtain ⟨e, he⟩ := hThrows.mpr hSec
    rw [hRun] at he
    contradiction
  | error e =>
    exact iff_of_false (fun h => nomatch h) (not_le.mpr (hThrows.mp ⟨e, hRun⟩))

omit hExact in
theorem spin_ok_iff_since_epoch (hTime : E.rclcpp.TimeDocumented) (start : VehicleCanNode)
    (callbacks : List Callback) :
    (∃ n, start.spin E callbacks = .ok n) ↔ StampsSinceEpoch callbacks := by
  rw [spin_ok_iff]
  simp only [takesStamp_iff hTime, List.mem_filterMap]
  constructor
  · exact fun h order msg hMem => h msg ⟨_, hMem, rfl⟩
  · rintro h msg ⟨c, hMem, hMsg⟩
    cases c with
    | canFrame order msg' =>
      obtain rfl := Option.some.inj hMsg
      exact h order msg' hMem
    | diagnosticsTimer checkOrder listOrder now => contradiction
    | schemaTimer order now => contradiction

end VehicleCanNode

end Constructor

end VehicleCanDecoder
