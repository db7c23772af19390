import VehicleCanDecoder.Frames
import VehicleCanDecoder.Converter.RunLaw

/-! The CAN identifiers of the two loaders.  Both narrow a 64-bit integer to 32 bits; the live node
does so for integers in range only, and the converter for every integer, so that there a domain gets
the frames of every identifier that is congruent to one of its integers. -/

namespace VehicleCanDecoder

open Hoare

/-! ### Routes by integers -/

/-- A domain lists the identifier itself. -/
def Lists (ids : ByteString → List Int64) (canId : UInt32) (name : ByteString) : Prop :=
  ∃ id ∈ ids name, id.toInt = canId.toNat

/-- A domain lists an integer that becomes the identifier when it is narrowed. -/
def ListsCongruent (ids : ByteString → List Int64) (canId : UInt32) (name : ByteString) : Prop :=
  ∃ id ∈ ids name, id.toInt % 2 ^ 32 = canId.toNat

instance (ids : ByteString → List Int64) (canId : UInt32) : DecidablePred (Lists ids canId) :=
  fun name => inferInstanceAs (Decidable (∃ id ∈ ids name, _))

instance (ids : ByteString → List Int64) (canId : UInt32) :
    DecidablePred (ListsCongruent ids canId) :=
  fun name => inferInstanceAs (Decidable (∃ id ∈ ids name, _))

instance : DecidablePred CanIdInRange := fun _ => inferInstanceAs (Decidable (_ ∧ _))

section Routes

variable (names : List ByteString) (ids : ByteString → List Int64) (canId : UInt32)

/-- The router has the identifier in the last domain that lists it, and in none without one. -/
def RoutesExactly (router : SignalRouter) : Prop :=
  router.idToDomain.lookup canId = (names.filter (Lists ids canId ·)).getLast?

/-- The last domain that lists an integer congruent to the identifier lists the identifier too. -/
def LastListsItself : Prop :=
  ∀ name, (names.filter (ListsCongruent ids canId ·)).getLast? = some name → Lists ids canId name

theorem toInt_mod (id : Int64) : id.toInt % 2 ^ 32 = id.toUInt64.toUInt32.toNat := by
  have hNat : id.toUInt64.toNat = id.toBitVec.toNat := (Int64.toNat_toBitVec id).symm
  have hInt : id.toInt = id.toBitVec.toInt := rfl
  rw [UInt64.toNat_toUInt32, hNat, hInt, BitVec.toInt_eq_toNat_cond]
  split <;> omega

/-- An integer in range is congruent to no identifier but its own. -/
theorem lists_of_congruent {name : ByteString} (hRange : ∀ id ∈ ids name, CanIdInRange id)
    (h : ListsCongruent ids canId name) : Lists ids canId name := by
  obtain ⟨id, hMem, hId⟩ := h
  obtain ⟨hLow, hHigh⟩ := hRange id hMem
  exact ⟨id, hMem, by omega⟩

theorem congruent_of_lists {name : ByteString} (h : Lists ids canId name) :
    ListsCongruent ids canId name := by
  obtain ⟨id, hMem, hId⟩ := h
  have hLt := canId.toNat_lt
  exact ⟨id, hMem, by omega⟩

/-- Narrowing makes the router go by congruence. -/
theorem lookup_narrowed (order : HashOrder) (before : SignalRouter) (topic : ByteString → ByteString)
    (aliases : UnorderedMap ByteString ByteString) :
    (before.configure order (names.map fun name => ⟨name, topic name, (ids name).foldl
      (fun set id => set.insert id.toUInt64.toUInt32) ∅⟩) aliases).1.idToDomain.lookup canId =
      (names.filter (ListsCongruent ids canId ·)).getLast? := by
  have hMem : ∀ name, canId ∈ (ids name).foldl
      (fun (set : UnorderedSet UInt32) id => set.insert id.toUInt64.toUInt32) ∅ ↔
      ListsCongruent ids canId name := by
    intro name
    have h := UnorderedSet.mem_foldl_insert ((ids name).map fun id => id.toUInt64.toUInt32) ∅ canId
    rw [List.foldl_map] at h
    refine h.trans ?_
    simp only [UnorderedSet.not_mem_empty, or_false, List.mem_map, ListsCongruent, toInt_mod,
      Nat.cast_inj, UInt32.toNat_inj]
  rw [SignalRouter.configure_idToDomain, SignalRouter.lastDomainWith, List.filter_map,
    List.getLast?_map, Option.map_map]
  simp only [Function.comp_def, hMem, Option.map_id']

/-- Going by congruence is going by the integers themselves just where the last domain that is
found lists the identifier itself. -/
theorem filter_congruent_iff :
    (names.filter (ListsCongruent ids canId ·)).getLast? =
        (names.filter (Lists ids canId ·)).getLast? ↔ LastListsItself names ids canId := by
  constructor
  · intro h name hLast
    rw [h] at hLast
    simpa using (List.mem_filter.mp (List.mem_of_getLast? hLast)).2
  · intro h
    unfold LastListsItself at h
    induction names using List.reverseRecOn with
    | nil => rfl
    | append_singleton rest name ih =>
      rw [List.filter_append, List.filter_append] at *
      by_cases hCongruent : ListsCongruent ids canId name
      · have hLists : Lists ids canId name := h name (by simp [hCongruent])
        simp [hCongruent, hLists]
      · have hNot : ¬ Lists ids canId name := fun hLists =>
          hCongruent (congruent_of_lists ids canId hLists)
        simp only [hCongruent, hNot, decide_false, List.filter_cons_of_neg, Bool.false_eq_true,
          not_false_eq_true, List.filter_nil, List.append_nil] at h ⊢
        exact ih h

end Routes

/-! ### The two loaders -/

/-- The loop over `can_ids` of the live node stops at the first integer out of range. -/
theorem insertCanIds_run (name : ByteString) (idList : List Int64) (canIds : UnorderedSet UInt32)
    (s : Declared) :
    idList.foldlM (insertCanId name) canIds s =
      match idList.find? (fun id => ¬ CanIdInRange id) with
      | some id => .error (canIdRangeError name id) s
      | none => .ok (idList.foldl (fun ids id => ids.insert id.toUInt64.toUInt32) canIds) s := by
  induction idList generalizing canIds with
  | nil => rfl
  | cons id rest ih =>
    have hRange : (id < 0 ∨ id > 0x1FFFFFFF) ↔ ¬ CanIdInRange id := by
      rw [Int64.lt_iff_toInt_lt, gt_iff_lt, Int64.lt_iff_toInt_lt, CanIdInRange]
      change id.toInt < 0 ∨ 0x1FFFFFFF < id.toInt ↔ _
      omega
    rw [List.foldlM_cons, List.find?_cons]
    show EStateM.bind _ _ s = _
    unfold insertCanId EStateM.bind
    by_cases hOut : CanIdInRange id
    · simp only [hRange, hOut, not_true_eq_false, if_false, decide_false]
      exact ih _
    · simp only [hRange, hOut, not_false_eq_true, if_true, decide_true]
      rfl

namespace Converter

variable (Y : YamlCpp) (p : ParamMap)

def canIds (name : ByteString) : List Int64 := getIv Y p (str "domains." ++ name ++ str ".can_ids")

/-- The live node rejects an integer that is out of range, and routes exactly by the integers
otherwise.  The converter accepts every integer, and routes a frame exactly where the last domain
that lists an integer congruent to its identifier lists the identifier itself. -/
theorem routesExactly_iff {E : Env} (hDeclare : E.rclcpp.DeclareDocumented)
    (overrides : Overrides) :
    (∀ name (idList : List Int64) set (s : Declared), (∃ id ∈ idList, ¬ CanIdInRange id) →
        ∃ id ∈ idList, ¬ CanIdInRange id ∧
          idList.foldlM (insertCanId name) set s = .error (canIdRangeError name id) s) ∧
      (∀ n, VehicleCanNode.Constructed E overrides n →
        (∀ name ∈ overrides.strings "domain_names", ∀ id ∈ overrides.canIds name,
          CanIdInRange id) ∧
        ∀ canId, RoutesExactly (overrides.strings "domain_names") overrides.canIds canId n.router) ∧
      ∀ cfg, buildConfig Y p = .ok cfg → ∀ order (before : SignalRouter) canId,
        RoutesExactly (getSv Y p "domain_names") (canIds Y p) canId
            (before.configure order cfg.domains cfg.aliases).1 ↔
          LastListsItself (getSv Y p "domain_names") (canIds Y p) canId := by
  refine ⟨fun name idList set s hSome => ?_, fun n hStart => ?_, fun cfg hConfig => ?_⟩
  · rw [insertCanIds_run]
    cases hFind : idList.find? (fun id => ¬ CanIdInRange id) with
    | none =>
      obtain ⟨id, hMem, hOut⟩ := hSome
      exact absurd (by simpa using List.find?_eq_none.mp hFind id hMem) hOut
    | some id =>
      exact ⟨id, List.mem_of_find?_eq_some hFind, by simpa using List.find?_some hFind, rfl⟩
  · obtain ⟨order, l, hConfigured, rfl⟩ := hStart.configured hDeclare
    have hRange : ∀ name ∈ overrides.strings "domain_names", ∀ id ∈ overrides.canIds name,
        CanIdInRange id := fun name hName => (hConfigured.domains name hName).range
    refine ⟨hRange, fun canId => ?_⟩
    have hExact : LastListsItself (overrides.strings "domain_names") overrides.canIds canId := by
      intro name hLast
      obtain ⟨hName, hCongruent⟩ := List.mem_filter.mp (List.mem_of_getLast? hLast)
      exact lists_of_congruent _ _ (hRange name hName) (of_decide_eq_true hCongruent)
    have hLookup : l.router.idToDomain.lookup canId = ((overrides.strings "domain_names").filter
        (ListsCongruent overrides.canIds canId ·)).getLast? := by
      rw [hConfigured.router]
      exact lookup_narrowed _ overrides.canIds canId order _
        (fun name => overrides.text (str "domains." ++ name ++ str ".topic") (str "/vehicle/" ++ name)) _
    exact hLookup.trans ((filter_congruent_iff _ _ _).mpr hExact)
  · intro order before canId
    rw [buildConfig_ok hConfig, RoutesExactly, ← filter_congruent_iff]
    rw [← lookup_narrowed (getSv Y p "domain_names") (canIds Y p) canId order before]
    rfl

/-- The sample parameters, with an identifier that takes 33 bits. -/
def wideParams : ParamMap :=
  sampleParams.insert "domains.chassis.can_ids" (.sequence [.scalar "4294967552"])

/-- The converter takes it, and routes the frame 256. -/
theorem wideParams_reinterpreted :
    let ids := canIds sampleYaml wideParams
    ∃ cfg, buildConfig sampleYaml wideParams = .ok cfg ∧
      ids "chassis" = [4294967552] ∧ ¬ CanIdInRange 4294967552 ∧
      (SignalRouter.empty.configure .listed cfg.domains cfg.aliases).1.domainForId 256 =
        str "chassis" ∧ ¬ Lists ids 256 "chassis" ∧
      ¬ RoutesExactly (getSv sampleYaml wideParams "domain_names") ids 256
        (SignalRouter.empty.configure .listed cfg.domains cfg.aliases).1 := by
  intro ids
  refine ⟨_, rfl, rfl, by decide, rfl, by decide, ?_⟩
  unfold RoutesExactly
  decide

theorem routesExactly_iff_sample :
    RoutesExactly (getSv sampleYaml sampleParams "domain_names") (canIds sampleYaml sampleParams) 256
        (SignalRouter.empty.configure .listed sampleConfig.domains sampleConfig.aliases).1 ↔
      LastListsItself (getSv sampleYaml sampleParams "domain_names")
        (canIds sampleYaml sampleParams) 256 :=
  have hDeclare : (VehicleCanNode.sampleEnv (VehicleCanNode.sampleNetwork
      256)).rclcpp.DeclareDocumented := Rclcpp.documented_declare
  (routesExactly_iff sampleYaml sampleParams hDeclare VehicleCanNode.sampleOverrides).2.2
    sampleConfig rfl .listed .empty 256

end Converter

end VehicleCanDecoder
