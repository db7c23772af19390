import VehicleCanDecoder.Configured

/-! The names of the parameters that a launch declares.  A name that comes twice ends the
constructor; the names of a launch are distinct exactly when none of the lists of names that the
launch gives has an entry twice. -/

namespace VehicleCanDecoder

abbrev Parameters := List (ByteString × ParameterValue)

def domainParameters (name : ByteString) : Parameters :=
  [(str "domains." ++ name ++ str ".topic", .string (str "/vehicle/" ++ name)),
    (str "domains." ++ name ++ str ".can_ids", .integerArray [])]

def aliasParameters (src : ByteString) : Parameters := [(str "aliases." ++ src, .string src)]

def transformParameters (sig : ByteString) : Parameters :=
  [(str "transforms." ++ sig ++ str ".expression", .string ""),
    (str "transforms." ++ sig ++ str ".unit", .string "")]

def promotedParameters (sig : ByteString) : Parameters :=
  [(str "promoted_signals." ++ sig ++ str ".topic_suffix", .string sig)]

def schemaParameters (name : ByteString) : Parameters :=
  [(str "schema." ++ name ++ str ".topic", .string (str "/vehicle/" ++ name)),
    (str "schema." ++ name ++ str ".signals", .stringArray [])]

/-- All parameters that a launch declares, by name and default, in order. -/
def Overrides.parameters (overrides : Overrides) : Parameters :=
  declaredFirst.reverse ++
    (str "domain_names", .stringArray []) ::
      ((overrides.strings "domain_names").flatMap domainParameters ++
    (str "alias_names", .stringArray []) ::
      ((overrides.strings "alias_names").flatMap aliasParameters ++
    (str "transform_names", .stringArray []) ::
      ((overrides.strings "transform_names").flatMap transformParameters ++
    (str "promoted_signal_names", .stringArray []) ::
      ((overrides.strings "promoted_signal_names").flatMap promotedParameters ++
    (overrides.strings "schema_domain_names").flatMap schemaParameters))))

/-- Parameters that can be declared one after the other. -/
structure Declarable (overrides : Overrides) (ps : Parameters) : Prop where
  nodup : (ps.map Prod.fst).Nodup
  typed : ∀ p ∈ ps, overrides.Typed p.1 p.2.type

/-- One more parameter can be declared when its name is new and its override has the type. -/
theorem declarable_concat {overrides : Overrides} {ps : Parameters} {name : ByteString}
    {default : ParameterValue} : Declarable overrides (ps ++ [(name, default)]) ↔
      Declarable overrides ps ∧ name ∉ ps.map Prod.fst ∧
        overrides.Typed name default.type := by
  have hNodup : ((ps ++ [(name, default)]).map Prod.fst).Nodup ↔
      (ps.map Prod.fst).Nodup ∧ name ∉ ps.map Prod.fst := by
    rw [List.map_append, List.map_singleton, ← List.concat_eq_append, List.nodup_concat, and_comm]
  constructor
  · intro h
    obtain ⟨hBefore, hNew⟩ := hNodup.mp h.nodup
    exact ⟨⟨hBefore, fun p hp => h.typed p (by simp [hp])⟩, hNew,
      h.typed (name, default) (by simp)⟩
  · rintro ⟨hBefore, hNew, hTyped⟩
    refine ⟨hNodup.mpr ⟨hBefore.nodup, hNew⟩, fun p hp => ?_⟩
    rcases List.mem_append.mp hp with hp | hp
    · exact hBefore.typed p hp
    · obtain rfl := List.mem_singleton.mp hp
      exact hTyped

theorem Declarable.initial {overrides : Overrides} {ps ps' : Parameters}
    (h : Declarable overrides ps') (hPre : ps <+: ps') : Declarable overrides ps where
  nodup := h.nodup.sublist (hPre.sublist.map _)
  typed p hp := h.typed p (hPre.subset hp)

/-! ### Distinct names -/

/-- The text before the first dot. -/
def sectionOf (name : ByteString) : ByteString := name.takeWhile (· ≠ 46)

theorem sectionOf_append {head : ByteString} (h : 46 ∉ head) (rest : ByteString) :
    sectionOf (head ++ 46 :: rest) = head := by
  unfold sectionOf
  rw [List.takeWhile_append_of_pos]
  · simp
  · intro c hc
    simp only [ne_eq, decide_not, Bool.not_eq_true', decide_eq_false_iff_not]
    rintro rfl
    exact h hc

/-- The names of one family: a head, a name and one of some endings. -/
def familyNames (head : ByteString) (endings : List ByteString) (name : ByteString) :
    List ByteString :=
  endings.map fun ending => head ++ 46 :: (name ++ ending)

/-- Endings that cannot be taken for one another. -/
def Apart (endings : List ByteString) : Prop :=
  ∀ ending ∈ endings, ∀ ending' ∈ endings, ∀ name name' : ByteString,
    name ++ ending = name' ++ ending' → ending = ending'

theorem apart_singleton (ending : ByteString) : Apart [ending] := by
  intro e he e' he' _ _ _
  rw [List.mem_singleton.mp he, List.mem_singleton.mp he']

theorem apart_pair {ending ending' : ByteString} (hSome : ending ≠ []) (hSome' : ending' ≠ [])
    (h : ending.getLast? ≠ ending'.getLast?) : Apart [ending, ending'] := by
  have hLast : ∀ {e e' name name' : ByteString}, e ≠ [] → e' ≠ [] → name ++ e = name' ++ e' →
      e.getLast? = e'.getLast? := by
    intro e e' name name' he he' hEq
    rw [← List.getLast?_append_of_ne_nil name he, hEq, List.getLast?_append_of_ne_nil name' he']
  intro e he e' he' name name' hEq
  simp only [List.mem_cons, List.not_mem_nil, or_false] at he he'
  rcases he with rfl | rfl <;> rcases he' with rfl | rfl
  · rfl
  · exact absurd (hLast hSome hSome' hEq) h
  · exact absurd (hLast hSome' hSome hEq).symm h
  · rfl

/-- Parameters that are declared for each of some names. -/
structure NameFamily where
  head : ByteString
  endings : List ByteString
  names : List ByteString
  head_undotted : 46 ∉ head
  endings_apart : Apart endings
  endings_nodup : endings.Nodup
  endings_ne_nil : endings ≠ []

namespace NameFamily

def all (family : NameFamily) : List ByteString :=
  family.names.flatMap (familyNames family.head family.endings)

theorem sectionOf_all {family : NameFamily} {name : ByteString} (h : name ∈ family.all) :
    sectionOf name = family.head := by
  obtain ⟨_, -, hName⟩ := List.mem_flatMap.mp h
  obtain ⟨_, -, rfl⟩ := List.mem_map.mp hName
  exact sectionOf_append family.head_undotted _

/-- Within a family, the parameters are distinct when the names are. -/
theorem nodup_all (family : NameFamily) : family.all.Nodup ↔ family.names.Nodup := by
  have hOwn : ∀ name, (familyNames family.head family.endings name).Nodup := fun name =>
    family.endings_nodup.map fun e e' h => by simpa using h
  have hDisjoint : Function.onFun List.Disjoint (familyNames family.head family.endings) =
      (· ≠ ·) := by
    funext name name'
    refine propext ⟨?_, fun hNe x hx hx' => ?_⟩
    · rintro h rfl
      obtain ⟨ending, hEnding⟩ := List.exists_mem_of_ne_nil _ family.endings_ne_nil
      exact h (List.mem_map_of_mem hEnding) (List.mem_map_of_mem hEnding)
    · obtain ⟨ending, hEnding, rfl⟩ := List.mem_map.mp hx
      obtain ⟨ending', hEnding', hEq⟩ := List.mem_map.mp hx'
      have hTail : name' ++ ending' = name ++ ending :=
        (List.cons.inj (List.append_cancel_left hEq)).2
      obtain rfl := family.endings_apart _ hEnding' _ hEnding _ _ hTail
      exact hNe (List.append_cancel_right hTail).symm
  rw [all, List.nodup_flatMap, hDisjoint]
  exact and_iff_right fun name _ => hOwn name

/-- Names of different families differ by their heads. -/
theorem nodup_families {fixed : List ByteString} {families : List NameFamily}
    (hFixed : fixed.Nodup) (hHeads : (families.map head).Nodup)
    (hApart : ∀ name ∈ fixed, sectionOf name ∉ families.map head) :
    (fixed ++ families.flatMap all).Nodup ↔ ∀ family ∈ families, family.names.Nodup := by
  have hDisjoint : families.Pairwise (Function.onFun List.Disjoint all) :=
    (List.pairwise_map.mp hHeads).imp fun {f f'} hNe x hx hx' =>
      hNe ((sectionOf_all hx).symm.trans (sectionOf_all hx'))
  have hFixedApart : ∀ a ∈ fixed, ∀ b ∈ families.flatMap all, a ≠ b := by
    rintro a ha b hb rfl
    obtain ⟨family, hFamily, hName⟩ := List.mem_flatMap.mp hb
    exact hApart a ha (sectionOf_all hName ▸ List.mem_map_of_mem hFamily)
  rw [List.nodup_append, List.nodup_flatMap]
  simp only [hFixed, hDisjoint, nodup_all, true_and, and_true]
  exact and_iff_left hFixedApart

end NameFamily

/-! ### The five families -/

section Families

variable (names : List ByteString)

def domainFamily : NameFamily where
  head := "domains"
  endings := [str ".topic", str ".can_ids"]
  names
  head_undotted := by decide
  endings_apart := apart_pair (by decide) (by decide) (by decide)
  endings_nodup := by decide
  endings_ne_nil := by simp

def aliasFamily : NameFamily where
  head := "aliases"
  endings := [[]]
  names
  head_undotted := by decide
  endings_apart := apart_singleton []
  endings_nodup := by decide
  endings_ne_nil := by simp

def transformFamily : NameFamily where
  head := "transforms"
  endings := [str ".expression", str ".unit"]
  names
  head_undotted := by decide
  endings_apart := apart_pair (by decide) (by decide) (by decide)
  endings_nodup := by decide
  endings_ne_nil := by simp

def promotedFamily : NameFamily where
  head := "promoted_signals"
  endings := [str ".topic_suffix"]
  names
  head_undotted := by decide
  endings_apart := apart_singleton _
  endings_nodup := by decide
  endings_ne_nil := by simp

def schemaFamily : NameFamily where
  head := "schema"
  endings := [str ".topic", str ".signals"]
  names
  head_undotted := by decide
  endings_apart := apart_pair (by decide) (by decide) (by decide)
  endings_nodup := by decide
  endings_ne_nil := by simp

theorem names_of_family {parameters : ByteString → Parameters} (family : NameFamily)
    (h : ∀ name, (parameters name).map Prod.fst = familyNames family.head family.endings name) :
    (family.names.flatMap parameters).map Prod.fst = family.all := by
  rw [List.map_flatMap]
  exact List.flatMap_congr fun name _ => h name

theorem domainParameters_names :
    (names.flatMap domainParameters).map Prod.fst = (domainFamily names).all :=
  names_of_family (domainFamily names) fun name => by
    simp [domainParameters, domainFamily, familyNames,
      show str "domains." = str "domains" ++ [46] by decide]

theorem aliasParameters_names :
    (names.flatMap aliasParameters).map Prod.fst = (aliasFamily names).all :=
  names_of_family (aliasFamily names) fun src => by
    simp [aliasParameters, aliasFamily, familyNames,
      show str "aliases." = str "aliases" ++ [46] by decide]

theorem transformParameters_names :
    (names.flatMap transformParameters).map Prod.fst = (transformFamily names).all :=
  names_of_family (transformFamily names) fun sig => by
    simp [transformParameters, transformFamily, familyNames,
      show str "transforms." = str "transforms" ++ [46] by decide]

theorem promotedParameters_names :
    (names.flatMap promotedParameters).map Prod.fst = (promotedFamily names).all :=
  names_of_family (promotedFamily names) fun sig => by
    simp [promotedParameters, promotedFamily, familyNames,
      show str "promoted_signals." = str "promoted_signals" ++ [46] by decide]

theorem schemaParameters_names :
    (names.flatMap schemaParameters).map Prod.fst = (schemaFamily names).all :=
  names_of_family (schemaFamily names) fun name => by
    simp [schemaParameters, schemaFamily, familyNames,
      show str "schema." = str "schema" ++ [46] by decide]

end Families

/-! ### All names of a launch -/

/-- The parameters that name what else to declare. -/
def nameLists : List ByteString :=
  ["domain_names", "alias_names", "transform_names", "promoted_signal_names",
    "schema_domain_names"]

/-- The names that every launch declares. -/
def fixedNames : List ByteString :=
  declaredFirst.reverse.map Prod.fst ++
    [str "domain_names", "alias_names", "transform_names", "promoted_signal_names"]

def Overrides.families (overrides : Overrides) : List NameFamily :=
  [domainFamily (overrides.strings "domain_names"), aliasFamily (overrides.strings "alias_names"),
    transformFamily (overrides.strings "transform_names"),
    promotedFamily (overrides.strings "promoted_signal_names"),
    schemaFamily (overrides.strings "schema_domain_names")]

theorem parameters_perm (overrides : Overrides) : (overrides.parameters.map Prod.fst).Perm
    (fixedNames ++ overrides.families.flatMap NameFamily.all) := by
  rw [List.perm_iff_count]
  intro name
  simp only [Overrides.parameters, Overrides.families, fixedNames, List.map_append, List.map_cons,
    List.flatMap_cons, List.flatMap_nil, domainParameters_names, aliasParameters_names,
    transformParameters_names, promotedParameters_names, schemaParameters_names,
    List.count_append, List.count_cons, List.count_nil]
  omega

/-- The names of a launch are distinct when no list of names has an entry twice. -/
theorem nodup_parameters_iff (overrides : Overrides) :
    (overrides.parameters.map Prod.fst).Nodup ↔
      ∀ list ∈ nameLists, (overrides.strings list).Nodup := by
  have hFixed : fixedNames.Nodup := by decide
  have hApart : ∀ name ∈ fixedNames, sectionOf name ∉ [str "domains", "aliases", "transforms",
      "promoted_signals", "schema"] := by decide
  have hHeads : overrides.families.map NameFamily.head = [str "domains", "aliases", "transforms",
      "promoted_signals", "schema"] := rfl
  rw [(parameters_perm overrides).nodup_iff,
    NameFamily.nodup_families hFixed (by rw [hHeads]; decide) (by rwa [hHeads])]
  simp only [Overrides.families, nameLists, List.forall_mem_cons, List.not_mem_nil,
    false_imp_iff, implies_true, and_true, domainFamily, aliasFamily, transformFamily,
    promotedFamily, schemaFamily]

end VehicleCanDecoder
