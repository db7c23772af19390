import VehicleCanDecoder.Converter.RunLaw
import VehicleCanDecoder.UnitIds

/-! The identifiers that the converter gives to signal names.  `get_sv` leaves out the elements that
do not convert to a string, and `build_config` counts positions and entries in what is left; so a
name has its position in the file as its identifier only while nothing before it is left out. -/

namespace VehicleCanDecoder

/-! ### Positions in a list and in what converts of it -/

section Positions

variable {α : Type} (as : α → Option ByteString)

/-- The element at position `i` is the last one that converts to `name`. -/
def LastString (l : List α) (name : ByteString) (i : Nat) : Prop :=
  l[i]?.bind as = some name ∧ name ∉ (l.drop (i + 1)).filterMap as

/-- No element that does not convert stands before one that does. -/
def ConvertsFirst (l : List α) : Prop :=
  l.Pairwise fun e e' => as e = none → as e' = none

variable {as}

theorem lastAt_cons_succ (x name : ByteString) (names : List ByteString) (i : Nat) :
    LastAt (x :: names) name (i + 1) ↔ LastAt names name i := by
  simp [LastAt]

theorem lastString_cons_succ (e : α) (l : List α) (name : ByteString) (i : Nat) :
    LastString as (e :: l) name (i + 1) ↔ LastString as l name i := by
  simp [LastString]

/-- What does not convert at the end moves no position. -/
theorem ConvertsFirst.lastAt {l : List α} (h : ConvertsFirst as l) {name : ByteString} {i : Nat}
    (hLast : LastString as l name i) : LastAt (l.filterMap as) name i := by
  induction l generalizing i with
  | nil => simp [LastString] at hLast
  | cons e l ih =>
    obtain ⟨hHead, hTail⟩ := List.pairwise_cons.mp h
    cases i with
    | zero =>
      have hHere : as e = some name := by simpa using hLast.1
      rw [List.filterMap_cons_some hHere]
      exact ⟨rfl, hLast.2⟩
    | succ i =>
      have hRest : LastString as l name i := (lastString_cons_succ e l name i).mp hLast
      cases hHere : as e with
      | some x =>
        rw [List.filterMap_cons_some hHere]
        exact (lastAt_cons_succ x name _ i).mpr (ih hTail hRest)
      | none =>
        obtain ⟨e', hAt, hName⟩ := Option.bind_eq_some_iff.mp hRest.1
        rw [hHead e' (List.mem_of_getElem? hAt) hHere] at hName
        contradiction

/-- If anything converts, something is the last to convert. -/
theorem exists_last_converting {l : List α} (h : l.filterMap as ≠ []) :
    ∃ name i, l[i]?.bind as = some name ∧ (l.drop (i + 1)).filterMap as = [] := by
  induction l with
  | nil => exact absurd rfl h
  | cons e l ih =>
    by_cases hRest : l.filterMap as = []
    · cases hHere : as e with
      | none =>
        rw [List.filterMap_cons_none hHere] at h
        exact absurd hRest h
      | some name => exact ⟨name, 0, by simpa using hHere, by simpa using hRest⟩
    · obtain ⟨name, i, hAt, hAfter⟩ := ih hRest
      exact ⟨name, i + 1, by simpa using hAt, by simpa using hAfter⟩

/-- Every name keeps its last position just when nothing before a name is left out. -/
theorem lastAt_filterMap_iff (l : List α) :
    (∀ name i, LastString as l name i → LastAt (l.filterMap as) name i) ↔ ConvertsFirst as l := by
  refine ⟨fun h => ?_, fun h name i hLast => h.lastAt hLast⟩
  induction l with
  | nil => exact List.Pairwise.nil
  | cons e l ih =>
    cases hHere : as e with
    | some x =>
      rw [List.filterMap_cons_some hHere] at h
      refine List.pairwise_cons.mpr ⟨fun e' _ hNone => ?_, ih fun name i hLast => ?_⟩
      · rw [hHere] at hNone
        contradiction
      · exact (lastAt_cons_succ x name _ i).mp
          (h name (i + 1) ((lastString_cons_succ e l name i).mpr hLast))
    | none =>
      rw [List.filterMap_cons_none hHere] at h
      have hNothing : l.filterMap as = [] := by
        by_contra hSome
        obtain ⟨name, i, hAt, hAfter⟩ := exists_last_converting hSome
        have hLast : LastString as (e :: l) name (i + 1) :=
          (lastString_cons_succ e l name i).mpr ⟨hAt, by simp [hAfter]⟩
        have hPosition := (List.getElem?_eq_some_iff.mp (h name (i + 1) hLast).1).1
        have hCount : (l.filterMap as).length ≤ i + 1 := by
          rw [← List.take_append_drop (i + 1) l, List.filterMap_append, hAfter, List.append_nil]
          exact (List.length_filterMap_le as _).trans (List.length_take_le _ _)
        omega
      have hNone : ∀ e' ∈ l, as e' = none := List.filterMap_eq_nil_iff.mp hNothing
      exact List.pairwise_cons.mpr ⟨fun e' hMem _ => hNone e' hMem,
        List.pairwise_of_forall_mem_list fun _ _ e' hMem _ => hNone e' hMem⟩

end Positions

namespace Converter

variable {Y : YamlCpp} {p : ParamMap}

/-! ### When `build_config` returns -/

theorem numberSignal_ok {names : List ByteString} {k : Nat} (h : k + names.length ≤ 65535)
    (m : UnorderedMap ByteString UInt16) :
    ∃ m', (names.zipIdx k).foldlM numberSignal m = .ok m' := by
  induction names generalizing k m with
  | nil => exact ⟨m, rfl⟩
  | cons name rest ih =>
    rw [List.length_cons] at h
    have hFits : ¬ 0xFFFF ≤ k := by omega
    obtain ⟨m', hm'⟩ := ih (k := k + 1) (by omega) (m.insert name (UInt16.ofNat (k + 1)))
    refine ⟨m', ?_⟩
    rw [List.zipIdx_cons, List.foldlM_cons, numberSignal, if_neg hFits]
    exact hm'

theorem numberSignal_throws {names : List ByteString} {k : Nat} (hk : k ≤ 65535)
    (h : 65535 < k + names.length) (m : UnorderedMap ByteString UInt16) :
    ∃ e, (names.zipIdx k).foldlM numberSignal m = .error e := by
  induction names generalizing k m with
  | nil =>
    rw [List.length_nil] at h
    omega
  | cons name rest ih =>
    rw [List.length_cons] at h
    rw [List.zipIdx_cons, List.foldlM_cons, numberSignal]
    by_cases hFull : 0xFFFF ≤ k
    · rw [if_pos hFull]
      exact ⟨_, rfl⟩
    · rw [if_neg hFull]
      exact ih (by omega) (by omega) (m.insert name (UInt16.ofNat (k + 1)))

theorem buildConfig_returns (h : (getSv Y p "signal_id_names").length ≤ 65535) :
    ∃ cfg, buildConfig Y p = .ok cfg := by
  obtain ⟨m, hm⟩ := numberSignal_ok ((Nat.zero_add _).trans_le h) ∅
  unfold buildConfig
  rw [hm]
  exact ⟨_, rfl⟩

theorem buildConfig_throws (h : 65535 < (getSv Y p "signal_id_names").length) :
    ∃ e, buildConfig Y p = .error e := by
  obtain ⟨e, he⟩ := numberSignal_throws (Nat.zero_le _) (h.trans_eq (Nat.zero_add _).symm) ∅
  unfold buildConfig
  rw [he]
  exact ⟨e, rfl⟩

/-! ### The identifiers -/

/-- The configuration gives to each string of the sequence its last position in the sequence,
counted from 1, and what the live node gives to it; or there is no configuration, as for a sequence
that is too long. -/
structure NumbersPositions (as : YamlNode → Option ByteString) (l : List YamlNode)
    (r : Except StdException Config) : Prop where
  tooLong : 65535 < l.length → ∃ e, r = .error e
  position : ∀ cfg, r = .ok cfg → ∀ name i, LastString as l name i →
    ∃ id, cfg.signalNameToId.lookup name = some id ∧ id.toNat = i + 1
  positive : ∀ cfg, r = .ok cfg → ∀ name id, cfg.signalNameToId.lookup name = some id → id ≠ 0
  distinct : ∀ cfg, r = .ok cfg → ∀ name name' id, cfg.signalNameToId.lookup name = some id →
    cfg.signalNameToId.lookup name' = some id → name = name'
  node : ∀ cfg, r = .ok cfg → ∀ overrides : Overrides,
    l.map as = (overrides.strings "signal_id_names").map some →
      cfg.signalNameToId = overrides.params.signalNameToId

/-- What the numbering of any list of strings keeps. -/
theorem numberNames_positive_distinct {names : List ByteString} (h : names.length ≤ 65535) :
    (∀ name id, (numberNames names).lookup name = some id → id ≠ 0) ∧
      ∀ name name' id, (numberNames names).lookup name = some id →
        (numberNames names).lookup name' = some id → name = name' := by
  have hNumber : ∀ name id, (numberNames names).lookup name = some id →
      ∃ i, LastAt names name i ∧ id.toNat = i + 1 := by
    intro name id hId
    obtain ⟨i, hLast, rfl⟩ := (lookup_numberNames names name id).mp hId
    have hi := (List.getElem?_eq_some_iff.mp hLast.1).1
    exact ⟨i, hLast, ofNat_toNat_le (by omega)⟩
  constructor
  · rintro name id hId rfl
    obtain ⟨i, -, hZero⟩ := hNumber name 0 hId
    simp at hZero
  · intro name name' id hId hId'
    obtain ⟨i, hLast, hi⟩ := hNumber name id hId
    obtain ⟨i', hLast', hi'⟩ := hNumber name' id hId'
    obtain rfl : i = i' := by omega
    exact Option.some.inj (hLast.1.symm.trans hLast'.1)

/-- The identifiers are positions exactly when more than 65535 elements convert, so that nothing is
returned, or the sequence is not too long and no element that does not convert stands before one
that does. -/
theorem numbersPositions_iff {l : List YamlNode}
    (hNames : p.lookup (str "signal_id_names") = some (.sequence l)) :
    NumbersPositions Y.asString l (buildConfig Y p) ↔
      65535 < (l.filterMap Y.asString).length ∨
        (l.length ≤ 65535 ∧ ConvertsFirst Y.asString l) := by
  have hStrings : getSv Y p "signal_id_names" = l.filterMap Y.asString := by
    unfold getSv getVector
    rw [hNames]
  by_cases hMany : 65535 < (l.filterMap Y.asString).length
  · obtain ⟨e, he⟩ := buildConfig_throws (Y := Y) (p := p) (hStrings ▸ hMany)
    refine iff_of_true ?_ (.inl hMany)
    rw [he]
    exact ⟨fun _ => ⟨e, rfl⟩, nofun, nofun, nofun, nofun⟩
  · have hFew : (l.filterMap Y.asString).length ≤ 65535 := by omega
    obtain ⟨cfg, hConfig⟩ := buildConfig_returns (Y := Y) (p := p) (hStrings ▸ hFew)
    have hIds : cfg.signalNameToId = numberNames (l.filterMap Y.asString) := by
      rw [buildConfig_ok hConfig, hStrings]
    rw [hConfig]
    constructor
    · intro h
      have hLength : l.length ≤ 65535 := by
        by_contra hLong
        obtain ⟨e, he⟩ := h.tooLong (by omega)
        contradiction
      refine .inr ⟨hLength, (lastAt_filterMap_iff l).mp fun name i hLast => ?_⟩
      obtain ⟨id, hId, hNumber⟩ := h.position cfg rfl name i hLast
      rw [hIds] at hId
      obtain ⟨k, hAt, rfl⟩ := (lookup_numberNames _ name id).mp hId
      have hk := (List.getElem?_eq_some_iff.mp hAt.1).1
      rw [ofNat_toNat_le (by omega)] at hNumber
      obtain rfl : k = i := by omega
      exact hAt
    · rintro (hMany' | ⟨hLength, hFirst⟩)
      · exact absurd hMany' hMany
      · obtain ⟨hPositive, hDistinct⟩ := numberNames_positive_distinct hFew
        refine ⟨fun hLong => by omega, ?_, ?_, ?_, ?_⟩
        · rintro _ ⟨⟩ name i hLast
          have hAt := hFirst.lastAt hLast
          have hi := (List.getElem?_eq_some_iff.mp hAt.1).1
          rw [hIds]
          exact ⟨_, (lookup_numberNames _ name _).mpr ⟨i, hAt, rfl⟩, ofNat_toNat_le (by omega)⟩
        · rintro _ ⟨⟩
          rwa [hIds]
        · rintro _ ⟨⟩
          rwa [hIds]
        · rintro _ ⟨⟩ overrides hSame
          rw [hIds, filterMap_of_map_eq hSame]
          rfl

/-! ### Samples -/

def namedParams (l : List YamlNode) : ParamMap :=
  List.toAList [⟨str "signal_id_names", YamlNode.sequence l⟩]

theorem numbersPositions_iff_sample :
    NumbersPositions sampleYaml.asString [.scalar "pressed", .scalar "locked", .sequence []]
      (buildConfig sampleYaml
        (namedParams [.scalar "pressed", .scalar "locked", .sequence []])) :=
  (numbersPositions_iff rfl).mpr (.inr ⟨by decide, by
    simp [ConvertsFirst, sampleYaml]⟩)

/-- A name after an element that is no string has the identifier of the position before its own. -/
theorem names_shifted :
    ∃ cfg, buildConfig sampleYaml
        (namedParams [.sequence [.scalar "pressed"], .scalar "locked"]) = .ok cfg ∧
      cfg.signalNameToId.lookup (str "locked") = some 1 ∧
      ¬ NumbersPositions sampleYaml.asString [.sequence [.scalar "pressed"], .scalar "locked"]
        (.ok cfg) := by
  refine ⟨_, rfl, by decide, fun h => ?_⟩
  obtain ⟨id, hId, hNumber⟩ := h.position _ rfl "locked" 1 ⟨rfl, by simp⟩
  obtain rfl : 1 = id := Option.some.inj (Eq.trans (show some 1 = _ by decide) hId)
  exact absurd hNumber (by decide)

end Converter

end VehicleCanDecoder
