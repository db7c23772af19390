import VehicleCanDecoder.Frames

/-! The identifiers of the emitted signals and the published schema.  The loader numbers the names
of `signal_id_names` by their position, and a later entry overwrites; the schema lists the numbers
that are left, sorted.  So an entry stands at its own number exactly when no name before it is
repeated. -/

namespace VehicleCanDecoder

/-- The entry at position `i` is the last one with its name. -/
def LastAt (names : List ByteString) (name : ByteString) (i : Nat) : Prop :=
  names[i]? = some name ∧ name ∉ names.drop (i + 1)

theorem numberNames_concat (names : List ByteString) (x : ByteString) :
    numberNames (names ++ [x]) = (numberNames names).insert x (UInt16.ofNat (names.length + 1)) := by
  unfold numberNames
  rw [List.zipIdx_append, List.foldl_append]
  simp

theorem lastAt_concat (names : List ByteString) (x name : ByteString) (i : Nat) :
    LastAt (names ++ [x]) name i ↔
      (i = names.length ∧ name = x) ∨ (i < names.length ∧ name ≠ x ∧ LastAt names name i) := by
  unfold LastAt
  rcases Nat.lt_trichotomy i names.length with h | rfl | h
  · rw [List.getElem?_append_left h, List.drop_append_of_le_length (by omega)]
    simp only [List.mem_append, List.mem_singleton, not_or, h, h.ne, false_and, true_and, false_or]
    tauto
  · simp [eq_comm]
  · rw [List.getElem?_eq_none (by simp; omega)]
    simp only [reduceCtorEq, false_and, false_iff]
    omega

/-- The number of a name is its last position, counted from 1. -/
theorem lookup_numberNames (names : List ByteString) (name : ByteString) (id : UInt16) :
    (numberNames names).lookup name = some id ↔
      ∃ i, LastAt names name i ∧ id = UInt16.ofNat (i + 1) := by
  induction names using List.reverseRecOn with
  | nil => simp [numberNames, LastAt]
  | append_singleton names x ih =>
    rw [numberNames_concat, UnorderedMap.lookup_insert_eq]
    simp only [lastAt_concat]
    by_cases h : name = x
    · subst h
      simp [eq_comm]
    · have hLt : ∀ i, LastAt names name i → i < names.length := fun i hi =>
        (List.getElem?_eq_some_iff.mp hi.1).1
      simp only [h, if_false, ih, ne_eq, not_false_eq_true, true_and, and_false, false_or]
      exact ⟨fun ⟨i, hi, hId⟩ => ⟨i, ⟨hLt i hi, hi⟩, hId⟩, fun ⟨i, ⟨_, hi⟩, hId⟩ => ⟨i, hi, hId⟩⟩

theorem ofNat_toNat_le {k : Nat} (h : k ≤ 65535) : (UInt16.ofNat k).toNat = k :=
  UInt16.toNat_ofNat_of_lt' (by simp [UInt16.size]; omega)

theorem LastAt.unique {names : List ByteString} {name : ByteString} {i j : Nat}
    (hi : LastAt names name i) (hLength : names.length ≤ 65535) (hj : LastAt names name j) :
    j = i := by
  have hI := (lookup_numberNames names name _).mpr ⟨i, hi, rfl⟩
  have hJ := (lookup_numberNames names name _).mpr ⟨j, hj, rfl⟩
  have hEq := congrArg UInt16.toNat (Option.some.inj (hI.symm.trans hJ))
  have hLtI := (List.getElem?_eq_some_iff.mp hi.1).1
  have hLtJ := (List.getElem?_eq_some_iff.mp hj.1).1
  rw [ofNat_toNat_le (by omega), ofNat_toNat_le (by omega)] at hEq
  omega

/-- The numbered names that are left, in the order of their numbers. -/
def numbered (names : List ByteString) : List (UInt16 × ByteString) :=
  (names.zipIdx.filter fun e => e.1 ∉ names.drop (e.2 + 1)).map fun e =>
    (UInt16.ofNat (e.2 + 1), e.1)

theorem mem_numbered (names : List ByteString) (id : UInt16) (name : ByteString) :
    (id, name) ∈ numbered names ↔ ∃ i, LastAt names name i ∧ id = UInt16.ofNat (i + 1) := by
  simp only [numbered, List.mem_map, List.mem_filter, Prod.exists, List.mem_zipIdx_iff_getElem?,
    decide_eq_true_eq, Prod.mk.injEq, LastAt]
  constructor
  · rintro ⟨x, i, ⟨hAt, hLast⟩, rfl, rfl⟩
    exact ⟨i, ⟨hAt, hLast⟩, rfl⟩
  · rintro ⟨i, ⟨hAt, hLast⟩, rfl⟩
    exact ⟨name, i, ⟨hAt, hLast⟩, rfl, rfl⟩

theorem ofNat_lt_ofNat {i j : Nat} (h : i < j) (hj : j ≤ 65535) :
    UInt16.ofNat i < UInt16.ofNat j := by
  rw [UInt16.lt_iff_toNat_lt, ofNat_toNat_le (by omega), ofNat_toNat_le hj]
  exact h

theorem numbered_pairwise {names : List ByteString} (h : names.length ≤ 65535) :
    (numbered names).Pairwise fun a b => a.1 < b.1 := by
  have hIdx : names.zipIdx.Pairwise fun a b => a.2 < b.2 := by
    rw [← List.pairwise_map (f := Prod.snd), List.zipIdx_map_snd]
    exact List.pairwise_lt_range'
  rw [numbered, List.pairwise_map]
  refine (hIdx.filter _).imp_of_mem fun {a b} _ hb hLt => ofNat_lt_ofNat (by omega) ?_
  have hMem := List.mem_zipIdx_iff_getElem?.mp (List.mem_filter.mp hb).1
  have := (List.getElem?_eq_some_iff.mp hMem).1
  omega

theorem numbered_nodup {names : List ByteString} (h : names.length ≤ 65535) :
    (numbered names).Nodup :=
  (numbered_pairwise h).imp fun {a b} hLt hEq => by
    rw [hEq] at hLt
    exact UInt16.lt_irrefl _ hLt

/-- No entry before position `k` is repeated later. -/
def DistinctBefore (names : List ByteString) (k : Nat) : Prop :=
  ∀ i < k, ∀ name, names[i]? = some name → name ∉ names.drop (i + 1)

/-- A name that is left stands at its own number exactly when no entry before it is repeated: each
repeated entry leaves a gap in the numbers. -/
theorem numbered_getElem?_iff {names : List ByteString} {name : ByteString} {k : Nat}
    (hLength : names.length ≤ 65535) (hLast : LastAt names name k) :
    (numbered names)[k]? = some (UInt16.ofNat (k + 1), name) ↔ DistinctBefore names k := by
  obtain ⟨hk, hAt⟩ := List.getElem?_eq_some_iff.mp hLast.1
  let keep : ByteString × Nat → Bool := fun e => e.1 ∉ names.drop (e.2 + 1)
  let number : ByteString × Nat → UInt16 × ByteString := fun e => (UInt16.ofNat (e.2 + 1), e.1)
  have hTake : (names.zipIdx.take k).length = k := by simp; omega
  have hSplit : numbered names = ((names.zipIdx.take k).filter keep).map number ++
      (UInt16.ofNat (k + 1), name) :: ((names.zipIdx.drop (k + 1)).filter keep).map number := by
    have hZip : names.zipIdx = names.zipIdx.take k ++ (name, k) :: names.zipIdx.drop (k + 1) := by
      conv_lhs => rw [← List.take_append_drop k names.zipIdx]
      rw [List.drop_eq_getElem_cons (by simpa using hk)]
      simp [hAt]
    have hKeep : keep (name, k) = true := by simpa [keep] using hLast.2
    show (names.zipIdx.filter keep).map number = _
    conv_lhs => rw [hZip]
    rw [List.filter_append, List.filter_cons_of_pos hKeep, List.map_append, List.map_cons]
  have hMem : ∀ e : ByteString × Nat, e ∈ names.zipIdx.take k ↔ e.2 < k ∧ names[e.2]? = some e.1 := by
    rintro ⟨m, i⟩
    rw [List.mem_take_iff_getElem]
    constructor
    · rintro ⟨j, hj, hEq⟩
      simp only [List.getElem_zipIdx, Nat.zero_add, Prod.mk.injEq] at hEq
      obtain ⟨rfl, rfl⟩ := hEq
      exact ⟨by omega, List.getElem?_eq_getElem _⟩
    · rintro ⟨hi, hm⟩
      obtain ⟨hLt, hEq⟩ := List.getElem?_eq_some_iff.mp hm
      exact ⟨i, by simp at hi hLt ⊢; omega, by simpa using hEq⟩
  constructor
  · intro hEntry i hi m hm hRepeated
    have hShort : ((names.zipIdx.take k).filter keep).length < k := by
      refine lt_of_lt_of_eq (List.length_filter_lt_length_iff_exists.mpr ?_) hTake
      exact ⟨(m, i), (hMem _).mpr ⟨hi, hm⟩, by simpa [keep] using hRepeated⟩
    have hHere : (numbered names)[((names.zipIdx.take k).filter keep).length]? =
        some (UInt16.ofNat (k + 1), name) := by
      rw [hSplit, List.getElem?_append_right (by simp)]
      simp
    have hEq := (List.getElem?_inj (List.getElem?_eq_some_iff.mp hHere).1
      (numbered_nodup hLength)).mp (hHere.trans hEntry.symm)
    omega
  · intro hDistinct
    have hAll : (names.zipIdx.take k).filter keep = names.zipIdx.take k := by
      rw [List.filter_eq_self]
      intro e he
      obtain ⟨hi, hm⟩ := (hMem e).mp he
      simpa [keep] using hDistinct e.2 hi e.1 hm
    rw [hSplit, hAll, List.getElem?_append_right (by simp), List.length_map, hTake, Nat.sub_self]
    rfl

namespace VehicleCanNode

instance : Std.Total idNameLe where
  total a b := by
    unfold idNameLe
    rcases Nat.lt_trichotomy a.1.toNat b.1.toNat with h | h | h
    · exact .inl (.inl (UInt16.lt_iff_toNat_lt.mpr h))
    · have hEq := UInt16.toNat_inj.mp h
      rcases List.le_total a.2 b.2 with hLe | hLe
      · exact .inl (.inr ⟨hEq, hLe⟩)
      · exact .inr (.inr ⟨hEq.symm, hLe⟩)
    · exact .inr (.inl (UInt16.lt_iff_toNat_lt.mpr h))

instance : IsTrans (UInt16 × ByteString) idNameLe where
  trans a b c := by
    rintro (h | ⟨h, hLe⟩) (h' | ⟨h', hLe'⟩)
    · exact .inl (UInt16.lt_trans h h')
    · exact .inl (h' ▸ h)
    · exact .inl (h ▸ h')
    · exact .inr ⟨h.trans h', List.le_trans hLe hLe'⟩

/-- The schema lists the numbered names in order. -/
theorem publishSchema_table (order : HashOrder) (n : VehicleCanNode) (now : Stamp)
    {names : List ByteString} (hIds : n.params.signalNameToId = numberNames names)
    (hLength : names.length ≤ 65535) :
    (n.publishSchema order now).signalTable = (numbered names).map n.schemaEntry := by
  have hPerm : (((numberNames names).items order).map fun e => (e.2, e.1)).Perm
      (numbered names) := by
    rw [List.perm_ext_iff_of_nodup _ (numbered_nodup hLength)]
    · rintro ⟨id, name⟩
      rw [mem_numbered, ← lookup_numberNames, ← UnorderedMap.mem_items _ order]
      simp
    · refine ((numberNames names).items_nodup order).map fun a b hEq => ?_
      simpa [Prod.ext_iff, and_comm] using hEq
  have hSorted : (((numberNames names).items order).map fun e => (e.2, e.1)).insertionSort
      idNameLe = numbered names := by
    refine List.Perm.eq_of_pairwise ?_ (List.pairwise_insertionSort _ _)
      ((numbered_pairwise hLength).imp .inl) ((List.perm_insertionSort _ _).trans hPerm)
    rintro a b - - (h | ⟨h, hLe⟩) (h' | ⟨h', hLe'⟩)
    · exact absurd h' (UInt16.lt_asymm h)
    · exact absurd h (h' ▸ UInt16.lt_irrefl _)
    · exact absurd h' (h ▸ UInt16.lt_irrefl _)
    · exact Prod.ext h (List.le_antisymm hLe hLe')
  show (List.insertionSort idNameLe _).map n.schemaEntry = _
  rw [hIds, hSorted]

/-- A schema resolves an identifier to a name, by the rule that its message file states. -/
def Resolves (schema : VehicleSchema) (nameId : UInt16) (name : ByteString) : Prop :=
  ∃ entry, schema.signalTable[nameId.toNat - 1]? = some entry ∧ entry.id = nameId ∧
    entry.name = name

/-- For a decoded signal with the resolved name `name`, a frame puts `sigMsg` into a group. -/
structure Emits (E : Env) (order : HashOrder) (n : VehicleCanNode) (frame : CanFrame)
    (stamp : Time) (name : ByteString) (sigMsg : Signal) : Prop where
  decoded : ∃ decoded, n.decoder.decode frame.id frame.data frame.dlc = some decoded ∧
    ∃ r ∈ (n.path E).assigned frame.id decoded, r.res.name = name ∧ r.signal = sigMsg
  published : ∃ topic group, sigMsg ∈ group.signals ∧
    (Effect.publishDomain topic group ∈ (n.processFrame E order frame stamp).2 ∨
      Effect.publishAll topic group ∈ (n.processFrame E order frame stamp).2)

theorem Emits.nameId {E : Env} {order : HashOrder} {n : VehicleCanNode} {frame : CanFrame}
    {stamp : Time} {name : ByteString} {sigMsg : Signal}
    (h : Emits E order n frame stamp name sigMsg) : sigMsg.nameId = n.nameId name := by
  obtain ⟨decoded, -, r, hr, rfl, rfl⟩ := h.decoded
  obtain ⟨raw, -, hPass⟩ := List.mem_filterMap.mp (List.mem_filter.mp hr).1
  rw [((n.path E).pass_signal frame.id hPass).2.2]
  rfl

/-- An emitted identifier resolves to its name exactly when no entry of `signal_id_names` before the
last one with that name is repeated. -/
theorem emitted_resolves_iff {E : Env} (hDeclare : E.rclcpp.DeclareDocumented)
    {overrides : Overrides} {start n m : VehicleCanNode} {out out' : List Effect}
    (hStart : Constructed E overrides start) (hRuns : Runs E start n out)
    (hSchema : Runs E start m out') {order : HashOrder} {frame : CanFrame} {stamp : Time}
    {name : ByteString} {sigMsg : Signal} (hEmits : Emits E order n frame stamp name sigMsg)
    (hId : sigMsg.nameId ≠ 0) (schemaOrder : HashOrder) (now : Stamp) :
    Resolves (m.publishSchema schemaOrder now) sigMsg.nameId name ↔
      ∀ k, LastAt (overrides.strings "signal_id_names") name k →
        DistinctBefore (overrides.strings "signal_id_names") k := by
  obtain ⟨order', l, hConfigured, rfl⟩ := hStart.configured hDeclare
  generalize hNames : overrides.strings "signal_id_names" = names
  have hLength : names.length ≤ 65535 := hNames ▸ hConfigured.signalIdNames
  have hTable : l.params.signalNameToId = numberNames names := by
    rw [hConfigured.params, ← hNames]
    rfl
  have hLookup : n.params.signalNameToId = numberNames names := by
    rw [hRuns.setup.params]
    exact hTable
  -- The identifier is not 0, so the name is numbered: its last position is `k`.
  have hNameId := hEmits.nameId
  unfold VehicleCanNode.nameId at hNameId
  rw [hLookup] at hNameId
  cases hId' : (numberNames names).lookup name with
  | none =>
    rw [hId'] at hNameId
    exact absurd hNameId hId
  | some id =>
    rw [hId', Option.getD_some] at hNameId
    obtain ⟨k, hLast, hNumber⟩ := (lookup_numberNames names name id).mp hId'
    have hUnique : ∀ k', LastAt names name k' → k' = k := fun k' => hLast.unique hLength
    have hk := (List.getElem?_eq_some_iff.mp hLast.1).1
    have hPosition : sigMsg.nameId.toNat - 1 = k := by
      rw [hNameId, hNumber, ofNat_toNat_le (by omega)]
      omega
    rw [Resolves, publishSchema_table schemaOrder m now
      (by rw [hSchema.setup.params]; exact hTable) hLength, hPosition]
    have hEntry := numbered_getElem?_iff hLength hLast
    rw [← hNumber, ← hNameId] at hEntry
    constructor
    · rintro ⟨entry, hAt, hEntryId, hEntryName⟩ k' hLast'
      obtain rfl := hUnique k' hLast'
      rw [List.getElem?_map, Option.map_eq_some_iff] at hAt
      obtain ⟨p, hp, rfl⟩ := hAt
      exact hEntry.mp (hp.trans (congrArg some (Prod.ext hEntryId hEntryName)))
    · intro hDistinct
      refine ⟨m.schemaEntry (sigMsg.nameId, name), ?_, rfl, rfl⟩
      rw [List.getElem?_map, hEntry.mpr (hDistinct k hLast)]
      rfl

/-- Two repeated entries: the identifier of the name is that of the entry after it in the schema. -/
def repeatedNames : Overrides :=
  List.toAList
    [⟨str "dbc_file", ParameterValue.string "vehicle.dbc"⟩,
      ⟨"domain_names", .stringArray ["chassis"]⟩,
      ⟨"domains.chassis.can_ids", .integerArray [256]⟩,
      ⟨"signal_id_names", .stringArray ["pressed", "pressed", "locked"]⟩,
      ⟨"signal_id_unit_names", .stringArray ["", "", ""]⟩]

theorem emitted_mislabelled :
    let E := sampleEnv (sampleNetwork 256)
    let n := sampleNode (sampleNetwork 256) repeatedNames
    Constructed E repeatedNames n ∧ Runs E n n [] ∧
      Emits E .listed n (sampleFrame 256) 0 "pressed" ⟨2, 0x3F800000⟩ ∧
      (n.publishSchema .listed ⟨0, 0⟩).signalTable[1]? = some ⟨3, "locked", 0⟩ ∧
      ¬ Resolves (n.publishSchema .listed ⟨0, 0⟩) 2 "pressed" := by
  intro E n
  have hTable : (n.publishSchema .listed ⟨0, 0⟩).signalTable[1]? = some ⟨3, str "locked", 0⟩ := by
    decide +kernel
  refine ⟨⟨.listed, ⟨0, 0⟩, _, rfl⟩, .start, ⟨?_, ?_⟩, hTable, ?_⟩
  · exact ⟨_, rfl, ⟨⟨"pressed", "chassis"⟩, one, ⟨2, 0x3F800000⟩⟩, by decide +kernel, rfl, rfl⟩
  · exact ⟨"/vehicle/chassis", ⟨⟨⟨0, 0⟩, ""⟩, "chassis", [⟨2, 0x3F800000⟩, ⟨3, 0⟩]⟩, by decide,
      .inl (by decide +kernel)⟩
  · rintro ⟨entry, hAt, hId, -⟩
    rw [show (2 : UInt16).toNat - 1 = 1 from rfl, hTable] at hAt
    obtain rfl := Option.some.inj hAt
    exact absurd hId (by decide)

theorem emitted_resolves_iff_sample :
    Resolves ((sampleNode (sampleNetwork 256) sampleOverrides).publishSchema .listed ⟨0, 0⟩) 1
        "pressed" ↔
      ∀ k, LastAt [str "pressed"] "pressed" k → DistinctBefore [str "pressed"] k := by
  let n := sampleNode (sampleNetwork 256) sampleOverrides
  have hEmits : Emits (sampleEnv (sampleNetwork 256)) .listed n (sampleFrame 256) 0 "pressed"
      ⟨1, 0x3F800000⟩ :=
    ⟨⟨_, rfl, ⟨⟨"pressed", "chassis"⟩, one, ⟨1, 0x3F800000⟩⟩, by decide +kernel, rfl, rfl⟩,
      ⟨"/vehicle/chassis", ⟨⟨⟨0, 0⟩, ""⟩, "chassis", [⟨1, 0x3F800000⟩, ⟨0, 0⟩]⟩, by decide,
        .inl (by decide +kernel)⟩⟩
  have hStart : Constructed (sampleEnv (sampleNetwork 256)) sampleOverrides n :=
    ⟨.listed, ⟨0, 0⟩, _, rfl⟩
  exact emitted_resolves_iff Rclcpp.documented_declare hStart .start .start hEmits (by decide)
    .listed ⟨0, 0⟩

end VehicleCanNode

end VehicleCanDecoder
