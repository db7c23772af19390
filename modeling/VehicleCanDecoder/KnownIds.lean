import VehicleCanDecoder.Decoder

/-! The identifiers that `known_ids` returns, against those that `decode` finds.  `known_ids`
narrows the keys of the map to 32 bits, and `decode` widens the identifier, so a message whose
number does not fit into 32 bits is known under an identifier that `decode` rejects. -/

namespace VehicleCanDecoder

namespace DbcDecoder

/-- A caller that decodes the known identifiers only. -/
def decodeKnown (ids : UnorderedSet UInt32) (d : DbcDecoder) (canId : UInt32) (data : Payload)
    (dlc : UInt8) : Option (List RawSignal) :=
  if canId ∈ ids then d.decode canId data dlc else none

/-- The set agrees with `decode` on an identifier: the identifier is in the set just when it is
decoded, by the first message that has it. -/
structure KnowsRightly (d : DbcDecoder) (network : INetwork) (ids : UnorderedSet UInt32)
    (canId : UInt32) : Prop where
  decodes : ∀ data dlc, (d.decode canId data dlc).isSome ↔ canId ∈ ids
  first : ∀ data dlc, d.decode canId data dlc =
    (network.messages.find? (·.id = canId.toUInt64)).map (decodeSignals · canId data)
  filter : ∀ data dlc, decodeKnown ids d canId data dlc = d.decode canId data dlc

/-- No message has another number with the same low 32 bits, unless one has the identifier. -/
def NotShadowed (network : INetwork) (canId : UInt32) : Prop :=
  (∃ msg ∈ network.messages, msg.id = canId.toUInt64) ∨
    ∀ msg ∈ network.messages, msg.id.toUInt32 ≠ canId

section Loaded

variable {d d' : DbcDecoder} {network : INetwork} {ok : Bool}
  (hLoad : d.load (.parsed network) = some (d', ok))

include hLoad in
/-- `known_ids` returns the numbers of the messages, narrowed to 32 bits. -/
theorem knownIds_parsed (order : HashOrder) : ∃ ids, Checked.knownIds order d' = some ids ∧
    ∀ canId, canId ∈ ids ↔ ∃ msg ∈ network.messages, msg.id.toUInt32 = canId := by
  obtain ⟨impl, hNetwork, rfl⟩ := load_parsed hLoad
  refine ⟨_, rfl, fun canId => ?_⟩
  let map := impl.buildMap.msgMap
  have hKey : ∀ id, (∃ ptr, (id, ptr) ∈ map.items order) ↔
      ∃ msg ∈ network.messages, msg.id = id := by
    intro id
    simp only [UnorderedMap.mem_items]
    rw [← Option.isSome_iff_exists, lookup_buildMap hNetwork, Option.isSome_map,
      List.findIdx?_isSome]
    simp
  have hFold : (map.items order).foldl (fun ids kv => ids.insert kv.1.toUInt32) ∅ =
      ((map.items order).map fun kv => kv.1.toUInt32).foldl UnorderedSet.insert ∅ :=
    List.foldl_map.symm
  show canId ∈ (map.items order).foldl _ ∅ ↔ _
  rw [hFold, UnorderedSet.mem_foldl_insert, List.mem_map]
  constructor
  · rintro (⟨⟨id, ptr⟩, hItem, rfl⟩ | hEmpty)
    · obtain ⟨msg, hMsg, rfl⟩ := (hKey id).mp ⟨ptr, hItem⟩
      exact ⟨msg, hMsg, rfl⟩
    · exact absurd hEmpty (UnorderedSet.not_mem_empty canId)
  · rintro ⟨msg, hMsg, rfl⟩
    obtain ⟨ptr, hItem⟩ := (hKey msg.id).mpr ⟨msg, hMsg, rfl⟩
    exact .inl ⟨(msg.id, ptr), hItem, rfl⟩

include hLoad in
theorem decode_parsed (canId : UInt32) (data : Payload) (dlc : UInt8) :
    d'.decode canId data dlc =
      (network.messages.find? (·.id = canId.toUInt64)).map (decodeSignals · canId data) := by
  unfold decode
  rw [messageFor_parsed hLoad]

include hLoad in
theorem decode_isSome_iff (canId : UInt32) (data : Payload) (dlc : UInt8) :
    (d'.decode canId data dlc).isSome ↔ ∃ msg ∈ network.messages, msg.id = canId.toUInt64 := by
  rw [decode_parsed hLoad, Option.isSome_map, List.find?_isSome]
  simp

include hLoad in
/-- `known_ids` agrees with `decode` on the identifiers that no wider number shadows. -/
theorem knowsRightly_iff (order : HashOrder) (canId : UInt32) :
    (∃ ids, Checked.knownIds order d' = some ids ∧ KnowsRightly d' network ids canId) ↔
      NotShadowed network canId := by
  obtain ⟨ids, hIds, hMem⟩ := knownIds_parsed hLoad order
  constructor
  · rintro ⟨ids', hIds', hRight⟩
    obtain rfl : ids = ids' := Option.some.inj (hIds.symm.trans hIds')
    by_cases hKnown : canId ∈ ids
    · have hSome := (hRight.decodes Payload.zeros 0).mpr hKnown
      exact .inl ((decode_isSome_iff hLoad canId _ _).mp hSome)
    · exact .inr fun msg hMsg hId => hKnown ((hMem canId).mpr ⟨msg, hMsg, hId⟩)
  · intro hShadow
    have hDecodes : ∀ data dlc, (d'.decode canId data dlc).isSome ↔ canId ∈ ids := by
      intro data dlc
      rw [decode_isSome_iff hLoad, hMem]
      constructor
      · rintro ⟨msg, hMsg, hId⟩
        exact ⟨msg, hMsg, by rw [hId, UInt32.toUInt32_toUInt64]⟩
      · rintro ⟨msg, hMsg, hId⟩
        rcases hShadow with hExact | hNone
        · exact hExact
        · exact absurd hId (hNone msg hMsg)
    refine ⟨ids, hIds, hDecodes, decode_parsed hLoad canId, fun data dlc => ?_⟩
    unfold decodeKnown
    split
    · rfl
    · rename_i hUnknown
      cases hDecode : d'.decode canId data dlc with
      | none => rfl
      | some signals => exact absurd ((hDecodes data dlc).mp (by rw [hDecode]; rfl)) hUnknown

end Loaded

/-! ### Samples -/

/-- A network with one message, without signals. -/
def bareNetwork (id : UInt64) : INetwork := ⟨1, [⟨id, "BRAKE", []⟩]⟩

theorem knowsRightly_iff_sample :
    ∃ d, fresh.load (.parsed (bareNetwork 256)) = some (d, true) ∧
      ∃ ids, Checked.knownIds .listed d = some ids ∧
        KnowsRightly d (bareNetwork 256) ids 256 := by
  let impl : Impl := { network := some (bareNetwork 256), msgMap := ∅ }
  have hLoad : fresh.load (.parsed (bareNetwork 256)) =
      some (⟨some impl.buildMap, true⟩, true) := rfl
  exact ⟨_, hLoad, (knowsRightly_iff hLoad .listed 256).mpr (.inl ⟨_, List.mem_cons_self, rfl⟩)⟩

/-- The identifier 256 is known from the number `2 ^ 32 + 256`, and is not decoded. -/
theorem wide_number_known :
    ∃ d, fresh.load (.parsed (bareNetwork 0x100000100)) = some (d, true) ∧
      ∃ ids, Checked.knownIds .listed d = some ids ∧ (256 : UInt32) ∈ ids ∧
        (∀ data dlc, d.decode 256 data dlc = none) ∧
        ¬ KnowsRightly d (bareNetwork 0x100000100) ids 256 := by
  refine ⟨_, rfl, _, rfl, by decide, fun _ _ => rfl, fun h => ?_⟩
  have hSome := (h.decodes Payload.zeros 0).mpr (by decide)
  contradiction

end DbcDecoder

end VehicleCanDecoder
