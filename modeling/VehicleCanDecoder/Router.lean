import VehicleCanDecoder.Cpp
import VehicleCanDecoder.Lib.UnorderedMap
import Mathlib.Data.List.Induction

/-! `SignalRouter`: CAN identifiers to domain names, domain names to topics, and signal names to
aliases. -/

namespace VehicleCanDecoder

structure DomainConfig where
  name : ByteString
  topic : ByteString
  canIds : UnorderedSet UInt32

structure SignalRouter where
  idToDomain : UnorderedMap UInt32 ByteString
  domainToTopic : UnorderedMap ByteString ByteString
  aliases : UnorderedMap ByteString ByteString

namespace SignalRouter

def kUnassignedDomain : ByteString := "unassigned"

def empty : SignalRouter := ⟨∅, ∅, ∅⟩

/-- `%08X`. -/
def hex8 (v : UInt32) : ByteString :=
  let digits := (Nat.toDigits 16 v.toNat).map fun c => UInt8.ofNat c.toUpper.toNat
  List.replicate (8 - digits.length) 48 ++ digits

def duplicateWarning (id : UInt32) (domain assigned : ByteString) : ByteString :=
  str "Duplicate CAN ID 0x" ++ hex8 id ++ str " in domain '" ++ domain ++
    str "' (already assigned to '" ++ assigned ++ str "'). Reassigning to '" ++ domain ++ str "'."

/-- The body of the loop over `domain.can_ids`. -/
def assignId (domain : DomainConfig) (s : UnorderedMap UInt32 ByteString × List ByteString)
    (id : UInt32) : UnorderedMap UInt32 ByteString × List ByteString :=
  match s.1.lookup id with
  | none => (s.1.insert id domain.name, s.2)
  | some assigned =>
    (s.1.insert id domain.name, s.2 ++ [duplicateWarning id domain.name assigned])

/-- The two maps and the warnings so far, after one more domain. -/
def addDomain (order : HashOrder) (s : SignalRouter × List ByteString) (domain : DomainConfig) :
    SignalRouter × List ByteString :=
  let ids := (domain.canIds.items order).foldl (assignId domain) (s.1.idToDomain, s.2)
  ({ s.1 with
      domainToTopic := s.1.domainToTopic.insert domain.name domain.topic
      idToDomain := ids.1 }, ids.2)

/-- `configure`: the router, whose maps are cleared or replaced first, and the warnings. -/
def configure (order : HashOrder) (r : SignalRouter) (domains : List DomainConfig)
    (aliases : UnorderedMap ByteString ByteString) : SignalRouter × List ByteString :=
  let r := { r with idToDomain := ∅ }
  let r := { r with domainToTopic := ∅ }
  let r := { r with aliases }
  domains.foldl (addDomain order) (r, [])

def domainForId (r : SignalRouter) (canId : UInt32) : ByteString :=
  (r.idToDomain.lookup canId).getD kUnassignedDomain

def topicForDomain (r : SignalRouter) (domain : ByteString) : ByteString :=
  (r.domainToTopic.lookup domain).getD ""

def applyAlias (r : SignalRouter) (signalName : ByteString) : ByteString :=
  (r.aliases.lookup signalName).getD signalName

def allKnownIds (order : HashOrder) (r : SignalRouter) : UnorderedSet UInt32 :=
  (r.idToDomain.items order).foldl (fun ids kv => ids.insert kv.1) ∅

/-! ### What `configure` leaves -/

/-- The last domain of a list that contains a CAN identifier. -/
def lastDomainWith (domains : List DomainConfig) (canId : UInt32) : Option DomainConfig :=
  (domains.filter (canId ∈ ·.canIds)).getLast?

/-- The last domain of a list with a name. -/
def lastDomainNamed (domains : List DomainConfig) (name : ByteString) : Option DomainConfig :=
  (domains.filter (·.name = name)).getLast?

theorem lookup_foldl_assignId (domain : DomainConfig) (ids : List UInt32)
    (s : UnorderedMap UInt32 ByteString × List ByteString) (canId : UInt32) :
    (ids.foldl (assignId domain) s).1.lookup canId =
      if canId ∈ ids then some domain.name else s.1.lookup canId := by
  induction ids generalizing s with
  | nil => simp
  | cons id rest ih =>
    have hStep : (assignId domain s id).1 = s.1.insert id domain.name := by
      unfold assignId
      cases s.1.lookup id <;> rfl
    rw [List.foldl_cons, ih, hStep, UnorderedMap.lookup_insert_eq]
    by_cases hRest : canId ∈ rest
    · simp [hRest]
    · by_cases hHere : canId = id <;> simp [hRest, hHere]

@[simp] theorem addDomain_aliases (order : HashOrder) (s : SignalRouter × List ByteString)
    (domain : DomainConfig) : (addDomain order s domain).1.aliases = s.1.aliases := rfl

theorem addDomain_domainToTopic (order : HashOrder) (s : SignalRouter × List ByteString)
    (domain : DomainConfig) : (addDomain order s domain).1.domainToTopic =
      s.1.domainToTopic.insert domain.name domain.topic := rfl

theorem addDomain_idToDomain (order : HashOrder) (s : SignalRouter × List ByteString)
    (domain : DomainConfig) (canId : UInt32) :
    (addDomain order s domain).1.idToDomain.lookup canId =
      if canId ∈ domain.canIds then some domain.name else s.1.idToDomain.lookup canId := by
  have h := lookup_foldl_assignId domain (domain.canIds.items order) (s.1.idToDomain, s.2) canId
  simp only [UnorderedSet.mem_items] at h
  exact h

variable (order : HashOrder) (r : SignalRouter) (domains : List DomainConfig)
  (aliases : UnorderedMap ByteString ByteString)

theorem foldl_addDomain_aliases (s : SignalRouter × List ByteString) :
    (domains.foldl (addDomain order) s).1.aliases = s.1.aliases := by
  induction domains generalizing s with
  | nil => rfl
  | cons d rest ih => rw [List.foldl_cons, ih, addDomain_aliases]

theorem configure_aliases : (configure order r domains aliases).1.aliases = aliases :=
  foldl_addDomain_aliases order domains _

/-- The last domain that lists an identifier has it. -/
theorem configure_idToDomain (canId : UInt32) :
    (configure order r domains aliases).1.idToDomain.lookup canId =
      (lastDomainWith domains canId).map DomainConfig.name := by
  unfold configure lastDomainWith
  induction domains using List.reverseRecOn with
  | nil => rfl
  | append_singleton rest d ih =>
    rw [List.foldl_concat, addDomain_idToDomain, ih, List.filter_append]
    by_cases h : canId ∈ d.canIds <;> simp [h]

/-- The last domain of a name gives it its topic. -/
theorem configure_domainToTopic (name : ByteString) :
    (configure order r domains aliases).1.domainToTopic.lookup name =
      (lastDomainNamed domains name).map DomainConfig.topic := by
  unfold configure lastDomainNamed
  induction domains using List.reverseRecOn with
  | nil => rfl
  | append_singleton rest d ih =>
    rw [List.foldl_concat, addDomain_domainToTopic, UnorderedMap.lookup_insert_eq, ih,
      List.filter_append]
    by_cases h : d.name = name
    · simp [h]
    · simp [h, Ne.symm h]

theorem lastDomainWith_isSome (canId : UInt32) :
    (lastDomainWith domains canId).isSome ↔ ∃ d ∈ domains, canId ∈ d.canIds := by
  unfold lastDomainWith
  rw [List.getLast?_isSome, ne_eq, List.filter_eq_nil_iff]
  simp

theorem lastDomainWith_mem {canId : UInt32} {d : DomainConfig}
    (h : lastDomainWith domains canId = some d) : d ∈ domains ∧ canId ∈ d.canIds := by
  have hMem := List.mem_of_getLast? h
  simpa using List.mem_filter.mp hMem

theorem lastDomainNamed_isSome (name : ByteString) :
    (lastDomainNamed domains name).isSome ↔ ∃ d ∈ domains, d.name = name := by
  unfold lastDomainNamed
  rw [List.getLast?_isSome, ne_eq, List.filter_eq_nil_iff]
  simp

/-! ### The warnings -/

/-- Each identifier that a domain lists is new, or it gives a warning. -/
theorem foldl_assignId_warnings (domain : DomainConfig) (ids : List UInt32)
    (s : UnorderedMap UInt32 ByteString × List ByteString) :
    (ids.foldl (assignId domain) s).2.length + (ids.foldl (assignId domain) s).1.size =
      s.2.length + s.1.size + ids.length := by
  induction ids generalizing s with
  | nil => rfl
  | cons id rest ih =>
    have hStep : (assignId domain s id).2.length + (assignId domain s id).1.size =
        s.2.length + s.1.size + 1 := by
      unfold assignId
      cases hLookup : s.1.lookup id <;>
        simp only [UnorderedMap.size_insert, hLookup, Option.isSome_none, Option.isSome_some,
          Bool.false_eq_true, if_false, if_true, List.length_append, List.length_singleton] <;>
        omega
    rw [List.foldl_cons, ih, List.length_cons, hStep]
    omega

theorem foldl_assignId_silent (domain : DomainConfig) {ids : List UInt32} (hNodup : ids.Nodup)
    (s : UnorderedMap UInt32 ByteString × List ByteString) :
    (ids.foldl (assignId domain) s).2 = [] ↔ s.2 = [] ∧ ∀ id ∈ ids, s.1.lookup id = none := by
  induction ids generalizing s with
  | nil => simp
  | cons id rest ih =>
    obtain ⟨hNew, hNodup⟩ := List.nodup_cons.mp hNodup
    rw [List.foldl_cons, ih hNodup, List.forall_mem_cons]
    unfold assignId
    cases hLookup : s.1.lookup id with
    | none =>
      have hRest : (∀ id' ∈ rest, (s.1.insert id domain.name).lookup id' = none) ↔
          ∀ id' ∈ rest, s.1.lookup id' = none := by
        refine forall₂_congr fun id' hId' => ?_
        rw [UnorderedMap.lookup_insert_eq, if_neg]
        rintro rfl
        exact hNew hId'
      simp only [hRest, true_and]
    | some assigned => simp

/-- As many warnings as the sets have elements more than their union. -/
theorem configure_warnings :
    (configure order r domains aliases).2.length +
        (configure order r domains aliases).1.idToDomain.size =
      (domains.map fun d => d.canIds.size).sum := by
  unfold configure
  induction domains using List.reverseRecOn with
  | nil => rfl
  | append_singleton rest d ih =>
    rw [List.foldl_concat, List.map_append, List.sum_append, ← ih]
    have hFold := foldl_assignId_warnings d (d.canIds.items order)
      ((configure order r rest aliases).1.idToDomain, (configure order r rest aliases).2)
    rw [UnorderedSet.size_items] at hFold
    simpa [addDomain, configure] using hFold

theorem configure_silent : (configure order r domains aliases).2 = [] ↔
    domains.Pairwise fun d d' => ∀ id, id ∈ d.canIds → id ∉ d'.canIds := by
  induction domains using List.reverseRecOn with
  | nil => simp [configure]
  | append_singleton rest d ih =>
    have hStep : (configure order r (rest ++ [d]) aliases).2 = [] ↔
        (configure order r rest aliases).2 = [] ∧ ∀ id ∈ d.canIds.items order,
          (configure order r rest aliases).1.idToDomain.lookup id = none := by
      unfold configure
      rw [List.foldl_concat]
      exact foldl_assignId_silent d (d.canIds.items_nodup order) _
    rw [hStep, ih, List.pairwise_append]
    simp only [UnorderedSet.mem_items, configure_idToDomain, Option.map_eq_none_iff,
      List.pairwise_singleton, true_and, List.mem_singleton, forall_eq]
    refine and_congr_right fun _ => ?_
    simp only [← Option.not_isSome_iff_eq_none, lastDomainWith_isSome, not_exists, not_and]
    exact ⟨fun h d' hd' id hId hHere => h id hHere d' hd' hId,
      fun h id hHere d' hd' hId => h d' hd' id hId hHere⟩

theorem mem_allKnownIds (order' : HashOrder) (canId : UInt32) :
    canId ∈ r.allKnownIds order' ↔ (r.idToDomain.lookup canId).isSome := by
  have h := UnorderedSet.mem_foldl_insert ((r.idToDomain.items order').map Prod.fst) ∅ canId
  rw [List.foldl_map] at h
  refine h.trans ?_
  simp only [UnorderedSet.not_mem_empty, or_false, List.mem_map, Prod.exists, exists_and_right,
    exists_eq_right, UnorderedMap.mem_items, Option.isSome_iff_exists]

theorem size_allKnownIds (order' : HashOrder) : (r.allKnownIds order').size = r.idToDomain.size := by
  have h := (r.allKnownIds order').size_eq_length (r.idToDomain.items_keys_nodup order') fun canId =>
    (mem_allKnownIds r order' canId).trans (by
      simp [UnorderedMap.mem_items, Option.isSome_iff_exists])
  rw [h, List.length_map, UnorderedMap.items, (order'.perm _).length_eq, List.length_map]
  rfl

/-- The last domain wins, for identifiers and for topics; the warnings are exact; and nothing is
left of the router before. -/
theorem configure_exact (order' : HashOrder) (before : SignalRouter) :
    let router := (configure order r domains aliases).1
    let warnings := (configure order r domains aliases).2
    (∀ canId, router.domainForId canId =
        ((lastDomainWith domains canId).map DomainConfig.name).getD kUnassignedDomain) ∧
      (∀ canId, router.topicForDomain (router.domainForId canId) =
        ((lastDomainNamed domains (router.domainForId canId)).map DomainConfig.topic).getD "") ∧
      (∀ canId, canId ∈ router.allKnownIds order' ↔ ∃ d ∈ domains, canId ∈ d.canIds) ∧
      warnings.length + (router.allKnownIds order').size =
        (domains.map fun d => d.canIds.size).sum ∧
      (warnings = [] ↔ domains.Pairwise fun d d' => ∀ id, id ∈ d.canIds → id ∉ d'.canIds) ∧
      configure order before domains aliases = configure order r domains aliases := by
  refine ⟨fun canId => ?_, fun canId => ?_, fun canId => ?_, ?_, ?_, rfl⟩
  · rw [domainForId, configure_idToDomain]
  · rw [topicForDomain, configure_domainToTopic]
  · rw [mem_allKnownIds, configure_idToDomain, Option.isSome_map, lastDomainWith_isSome]
  · rw [size_allKnownIds, configure_warnings]
  · exact configure_silent order r domains aliases

end SignalRouter

end VehicleCanDecoder
