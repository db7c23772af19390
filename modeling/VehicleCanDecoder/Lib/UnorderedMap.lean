import Mathlib.Data.List.AList
import Mathlib.Data.Finset.Dedup

/-! Hash maps and hash sets whose iteration order is not specified.  A map is an association list
with distinct keys, and every loop over a map names the order in which it meets the entries.  The
fold laws say what a key holds after a loop that inserts: the last value assigned to it, or the
elements pushed to it, in order. -/

universe u v w

/-- The order in which one loop over a hash container meets its entries: any permutation. -/
structure HashOrder where
  apply : ∀ {α : Type}, List α → List α
  perm : ∀ {α : Type} (l : List α), (apply l).Perm l

/-- The order of the list itself. -/
def HashOrder.listed : HashOrder := ⟨fun l => l, fun l => .refl l⟩

/-- A hash map: a list of entries with distinct keys. -/
abbrev UnorderedMap (κ : Type u) (ν : Type v) := AList fun _ : κ => ν

namespace UnorderedMap

/-- The entries of `m`, in the order in which a loop meets them. -/
def items {κ ν : Type} (m : UnorderedMap κ ν) (order : HashOrder) : List (κ × ν) :=
  order.apply (m.entries.map fun e => (e.1, e.2))

/-- `m.empty()`. -/
def isEmpty {κ : Type u} {ν : Type v} (m : UnorderedMap κ ν) : Bool := m.entries.isEmpty

/-- `m.size()`. -/
def size {κ : Type u} {ν : Type v} (m : UnorderedMap κ ν) : Nat := m.entries.length

section Lookup

variable {κ : Type u} {ν : Type v} [DecidableEq κ]

theorem isEmpty_iff (m : UnorderedMap κ ν) : m.isEmpty = true ↔ ∀ k, m.lookup k = none := by
  unfold isEmpty
  rw [List.isEmpty_iff]
  constructor
  · intro h k
    rw [AList.lookup_eq_none, AList.mem_keys, AList.keys, h]
    simp
  · intro h
    rw [List.eq_nil_iff_forall_not_mem]
    intro e he
    have := AList.mem_lookup_iff.mpr (show Sigma.mk e.1 e.2 ∈ m.entries from he)
    rw [h e.1] at this
    contradiction

theorem mem_keys_iff {m : UnorderedMap κ ν} {k : κ} : k ∈ m.keys ↔ m.lookup k ≠ none := by
  rw [← AList.mem_keys, ← AList.lookup_isSome, Option.isSome_iff_ne_none]

/-- `m[k] = f (the value at k, if any)`. -/
def upsert (m : UnorderedMap κ ν) (k : κ) (f : Option ν → ν) : UnorderedMap κ ν :=
  m.insert k (f (m.lookup k))

/-- `m.emplace(k, v)`: an existing entry stays, and the flag says whether `k` was inserted. -/
def emplace (m : UnorderedMap κ ν) (k : κ) (v : ν) : UnorderedMap κ ν × Bool :=
  match m.lookup k with
  | some _ => (m, false)
  | none => (m.insert k v, true)

@[simp] theorem lookup_insert_eq (m : UnorderedMap κ ν) (k k' : κ) (v : ν) :
    (m.insert k v).lookup k' = if k' = k then some v else m.lookup k' := by
  by_cases h : k' = k
  · subst h
    simp [AList.lookup_insert]
  · rw [AList.lookup_insert_ne h, if_neg h]

@[simp] theorem lookup_upsert (m : UnorderedMap κ ν) (k k' : κ) (f : Option ν → ν) :
    (m.upsert k f).lookup k' = if k' = k then some (f (m.lookup k)) else m.lookup k' :=
  lookup_insert_eq m k k' _

theorem lookup_emplace (m : UnorderedMap κ ν) (k k' : κ) (v : ν) :
    (m.emplace k v).1.lookup k' = if k' = k then some ((m.lookup k).getD v) else m.lookup k' := by
  unfold emplace
  cases hk : m.lookup k with
  | none => simp
  | some old =>
    by_cases h : k' = k
    · subst h
      simp [hk]
    · simp [h]

theorem size_insert (m : UnorderedMap κ ν) (k : κ) (v : ν) :
    size (m.insert k v) = if (m.lookup k).isSome then m.size else m.size + 1 := by
  have hKeys : ∀ m : UnorderedMap κ ν, m.size = m.keys.length := fun m => (List.length_map _).symm
  rw [hKeys, hKeys, AList.keys_insert, List.length_cons]
  by_cases h : k ∈ m.keys
  · rw [if_pos (AList.lookup_isSome.mpr h), List.length_erase_of_mem h]
    have hPos := List.length_pos_of_mem h
    omega
  · rw [if_neg fun hSome => h (AList.lookup_isSome.mp hSome), List.erase_of_not_mem h]

/-- The entries whose keys are kept. -/
def filterKeys (m : UnorderedMap κ ν) (keep : κ → Bool) : UnorderedMap κ ν :=
  ⟨m.entries.filter (keep ·.1), m.nodupKeys.sublist (List.filter_sublist)⟩

@[simp] theorem lookup_filterKeys (m : UnorderedMap κ ν) (keep : κ → Bool) (k : κ) :
    (m.filterKeys keep).lookup k = if keep k then m.lookup k else none := by
  refine Option.ext fun v => ?_
  rw [← Option.mem_def, AList.mem_lookup_iff]
  by_cases h : keep k
  · simp [filterKeys, h, ← Option.mem_def, AList.mem_lookup_iff]
  · simp [filterKeys, h]

/-- After a loop of `emplace`, a key holds its first value. -/
theorem lookup_foldl_emplace {α : Type w} (key : α → κ) (val : α → ν) (l : List α)
    (m : UnorderedMap κ ν) (k : κ) :
    (l.foldl (fun m a => (m.emplace (key a) (val a)).1) m).lookup k =
      (m.lookup k).or ((l.find? (key · = k)).map val) := by
  induction l generalizing m with
  | nil => simp
  | cons a rest ih =>
    rw [List.foldl_cons, ih, lookup_emplace, List.find?_cons]
    by_cases h : key a = k
    · subst h
      cases m.lookup (key a) <;> simp
    · simp [h, Ne.symm h]

/-- After a loop of updates, a key holds what the updates of that key make of its first value, in
order. -/
theorem lookup_foldl_upsert {α : Type w} (key : α → κ) (f : α → Option ν → ν) (l : List α)
    (m : UnorderedMap κ ν) (k : κ) :
    (l.foldl (fun m a => m.upsert (key a) (f a)) m).lookup k =
      (l.filter (key · = k)).foldl (fun v a => some (f a v)) (m.lookup k) := by
  induction l generalizing m with
  | nil => rfl
  | cons a rest ih =>
    rw [List.foldl_cons, ih, lookup_upsert]
    by_cases h : key a = k
    · subst h
      simp
    · simp [h, Ne.symm h]

/-- After a loop of assignments, a key holds the last value assigned to it. -/
theorem lookup_foldl_insert {α : Type w} (key : α → κ) (val : α → ν) (l : List α)
    (m : UnorderedMap κ ν) (k : κ) :
    (l.foldl (fun m a => m.insert (key a) (val a)) m).lookup k =
      ((l.filter (key · = k)).getLast?.map val).or (m.lookup k) := by
  have h := lookup_foldl_upsert key (fun a _ => val a) l m k
  have hfold : ∀ (l : List α) (v : Option ν),
      l.foldl (fun _ a => some (val a)) v = (l.getLast?.map val).or v := by
    intro l
    induction l with
    | nil => intro v; rfl
    | cons a rest ih =>
      intro v
      rw [List.foldl_cons, ih]
      cases hr : rest.getLast? with
      | none =>
        obtain rfl := List.getLast?_eq_none_iff.mp hr
        rfl
      | some b => simp [List.getLast?_cons, hr]
  rw [← hfold]
  exact h

/-- After a loop of assignments to different keys, the keys hold what the loop has assigned to
them. -/
theorem lookup_foldl_insert_of_nodup {l : List (κ × ν)} (hNodup : (l.map Prod.fst).Nodup) (k : κ)
    (v : ν) : (l.foldl (fun m e => m.insert e.1 e.2) (∅ : UnorderedMap κ ν)).lookup k = some v ↔
      (k, v) ∈ l := by
  have hStore : ∀ m : UnorderedMap κ ν,
      (l.foldl (fun m e => m.insert e.1 e.2) m).lookup k = some v ↔
        (k, v) ∈ l ∨ (k ∉ l.map Prod.fst ∧ m.lookup k = some v) := by
    induction l with
    | nil => simp
    | cons e rest ih =>
      intro m
      obtain ⟨hNew, hRest⟩ := List.nodup_cons.mp hNodup
      rw [List.foldl_cons, ih hRest, lookup_insert_eq, List.mem_cons, List.map_cons, List.mem_cons]
      by_cases hKey : k = e.1
      · subst hKey
        have hNot : (e.1, v) ∉ rest := fun hMem =>
          hNew (List.mem_map.mpr ⟨_, hMem, rfl⟩)
        simp [hNot, hNew, Prod.ext_iff, eq_comm]
      · simp [hKey, Prod.ext_iff]
  simpa using hStore ∅

end Lookup

section Vectors

variable {κ : Type u} {ν : Type v} [DecidableEq κ]

/-- `m[k].push_back(v)`. -/
def pushBack (m : UnorderedMap κ (List ν)) (k : κ) (v : ν) : UnorderedMap κ (List ν) :=
  m.upsert k fun old => old.getD [] ++ [v]

/-- After a loop of `push_back`, a key holds the elements pushed to it, in order, and a key to
which nothing was pushed has no entry. -/
theorem lookup_foldl_pushBack {α : Type w} (key : α → κ) (val : α → ν) (l : List α) (k : κ) :
    (l.foldl (fun m a => m.pushBack (key a) (val a)) (∅ : UnorderedMap κ (List ν))).lookup k =
      if l.filter (key · = k) = [] then none else some ((l.filter (key · = k)).map val) := by
  have hfold : ∀ (l : List α) (old : List ν),
      l.foldl (fun v a => some (v.getD [] ++ [val a])) (some old) = some (old ++ l.map val) := by
    intro l
    induction l with
    | nil => intro old; simp
    | cons a rest ih => intro old; simp [ih]
  have h := lookup_foldl_upsert key (fun a old => old.getD [] ++ [val a]) l
    (∅ : UnorderedMap κ (List ν)) k
  rw [AList.lookup_empty] at h
  apply h.trans
  cases hl : l.filter (key · = k) with
  | nil => rfl
  | cons a rest => simp [hfold]

end Vectors

section Related

variable {κ : Type u} {ν : Type v} {μ : Type w} [DecidableEq κ]

/-- Two maps have the same keys, with related values. -/
def Related (R : ν → μ → Prop) (m : UnorderedMap κ ν) (m' : UnorderedMap κ μ) : Prop :=
  ∀ k, Option.Rel R (m.lookup k) (m'.lookup k)

variable {R : ν → μ → Prop} {m : UnorderedMap κ ν} {m' : UnorderedMap κ μ}

theorem related_empty : Related R (∅ : UnorderedMap κ ν) (∅ : UnorderedMap κ μ) := fun _ => .none

/-- A key is in both maps, or in neither. -/
theorem Related.cases (h : Related R m m') (k : κ) : (m.lookup k = none ∧ m'.lookup k = none) ∨
    ∃ v v', m.lookup k = some v ∧ m'.lookup k = some v' ∧ R v v' := by
  have hk := h k
  generalize m.lookup k = o, m'.lookup k = o' at hk
  cases hk with
  | none => exact .inl ⟨rfl, rfl⟩
  | some hv => exact .inr ⟨_, _, rfl, rfl, hv⟩

theorem Related.insert (h : Related R m m') (k : κ) {v : ν} {v' : μ} (hv : R v v') :
    Related R (m.insert k v) (m'.insert k v') := by
  intro k'
  rw [lookup_insert_eq, lookup_insert_eq]
  by_cases hk : k' = k
  · rw [if_pos hk, if_pos hk]
    exact .some hv
  · rw [if_neg hk, if_neg hk]
    exact h k'

theorem Related.erase (h : Related R m m') (k : κ) : Related R (m.erase k) (m'.erase k) := by
  intro k'
  by_cases hk : k' = k
  · subst hk
    rw [AList.lookup_erase, AList.lookup_erase]
    exact .none
  · rw [AList.lookup_erase_ne hk, AList.lookup_erase_ne hk]
    exact h k'

end Related

section Items

variable {κ ν : Type}

theorem items_keys_nodup (m : UnorderedMap κ ν) (order : HashOrder) :
    ((m.items order).map Prod.fst).Nodup := by
  have hkeys : ((m.entries.map fun e => (e.1, e.2)).map Prod.fst).Nodup := by
    rw [List.map_map]
    exact m.nodupKeys
  exact ((order.perm _).map Prod.fst).nodup_iff.mpr hkeys

theorem items_nodup (m : UnorderedMap κ ν) (order : HashOrder) : (m.items order).Nodup :=
  List.Nodup.of_map Prod.fst (m.items_keys_nodup order)

theorem mem_items [DecidableEq κ] (m : UnorderedMap κ ν) (order : HashOrder) (k : κ) (v : ν) :
    (k, v) ∈ m.items order ↔ m.lookup k = some v := by
  rw [items, (order.perm _).mem_iff, List.mem_map, ← Option.mem_def, AList.mem_lookup_iff]
  constructor
  · rintro ⟨e, he, heq⟩
    obtain ⟨rfl, rfl⟩ := Prod.mk.inj heq
    exact he
  · intro h
    exact ⟨⟨k, v⟩, h, rfl⟩

/-- Looking a key up in the entries that a loop meets is looking it up in the map. -/
theorem lookup_items [DecidableEq κ] [BEq κ] [LawfulBEq κ] (m : UnorderedMap κ ν)
    (order : HashOrder) (k : κ) : (m.items order).lookup k = m.lookup k := by
  cases hLookup : (m.items order).lookup k with
  | none =>
    cases hk : m.lookup k with
    | none => rfl
    | some v =>
      have hMem := (m.mem_items order k v).mpr hk
      simpa using List.lookup_eq_none_iff.mp hLookup _ hMem
  | some v =>
    obtain ⟨l, l', hItems, -⟩ := List.lookup_eq_some_iff.mp hLookup
    refine ((m.mem_items order k v).mp ?_).symm
    rw [hItems]
    simp

/-- A map whose keys are all listed is no longer than the list. -/
theorem size_le_length [DecidableEq κ] {m : UnorderedMap κ ν} {l : List κ}
    (h : ∀ k, (m.lookup k).isSome → k ∈ l) : m.size ≤ l.length := by
  have hKeys : m.size = m.keys.length := (List.length_map _).symm
  rw [hKeys]
  exact (m.keys_nodup.subperm fun k hk => h k (AList.lookup_isSome.mpr hk)).length_le

/-- Where the keys are distinct, the entries with a key are one or none. -/
theorem filter_key_of_nodup [DecidableEq κ] {l : List (κ × ν)}
    (hNodup : (l.map Prod.fst).Nodup) {k : κ} {o : Option ν}
    (h : ∀ v, (k, v) ∈ l ↔ o = some v) : l.filter (·.1 = k) = o.toList.map (k, ·) := by
  have hPerm : (l.filter (·.1 = k)).Perm (o.toList.map (k, ·)) := by
    rw [List.perm_ext_iff_of_nodup ((List.Nodup.of_map Prod.fst hNodup).filter _)
      (by cases o <;> simp)]
    rintro ⟨k', v⟩
    simp only [List.mem_filter, decide_eq_true_eq, List.mem_map, Option.mem_toList, Prod.mk.injEq,
      exists_eq_right_right]
    constructor
    · rintro ⟨hMem, rfl⟩
      exact ⟨(h v).mp hMem, rfl⟩
    · rintro ⟨hValue, rfl⟩
      exact ⟨(h v).mpr hValue, rfl⟩
  cases o with
  | none => exact hPerm.eq_nil
  | some v => exact List.perm_singleton.mp hPerm

/-- A loop over a map meets each key exactly once. -/
theorem items_filter_key [DecidableEq κ] (m : UnorderedMap κ ν) (order : HashOrder) (k : κ) :
    (m.items order).filter (·.1 = k) = (m.lookup k).toList.map (k, ·) :=
  filter_key_of_nodup (m.items_keys_nodup order) (m.mem_items order k)

/-- After a loop that assigns the entries of another map, a key holds the value of that map, or what
it held before. -/
theorem lookup_foldl_items [DecidableEq κ] (m m' : UnorderedMap κ ν) (order : HashOrder) (k : κ) :
    ((m'.items order).foldl (fun m e => m.insert e.1 e.2) m).lookup k =
      (m'.lookup k).or (m.lookup k) := by
  rw [lookup_foldl_insert, items_filter_key]
  cases m'.lookup k <;> rfl

end Items

end UnorderedMap

/-- A hash set: a list of distinct elements. -/
structure UnorderedSet (α : Type u) where
  elems : List α
  nodup : elems.Nodup

namespace UnorderedSet

variable {α : Type u}

instance : Membership α (UnorderedSet α) := ⟨fun s a => a ∈ s.elems⟩

instance [DecidableEq α] (a : α) (s : UnorderedSet α) : Decidable (a ∈ s) :=
  inferInstanceAs (Decidable (a ∈ s.elems))

def empty : UnorderedSet α := ⟨[], List.nodup_nil⟩

instance : EmptyCollection (UnorderedSet α) := ⟨empty⟩

def insert [DecidableEq α] (s : UnorderedSet α) (a : α) : UnorderedSet α :=
  ⟨s.elems.insert a, s.nodup.insert⟩

/-- The elements of `s`, in the order in which a loop meets them. -/
def items {α : Type} (s : UnorderedSet α) (order : HashOrder) : List α := order.apply s.elems

/-- `s.size()`. -/
def size (s : UnorderedSet α) : Nat := s.elems.length

@[simp] theorem not_mem_empty (a : α) : a ∉ (∅ : UnorderedSet α) := List.not_mem_nil

@[simp] theorem mem_insert [DecidableEq α] (s : UnorderedSet α) (a b : α) :
    b ∈ s.insert a ↔ b = a ∨ b ∈ s := List.mem_insert_iff

@[simp] theorem mem_items {α : Type} (s : UnorderedSet α) (order : HashOrder) (a : α) :
    a ∈ s.items order ↔ a ∈ s := (order.perm _).mem_iff

theorem size_items {α : Type} (s : UnorderedSet α) (order : HashOrder) :
    (s.items order).length = s.size := (order.perm _).length_eq

theorem items_nodup {α : Type} (s : UnorderedSet α) (order : HashOrder) : (s.items order).Nodup :=
  (order.perm _).nodup_iff.mpr s.nodup

/-- A set has as many elements as any list of the same elements without repetitions. -/
theorem size_eq_length (s : UnorderedSet α) {l : List α} (hNodup : l.Nodup)
    (hMem : ∀ a, a ∈ s ↔ a ∈ l) : s.size = l.length :=
  ((List.perm_ext_iff_of_nodup s.nodup hNodup).mpr hMem).length_eq

theorem mem_foldl_insert [DecidableEq α] (l : List α) (s : UnorderedSet α) (a : α) :
    a ∈ l.foldl insert s ↔ a ∈ l ∨ a ∈ s := by
  induction l generalizing s with
  | nil => simp
  | cons b rest ih =>
    rw [List.foldl_cons, ih, mem_insert, List.mem_cons]
    tauto

end UnorderedSet
