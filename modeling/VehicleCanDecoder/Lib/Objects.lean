import VehicleCanDecoder.Lib.UnorderedMap

/-! Programs over objects that have an identity: objects are made, changed, moved from one to the
other, and destroyed.  What a program says of an object that is not there, or makes one that is,
changes nothing.  Two collections of objects that are related stay so when related things are done
to them. -/

universe u v w

/-- The objects that there are, by their identity. -/
abbrev Objects (κ : Type u) (α : Type v) := UnorderedMap κ α

namespace Objects

variable {κ : Type u} {α : Type v} {β : Type w} [DecidableEq κ]

def construct (s : Objects κ α) (k : κ) (a : α) : Objects κ α :=
  if (s.lookup k).isSome then s else s.insert k a

/-- A call on an object, which changes it. -/
def call (s : Objects κ α) (k : κ) (f : α → α) : Objects κ α :=
  match s.lookup k with
  | none => s
  | some a => s.insert k (f a)

/-- A call that may fail. -/
def tryCall (s : Objects κ α) (k : κ) (f : α → Option α) : Option (Objects κ α) :=
  match s.lookup k with
  | none => some s
  | some a => (f a).map fun a' => s.insert k a'

/-- A call that leaves the object as it is, and may fail. -/
def query {γ : Type*} (s : Objects κ α) (k : κ) (f : α → Option γ) : Option (Objects κ α) :=
  match s.lookup k with
  | none => some s
  | some a => (f a).map fun _ => s

/-- An object that is made from another one, which changes. -/
def moveConstruct (s : Objects κ α) (k other : κ) (f : α → α × α) : Objects κ α :=
  match s.lookup k, s.lookup other with
  | none, some b => (s.insert other (f b).2).insert k (f b).1
  | _, _ => s

/-- An assignment from another object; from itself it is nothing. -/
def moveAssign (s : Objects κ α) (k other : κ) (f : α → α → α × α) : Objects κ α :=
  if k = other then s
  else
    match s.lookup k, s.lookup other with
    | some a, some b => (s.insert other (f a b).2).insert k (f a b).1
    | _, _ => s

/-! ### Related objects -/

variable {R : α → β → Prop} {s : Objects κ α} {t : Objects κ β}

theorem related_construct (h : UnorderedMap.Related R s t) (k : κ) {a : α} {b : β} (hab : R a b) :
    UnorderedMap.Related R (s.construct k a) (t.construct k b) := by
  unfold construct
  rcases h.cases k with ⟨hs, ht⟩ | ⟨_, _, hs, ht, -⟩
  · simpa [hs, ht] using h.insert k hab
  · simpa [hs, ht] using h

theorem related_tryCall (h : UnorderedMap.Related R s t) (k : κ) {f : α → Option α} {g : β → β}
    (hf : ∀ a b, t.lookup k = some b → R a b → ∃ a', f a = some a' ∧ R a' (g b)) :
    ∃ s', s.tryCall k f = some s' ∧ UnorderedMap.Related R s' (t.call k g) := by
  unfold tryCall call
  rcases h.cases k with ⟨hs, ht⟩ | ⟨a, b, hs, ht, hab⟩
  · exact ⟨s, by rw [hs], by rwa [ht]⟩
  · obtain ⟨a', ha', hR⟩ := hf a b ht hab
    exact ⟨s.insert k a', by simp [hs, ha'], by simpa [ht] using h.insert k hR⟩

theorem related_query {γ : Type*} (h : UnorderedMap.Related R s t) (k : κ) {f : α → Option γ}
    (hf : ∀ a b, R a b → (f a).isSome) :
    ∃ s', s.query k f = some s' ∧ UnorderedMap.Related R s' t := by
  refine ⟨s, ?_, h⟩
  unfold query
  rcases h.cases k with ⟨hs, -⟩ | ⟨a, b, hs, -, hab⟩
  · rw [hs]
  · obtain ⟨c, hc⟩ := Option.isSome_iff_exists.mp (hf a b hab)
    simp [hs, hc]

theorem related_moveConstruct (h : UnorderedMap.Related R s t) (k other : κ) {f : α → α × α}
    {g : β → β × β} (hf : ∀ a b, R a b → R (f a).1 (g b).1 ∧ R (f a).2 (g b).2) :
    UnorderedMap.Related R (s.moveConstruct k other f) (t.moveConstruct k other g) := by
  unfold moveConstruct
  rcases h.cases k with ⟨hs, ht⟩ | ⟨_, _, hs, ht, -⟩
  · rcases h.cases other with ⟨hs', ht'⟩ | ⟨a, b, hs', ht', hab⟩
    · simpa [hs, ht, hs', ht'] using h
    · simpa [hs, ht, hs', ht'] using (h.insert other (hf a b hab).2).insert k (hf a b hab).1
  · simpa [hs, ht] using h

theorem related_moveAssign (h : UnorderedMap.Related R s t) (k other : κ) {f : α → α → α × α}
    {g : β → β → β × β}
    (hf : ∀ a b a' b', R a b → R a' b' → R (f a a').1 (g b b').1 ∧ R (f a a').2 (g b b').2) :
    UnorderedMap.Related R (s.moveAssign k other f) (t.moveAssign k other g) := by
  unfold moveAssign
  by_cases hSelf : k = other
  · simpa [hSelf] using h
  · rw [if_neg hSelf, if_neg hSelf]
    rcases h.cases k with ⟨hs, ht⟩ | ⟨a, b, hs, ht, hab⟩
    · simpa [hs, ht] using h
    · rcases h.cases other with ⟨hs', ht'⟩ | ⟨a', b', hs', ht', hab'⟩
      · simpa [hs, ht, hs', ht'] using h
      · have hBoth := hf a b a' b' hab hab'
        simpa [hs, ht, hs', ht'] using (h.insert other hBoth.2).insert k hBoth.1

end Objects
