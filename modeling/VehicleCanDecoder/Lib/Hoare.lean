import Mathlib.Data.List.Basic

/-! Preconditions and postconditions for computations that read and write a state and may throw.
The state survives an exception, so a triple has a postcondition for a normal return and one for a
throw.  The rules follow the constructs of the monad. -/

universe u

namespace Hoare

variable {ε σ α β : Type u}

/-- From every state in `P`, `c` returns in `Q` or throws in `E`. -/
def Triple (P : σ → Prop) (c : EStateM ε σ α) (Q : α → σ → Prop) (E : ε → σ → Prop) : Prop :=
  ∀ s, P s → match c s with
    | .ok a s' => Q a s'
    | .error e s' => E e s'

/-- The state in which a computation ends, with or without a throw. -/
def final : EStateM.Result ε σ α → σ
  | .ok _ s => s
  | .error _ s => s

variable {P P' : σ → Prop} {c : EStateM ε σ α} {Q Q' : α → σ → Prop} {E E' : ε → σ → Prop}

theorem Triple.ok (h : Triple P c Q E) {s s' : σ} {a : α} (hs : P s) (hRun : c s = .ok a s') :
    Q a s' := by
  have := h s hs
  rwa [hRun] at this

theorem Triple.error (h : Triple P c Q E) {s s' : σ} {e : ε} (hs : P s)
    (hRun : c s = .error e s') : E e s' := by
  have := h s hs
  rwa [hRun] at this

theorem Triple.final {Q : σ → Prop} (h : Triple P c (fun _ => Q) fun _ => Q) {s : σ} (hs : P s) :
    Q (final (c s)) := by
  have := h s hs
  cases hRun : c s <;> rw [hRun] at this <;> exact this

theorem Triple.conseq (h : Triple P c Q E) (hP : ∀ s, P' s → P s) (hQ : ∀ a s, Q a s → Q' a s)
    (hE : ∀ e s, E e s → E' e s) : Triple P' c Q' E' := by
  intro s hs
  have := h s (hP s hs)
  cases hRun : c s with
  | ok a s' =>
    rw [hRun] at this
    exact hQ a s' this
  | error e s' =>
    rw [hRun] at this
    exact hE e s' this

theorem Triple.pre (h : Triple P c Q E) (hP : ∀ s, P' s → P s) : Triple P' c Q E :=
  h.conseq hP (fun _ _ hq => hq) fun _ _ he => he

theorem Triple.weaken (h : Triple P c Q E) (hQ : ∀ a s, Q a s → Q' a s)
    (hE : ∀ e s, E e s → E' e s) : Triple P c Q' E' :=
  h.conseq (fun _ hp => hp) hQ hE

theorem Triple.exits (h : Triple P c Q E) (hE : ∀ e s, E e s → E' e s) : Triple P c Q E' :=
  h.conseq (fun _ hp => hp) (fun _ _ hq => hq) hE

theorem Triple.post (h : Triple P c Q E) (hQ : ∀ a s, Q a s → Q' a s) : Triple P c Q' E :=
  h.conseq (fun _ hp => hp) hQ fun _ _ he => he

/-- To prove a triple for all states of a kind, it is enough to prove it for each value of a
view. -/
theorem Triple.at {τ : Type*} {view : σ → τ} {I : τ → Prop}
    (h : ∀ v, I v → Triple (fun s => view s = v) c Q E) : Triple (fun s => I (view s)) c Q E :=
  fun s hs => h (view s) hs s rfl

theorem Triple.of_eq (h : ∀ s₀, P s₀ → Triple (fun s => s = s₀) c Q E) : Triple P c Q E :=
  fun s hs => h s hs s rfl

/-- Nothing is asked of a computation of which nothing is said. -/
theorem Triple.unspecified (c : EStateM ε σ α) :
    Triple P c (fun _ _ => True) (fun _ _ => True) := by
  intro s _
  cases c s <;> exact True.intro

theorem Triple.pure {a : α} (h : ∀ s, P s → Q a s) :
    Triple P (Pure.pure a : EStateM ε σ α) Q E :=
  h

theorem Triple.bind {f : α → EStateM ε σ β} {R : β → σ → Prop} (hc : Triple P c Q E)
    (hf : ∀ a, Triple (Q a) (f a) R E) : Triple P (c >>= f) R E := by
  intro s hs
  have := hc s hs
  show match EStateM.bind c f s with
    | .ok b s' => R b s'
    | .error e s' => E e s'
  unfold EStateM.bind
  cases hRun : c s with
  | ok a s' =>
    rw [hRun] at this
    exact hf a s' this
  | error e s' =>
    rw [hRun] at this
    exact this

theorem Triple.throw {e : ε} (h : ∀ s, P s → E e s) :
    Triple P (MonadExcept.throw e : EStateM ε σ α) Q E :=
  h

theorem Triple.get {Q : σ → σ → Prop} (h : ∀ s, P s → Q s s) :
    Triple P (MonadState.get : EStateM ε σ σ) Q E :=
  h

/-- What follows a reading of the state starts in that state. -/
theorem Triple.get_bind {f : σ → EStateM ε σ β} {R : β → σ → Prop}
    (h : ∀ s, P s → Triple (fun s' => s' = s) (f s) R E) :
    Triple P ((MonadState.get : EStateM ε σ σ) >>= f) R E :=
  Triple.bind (Triple.get (Q := fun s₀ s => P s₀ ∧ s = s₀) fun _ hs => ⟨hs, rfl⟩)
    fun s₀ s hs => h s₀ hs.1 s hs.2

theorem Triple.set {s₀ : σ} {Q : PUnit → σ → Prop} (h : ∀ s, P s → Q ⟨⟩ s₀) :
    Triple P (MonadStateOf.set s₀ : EStateM ε σ PUnit) Q E :=
  h

theorem Triple.modify {f : σ → σ} {Q : PUnit → σ → Prop} (h : ∀ s, P s → Q ⟨⟩ (f s)) :
    Triple P (modify f : EStateM ε σ PUnit) Q E :=
  h

theorem Triple.modifyGet {f : σ → α × σ} (h : ∀ s, P s → Q (f s).1 (f s).2) :
    Triple P (modifyGet f : EStateM ε σ α) Q E :=
  h

/-- A handler starts in the state that the throw left. -/
theorem Triple.tryCatch {handler : ε → EStateM ε σ α} {C : ε → σ → Prop} (hc : Triple P c Q C)
    (hHandler : ∀ e, Triple (C e) (handler e) Q E) :
    Triple P (MonadExcept.tryCatch c handler : EStateM ε σ α) Q E := by
  intro s hs
  have := hc s hs
  show match EStateM.tryCatch c handler s with
    | .ok a s' => Q a s'
    | .error e s' => E e s'
  unfold EStateM.tryCatch
  cases hRun : c s with
  | ok a s' =>
    rw [hRun] at this
    exact this
  | error e s' =>
    rw [hRun] at this
    exact hHandler e s' this

/-- A loop with an accumulator keeps an invariant that is indexed by the elements it has
finished. -/
theorem Triple.foldlM {ι : Type u} {f : β → ι → EStateM ε σ β} (I : List ι → β → σ → Prop)
    (l : List ι) (b : β)
    (hStep : ∀ done a rest b, l = done ++ a :: rest →
      Triple (I done b) (f b a) (I (done ++ [a])) E) :
    Triple (I [] b) (l.foldlM f b) (I l) E := by
  suffices h : ∀ rest done b, l = done ++ rest → Triple (I done b) (rest.foldlM f b) (I l) E from
    h l [] b rfl
  intro rest
  induction rest with
  | nil =>
    rintro done b rfl
    exact Triple.pure fun s hs => by simpa using hs
  | cons a rest ih =>
    intro done b hl
    rw [List.foldlM_cons]
    exact Triple.bind (hStep done a rest b hl) fun b' => ih (done ++ [a]) b' (by simp [hl])

/-- A loop keeps an invariant that is indexed by the elements it has finished. -/
theorem Triple.forM {ι : Type u} {f : ι → EStateM ε σ PUnit} (I : List ι → σ → Prop) (l : List ι)
    (hStep : ∀ done a rest, l = done ++ a :: rest →
      Triple (I done) (f a) (fun _ => I (done ++ [a])) E) :
    Triple (I []) (l.forM f) (fun _ => I l) E := by
  suffices h : ∀ rest done, l = done ++ rest → Triple (I done) (rest.forM f) (fun _ => I l) E from
    h l [] rfl
  intro rest
  induction rest with
  | nil =>
    rintro done rfl
    exact Triple.pure fun s hs => by simpa using hs
  | cons a rest ih =>
    intro done hl
    exact Triple.bind (hStep done a rest hl) fun _ => ih (done ++ [a]) (by simp [hl])

/-- What two triples say of a computation holds together. -/
theorem Triple.and (h : Triple P c Q E) (h' : Triple P c Q' E') :
    Triple P c (fun a s => Q a s ∧ Q' a s) fun e s => E e s ∧ E' e s := by
  intro s hs
  have hHere := h s hs
  have hHere' := h' s hs
  cases hRun : c s with
  | ok a s' =>
    rw [hRun] at hHere hHere'
    exact ⟨hHere, hHere'⟩
  | error e s' =>
    rw [hRun] at hHere hHere'
    exact ⟨hHere, hHere'⟩

/-! ### Computations that return -/

/-- From every state, `c` returns. -/
def Returns (c : EStateM ε σ α) : Prop :=
  Triple (fun _ => True) c (fun _ _ => True) fun _ _ => False

/-- What a triple says of a throw does not matter for a computation that returns. -/
theorem Triple.returns (h : Triple P c Q E) (hReturns : Returns c) :
    Triple P c Q fun _ _ => False :=
  (h.and (Triple.pre hReturns fun _ _ => trivial)).weaken (fun _ _ hs => hs.1)
    fun _ _ hs => hs.2

theorem Triple.nothrow (h : Triple P c Q fun _ _ => False) : Triple P c Q E :=
  h.exits fun _ _ hs => hs.elim

theorem Returns.pure (a : α) : Returns (Pure.pure a : EStateM ε σ α) :=
  Triple.pure fun _ _ => trivial

theorem Returns.bind {f : α → EStateM ε σ β} (hc : Returns c) (hf : ∀ a, Returns (f a)) :
    Returns (c >>= f) :=
  Triple.bind hc hf

theorem Returns.get_bind {f : σ → EStateM ε σ β} (hf : ∀ s, Returns (f s)) :
    Returns ((MonadState.get : EStateM ε σ σ) >>= f) :=
  Triple.get_bind fun s _ => Triple.pre (hf s) fun _ _ => trivial

theorem Returns.modify (f : σ → σ) : Returns (modify f : EStateM ε σ PUnit) :=
  Triple.modify fun _ _ => trivial

/-- A handler does not matter for a computation that returns. -/
theorem Returns.tryCatch (hc : Returns c) (handler : ε → EStateM ε σ α) :
    Returns (MonadExcept.tryCatch c handler : EStateM ε σ α) :=
  Triple.tryCatch hc fun _ _ hs => hs.elim

/-! ### Computations whose value is known -/

/-- A fact about values alone moves out of the precondition. -/
theorem Triple.assume {p : Prop} (h : p → Triple P c Q E) : Triple (fun s => p ∧ P s) c Q E :=
  fun s hs => h hs.1 s hs.2

theorem Triple.exists {ι : Sort*} {P : ι → σ → Prop} (h : ∀ i, Triple (P i) c Q E) :
    Triple (fun s => ∃ i, P i s) c Q E :=
  fun s ⟨i, hs⟩ => h i s hs

theorem Triple.bind_eq {f : α → EStateM ε σ β} {R : β → σ → Prop} {x : α}
    (hc : Triple P c (fun a s => a = x ∧ P' s) E) (hf : Triple P' (f x) R E) :
    Triple P (c >>= f) R E :=
  Triple.bind hc fun _ => Triple.assume fun hEq => hEq ▸ hf

/-- A loop whose body computes `g`, and establishes `Φ` of each element, computes the fold of `g`;
what it keeps may depend on the elements that it has finished. -/
theorem Triple.foldlM_indexed {ι : Type u} {f : β → ι → EStateM ε σ β} {g : β → ι → β}
    {Φ : ι → Prop} {P : List ι → σ → Prop} (l : List ι) (b : β)
    (hStep : ∀ done a rest b, l = done ++ a :: rest →
      Triple (P done) (f b a) (fun b' s => b' = g b a ∧ Φ a ∧ P (done ++ [a]) s) E) :
    Triple (P []) (l.foldlM f b) (fun b' s => b' = l.foldl g b ∧ (∀ a ∈ l, Φ a) ∧ P l s) E := by
  refine (Triple.foldlM
    (fun done b' s => b' = done.foldl g b ∧ (∀ a ∈ done, Φ a) ∧ P done s) l b
    ?_).pre fun s hs => ⟨rfl, by simp, hs⟩
  intro done a rest b' hl
  refine Triple.assume fun hEq => Triple.assume fun hDone => ?_
  refine (hStep done a rest b' hl).post fun b'' s hs => ?_
  obtain ⟨hNext, hHere, hs⟩ := hs
  rw [List.foldl_concat, ← hEq]
  refine ⟨hNext, fun x hx => ?_, hs⟩
  rcases List.mem_append.mp hx with hx | hx
  · exact hDone x hx
  · rwa [List.mem_singleton.mp hx]

/-- A loop that keeps the same throughout. -/
theorem Triple.foldlM_forall {ι : Type u} {f : β → ι → EStateM ε σ β} {g : β → ι → β}
    {Φ : ι → Prop} (l : List ι) (b : β)
    (hStep : ∀ b, ∀ a ∈ l, Triple P (f b a) (fun b' s => b' = g b a ∧ Φ a ∧ P s) E) :
    Triple P (l.foldlM f b) (fun b' s => b' = l.foldl g b ∧ (∀ a ∈ l, Φ a) ∧ P s) E :=
  Triple.foldlM_indexed l b fun _ a _ b hl => hStep b a (by simp [hl])

/-- A loop whose body establishes `Φ` of each element, and keeps the same throughout. -/
theorem Triple.forM_forall {ι : Type u} {f : ι → EStateM ε σ PUnit} {Φ : ι → Prop} (l : List ι)
    (hStep : ∀ a ∈ l, Triple P (f a) (fun _ s => Φ a ∧ P s) E) :
    Triple P (l.forM f) (fun _ s => (∀ a ∈ l, Φ a) ∧ P s) E := by
  refine (Triple.forM (fun done s => (∀ a ∈ done, Φ a) ∧ P s) l ?_).pre fun s hs => ⟨by simp, hs⟩
  intro done a rest hl
  refine Triple.assume fun hDone => (hStep a (by simp [hl])).post fun _ s hs => ⟨?_, hs.2⟩
  intro x hx
  rcases List.mem_append.mp hx with hx | hx
  · exact hDone x hx
  · rw [List.mem_singleton.mp hx]
    exact hs.1

theorem Triple.foldlM_eq {ι : Type u} {f : β → ι → EStateM ε σ β} {g : β → ι → β} (l : List ι)
    (b : β) (hStep : ∀ b, ∀ a ∈ l, Triple P (f b a) (fun b' s => b' = g b a ∧ P s) E) :
    Triple P (l.foldlM f b) (fun b' s => b' = l.foldl g b ∧ P s) E :=
  (Triple.foldlM_forall (Φ := fun _ => True) l b fun b a ha =>
    (hStep b a ha).post fun _ _ h => ⟨h.1, trivial, h.2⟩).post fun _ _ h => ⟨h.1, h.2.2⟩

end Hoare
