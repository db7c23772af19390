import Mathlib.Data.List.Basic

/-! Command lines.  Some words, the options, take the next word as their value, whatever it is; all
other words are skipped, and so is an option in the last place.  A command line reads as a list of
items in exactly one way, and a reader that assigns the values of the options one after the other
ends with what the lists of their values say. -/

universe u v

namespace Options

variable {α : Type u}

/-- What a reader meets: an option with its value, or a word that is skipped. -/
inductive Item (α : Type u)
  | option (name value : α)
  | skipped (word : α)

def Item.words : Item α → List α
  | .option name value => [name, value]
  | .skipped word => [word]

section Read

variable (isOption : α → Bool)

def items : List α → List (Item α)
  | [] => []
  | [word] => [.skipped word]
  | word :: next :: rest =>
    if isOption word then .option word next :: items rest
    else .skipped word :: items (next :: rest)

/-- The items that a reader can meet: an option that is skipped is the last word. -/
def Meets : List (Item α) → Prop
  | [] => True
  | .option name _ :: rest => isOption name = true ∧ Meets rest
  | .skipped word :: rest => (rest ≠ [] → isOption word = false) ∧ Meets rest

instance decidableMeets : ∀ l, Decidable (Meets isOption l)
  | [] => .isTrue trivial
  | .option name _ :: rest =>
    have := decidableMeets rest
    inferInstanceAs (Decidable (isOption name = true ∧ Meets isOption rest))
  | .skipped word :: rest =>
    have := decidableMeets rest
    inferInstanceAs (Decidable ((rest ≠ [] → isOption word = false) ∧ Meets isOption rest))

theorem items_words (words : List α) : (items isOption words).flatMap Item.words = words := by
  induction words using items.induct isOption with
  | case1 => rfl
  | case2 word => rfl
  | case3 word next rest hOption ih => rw [items, if_pos hOption, List.flatMap_cons, ih]; rfl
  | case4 word next rest hOther ih => rw [items, if_neg hOther, List.flatMap_cons, ih]; rfl

theorem items_meets (words : List α) : Meets isOption (items isOption words) := by
  induction words using items.induct isOption with
  | case1 => exact trivial
  | case2 word => exact ⟨fun h => absurd rfl h, trivial⟩
  | case3 word next rest hOption ih =>
    rw [items, if_pos hOption]
    exact ⟨hOption, ih⟩
  | case4 word next rest hOther ih =>
    rw [items, if_neg hOther]
    exact ⟨fun _ => by simpa using hOther, ih⟩

variable {isOption}

theorem words_ne_nil (item : Item α) : item.words ≠ [] := by cases item <;> simp [Item.words]

/-- A reader meets what the command line was put together from. -/
theorem items_of_meets {l : List (Item α)} (h : Meets isOption l) :
    items isOption (l.flatMap Item.words) = l := by
  induction l with
  | nil => rfl
  | cons item rest ih =>
    rw [List.flatMap_cons]
    cases item with
    | option name value =>
      obtain ⟨hOption, hRest⟩ := h
      show items isOption (name :: value :: rest.flatMap Item.words) = _
      rw [items, if_pos hOption, ih hRest]
    | skipped word =>
      obtain ⟨hWord, hRest⟩ := h
      cases hWords : rest.flatMap Item.words with
      | nil =>
        cases rest with
        | nil => rfl
        | cons next rest =>
          rw [List.flatMap_cons, List.append_eq_nil_iff] at hWords
          exact absurd hWords.1 (words_ne_nil next)
      | cons next words =>
        have hNe : rest ≠ [] := by
          rintro rfl
          contradiction
        show items isOption (word :: next :: words) = _
        rw [items, if_neg (by simp [hWord hNe]), ← hWords, ih hRest]

theorem exists_unique_items (words : List α) :
    ∃! l, Meets isOption l ∧ l.flatMap Item.words = words := by
  refine ⟨items isOption words, ⟨items_meets isOption words, items_words isOption words⟩, ?_⟩
  rintro l ⟨hMeets, rfl⟩
  exact (items_of_meets hMeets).symm

end Read

/-! ### Values -/

section Values

variable [DecidableEq α]

/-- The values that an option is given, in order. -/
def values (name : α) (l : List (Item α)) : List α :=
  l.filterMap fun
    | .option name' value => if name' = name then some value else none
    | .skipped _ => none

@[simp] theorem values_option (name name' value : α) (l : List (Item α)) :
    values name (.option name' value :: l) =
      if name' = name then value :: values name l else values name l := by
  by_cases hName : name' = name <;> simp [values, hName]

@[simp] theorem values_skipped (name word : α) (l : List (Item α)) :
    values name (.skipped word :: l) = values name l := rfl

/-- A reader that an option sets a field of, and nothing else does, ends with the last value. -/
theorem foldl_last {σ : Type v} {step : σ → Item α → σ} {get : σ → α} {name : α}
    (hOption : ∀ s value, get (step s (.option name value)) = value)
    (hOther : ∀ s name' value, name' ≠ name → get (step s (.option name' value)) = get s)
    (hSkipped : ∀ s word, get (step s (.skipped word)) = get s) (l : List (Item α)) (s : σ) :
    get (l.foldl step s) = (values name l).getLastD (get s) := by
  induction l generalizing s with
  | nil => rfl
  | cons item rest ih =>
    rw [List.foldl_cons, ih]
    cases item with
    | option name' value =>
      by_cases hName : name' = name
      · subst hName
        rw [hOption, values_option, if_pos rfl, List.getLastD_cons]
      · rw [hOther s name' value hName, values_option, if_neg hName]
    | skipped word => rw [hSkipped, values_skipped]

/-- A reader that an option adds to a field of, and nothing else does, ends with all the values. -/
theorem foldl_all {σ : Type v} {step : σ → Item α → σ} {get : σ → List α} {name : α}
    (hOption : ∀ s value, get (step s (.option name value)) = get s ++ [value])
    (hOther : ∀ s name' value, name' ≠ name → get (step s (.option name' value)) = get s)
    (hSkipped : ∀ s word, get (step s (.skipped word)) = get s) (l : List (Item α)) (s : σ) :
    get (l.foldl step s) = get s ++ values name l := by
  induction l generalizing s with
  | nil => exact (List.append_nil _).symm
  | cons item rest ih =>
    rw [List.foldl_cons, ih]
    cases item with
    | option name' value =>
      by_cases hName : name' = name
      · subst hName
        rw [hOption, values_option, if_pos rfl, List.append_assoc, List.singleton_append]
      · rw [hOther s name' value hName, values_option, if_neg hName]
    | skipped word => rw [hSkipped, values_skipped]

end Values

end Options
