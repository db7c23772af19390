import VehicleCanDecoder.Converter.Config
import Mathlib.Logic.Relation

/-! YAML documents as trees: the nodes under the keys of a map, the leaves with the dotted paths
that lead to them, and the replacement of nested maps by dotted keys, which keeps the leaves and
their paths. -/

namespace VehicleCanDecoder

namespace YamlNode

/-! ### Keys -/

/-- Whether a key of a map is the given string. -/
def isKey (key : ByteString) : YamlNode → Bool
  | .scalar s => s = key
  | _ => false

/-- The node under a key of a map. -/
def under (key : ByteString) : YamlNode → Option YamlNode
  | .map entries => (entries.find? (·.1.isKey key)).map Prod.snd
  | _ => none

/-- The map after the node under a key has become `value`. -/
def setUnder (key : ByteString) (node value : YamlNode) : YamlNode :=
  match node with
  | .map entries =>
    .map (entries.replaceF fun e => if e.1.isKey key then some (e.1, value) else none)
  | _ => node

/-- The text of a key. -/
def keyText : YamlNode → ByteString
  | .scalar s => s
  | _ => []

mutual

/-- All keys on the way to a leaf are strings that are not empty. -/
def StringKeys : YamlNode → Prop
  | .map entries => EntryKeys entries
  | _ => True

def EntryKeys : List (YamlNode × YamlNode) → Prop
  | [] => True
  | (key, value) :: rest => (∃ s, key = .scalar s ∧ s ≠ []) ∧ StringKeys value ∧ EntryKeys rest

end

theorem stringKeys_map (entries : List (YamlNode × YamlNode)) : (map entries).StringKeys ↔
    ∀ e ∈ entries, (∃ s, e.1 = scalar s ∧ s ≠ []) ∧ e.2.StringKeys := by
  rw [StringKeys]
  induction entries with
  | nil => simp [EntryKeys]
  | cons e rest ih =>
    obtain ⟨key, value⟩ := e
    rw [EntryKeys, ih, List.forall_mem_cons, and_assoc]

/-- To put the same node under a key changes nothing. -/
theorem setUnder_under {doc value : YamlNode} {key : ByteString} (h : doc.under key = some value) :
    doc.setUnder key value = doc := by
  cases doc with
  | null | scalar | sequence => rfl
  | map entries =>
    refine congrArg map ?_
    rw [under] at h
    induction entries with
    | nil => rfl
    | cons e rest ih =>
      rw [List.find?_cons] at h
      rw [List.replaceF_cons]
      by_cases hKey : e.1.isKey key
      · obtain rfl : e.2 = value := by simpa [hKey] using h
        simp [hKey]
      · simp only [hKey] at h
        simp only [hKey, Bool.false_eq_true, if_false, ih h]

/-- A node under a key is in an entry of the map. -/
theorem exists_entry_of_under {doc value : YamlNode} {key : ByteString}
    (h : doc.under key = some value) :
    ∃ entries, doc = map entries ∧ ∃ e ∈ entries, e.2 = value := by
  cases doc with
  | null | scalar | sequence => contradiction
  | map entries =>
    obtain ⟨e, hFind, rfl⟩ := Option.map_eq_some_iff.mp h
    exact ⟨entries, rfl, e, List.mem_of_find?_eq_some hFind, rfl⟩

theorem StringKeys.under {doc value : YamlNode} {key : ByteString} (hKeys : doc.StringKeys)
    (h : doc.under key = some value) : value.StringKeys := by
  obtain ⟨entries, rfl, e, hMem, rfl⟩ := exists_entry_of_under h
  exact ((stringKeys_map entries).mp hKeys e hMem).2

/-! ### Dotted paths -/

/-- The dotted path of some keys. -/
def dotted (keys : List ByteString) : ByteString := (str ".").intercalate keys

theorem dotted_nil : dotted [] = [] := rfl

theorem dotted_singleton (key : ByteString) : dotted [key] = key := List.intercalate_singleton

theorem dotted_cons (key : ByteString) {keys : List ByteString} (h : keys ≠ []) :
    dotted (key :: keys) = key ++ str "." ++ dotted keys :=
  List.intercalate_cons_of_ne_nil h

/-- The path of some keys is empty where there are none. -/
theorem dotted_isEmpty {keys : List ByteString} (hKeys : ∀ key ∈ keys, key ≠ []) :
    (dotted keys).isEmpty = keys.isEmpty := by
  cases keys with
  | nil => rfl
  | cons key rest =>
    have hKey : key ≠ [] := hKeys key List.mem_cons_self
    cases rest with
    | nil => simpa [dotted_singleton] using hKey
    | cons key' rest => simp [dotted_cons, hKey]

/-- The path of some keys and one more, as `flatten_yaml` builds it. -/
theorem dotted_concat {keys : List ByteString} (hKeys : ∀ key ∈ keys, key ≠ []) (key : ByteString) :
    (if (dotted keys).isEmpty then key else dotted keys ++ str "." ++ key) =
      dotted (keys ++ [key]) := by
  rw [dotted_isEmpty hKeys]
  clear hKeys
  induction keys with
  | nil => exact (dotted_singleton key).symm
  | cons first rest ih =>
    rw [List.cons_append, dotted_cons first (List.concat_ne_nil key rest), ← ih]
    cases rest with
    | nil => simp [dotted_singleton]
    | cons second rest => simp [dotted_cons]

/-- A dot in a key and a dot between two keys are the same in the path. -/
theorem dotted_join (above : List ByteString) (key key' : ByteString) (below : List ByteString) :
    dotted (above ++ key :: key' :: below) =
      dotted (above ++ (key ++ str "." ++ key') :: below) := by
  induction above with
  | nil =>
    rw [List.nil_append, List.nil_append, dotted_cons key (by simp)]
    cases below with
    | nil => simp [dotted_singleton]
    | cons next below => simp [dotted_cons]
  | cons first above ih =>
    rw [List.cons_append, List.cons_append, dotted_cons first (by simp), ih,
      dotted_cons first (by simp)]

/-! ### Leaves -/

mutual

/-- The leaves of a tree, each with the keys on the way to it. -/
def leaves : YamlNode → List (List ByteString × YamlNode)
  | .map entries => entryLeaves entries
  | node => [([], node)]

def entryLeaves : List (YamlNode × YamlNode) → List (List ByteString × YamlNode)
  | [] => []
  | (key, value) :: rest =>
    (leaves value).map (fun e => (key.keyText :: e.1, e.2)) ++ entryLeaves rest

end

/-- The leaves of a tree below some keys, by their dotted paths. -/
def dottedLeaves (above : List ByteString) (tree : YamlNode) : List (ByteString × YamlNode) :=
  tree.leaves.map fun e => (dotted (above ++ e.1), e.2)

theorem leaves_map (entries : List (YamlNode × YamlNode)) : (map entries).leaves =
    entries.flatMap fun e => e.2.leaves.map fun leaf => (e.1.keyText :: leaf.1, leaf.2) := by
  rw [leaves]
  induction entries with
  | nil => rfl
  | cons e rest ih =>
    obtain ⟨key, value⟩ := e
    rw [entryLeaves, ih, List.flatMap_cons]

/-- The leaves of a map are the leaves under its keys. -/
theorem dottedLeaves_map (above : List ByteString) (entries : List (YamlNode × YamlNode)) :
    (map entries).dottedLeaves above =
      entries.flatMap fun e => e.2.dottedLeaves (above ++ [e.1.keyText]) := by
  unfold dottedLeaves
  rw [leaves_map, List.map_flatMap]
  refine List.flatMap_congr fun e _ => ?_
  rw [List.map_map]
  refine List.map_congr_left fun leaf _ => ?_
  simp

/-- A node that is not a map is its only leaf. -/
theorem dottedLeaves_leaf {node : YamlNode} (h : ∀ entries, node ≠ map entries)
    (above : List ByteString) : node.dottedLeaves above = [(dotted above, node)] := by
  cases node with
  | map entries => exact absurd rfl (h entries)
  | null | scalar | sequence => simp [dottedLeaves, leaves]

/-! ### Dotted keys for nested maps -/

/-- An entry of a nested map, as an entry of the map around it. -/
def dottedEntry (key : ByteString) (entry : YamlNode × YamlNode) : YamlNode × YamlNode :=
  (.scalar (key ++ str "." ++ entry.1.keyText), entry.2)

/-- A nested map is replaced by dotted keys, somewhere in a tree.  The order of the entries of a
map has no meaning. -/
inductive Inlines : YamlNode → YamlNode → Prop
  | here (before after inner : List (YamlNode × YamlNode)) (key : ByteString) :
    Inlines (.map (before ++ (.scalar key, .map inner) :: after))
      (.map (before ++ inner.map (dottedEntry key) ++ after))
  | inside (before after : List (YamlNode × YamlNode)) (key : YamlNode) {value value' : YamlNode}
      (h : Inlines value value') :
    Inlines (.map (before ++ (key, value) :: after)) (.map (before ++ (key, value') :: after))
  | reorder {entries entries' : List (YamlNode × YamlNode)} (h : entries.Perm entries') :
    Inlines (.map entries) (.map entries')

/-- Nested maps are replaced by dotted keys and dotted keys by nested maps, any number of times. -/
def Rewrites : YamlNode → YamlNode → Prop := Relation.EqvGen Inlines

/-- The leaves below a nested map are the leaves below the dotted key. -/
theorem dottedLeaves_join (above : List ByteString) (key key' : ByteString) (tree : YamlNode) :
    tree.dottedLeaves (above ++ [key] ++ [key']) =
      tree.dottedLeaves (above ++ [key ++ str "." ++ key']) := by
  unfold dottedLeaves
  refine List.map_congr_left fun leaf _ => ?_
  have hJoin := dotted_join above key key' leaf.1
  simpa using hJoin

/-- To replace a nested map by dotted keys keeps the leaves, at their dotted paths. -/
theorem Inlines.perm {tree tree' : YamlNode} (h : Inlines tree tree') (above : List ByteString) :
    (tree.dottedLeaves above).Perm (tree'.dottedLeaves above) := by
  induction h generalizing above with
  | here before after inner key =>
    have hInner : (map inner).dottedLeaves (above ++ [key]) =
        (inner.map (dottedEntry key)).flatMap fun e =>
          e.2.dottedLeaves (above ++ [e.1.keyText]) := by
      rw [dottedLeaves_map, List.flatMap_map]
      exact List.flatMap_congr fun e _ => dottedLeaves_join above key e.1.keyText e.2
    have hSame : (map (before ++ (scalar key, map inner) :: after)).dottedLeaves above =
        (map (before ++ inner.map (dottedEntry key) ++ after)).dottedLeaves above := by
      rw [dottedLeaves_map, dottedLeaves_map, List.flatMap_append, List.flatMap_cons,
        List.flatMap_append, List.flatMap_append, ← hInner, List.append_assoc]
      rfl
    rw [hSame]
  | inside before after key _ ih =>
    rw [dottedLeaves_map, dottedLeaves_map, List.flatMap_append, List.flatMap_append,
      List.flatMap_cons, List.flatMap_cons]
    exact ((ih (above ++ [key.keyText])).append_right _).append_left _
  | reorder h =>
    rw [dottedLeaves_map, dottedLeaves_map]
    exact h.flatMap_right _

theorem Rewrites.perm {tree tree' : YamlNode} (h : Rewrites tree tree') (above : List ByteString) :
    (tree.dottedLeaves above).Perm (tree'.dottedLeaves above) := by
  induction h with
  | rel tree tree' hStep => exact hStep.perm above
  | refl tree => exact .refl _
  | symm tree tree' _ ih => exact ih.symm
  | trans tree tree' tree'' _ _ ih ih' => exact ih.trans ih'

end YamlNode

end VehicleCanDecoder
