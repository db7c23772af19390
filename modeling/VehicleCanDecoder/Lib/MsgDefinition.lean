import VehicleCanDecoder.Lib.Cdr

/-! ROS message definitions.  A definition is a text with a field in each line; the definitions of a
set of types, by name, give each type a layout, and a layout says how CDR encodes the values of the
type.  Whoever has the definitions can therefore read the bytes field by field, without any code for
the type.  Constants, default values, and arrays and strings with a bound are left out. -/

namespace Msg

open Cdr

abbrev Text := List UInt8

/-! ### Layouts and values -/

inductive Primitive
  | bool
  | byte
  | char
  | int8
  | uint8
  | int16
  | uint16
  | int32
  | uint32
  | float32
  | int64
  | uint64
  | float64
  deriving DecidableEq

namespace Primitive

def size : Primitive → Nat
  | bool | byte | char | int8 | uint8 => 1
  | int16 | uint16 => 2
  | int32 | uint32 | float32 => 4
  | int64 | uint64 | float64 => 8

def name : Primitive → String
  | bool => "bool"
  | byte => "byte"
  | char => "char"
  | int8 => "int8"
  | uint8 => "uint8"
  | int16 => "int16"
  | uint16 => "uint16"
  | int32 => "int32"
  | uint32 => "uint32"
  | float32 => "float32"
  | int64 => "int64"
  | uint64 => "uint64"
  | float64 => "float64"

def all : List Primitive :=
  [bool, byte, char, int8, uint8, int16, uint16, int32, uint32, float32, int64, uint64, float64]

end Primitive

mutual

/-- How the values of a type are encoded. -/
inductive Layout
  | prim (t : Primitive)
  | string
  | sequence (element : Layout)
  | struct (fields : Fields)

inductive Fields
  | nil
  | cons (name : Text) (layout : Layout) (rest : Fields)

end

deriving instance DecidableEq for Layout, Fields

/-- A value, with the names of its fields.  A primitive is the number of its bit pattern. -/
inductive Value
  | number (n : Nat)
  | text (s : Text)
  | list (vs : List Value)
  | record (fields : List (Text × Value))

mutual

/-- The values of a layout. -/
def Layout.Holds : Layout → Value → Prop
  | .prim t, .number n => n < 256 ^ t.size
  | .string, .text s => s.length + 1 < 2 ^ 32
  | .sequence element, .list vs => vs.length < 2 ^ 32 ∧ ∀ v ∈ vs, element.Holds v
  | .struct fields, .record vs => fields.Hold vs
  | _, _ => False

def Fields.Hold : Fields → List (Text × Value) → Prop
  | .nil, [] => True
  | .cons name layout rest, (name', v) :: vs => name' = name ∧ layout.Holds v ∧ rest.Hold vs
  | _, _ => False

end

/-! ### Encoding and reading by a layout -/

/-- The encodings of values, one after the other. -/
def encodeAll (encode : Value → Nat → List UInt8) : List Value → Nat → List UInt8
  | [], _ => []
  | v :: vs, off => encode v off ++ encodeAll encode vs (off + (encode v off).length)

mutual

/-- The encoding of a value that begins at an offset. -/
def Layout.encode : Layout → Value → Nat → List UInt8
  | .prim t, .number n, off => pad t.size off ++ le t.size n
  | .string, .text s, off => pad 4 off ++ le 4 (s.length + 1) ++ (s ++ [0])
  | .sequence element, .list vs, off =>
    let count := pad 4 off ++ le 4 vs.length
    count ++ encodeAll element.encode vs (off + count.length)
  | .struct fields, .record vs, off => fields.encode vs off
  | _, _, _ => []

def Fields.encode : Fields → List (Text × Value) → Nat → List UInt8
  | .cons _ layout rest, (_, v) :: vs, off =>
    let here := layout.encode v off
    here ++ rest.encode vs (off + here.length)
  | _, _, _ => []

end

mutual

def Layout.read : Layout → Reader Value
  | .prim t => do
    let n ← Reader.prim t.size
    pure (.number n)
  | .string => do
    let s ← Reader.string
    pure (.text s)
  | .sequence element => do
    let vs ← Reader.sequence element.read
    pure (.list vs)
  | .struct fields => do
    let vs ← fields.read
    pure (.record vs)

def Fields.read : Fields → Reader (List (Text × Value))
  | .nil => pure []
  | .cons name layout rest => do
    let v ← layout.read
    let vs ← rest.read
    pure ((name, v) :: vs)

end

theorem reads_encodeAll {p : Reader Value} {encode : Value → Nat → List UInt8} {vs : List Value}
    (h : ∀ v ∈ vs, ∀ off, Reads p off (encode v off) v) (off : Nat) :
    Reads (Reader.array p vs.length) off (encodeAll encode vs off) vs := by
  induction vs generalizing off with
  | nil => exact Reads.pure off []
  | cons v vs ih =>
    have hRest := ih (fun w hw => h w (List.mem_cons_of_mem v hw)) (off + (encode v off).length)
    exact Reads.bind (f := fun v => do
      let rest ← Reader.array p vs.length
      pure (v :: rest)) (h v List.mem_cons_self off) (hRest.map (v :: ·))

mutual

/-- Reading by a layout gives back every value of the layout, from its encoding at any offset. -/
theorem Layout.reads_encode : ∀ (layout : Layout) {v : Value}, layout.Holds v → ∀ off,
    Reads layout.read off (layout.encode v off) v
  | .prim t, .number n, h, off => (Reads.prim off h).map Value.number
  | .string, .text s, h, off => (Reads.string off s h).map Value.text
  | .sequence element, .list vs, h, off => by
    have hCount : Reads (Reader.prim 4) off (pad 4 off ++ le 4 vs.length) vs.length :=
      Reads.prim off h.1
    have hAll := reads_encodeAll (fun v hv => element.reads_encode (h.2 v hv))
      (off + (pad 4 off ++ le 4 vs.length).length)
    exact (Reads.bind (f := fun n => Reader.array element.read n) hCount hAll).map Value.list
  | .struct fields, .record vs, h, off => (fields.reads_encode h off).map Value.record

theorem Fields.reads_encode : ∀ (fields : Fields) {vs : List (Text × Value)}, fields.Hold vs →
    ∀ off, Reads fields.read off (fields.encode vs off) vs
  | .nil, [], _, off => Reads.pure off []
  | .cons name layout rest, (_, v) :: vs, ⟨rfl, hHere, hRest⟩, off => by
    have hTail := (rest.reads_encode hRest (off + (layout.encode v off).length)).map
      fun vs => (name, v) :: vs
    exact Reads.bind (f := fun v => do
      let vs ← rest.read
      pure ((name, v) :: vs)) (layout.reads_encode hHere off) hTail

end

/-! ### Writers -/

section Writes

variable {header : List UInt8}

/-- A writer appends the encoding of a value to whatever stands after a header. -/
def Layout.Writes (header : List UInt8) (layout : Layout) (w : List UInt8 → List UInt8)
    (v : Value) : Prop :=
  ∀ bytes, w (header ++ bytes) = header ++ (bytes ++ layout.encode v bytes.length)

def Fields.Writes (header : List UInt8) (fields : Fields) (w : List UInt8 → List UInt8)
    (vs : List (Text × Value)) : Prop :=
  ∀ bytes, w (header ++ bytes) = header ++ (bytes ++ fields.encode vs bytes.length)

theorem Fields.Writes.nil : Fields.nil.Writes header (fun data => data) [] :=
  fun bytes => congrArg (header ++ ·) (List.append_nil bytes).symm

theorem Fields.Writes.cons {name : Text} {layout : Layout} {rest : Fields} {v : Value}
    {vs : List (Text × Value)} {w w' both : List UInt8 → List UInt8}
    (hHere : layout.Writes header w v) (hRest : rest.Writes header w' vs)
    (hBoth : ∀ data, both data = w' (w data)) :
    (Fields.cons name layout rest).Writes header both ((name, v) :: vs) := by
  intro bytes
  rw [hBoth, hHere, hRest, List.length_append, List.append_assoc]
  rfl

theorem Layout.Writes.struct {fields : Fields} {vs : List (Text × Value)}
    {w : List UInt8 → List UInt8} (h : fields.Writes header w vs) :
    (Layout.struct fields).Writes header w (.record vs) := h

theorem writes_encodeAll {α : Type} {layout : Layout} {w : List UInt8 → α → List UInt8}
    {value : α → Value} (h : ∀ a, layout.Writes header (w · a) (value a)) (l : List α)
    (bytes : List UInt8) :
    l.foldl w (header ++ bytes) =
      header ++ (bytes ++ encodeAll layout.encode (l.map value) bytes.length) := by
  induction l generalizing bytes with
  | nil => simp [encodeAll]
  | cons a rest ih =>
    have hHere : w (header ++ bytes) a = _ := h a bytes
    rw [List.foldl_cons, hHere, ih, List.length_append, List.append_assoc]
    rfl

/-- A count, and a loop over the elements. -/
theorem Layout.Writes.sequence {α : Type} {layout : Layout} {w : List UInt8 → α → List UInt8}
    {value : α → Value} {count : List UInt8 → List UInt8}
    (h : ∀ a, layout.Writes header (w · a) (value a)) (l : List α)
    (hCount : (Layout.prim .uint32).Writes header count (.number l.length)) :
    (Layout.sequence layout).Writes header (fun data => l.foldl w (count data))
      (.list (l.map value)) := by
  intro bytes
  show l.foldl w (count (header ++ bytes)) = _
  rw [hCount, writes_encodeAll h, List.length_append, List.append_assoc]
  simp only [Layout.encode, List.length_map]
  rfl

end Writes

/-! ### The layout that definitions give -/

def isBlank (b : UInt8) : Bool := b = 32 || b = 9 || b = 13

/-- The words of each line, up to a comment, where there are any. -/
def fieldLines (text : Text) : List (List Text) :=
  ((text.splitOn 10).map fun line =>
    ((line.takeWhile (· ≠ 35)).splitOnP isBlank).filter (· ≠ [])).filter (· ≠ [])

section Layouts

variable (named : Text → Option Layout)

/-- The layout of a type that is not an array. -/
def baseLayout (t : Text) : Option Layout :=
  match Primitive.all.find? fun p => p.name.toUTF8.data.toList = t with
  | some p => some (.prim p)
  | none => if t = "string".toUTF8.data.toList then some .string else named t

/-- A type with `[]` after it is an array of any length. -/
def typeLayout (t : Text) : Option Layout :=
  match t.reverse with
  | 93 :: 91 :: element => (baseLayout named element.reverse).map .sequence
  | _ => baseLayout named t

/-- Each line has the type and the name of a field. -/
def fieldsLayout : List (List Text) → Option Fields
  | [] => some .nil
  | [type, name] :: rest => do
    let layout ← typeLayout named type
    let fields ← fieldsLayout rest
    pure (.cons name layout fields)
  | _ => none

end Layouts

/-- The layout of a type, from definitions that are nested at most so deep. -/
def layoutOf (definitions : Text → Option Text) : Nat → Text → Option Layout
  | 0, _ => none
  | depth + 1, name => do
    let text ← definitions name
    let fields ← fieldsLayout (layoutOf definitions depth) (fieldLines text)
    pure (.struct fields)

/-- The definition of a type has these lines. -/
def Defines (definitions : Text → Option Text) (name : Text) (lines : List (List Text)) : Prop :=
  ∃ text, definitions name = some text ∧ fieldLines text = lines

theorem fieldsLayout_cons {named : Text → Option Layout} {type name : Text}
    {rest : List (List Text)} {layout : Layout} {fields : Fields}
    (hType : typeLayout named type = some layout) (hRest : fieldsLayout named rest = some fields) :
    fieldsLayout named ([type, name] :: rest) = some (.cons name layout fields) := by
  unfold fieldsLayout
  rw [hType, Option.bind_eq_bind, Option.bind_some, hRest]
  rfl

theorem Defines.layoutOf {definitions : Text → Option Text} {depth : Nat} {name : Text}
    {lines : List (List Text)} {fields : Fields} (h : Defines definitions name lines)
    (hFields : fieldsLayout (Msg.layoutOf definitions depth) lines = some fields) :
    Msg.layoutOf definitions (depth + 1) name = some (.struct fields) := by
  obtain ⟨text, hText, rfl⟩ := h
  unfold Msg.layoutOf
  rw [hText, Option.bind_eq_bind, Option.bind_some, hFields]
  rfl

section Depth

variable {named named' : Text → Option Layout}
  (h : ∀ t layout, named t = some layout → named' t = some layout)

include h

theorem typeLayout_mono {t : Text} {layout : Layout} (hType : typeLayout named t = some layout) :
    typeLayout named' t = some layout := by
  have hBase : ∀ t layout, baseLayout named t = some layout →
      baseLayout named' t = some layout := by
    intro t layout hBase
    unfold baseLayout at hBase ⊢
    split at hBase
    · exact hBase
    · split at hBase
      · rename_i hString
        rwa [if_pos hString]
      · rename_i hNamed
        rw [if_neg hNamed]
        exact h _ _ hBase
  unfold typeLayout at hType ⊢
  split at hType
  · obtain ⟨element, hElement, rfl⟩ := Option.map_eq_some_iff.mp hType
    exact Option.map_eq_some_iff.mpr ⟨element, hBase _ _ hElement, rfl⟩
  · exact hBase _ _ hType

theorem fieldsLayout_mono {lines : List (List Text)} {fields : Fields}
    (hFields : fieldsLayout named lines = some fields) : fieldsLayout named' lines = some fields := by
  fun_induction fieldsLayout named lines generalizing fields with
  | case1 => exact hFields
  | case2 type name rest ih =>
    obtain ⟨layout, hType, hRest⟩ := Option.bind_eq_some_iff.mp hFields
    obtain ⟨tail, hTail, hFields⟩ := Option.bind_eq_some_iff.mp hRest
    obtain rfl := Option.some.inj hFields
    exact fieldsLayout_cons (typeLayout_mono h hType) (ih hTail)
  | case3 => contradiction

end Depth

/-- What is found at some depth is found at every greater one. -/
theorem layoutOf_mono {definitions : Text → Option Text} {depth depth' : Nat}
    (hDepth : depth ≤ depth') {name : Text} {layout : Layout}
    (h : layoutOf definitions depth name = some layout) :
    layoutOf definitions depth' name = some layout := by
  induction depth generalizing depth' name layout with
  | zero => contradiction
  | succ depth ih =>
    obtain ⟨depth', rfl⟩ := Nat.exists_eq_add_of_le' (Nat.le_of_add_left_le hDepth)
    obtain ⟨text, hText, hRest⟩ := Option.bind_eq_some_iff.mp h
    obtain ⟨fields, hFields, hLayout⟩ := Option.bind_eq_some_iff.mp hRest
    obtain rfl := Option.some.inj hLayout
    have hDefines : Defines definitions name (fieldLines text) := ⟨text, hText, rfl⟩
    exact hDefines.layoutOf
      (fieldsLayout_mono (fun t layout => ih (Nat.le_of_succ_le_succ hDepth)) hFields)

end Msg
