import VehicleCanDecoder.Messages
import VehicleCanDecoder.Lib.Hoare
import VehicleCanDecoder.Lib.UnorderedMap

/-! What the node uses of `rclcpp`: parameters that are declared with a default and read back, and
times.  The library itself is outside; `DeclareDocumented` and `TimeDocumented` are what its
documentation says of the functions used here. -/

namespace VehicleCanDecoder

/-- `rclcpp::Time`, in nanoseconds. -/
abbrev Time := Int64

inductive ParameterValue
  | bool (b : Bool)
  | int (i : Int64)
  | double (d : Double)
  | string (s : ByteString)
  | stringArray (l : List ByteString)
  | integerArray (l : List Int64)
  deriving DecidableEq

inductive ParameterType
  | bool
  | integer
  | double
  | string
  | stringArray
  | integerArray
  deriving DecidableEq

def ParameterType.toString : ParameterType → ByteString
  | .bool => "bool"
  | .integer => "integer"
  | .double => "double"
  | .string => "string"
  | .stringArray => "string_array"
  | .integerArray => "integer_array"

namespace ParameterValue

def type : ParameterValue → ParameterType
  | .bool _ => .bool
  | .int _ => .integer
  | .double _ => .double
  | .string _ => .string
  | .stringArray _ => .stringArray
  | .integerArray _ => .integerArray

def asBool : ParameterValue → Option Bool
  | .bool b => some b
  | _ => none

def asInt : ParameterValue → Option Int64
  | .int i => some i
  | _ => none

def asDouble : ParameterValue → Option Double
  | .double d => some d
  | _ => none

def asString : ParameterValue → Option ByteString
  | .string s => some s
  | _ => none

def asStringArray : ParameterValue → Option (List ByteString)
  | .stringArray l => some l
  | _ => none

def asIntegerArray : ParameterValue → Option (List Int64)
  | .integerArray l => some l
  | _ => none

end ParameterValue

/-- The values that a launch gives to parameters. -/
abbrev Overrides := UnorderedMap ByteString ParameterValue

/-- The parameters declared so far, the newest first. -/
abbrev Declared := List (ByteString × ParameterValue)

structure Rclcpp where
  declareParameter : Overrides → Declared → ByteString → ParameterValue →
    Except StdException ParameterValue
  time : Stamp → Except StdException Time
  stamp : Time → Stamp

namespace Rclcpp

/-- `declare_parameter` throws for a name that is declared already and for an override of another
type than the default; otherwise the value is the override, or the default without one. -/
structure DeclareDocumented (R : Rclcpp) : Prop where
  new : ∀ {overrides declared name default v},
    R.declareParameter overrides declared name default = .ok v → declared.lookup name = none
  value : ∀ {overrides declared name default v},
    R.declareParameter overrides declared name default = .ok v →
      v = (overrides.lookup name).getD default
  type : ∀ {overrides declared name default v},
    R.declareParameter overrides declared name default = .ok v → v.type = default.type

/-- The constructor of a time from a stamp throws exactly when the seconds are negative, and a time
made from a valid stamp converts back to it. -/
structure TimeDocumented (R : Rclcpp) : Prop where
  throws : ∀ s, (∃ e, R.time s = .error e) ↔ s.sec.toInt < 0
  roundTrip : ∀ {s t}, s.Valid → R.time s = .ok t → R.stamp t = s

theorem TimeDocumented.exists_time {R : Rclcpp} (hR : R.TimeDocumented) {s : Stamp}
    (h : 0 ≤ s.sec.toInt) : ∃ t, R.time s = .ok t := by
  cases hTime : R.time s with
  | ok t => exact ⟨t, rfl⟩
  | error e =>
    have := (hR.throws s).mp ⟨e, hTime⟩
    omega

/-- The documented behaviour, as functions. -/
def documented : Rclcpp where
  declareParameter overrides declared name default :=
    if (declared.lookup name).isSome then
      .error ⟨str "parameter '" ++ name ++ str "' has already been declared"⟩
    else
      let v := (overrides.lookup name).getD default
      if v.type = default.type then .ok v
      else .error ⟨str "parameter '" ++ name ++ str "' has invalid type"⟩
  time s :=
    if s.sec.toInt < 0 then .error ⟨"cannot store a negative time point in rclcpp::Time"⟩
    else .ok (Int64.ofInt (s.sec.toInt * 10 ^ 9 + s.nanosec.toNat))
  stamp t := ⟨Int32.ofInt (t.toInt / 10 ^ 9), UInt32.ofNat (t.toInt % 10 ^ 9).toNat⟩

theorem documented_declare_ok {overrides : Overrides} {declared : Declared} {name : ByteString}
    {default v : ParameterValue}
    (h : documented.declareParameter overrides declared name default = .ok v) :
    declared.lookup name = none ∧ v = (overrides.lookup name).getD default ∧
      v.type = default.type := by
  simp only [documented] at h
  split at h
  · contradiction
  rename_i hNew
  split at h
  · rename_i hType
    obtain rfl := Except.ok.inj h
    exact ⟨Option.not_isSome_iff_eq_none.mp hNew, rfl, hType⟩
  · contradiction

theorem documented_declare : documented.DeclareDocumented where
  new h := (documented_declare_ok h).1
  value h := (documented_declare_ok h).2.1
  type h := (documented_declare_ok h).2.2

theorem documented_time : documented.TimeDocumented where
  throws s := by
    unfold documented
    by_cases h : s.sec.toInt < 0 <;> simp [h]
  roundTrip := by
    intro s t hValid h
    obtain ⟨hSec, hNano⟩ := hValid
    have hMax := s.sec.toInt_lt
    simp only [documented, if_neg (Int.not_lt.mpr hSec), Except.ok.injEq] at h
    subst h
    have hInt : (Int64.ofInt (s.sec.toInt * 10 ^ 9 + s.nanosec.toNat)).toInt =
        s.sec.toInt * 10 ^ 9 + s.nanosec.toNat :=
      Int64.toInt_ofInt_of_le (by omega) (by omega)
    have hDiv : (s.sec.toInt * 10 ^ 9 + s.nanosec.toNat) / 10 ^ 9 = s.sec.toInt := by omega
    have hMod : (s.sec.toInt * 10 ^ 9 + s.nanosec.toNat) % 10 ^ 9 = s.nanosec.toNat := by omega
    simp only [documented, hInt, hDiv, hMod, Int32.ofInt_toInt, Int.toNat_natCast,
      UInt32.ofNat_toNat]

end Rclcpp

/-! ### The calls of the node -/

/-- A step of the node's constructor: it declares parameters and may throw. -/
abbrev Load := EStateM StdException Declared

variable (R : Rclcpp) (overrides : Overrides)

def declareParameter (name : ByteString) (default : ParameterValue) : Load PUnit := do
  let declared ← get
  match R.declareParameter overrides declared name default with
  | .ok v => set ((name, v) :: declared)
  | .error e => throw e

/-- `get_parameter(name).as_T()`, where `as` is the access by type. -/
def getParameter {α : Type} (expected : ParameterType) (as : ParameterValue → Option α)
    (name : ByteString) : Load α := do
  let declared ← get
  match declared.lookup name with
  | none => throw ⟨name⟩
  | some v =>
    match as v with
    | some a => pure a
    | none =>
      throw ⟨str "expected [" ++ expected.toString ++ str "] got [" ++ v.type.toString ++ str "]"⟩

def getBool := getParameter .bool ParameterValue.asBool
def getInt := getParameter .integer ParameterValue.asInt
def getDouble := getParameter .double ParameterValue.asDouble
def getString := getParameter .string ParameterValue.asString
def getStringArray := getParameter .stringArray ParameterValue.asStringArray
def getIntegerArray := getParameter .integerArray ParameterValue.asIntegerArray

/-- The value of a parameter: the override, or the default. -/
def Overrides.value {α : Type} (overrides : Overrides) (as : ParameterValue → Option α)
    (name : ByteString) (default : α) : α :=
  ((overrides.lookup name).bind as).getD default

end VehicleCanDecoder
