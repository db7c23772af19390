import Mathlib.Data.Nat.Digits.Defs

/-! The parts of C++ and its standard library that the code rests on: strings as bytes,
`std::to_string`, floating point values as their bit patterns, fixed arrays of eight bytes, objects
and `std::exception`. -/

namespace VehicleCanDecoder

/-- `std::string`: a sequence of bytes. -/
abbrev ByteString := List UInt8

/-- The bytes of a string literal. -/
def str (s : String) : ByteString := s.toUTF8.data.toList

instance : Coe String ByteString := ⟨str⟩

instance : LawfulBEq ByteString := inferInstance

/-- The identity of an object: where it is. -/
abbrev ObjectId := Nat

/-- `std::exception`, by its `what()`. -/
structure StdException where
  what : ByteString
  deriving DecidableEq

/-- `std::to_string` of an unsigned integer. -/
def toDecimal (n : Nat) : ByteString := (Nat.toDigits 10 n).map fun c => UInt8.ofNat c.toNat

/-- `std::to_string` of a signed integer. -/
def toSignedDecimal (n : Int) : ByteString :=
  if n < 0 then "-" ++ toDecimal n.natAbs else toDecimal n.natAbs

theorem toDigits_range {n : Nat} {c : Char} (h : c ∈ Nat.toDigits 10 n) :
    48 ≤ c.toNat ∧ c.toNat ≤ 57 := by
  have hDigit := Nat.isDigit_of_mem_toDigits (by decide) (by decide) h
  simp only [Char.isDigit, Bool.and_eq_true, decide_eq_true_eq, ge_iff_le, UInt32.le_iff_toNat_le]
    at hDigit
  exact hDigit

theorem underscore_not_mem_toDecimal (n : Nat) : (95 : UInt8) ∉ toDecimal n := by
  intro h
  obtain ⟨c, hc, hByte⟩ := List.mem_map.mp h
  obtain ⟨hLow, hHigh⟩ := toDigits_range hc
  have hNat := congrArg UInt8.toNat hByte
  rw [UInt8.toNat_ofNat'] at hNat
  change c.toNat % 256 = 95 at hNat
  omega

/-- The digits can be read back from their bytes. -/
theorem toDecimal_chars (n : Nat) :
    (toDecimal n).map (fun b => Char.ofNat b.toNat) = Nat.toDigits 10 n := by
  unfold toDecimal
  rw [List.map_map]
  refine (List.map_congr_left fun c hc => ?_).trans (List.map_id _)
  obtain ⟨hLow, hHigh⟩ := toDigits_range hc
  have hByte : c.toNat % 256 = c.toNat := by omega
  simp [hByte]

theorem toDecimal_injective : Function.Injective toDecimal := by
  intro n n' h
  have hDigits := congrArg (List.map fun b : UInt8 => Char.ofNat b.toNat) h
  rw [toDecimal_chars, toDecimal_chars] at hDigits
  simpa using congrArg (fun digits => Nat.ofDigitChars 10 digits 0) hDigits

/-- What stands before the first separator, and what stands after it. -/
theorem append_separator_inj {sep : UInt8} {xs xs' ys ys' : ByteString} (h : sep ∉ xs)
    (h' : sep ∉ xs') (hEq : xs ++ sep :: ys = xs' ++ sep :: ys') : xs = xs' ∧ ys = ys' := by
  have hBefore : ∀ {xs : ByteString}, sep ∉ xs → ∀ ys,
      (xs ++ sep :: ys).takeWhile (· ≠ sep) = xs := by
    intro xs hNot ys
    rw [List.takeWhile_append_of_pos, List.takeWhile_cons_of_neg (by simp), List.append_nil]
    intro b hb
    exact decide_eq_true fun hSep => hNot (hSep ▸ hb)
  have hxs : xs = xs' := by
    rw [← hBefore h ys, hEq, hBefore h' ys']
  subst hxs
  exact ⟨rfl, (List.cons.inj (List.append_cancel_left hEq)).2⟩

/-! ### Floating point -/

/-- `double`, as its bit pattern. -/
abbrev Double := UInt64

/-- `float`, as its bit pattern. -/
abbrev Single := UInt32

namespace Double

def exponent (d : Double) : Nat := d.toNat / 2 ^ 52 % 2048

def fraction (d : Double) : Nat := d.toNat % 2 ^ 52

def negative (d : Double) : Bool := 2 ^ 63 ≤ d.toNat

def isNaN (d : Double) : Bool := d.exponent = 2047 ∧ d.fraction ≠ 0

/-- The integer `m` of the value `± m * 2 ^ (max exponent 1 - 1075)` of a finite `d`. -/
def significand (d : Double) : Nat :=
  if d.exponent = 0 then d.fraction else 2 ^ 52 + d.fraction

/-- `d <= 0.0`: no comparison with a NaN holds, and both zeros are equal to `0.0`. -/
def leZero (d : Double) : Bool := !d.isNaN && (d.negative || d = 0)

/-- `n / 2 ^ k`, rounded to nearest, ties to even. -/
def roundShift (n k : Nat) : Nat :=
  let q := n / 2 ^ k
  let twice := 2 * (n % 2 ^ k)
  if 2 ^ k < twice ∨ (twice = 2 ^ k ∧ q % 2 = 1) then q + 1 else q

/-- `static_cast<float>(d)`: rounded to nearest, ties to even.  A NaN stays a NaN, quiet, with its
sign and the top of its payload. -/
def toSingle (d : Double) : Single :=
  let sign := if d.negative then 2 ^ 31 else 0
  let infinity := 255 * 2 ^ 23
  if d.exponent = 2047 then
    if d.fraction = 0 then UInt32.ofNat (sign + infinity)
    else UInt32.ofNat (sign + infinity + 2 ^ 22 + d.fraction / 2 ^ 29 % 2 ^ 22)
  else
    -- From exponent 897 on, the result is normal and drops 29 bits; below, it is subnormal and
    -- drops one more bit for each step down.  A carry out of the rounding moves to the exponent.
    let bits :=
      if 897 ≤ d.exponent then (d.exponent - 897) * 2 ^ 23 + roundShift d.significand 29
      else roundShift d.significand (926 - d.exponent)
    UInt32.ofNat (sign + min bits infinity)

/-- `std::to_string` of a `double`: six decimals, rounded to nearest, ties to even. -/
def toFixed (d : Double) : ByteString :=
  let sign : ByteString := if d.negative then "-" else ""
  if d.exponent = 2047 then sign ++ (if d.fraction = 0 then str "inf" else str "nan")
  else
    let e := max d.exponent 1
    let millionths :=
      if 1075 ≤ e then d.significand * 10 ^ 6 * 2 ^ (e - 1075)
      else roundShift (d.significand * 10 ^ 6) (1075 - e)
    let decimals := toDecimal (millionths % 10 ^ 6)
    sign ++ toDecimal (millionths / 10 ^ 6) ++ str "." ++
      List.replicate (6 - decimals.length) 48 ++ decimals

end Double

/-! ### Arrays of eight bytes -/

/-- `std::array<uint8_t, 8>`. -/
abbrev Payload := Vector UInt8 8

namespace Payload

def zeros : Payload := Vector.replicate 8 0

/-- `std::copy_n(src.begin(), n, dst.begin())`, which stays within the arrays. -/
def copyN (src : Payload) (n : Nat) (_ : n ≤ 8) (dst : Payload) : Payload :=
  Vector.ofFn fun i => if i.val < n then src[i] else dst[i]

/-- `std::fill(dst.begin() + start, dst.end(), b)`. -/
def fillFrom (dst : Payload) (start : Nat) (_ : start ≤ 8) (b : UInt8) : Payload :=
  Vector.ofFn fun i => if i.val < start then dst[i] else b

/-- `copyN` and `fillFrom` for any bounds; none where they leave the arrays. -/
def Checked.copyN (src : Payload) (n : Nat) (dst : Payload) : Option Payload :=
  if h : n ≤ 8 then some (src.copyN n h dst) else none

def Checked.fillFrom (dst : Payload) (start : Nat) (b : UInt8) : Option Payload :=
  if h : start ≤ 8 then some (dst.fillFrom start h b) else none

/-- What was not copied over is zero already. -/
theorem fillFrom_copyN (src : Payload) (n : Nat) (h h' : n ≤ 8) :
    (copyN src n h zeros).fillFrom n h' 0 = copyN src n h zeros := by
  refine Vector.ext fun i hi => ?_
  by_cases hCopied : i < n <;> simp [fillFrom, copyN, zeros, hCopied]

/-- The first `n` bytes are the same. -/
def AgreeUpTo (n : Nat) (a b : Payload) : Prop := ∀ i (_ : i < 8), i < n → a[i] = b[i]

theorem copyN_congr {a b dst : Payload} {n n' : Nat} (h : n ≤ 8) (h' : n' ≤ 8) (hn : n = n')
    (hAgree : AgreeUpTo n a b) : copyN a n h dst = copyN b n' h' dst := by
  subst hn
  refine Vector.ext fun i hi => ?_
  by_cases hCopied : i < n
  · simpa [copyN, hCopied] using hAgree i hi hCopied
  · simp [copyN, hCopied]

end Payload

/-! ### Vectors -/

/-- A loop that pushes one element back for each element. -/
theorem foldl_concat_map {α β : Type} (f : α → β) (l : List α) (init : List β) :
    l.foldl (fun acc a => acc ++ [f a]) init = init ++ l.map f := by
  induction l generalizing init with
  | nil => simp
  | cons a rest ih => simp [ih]

end VehicleCanDecoder
