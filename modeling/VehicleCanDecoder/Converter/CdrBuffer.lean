import VehicleCanDecoder.Messages
import VehicleCanDecoder.Lib.Cdr

/-! `cdr::Buffer` and `serialize_signal_group`: the bytes of a `SignalGroup`.  The encoder aligns to
the start of the buffer and the rules of CDR to the byte after the header of four; both are the same
for primitives of two and four bytes. -/

namespace VehicleCanDecoder

namespace CdrBuffer

def align (data : List UInt8) (a : Nat) : List UInt8 :=
  let r := data.length % a
  if r ≠ 0 then data ++ List.replicate (a - r) 0 else data

def writeUint16 (data : List UInt8) (v : UInt16) : List UInt8 :=
  align data 2 ++ [(v &&& 0xFF).toUInt8, (v >>> 8 &&& 0xFF).toUInt8]

def writeUint32 (data : List UInt8) (v : UInt32) : List UInt8 :=
  align data 4 ++ [(v &&& 0xFF).toUInt8, (v >>> 8 &&& 0xFF).toUInt8, (v >>> 16 &&& 0xFF).toUInt8,
    (v >>> 24 &&& 0xFF).toUInt8]

def writeInt32 (data : List UInt8) (v : Int32) : List UInt8 := writeUint32 data v.toUInt32

def writeFloat32 (data : List UInt8) (v : Single) : List UInt8 := writeUint32 data v

/-- The length is that of the string with its terminator, cut to 32 bits. -/
def writeString (data : List UInt8) (s : ByteString) : List UInt8 :=
  writeUint32 data (UInt32.ofNat (s.length + 1)) ++ s ++ [0]

def kCdrLeHeader : List UInt8 := [0x00, 0x01, 0x00, 0x00]

def writeSignal (data : List UInt8) (s : Signal) : List UInt8 :=
  writeFloat32 (writeUint16 data s.nameId) s.value

def serializeSignalGroup (sg : SignalGroup) (data : List UInt8) : List UInt8 :=
  let data := data ++ kCdrLeHeader
  let data := writeInt32 data sg.header.stamp.sec
  let data := writeUint32 data sg.header.stamp.nanosec
  let data := writeString data sg.header.frameId
  let data := writeString data sg.domain
  let data := writeUint32 data (UInt32.ofNat sg.signals.length)
  sg.signals.foldl writeSignal data

/-! ### The message, by the rules of CDR -/

open Cdr

def readSignal : Reader Signal := do
  let nameId ← Reader.prim 2
  let value ← Reader.prim 4
  pure ⟨UInt16.ofNat nameId, UInt32.ofNat value⟩

/-- The message of the fields as they are read: `sec` is the two's complement of its pattern. -/
def groupOfFields (sec nanosec : Nat) (frameId domain : ByteString) (signals : List Signal) :
    SignalGroup :=
  ⟨⟨⟨(UInt32.ofNat sec).toInt32, UInt32.ofNat nanosec⟩, frameId⟩, domain, signals⟩

def readSignalGroup : Reader SignalGroup := do
  let sec ← Reader.prim 4
  let nanosec ← Reader.prim 4
  let frameId ← Reader.string
  let domain ← Reader.string
  let signals ← Reader.sequence readSignal
  pure (groupOfFields sec nanosec frameId domain signals)

/-- The group that little-endian CDR bytes with their header encode, when all of them are read. -/
def decodeSignalGroup : List UInt8 → Option SignalGroup
  | 0x00 :: 0x01 :: 0x00 :: 0x00 :: payload => readSignalGroup.decode payload
  | _ => none

/-! ### The encoder and the rules agree -/

theorem align_header {a : Nat} (hPos : 0 < a) (h : a ∣ 4) (bytes : List UInt8) :
    align (kCdrLeHeader ++ bytes) a = kCdrLeHeader ++ (bytes ++ pad a bytes.length) := by
  have hMod : (kCdrLeHeader ++ bytes).length % a = bytes.length % a := by
    obtain ⟨c, hc⟩ := h
    rw [List.length_append, show kCdrLeHeader.length = 4 from rfl, hc, Nat.mul_add_mod]
  unfold align pad padding
  simp only [hMod]
  by_cases hZero : bytes.length % a = 0
  · simp [hZero]
  · have hLt := Nat.mod_lt bytes.length hPos
    rw [if_pos hZero, Nat.mod_eq_of_lt (by omega : a - bytes.length % a < a), List.append_assoc]

theorem low_byte16 (x : UInt16) : (x &&& 0xFF).toUInt8 = UInt8.ofNat x.toNat := by
  apply UInt8.toNat_inj.mp
  rw [UInt16.toNat_toUInt8, UInt16.toNat_and]
  show (x.toNat &&& (2 ^ 8 - 1)) % 256 = _
  rw [Nat.and_two_pow_sub_one_eq_mod]
  simp

theorem low_byte32 (x : UInt32) : (x &&& 0xFF).toUInt8 = UInt8.ofNat x.toNat := by
  apply UInt8.toNat_inj.mp
  rw [UInt32.toNat_toUInt8, UInt32.toNat_and]
  show (x.toNat &&& (2 ^ 8 - 1)) % 256 = _
  rw [Nat.and_two_pow_sub_one_eq_mod]
  simp

theorem writeUint16_header (v : UInt16) (bytes : List UInt8) :
    writeUint16 (kCdrLeHeader ++ bytes) v =
      kCdrLeHeader ++ (bytes ++ (pad 2 bytes.length ++ le 2 v.toNat)) := by
  have hBytes : [(v &&& 0xFF).toUInt8, (v >>> 8 &&& 0xFF).toUInt8] = le 2 v.toNat := by
    simp only [low_byte16, le, UInt16.toNat_shiftRight]
    rw [show (8 : UInt16).toNat % 16 = 8 from rfl, Nat.shiftRight_eq_div_pow]
  rw [writeUint16, align_header (by decide) (by decide), hBytes]
  simp only [List.append_assoc]

theorem writeUint32_header (v : UInt32) (bytes : List UInt8) :
    writeUint32 (kCdrLeHeader ++ bytes) v =
      kCdrLeHeader ++ (bytes ++ (pad 4 bytes.length ++ le 4 v.toNat)) := by
  have hBytes : [(v &&& 0xFF).toUInt8, (v >>> 8 &&& 0xFF).toUInt8, (v >>> 16 &&& 0xFF).toUInt8,
      (v >>> 24 &&& 0xFF).toUInt8] = le 4 v.toNat := by
    simp only [low_byte32, le, UInt32.toNat_shiftRight, Nat.shiftRight_eq_div_pow,
      Nat.div_div_eq_div_mul]
    rfl
  rw [writeUint32, align_header (by decide) (by decide), hBytes]
  simp only [List.append_assoc]

theorem writeUint16_encodes (v : UInt16) :
    Encodes kCdrLeHeader (writeUint16 · v) (Reader.prim 2) v.toNat :=
  ⟨fun off => pad 2 off ++ le 2 v.toNat, writeUint16_header v, fun off => Reads.prim off v.toNat_lt⟩

theorem writeUint32_encodes (v : UInt32) :
    Encodes kCdrLeHeader (writeUint32 · v) (Reader.prim 4) v.toNat :=
  ⟨fun off => pad 4 off ++ le 4 v.toNat, writeUint32_header v, fun off => Reads.prim off v.toNat_lt⟩

/-- The 32-bit length is the length, for a string that leaves room for the terminator. -/
theorem writeString_encodes {s : ByteString} (h : s.length < 2 ^ 32 - 1) :
    Encodes kCdrLeHeader (writeString · s) Reader.string s := by
  refine ⟨fun off => pad 4 off ++ le 4 (s.length + 1) ++ (s ++ [0]), fun bytes => ?_,
    fun off => Reads.string off s (by omega)⟩
  have hLength : (UInt32.ofNat (s.length + 1)).toNat = s.length + 1 :=
    UInt32.toNat_ofNat_of_lt' (by simp [UInt32.size]; omega)
  show writeUint32 _ _ ++ s ++ [0] = _
  rw [writeUint32_header, hLength]
  simp only [List.append_assoc]

theorem writeSignal_encodes (s : Signal) :
    Encodes kCdrLeHeader (writeSignal · s) readSignal s := by
  have hValue := (writeUint32_encodes s.value).map fun value =>
    (⟨UInt16.ofNat s.nameId.toNat, UInt32.ofNat value⟩ : Signal)
  have h := (writeUint16_encodes s.nameId).bind (f := fun nameId => do
    let value ← Reader.prim 4
    pure (⟨UInt16.ofNat nameId, UInt32.ofNat value⟩ : Signal)) hValue
  rw [UInt16.ofNat_toNat, UInt32.ofNat_toNat] at h
  exact h

theorem writeSignals_encodes {signals : List Signal} (h : signals.length < 2 ^ 32) :
    Encodes kCdrLeHeader
      (fun data => signals.foldl writeSignal (writeUint32 data (UInt32.ofNat signals.length)))
      (Reader.sequence readSignal) signals := by
  have hCount := writeUint32_encodes (UInt32.ofNat signals.length)
  rw [UInt32.toNat_ofNat_of_lt' (by simpa [UInt32.size] using h)] at hCount
  exact hCount.bind (Encodes.array signals fun s _ => writeSignal_encodes s)

/-- A group that the rules of CDR can express. -/
structure Encodable (sg : SignalGroup) : Prop where
  frameId : sg.header.frameId.length < 2 ^ 32 - 1
  domain : sg.domain.length < 2 ^ 32 - 1
  signals : sg.signals.length < 2 ^ 32

instance (sg : SignalGroup) : Decidable (Encodable sg) :=
  decidable_of_iff (_ ∧ _ ∧ _) ⟨fun h => ⟨h.1, h.2.1, h.2.2⟩, fun h => ⟨h.1, h.2, h.3⟩⟩

theorem serialize_encodes {sg : SignalGroup} (h : Encodable sg) :
    Encodes kCdrLeHeader
      (fun data => sg.signals.foldl writeSignal (writeUint32 (writeString (writeString
        (writeUint32 (writeInt32 data sg.header.stamp.sec) sg.header.stamp.nanosec)
        sg.header.frameId) sg.domain) (UInt32.ofNat sg.signals.length)))
      readSignalGroup sg := by
  let sec := sg.header.stamp.sec.toUInt32.toNat
  let nanosec := sg.header.stamp.nanosec.toNat
  let frameId := sg.header.frameId
  have hSignals := (writeSignals_encodes h.signals).map (groupOfFields sec nanosec frameId sg.domain)
  have hDomain := (writeString_encodes h.domain).bind (f := fun domain => do
    let signals ← Reader.sequence readSignal
    pure (groupOfFields sec nanosec frameId domain signals)) hSignals
  have hFrameId := (writeString_encodes h.frameId).bind (f := fun frameId => do
    let domain ← Reader.string
    let signals ← Reader.sequence readSignal
    pure (groupOfFields sec nanosec frameId domain signals)) hDomain
  have hNanosec := (writeUint32_encodes sg.header.stamp.nanosec).bind (f := fun nanosec => do
    let frameId ← Reader.string
    let domain ← Reader.string
    let signals ← Reader.sequence readSignal
    pure (groupOfFields sec nanosec frameId domain signals)) hFrameId
  have hSec := (writeUint32_encodes sg.header.stamp.sec.toUInt32).bind (f := fun sec => do
    let nanosec ← Reader.prim 4
    let frameId ← Reader.string
    let domain ← Reader.string
    let signals ← Reader.sequence readSignal
    pure (groupOfFields sec nanosec frameId domain signals)) hNanosec
  have hGroup : groupOfFields sec nanosec frameId sg.domain sg.signals = sg := by
    simp [groupOfFields, sec, nanosec, frameId]
  rw [hGroup] at hSec
  exact hSec

/-- Serializing a group into an empty buffer and decoding the bytes by the rules of CDR gives the
group back, so distinct groups have distinct encodings. -/
theorem serializeSignalGroup_faithful {sg : SignalGroup} (h : Encodable sg) :
    decodeSignalGroup (serializeSignalGroup sg []) = some sg ∧
      ∀ sg', Encodable sg' → serializeSignalGroup sg' [] = serializeSignalGroup sg [] → sg' = sg := by
  have hDecode : ∀ {sg}, Encodable sg → decodeSignalGroup (serializeSignalGroup sg []) = some sg := by
    intro sg h
    obtain ⟨bytes, hBytes, hGroup⟩ := (serialize_encodes h).decode
    have hSerialize : serializeSignalGroup sg [] = kCdrLeHeader ++ bytes := hBytes
    rw [hSerialize]
    exact hGroup
  refine ⟨hDecode h, fun sg' h' hSame => ?_⟩
  have hSome := hDecode h'
  rw [hSame, hDecode h] at hSome
  exact (Option.some.inj hSome).symm

theorem serializeSignalGroup_faithful_sample :
    let sg : SignalGroup := ⟨⟨⟨-1, 5⟩, ""⟩, "all", [⟨1, 0x3F800000⟩, ⟨2, 0⟩]⟩
    decodeSignalGroup (serializeSignalGroup sg []) = some sg ∧
      ∀ sg', Encodable sg' → serializeSignalGroup sg' [] = serializeSignalGroup sg [] → sg' = sg :=
  serializeSignalGroup_faithful (by decide)

end CdrBuffer

end VehicleCanDecoder
