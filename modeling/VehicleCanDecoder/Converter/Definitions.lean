import VehicleCanDecoder.Converter.CdrBuffer
import VehicleCanDecoder.Lib.MsgDefinition

/-! The message definitions that the converter carries, as they are written into the schemas of its
output: the bytes of a `SignalGroup` are the encoding that the definitions give. -/

namespace VehicleCanDecoder

open Cdr Msg

/-! ### The texts -/

namespace AmentPrefix

def kSignalMsg : ByteString := "uint16 name_id\nfloat32 value\n"

def kSignalGroupMsg : ByteString :=
  "std_msgs/Header header\nstring domain\nvehicle_can_decoder/Signal[] signals\n"

end AmentPrefix

open AmentPrefix

/-- The definitions of the types that come with ROS. -/
structure StandardDefinitions (definitions : ByteString → Option ByteString) : Prop where
  header : Defines definitions "std_msgs/Header"
    [[str "builtin_interfaces/Time", str "stamp"], [str "string", str "frame_id"]]
  time : Defines definitions "builtin_interfaces/Time"
    [[str "int32", str "sec"], [str "uint32", str "nanosec"]]

/-- Definitions under which `SignalGroup` and the types in it have their fields. -/
structure GroupDefinitions (definitions : ByteString → Option ByteString) : Prop
    extends StandardDefinitions definitions where
  group : Defines definitions "vehicle_can_decoder/SignalGroup" (fieldLines kSignalGroupMsg)
  signal : Defines definitions "vehicle_can_decoder/Signal" (fieldLines kSignalMsg)

/-! ### The layouts that they give -/

def timeLayout : Layout :=
  .struct (.cons "sec" (.prim .int32) (.cons "nanosec" (.prim .uint32) .nil))

def headerLayout : Layout := .struct (.cons "stamp" timeLayout (.cons "frame_id" .string .nil))

def signalLayout : Layout :=
  .struct (.cons "name_id" (.prim .uint16) (.cons "value" (.prim .float32) .nil))

def groupLayout : Layout :=
  .struct (.cons "header" headerLayout (.cons "domain" .string
    (.cons "signals" (.sequence signalLayout) .nil)))

theorem layoutOf_group {definitions : ByteString → Option ByteString}
    (h : GroupDefinitions definitions) {depth : Nat} (hDepth : 3 ≤ depth) :
    layoutOf definitions depth "vehicle_can_decoder/SignalGroup" = some groupLayout := by
  have hTime : layoutOf definitions 1 "builtin_interfaces/Time" = some timeLayout :=
    h.time.layoutOf rfl
  have hSignal : layoutOf definitions 2 "vehicle_can_decoder/Signal" = some signalLayout :=
    h.signal.layoutOf rfl
  have hHeader : layoutOf definitions 2 "std_msgs/Header" = some headerLayout :=
    h.header.layoutOf (fieldsLayout_cons hTime rfl)
  have hSignals : typeLayout (layoutOf definitions 2) "vehicle_can_decoder/Signal[]" =
      some (.sequence signalLayout) := congrArg (Option.map Layout.sequence) hSignal
  have hFields : fieldLines kSignalGroupMsg = [[str "std_msgs/Header", str "header"],
      [str "string", str "domain"], [str "vehicle_can_decoder/Signal[]", str "signals"]] := by decide
  have hGroup : layoutOf definitions 3 "vehicle_can_decoder/SignalGroup" = some groupLayout :=
    h.group.layoutOf (hFields ▸ fieldsLayout_cons hHeader
      (fieldsLayout_cons rfl (fieldsLayout_cons hSignals rfl)))
  exact layoutOf_mono hDepth hGroup

/-! ### What the converter writes is what they say -/

def timeValue (t : Stamp) : Value :=
  .record [(str "sec", .number t.sec.toUInt32.toNat), (str "nanosec", .number t.nanosec.toNat)]

def headerValue (h : Header) : Value :=
  .record [(str "stamp", timeValue h.stamp), (str "frame_id", .text h.frameId)]

def signalValue (s : Signal) : Value :=
  .record [(str "name_id", .number s.nameId.toNat), (str "value", .number s.value.toNat)]

def groupValue (sg : SignalGroup) : Value :=
  .record [(str "header", headerValue sg.header), (str "domain", .text sg.domain),
    (str "signals", .list (sg.signals.map signalValue))]

theorem signalLayout_holds (s : Signal) : signalLayout.Holds (signalValue s) :=
  ⟨rfl, s.nameId.toNat_lt, rfl, s.value.toNat_lt, trivial⟩

theorem groupLayout_holds {sg : SignalGroup} (h : CdrBuffer.Encodable sg) :
    groupLayout.Holds (groupValue sg) := by
  have hFrameId := h.frameId
  have hDomain := h.domain
  have hSignals : (sg.signals.map signalValue).length < 2 ^ 32 ∧
      ∀ v ∈ sg.signals.map signalValue, signalLayout.Holds v := by
    refine ⟨by simpa using h.signals, fun v hv => ?_⟩
    obtain ⟨s, -, rfl⟩ := List.mem_map.mp hv
    exact signalLayout_holds s
  exact ⟨rfl, ⟨rfl, ⟨rfl, UInt32.toNat_lt _, rfl, UInt32.toNat_lt _, trivial⟩, rfl,
    by simp only [Layout.Holds]; omega, trivial⟩, rfl, by simp only [Layout.Holds]; omega, rfl,
    hSignals, trivial⟩

namespace CdrBuffer

theorem writeUint16_writes (v : UInt16) :
    (Layout.prim .uint16).Writes kCdrLeHeader (writeUint16 · v) (.number v.toNat) :=
  writeUint16_header v

theorem writeUint32_writes (v : UInt32) :
    (Layout.prim .uint32).Writes kCdrLeHeader (writeUint32 · v) (.number v.toNat) :=
  writeUint32_header v

theorem writeInt32_writes (v : Int32) :
    (Layout.prim .int32).Writes kCdrLeHeader (writeInt32 · v) (.number v.toUInt32.toNat) :=
  writeUint32_header v.toUInt32

theorem writeFloat32_writes (v : Single) :
    (Layout.prim .float32).Writes kCdrLeHeader (writeFloat32 · v) (.number v.toNat) :=
  writeUint32_header v

theorem writeString_writes {s : ByteString} (h : s.length < 2 ^ 32 - 1) :
    Layout.string.Writes kCdrLeHeader (writeString · s) (.text s) := by
  intro bytes
  have hLength : (UInt32.ofNat (s.length + 1)).toNat = s.length + 1 :=
    UInt32.toNat_ofNat_of_lt' (by simp [UInt32.size]; omega)
  show writeUint32 _ _ ++ s ++ [0] = _
  rw [writeUint32_header, hLength]
  simp only [Layout.encode, List.append_assoc]

theorem writeSignal_writes (s : Signal) :
    signalLayout.Writes kCdrLeHeader (writeSignal · s) (signalValue s) :=
  .struct (.cons (writeUint16_writes s.nameId)
    (.cons (writeFloat32_writes s.value) .nil fun _ => rfl) fun _ => rfl)

theorem writeSignals_writes {signals : List Signal} (h : signals.length < 2 ^ 32) :
    (Layout.sequence signalLayout).Writes kCdrLeHeader
      (fun data => signals.foldl writeSignal (writeUint32 data (UInt32.ofNat signals.length)))
      (.list (signals.map signalValue)) := by
  have hCount := writeUint32_writes (UInt32.ofNat signals.length)
  rw [UInt32.toNat_ofNat_of_lt' (by simpa [UInt32.size] using h)] at hCount
  exact Layout.Writes.sequence writeSignal_writes signals hCount

/-- The payload after the header is the encoding that the layout gives. -/
theorem serialize_eq_encode {sg : SignalGroup} (h : Encodable sg) :
    serializeSignalGroup sg [] = kCdrLeHeader ++ groupLayout.encode (groupValue sg) 0 := by
  have hTime : timeLayout.Writes kCdrLeHeader
      (fun data => writeUint32 (writeInt32 data sg.header.stamp.sec) sg.header.stamp.nanosec)
      (timeValue sg.header.stamp) :=
    .struct (.cons (writeInt32_writes sg.header.stamp.sec)
      (.cons (writeUint32_writes sg.header.stamp.nanosec) .nil fun _ => rfl) fun _ => rfl)
  have hHeader : headerLayout.Writes kCdrLeHeader
      (fun data => writeString (writeUint32 (writeInt32 data sg.header.stamp.sec)
        sg.header.stamp.nanosec) sg.header.frameId) (headerValue sg.header) :=
    .struct (.cons hTime (.cons (writeString_writes h.frameId) .nil fun _ => rfl) fun _ => rfl)
  have hGroup : groupLayout.Writes kCdrLeHeader
      (fun data => sg.signals.foldl writeSignal (writeUint32 (writeString (writeString (writeUint32
        (writeInt32 data sg.header.stamp.sec) sg.header.stamp.nanosec) sg.header.frameId) sg.domain)
        (UInt32.ofNat sg.signals.length))) (groupValue sg) :=
    .struct (.cons hHeader (.cons (writeString_writes h.domain)
      (.cons (writeSignals_writes h.signals) .nil fun _ => rfl) fun _ => rfl) fun _ => rfl)
  exact hGroup []

/-- A reader that knows the definitions, but not the type, reads the group back. -/
theorem read_serialized {definitions : ByteString → Option ByteString}
    (hDefinitions : GroupDefinitions definitions) {depth : Nat} (hDepth : 3 ≤ depth)
    {sg : SignalGroup} (h : Encodable sg) : ∃ layout payload,
      layoutOf definitions depth "vehicle_can_decoder/SignalGroup" = some layout ∧
      serializeSignalGroup sg [] = kCdrLeHeader ++ payload ∧
      layout.read.decode payload = some (groupValue sg) :=
  ⟨groupLayout, _, layoutOf_group hDefinitions hDepth, serialize_eq_encode h,
    (groupLayout.reads_encode (groupLayout_holds h) 0).decode⟩

end CdrBuffer

end VehicleCanDecoder
