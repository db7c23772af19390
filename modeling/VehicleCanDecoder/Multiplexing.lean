import VehicleCanDecoder.Frames

/-! Multiplexed messages.  A multiplexed signal is in a payload when the multiplexor, which is a
signal of the same payload, has its switch value; the bits of signals with different switch values
may overlap.  The decoder does not look at the multiplexor: it takes every signal of the message
from every payload, and the node passes what it takes on to its topics and its monitor. -/

namespace VehicleCanDecoder

/-- `dbcppp::ISignal::EMultiplexer`, with the switch value. -/
inductive Multiplexer
  | noMux
  | muxSwitch
  | muxValue (switchValue : UInt64)
  deriving DecidableEq

/-- The signals of a message, each with its multiplexer indicator. -/
abbrev MuxSignals := List (ISignal × Multiplexer)

namespace MuxSignals

/-- The multiplexor has the switch value in the payload. -/
def switched (signals : MuxSignals) (data : Payload) (switchValue : UInt64) : Bool :=
  signals.any fun entry => entry.2 = .muxSwitch ∧ entry.1.decode data = switchValue

/-- The payload carries the signal. -/
def carries (signals : MuxSignals) (data : Payload) (entry : ISignal × Multiplexer) : Bool :=
  match entry.2 with
  | .noMux => true
  | .muxSwitch => true
  | .muxValue switchValue => signals.switched data switchValue

/-- The signals that the payload carries, in DBC order. -/
def present (signals : MuxSignals) (data : Payload) : List ISignal :=
  (signals.filter (signals.carries data)).map Prod.fst

/-- All signals are as many as those present only where all are present. -/
theorem present_eq_iff (signals : MuxSignals) (data : Payload) :
    (signals.present data).length = signals.length ↔
      ∀ entry ∈ signals, signals.carries data entry = true := by
  rw [present, List.length_map, List.length_filter_eq_length_iff]

end MuxSignals

/-- The raw signals of some signals of a message. -/
def rawSignals (signals : List ISignal) (canId : UInt32) (data : Payload) : List RawSignal :=
  signals.map fun sig => ⟨sig.name, sig.rawToPhys (sig.decode data), canId⟩

theorem rawSignals_present_iff (signals : MuxSignals) (canId : UInt32) (data : Payload) :
    rawSignals (signals.map Prod.fst) canId data = rawSignals (signals.present data) canId data ↔
      ∀ entry ∈ signals, signals.carries data entry = true := by
  constructor
  · intro h
    have hLength := congrArg List.length h
    rw [rawSignals, rawSignals, List.length_map, List.length_map, List.length_map] at hLength
    exact (signals.present_eq_iff data).mp hLength.symm
  · intro h
    rw [MuxSignals.present, List.filter_eq_self.mpr h]

namespace Effect

/-- The name of a receipt. -/
def asReceived : Effect → Option ByteString
  | .received name _ => some name
  | _ => none

end Effect

namespace VehicleCanNode

open Effect

variable {E : Env}

/-! ### The receipts of a frame -/

theorem processSignal_received (canId : UInt32) (n : VehicleCanNode) (raw : RawSignal) :
    (processSignal E canId n raw).2.filterMap asReceived =
      ((n.path E).assign canId raw).toList.map (·.res.name) := by
  have hPromoted := publishPromoted_other (k := asReceived) (fun _ _ => rfl) n
  obtain ⟨t, -, ⟨hPass, name, what, hEq⟩ | ⟨r, hPass, hAssigned, hEq⟩ | ⟨r, hPass, hNot, hEq⟩⟩ :=
    processSignal_cases (E := E) canId n raw
  · rw [hEq, SignalPath.assign_of_throws _ _ hPass]
    rfl
  · rw [hEq, SignalPath.assign_of_pass _ _ hPass, if_pos hAssigned]
    show r.res.name :: (n.publishPromoted r.res.name r.value).filterMap asReceived = _
    rw [hPromoted]
    rfl
  · rw [hEq, SignalPath.assign_of_pass _ _ hPass, hNot]
    exact hPromoted _ _

theorem gathered_received (canId : UInt32) (n : VehicleCanNode) (decoded : List RawSignal) :
    (Machine.run (processSignal E canId) n decoded).2.filterMap asReceived =
      ((n.path E).assigned canId decoded).map (·.res.name) := by
  rw [SignalPath.assigned_eq, List.map_eq_flatMap, flatMap_filterMap]
  refine Machine.run_filterMap (I := SameSetup n) (fun s raw h => ?_) (SameSetup.refl n) decoded
  rw [processSignal_received, h.path, List.map_eq_flatMap]
  exact ⟨h.trans (processSignal_setup canId s raw), rfl⟩

/-- A decoded frame passes exactly its assigned signals to the monitor. -/
theorem publishDecoded_received (order : HashOrder) (n : VehicleCanNode) (canId : UInt32)
    (stamp : Time) (decoded : List RawSignal) :
    (n.publishDecoded E order canId stamp decoded).2.filterMap asReceived =
      ((n.path E).assigned canId decoded).map (·.res.name) := by
  let header : Header := ⟨E.rclcpp.stamp stamp, ""⟩
  let after := gathered canId n decoded E
  have hGroup := publishGroup_other (k := asReceived) (fun _ _ => rfl) header
  have hFirehose := publishFirehose_other (k := asReceived) (fun _ _ => rfl) header
  show ((Machine.run (processSignal E canId) n decoded).2 ++
    (Machine.run (publishGroup header) after (after.frameSignals.items order)).2 ++
    (publishFirehose header _).2).filterMap asReceived = _
  rw [List.filterMap_append, List.filterMap_append, gathered_received,
    Machine.run_filterMap_nil hGroup, hFirehose, List.append_nil, List.append_nil]

/-! ### Decoding a multiplexed message -/

/-- A decoder takes all signals of a message from every payload, each once and in DBC order, and so
exactly the signals that the payload carries only where it carries all of them.  A node publishes
all of them, and passes them to its monitor, by their configuration. -/
theorem decode_takes_all {d : DbcDecoder} {network : INetwork} {ok : Bool} {n : VehicleCanNode}
    (hLoad : d.load (.parsed network) = some (n.decoder, ok)) {canId : UInt32} {msg : IMessage}
    (hMsg : network.messages.find? (·.id = canId.toUInt64) = some msg) {signals : MuxSignals}
    (hSignals : msg.signals = signals.map Prod.fst) (data : Payload) (dlc : UInt8) :
    n.decoder.decode canId data dlc = some (rawSignals msg.signals canId data) ∧
    (n.decoder.decode canId data dlc = some (rawSignals (signals.present data) canId data) ↔
      ∀ entry ∈ signals, signals.carries data entry = true) ∧
    ∀ order timestamp stamp,
      let effects := (n.processFrame E order ⟨canId, data, dlc, timestamp⟩ stamp).2
      effects.filterMap asReceived =
          ((n.path E).assigned canId (rawSignals msg.signals canId data)).map (·.res.name) ∧
        FrameEffects E n canId ⟨E.rclcpp.stamp stamp, ""⟩ (rawSignals msg.signals canId data)
          effects := by
  have hDecode : n.decoder.decode canId data dlc = some (rawSignals msg.signals canId data) := by
    unfold DbcDecoder.decode
    rw [DbcDecoder.messageFor_parsed hLoad, hMsg]
    rfl
  refine ⟨hDecode, ?_, fun order timestamp stamp => ⟨?_, ?_⟩⟩
  · rw [hDecode, hSignals, Option.some.injEq]
    exact rawSignals_present_iff signals canId data
  · rw [processFrame_decoded order n ⟨canId, data, dlc, timestamp⟩ stamp hDecode,
      publishDecoded_received, (cleared_setup n).path]
  · exact processFrame_effects (SameSetup.refl n) order ⟨canId, data, dlc, timestamp⟩ stamp hDecode

/-! ### Samples -/

/-- The bit 0 says which of two signals the bit 1 is. -/
def muxSignals : MuxSignals :=
  [(sampleSignal "mode" 0, .muxSwitch), (sampleSignal "pressed" 1, .muxValue 0),
    (sampleSignal "locked" 1, .muxValue 1)]

def muxMessage : IMessage := ⟨256, "BRAKE", muxSignals.map Prod.fst⟩

def muxNetwork : INetwork := ⟨1, [muxMessage]⟩

/-- A payload with the bit 1 alone. -/
def muxPayload : Payload := ⟨#[2, 0, 0, 0, 0, 0, 0, 0], rfl⟩

theorem decode_takes_all_sample :
    let n := sampleNode muxNetwork sampleOverrides
    n.decoder.decode 256 muxPayload 8 = some (rawSignals muxMessage.signals 256 muxPayload) := by
  intro n
  have hLoad : DbcDecoder.fresh.load (.parsed muxNetwork) = some (n.decoder, true) := rfl
  have hMsg : muxNetwork.messages.find? (·.id = (256 : UInt32).toUInt64) = some muxMessage := rfl
  have hSignals : muxMessage.signals = List.map Prod.fst muxSignals := rfl
  exact (decode_takes_all (E := sampleEnv muxNetwork) hLoad hMsg hSignals muxPayload 8).1

/-- The payload does not carry `locked`, and the node takes it from there all the same. -/
theorem absent_received :
    let E := sampleEnv muxNetwork
    let n := sampleNode muxNetwork sampleOverrides
    Constructed E sampleOverrides n ∧
      muxSignals.present muxPayload = [sampleSignal "mode" 0, sampleSignal "pressed" 1] ∧
      n.decoder.decode 256 muxPayload 8 =
        some [⟨"mode", 0, 256⟩, ⟨"pressed", one, 256⟩, ⟨"locked", one, 256⟩] ∧
      n.decoder.decode 256 muxPayload 8 ≠
        some (rawSignals (muxSignals.present muxPayload) 256 muxPayload) ∧
      str "locked" ∈
        (n.processFrame E .listed ⟨256, muxPayload, 8, 0⟩ 0).2.filterMap asReceived := by
  intro E n
  have hPresent : muxSignals.present muxPayload =
      [sampleSignal "mode" 0, sampleSignal "pressed" 1] := rfl
  have hDecode : n.decoder.decode 256 muxPayload 8 =
      some [⟨"mode", 0, 256⟩, ⟨"pressed", one, 256⟩, ⟨"locked", one, 256⟩] := by decide
  refine ⟨⟨.listed, ⟨0, 0⟩, _, rfl⟩, hPresent, hDecode, ?_, by decide +kernel⟩
  rw [hDecode, hPresent]
  decide

end VehicleCanNode

end VehicleCanDecoder
