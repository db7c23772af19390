import VehicleCanDecoder.CanReader
import VehicleCanDecoder.Converter.Agreement
import VehicleCanDecoder.Converter.Outputs

/-! The bytes of a frame beyond its data length, and a length above eight.  The node, the converter
and the reader each clamp the length, copy that many bytes and leave zeros after them; so two frames
that agree up to the clamped length are the same to all that comes after. -/

namespace VehicleCanDecoder

/-- The messages have the same stamp and identifier, and the same bytes up to the same length. -/
structure Frame.Agrees (f f' : Frame) : Prop where
  stamp : f.header.stamp = f'.header.stamp
  id : f.id = f'.id
  dlc : min f.dlc.toNat 8 = min f'.dlc.toNat 8
  data : Payload.AgreeUpTo (min f.dlc.toNat 8) f.data f'.data

structure RawFrame.Agrees (raw raw' : RawFrame) : Prop where
  dlc : min raw.canDlc.toNat 8 = min raw'.canDlc.toNat 8
  data : Payload.AgreeUpTo (min raw.canDlc.toNat 8) raw.data raw'.data

/-! ### The node -/

namespace VehicleCanNode

theorem clampDlc_toNat (dlc : UInt8) : (clampDlc dlc).toNat = min dlc.toNat 8 := by
  unfold clampDlc
  split
  · rename_i h
    have hLe := UInt8.le_iff_toNat_le.mp h
    change dlc.toNat ≤ 8 at hLe
    omega
  · rename_i h
    have hGt : ¬ dlc.toNat ≤ 8 := fun hLe => h (UInt8.le_iff_toNat_le.mpr hLe)
    change 8 = _
    omega

/-- What was not copied is zero, whether or not it is filled. -/
theorem toCanFrame_data (msg : Frame) : (toCanFrame msg).data =
    Payload.copyN msg.data (clampDlc msg.dlc).toNat (clampDlc_le msg.dlc) Payload.zeros := by
  unfold toCanFrame
  dsimp only
  split
  · exact Payload.fillFrom_copyN _ _ _ _
  · rfl

theorem toCanFrame_congr {msg msg' : Frame} (h : msg.Agrees msg') :
    toCanFrame msg = toCanFrame msg' := by
  have hDlc : clampDlc msg.dlc = clampDlc msg'.dlc := by
    rw [← UInt8.toNat_inj, clampDlc_toNat, clampDlc_toNat, h.dlc]
  have hData : (toCanFrame msg).data = (toCanFrame msg').data := by
    rw [toCanFrame_data, toCanFrame_data]
    refine Payload.copyN_congr _ _ (by rw [hDlc]) ?_
    rw [clampDlc_toNat]
    exact h.data
  calc toCanFrame msg = ⟨msg.id, (toCanFrame msg).data, clampDlc msg.dlc, 0⟩ := rfl
    _ = ⟨msg'.id, (toCanFrame msg').data, clampDlc msg'.dlc, 0⟩ := by rw [h.id, hData, hDlc]
    _ = toCanFrame msg' := rfl

theorem onCanFrame_congr (E : Env) (order : HashOrder) (n : VehicleCanNode) {msg msg' : Frame}
    (h : msg.Agrees msg') : n.onCanFrame E order msg = n.onCanFrame E order msg' := by
  unfold onCanFrame
  rw [h.stamp, toCanFrame_congr h]

end VehicleCanNode

/-! ### The converter -/

namespace Converter

theorem payload_congr {f f' : Frame} (h : f.Agrees f') : payload f = payload f' := by
  rw [payload_eq, payload_eq, VehicleCanNode.toCanFrame_congr h]

/-- Two messages of a bag that are the same, or are of the CAN topic and hold frames that agree. -/
inductive Agree (canTopic : ByteString) (deserialize : List UInt8 → Except StdException Frame) :
    BagMessage → BagMessage → Prop
  | same (m : BagMessage) : Agree canTopic deserialize m m
  | frames {m m' : BagMessage} {f f' : Frame} (hTopic : m.topicName = canTopic)
    (hTopic' : m'.topicName = canTopic) (hRead : deserialize m.serializedData = .ok f)
    (hRead' : deserialize m'.serializedData = .ok f') (h : f.Agrees f') :
    Agree canTopic deserialize m m'

section Convert

variable (C : ConvertEnv) (cfg : Config) (decoder : DbcDecoder) (router : SignalRouter)
  (topicOf : UnorderedMap ByteString ByteString)

theorem convertSignal_congr {f f' : Frame} (h : f.Agrees f') :
    convertSignal C cfg router f = convertSignal C cfg router f' := by
  funext raw
  unfold convertSignal
  rw [h.id, h.stamp]

theorem convertMessage_congr {m m' : BagMessage} (h : Agree cfg.canTopic C.deserialize m m') :
    convertMessage C cfg decoder router topicOf m =
      convertMessage C cfg decoder router topicOf m' := by
  cases h with
  | same => rfl
  | frames hTopic hTopic' hRead hRead' h =>
    unfold convertMessage convertFrame
    simp only [hTopic, hTopic', ne_eq, not_true_eq_false, if_false, hRead, hRead', h.id, h.stamp,
      payload_congr h, convertSignal_congr C cfg router h]

theorem convertMessages_congr {l l' : List BagMessage}
    (h : List.Forall₂ (Agree cfg.canTopic C.deserialize) l l') :
    convertMessages C cfg decoder router topicOf l =
      convertMessages C cfg decoder router topicOf l' := by
  unfold convertMessages
  congr 1
  induction h with
  | nil => rfl
  | cons hHead _ ih =>
    simp only [List.forM]
    rw [convertMessage_congr C cfg decoder router topicOf hHead, ih]

end Convert

/-- `convert_one` writes the same file for two bags with the same topics whose messages agree. -/
theorem writeBag_congr {δ : Type} (M : MainEnv δ) (r : Ready) (storageId : ByteString)
    {bag bag' : InputBag} (hTopics : bag.topics = bag'.topics)
    (h : List.Forall₂ (Agree r.cfg.canTopic M.deserialize) bag.messages bag'.messages)
    (out : Path) : writeBag M r out storageId bag = writeBag M r out storageId bag' := by
  have hLoop : ∀ k topicOf, convertMessages (M.convertEnv k) r.cfg r.decoder r.router topicOf
      bag.messages = convertMessages (M.convertEnv k) r.cfg r.decoder r.router topicOf
        bag'.messages := fun k topicOf =>
    convertMessages_congr (M.convertEnv k) r.cfg r.decoder r.router topicOf h
  unfold writeBag
  simp only [hTopics, hLoop]

end Converter

/-! ### The reader -/

namespace CanReader

theorem clampDlc_eq (dlc : UInt8) : clampDlc dlc = min dlc.toNat 8 := by
  unfold clampDlc
  split <;> omega

theorem toCanFrame_data (raw : RawFrame) (timestamp : Double) : (toCanFrame raw timestamp).data =
    Payload.copyN raw.data (clampDlc raw.canDlc) (clampDlc_le raw.canDlc) Payload.zeros := by
  unfold toCanFrame
  dsimp only
  split
  · exact Payload.fillFrom_copyN _ _ _ _
  · rfl

theorem toCanFrame_data_congr {raw raw' : RawFrame} (h : raw.Agrees raw') (t t' : Double) :
    (toCanFrame raw t).data = (toCanFrame raw' t').data := by
  rw [toCanFrame_data, toCanFrame_data]
  refine Payload.copyN_congr _ _ (by rw [clampDlc_eq, clampDlc_eq, h.dlc]) ?_
  rw [clampDlc_eq]
  exact h.data

theorem readFrame_data {kernel : Kernel} {p : Process} {n : Nat} {raw : RawFrame}
    {timeval : Option (Int × Int)} (hRead : kernel.recvmsg p.calls = .bytes n raw timeval)
    (r : CanReader) : ((r.readFrame kernel).eval p).1.2.map CanFrame.data =
      if r.fd < 0 ∨ n < sizeofCanFrame then none else some (toCanFrame raw 0).data := by
  by_cases hClosed : r.fd < 0
  · rw [readFrame_closed kernel hClosed, if_pos (.inl hClosed)]
    rfl
  · have hOpen := readFrame_open kernel hClosed p
    rw [hRead] at hOpen
    obtain ⟨timestamp, hResult⟩ := hOpen
    rw [hResult]
    by_cases hShort : n < sizeofCanFrame
    · have hNone : r.fd < 0 ∨ n < sizeofCanFrame := .inr hShort
      rw [if_pos hNone, if_pos hShort]
      rfl
    · have hSome : ¬ (r.fd < 0 ∨ n < sizeofCanFrame) := not_or.mpr ⟨hClosed, hShort⟩
      rw [if_neg hSome, if_neg hShort, Option.map_some, toCanFrame_data, toCanFrame_data]

theorem readFrame_congr {kernel kernel' : Kernel} {p p' : Process} {n : Nat} {raw raw' : RawFrame}
    {timeval timeval' : Option (Int × Int)} (hRead : kernel.recvmsg p.calls = .bytes n raw timeval)
    (hRead' : kernel'.recvmsg p'.calls = .bytes n raw' timeval') (h : raw.Agrees raw')
    (r : CanReader) : ((r.readFrame kernel).eval p).1.2.map CanFrame.data =
      ((r.readFrame kernel').eval p').1.2.map CanFrame.data := by
  rw [readFrame_data hRead r, readFrame_data hRead' r, toCanFrame_data_congr h 0 0]

end CanReader

/-- What a frame has beyond its data length reaches no message of the node, no file of the
converter, and no data of the reader. -/
theorem beyond_dlc_unused :
    (∀ (E : Env) (order : HashOrder) (n : VehicleCanNode) (msg msg' : Frame), msg.Agrees msg' →
      n.onCanFrame E order msg = n.onCanFrame E order msg') ∧
    (∀ {δ : Type} (M : Converter.MainEnv δ) (r : Converter.Ready) (storageId : ByteString)
      (bag bag' : Converter.InputBag), bag.topics = bag'.topics →
      List.Forall₂ (Converter.Agree r.cfg.canTopic M.deserialize) bag.messages bag'.messages →
      ∀ out, Converter.writeBag M r out storageId bag = Converter.writeBag M r out storageId bag') ∧
    ∀ (kernel kernel' : Kernel) (r : CanReader) (p p' : Process) (n : Nat) (raw raw' : RawFrame)
      (timeval timeval' : Option (Int × Int)),
      kernel.recvmsg p.calls = .bytes n raw timeval →
      kernel'.recvmsg p'.calls = .bytes n raw' timeval' → raw.Agrees raw' →
      ((r.readFrame kernel).eval p).1.2.map CanFrame.data =
        ((r.readFrame kernel').eval p').1.2.map CanFrame.data :=
  ⟨fun E order n _ _ h => n.onCanFrame_congr E order h,
    fun M r storageId _ _ hTopics h out => Converter.writeBag_congr M r storageId hTopics h out,
    fun _ _ r _ _ _ _ _ _ _ hRead hRead' h => r.readFrame_congr hRead hRead' h⟩

/-- A frame of two bytes, with zeros or with other bytes after them. -/
def shortFrame (rest : UInt8) : Frame :=
  ⟨⟨⟨5, 0⟩, ""⟩, 256, false, false, false, 2, ⟨#[1, 1, rest, rest, rest, rest, rest, rest], rfl⟩⟩

def shortBag (rest : UInt8) : Converter.InputBag where
  storageIdentifier := "mcap"
  topics := [⟨"/vehicle/from_can_bus", "can_msgs/msg/Frame", "cdr"⟩]
  messages := [⟨"/vehicle/from_can_bus", 2, [rest]⟩]
  topics_nodup := List.nodup_singleton _
  messages_topics msg hMsg := by
    rw [List.mem_singleton.mp hMsg]
    exact List.mem_singleton_self _

def shortRead (rest : UInt8) : Kernel where
  socket n _ := n
  ioctl _ _ := none
  bind _ := true
  setsockopt _ := true
  fcntlGetfl _ := none
  fcntlSetfl _ := true
  recvmsg _ := .bytes 16 ⟨256, 2, (shortFrame rest).data⟩ none
  clockGettime _ := (0, 0)

theorem beyond_dlc_unused_sample :
    let E := VehicleCanNode.sampleEnv (VehicleCanNode.sampleNetwork 256)
    let n := VehicleCanNode.sampleNode (VehicleCanNode.sampleNetwork 256)
      VehicleCanNode.sampleOverrides
    let M := { Converter.brokenEnv with
      deserialize := fun bytes => .ok (shortFrame (bytes.headD 0)) }
    let r : Converter.Ready :=
      ⟨Converter.sampleConfig, Converter.sampleDecoder, Converter.sampleRouter, .empty⟩
    let p : Process := ⟨0, ∅, []⟩
    shortFrame 0 ≠ shortFrame 7 ∧
      n.onCanFrame E .listed (shortFrame 0) = n.onCanFrame E .listed (shortFrame 7) ∧
      Converter.writeBag M r ["out"] "mcap" (shortBag 0) =
        Converter.writeBag M r ["out"] "mcap" (shortBag 7) ∧
      ((CanReader.readFrame (shortRead 0) ⟨3, 0, ""⟩).eval p).1.2.map CanFrame.data =
        ((CanReader.readFrame (shortRead 7) ⟨3, 0, ""⟩).eval p).1.2.map CanFrame.data := by
  intro E n M r p
  have hBytes : Payload.AgreeUpTo 2 (shortFrame 0).data (shortFrame 7).data := by
    unfold Payload.AgreeUpTo
    decide
  have hAgrees : (shortFrame 0).Agrees (shortFrame 7) := ⟨rfl, rfl, rfl, hBytes⟩
  have hMessages : List.Forall₂ (Converter.Agree r.cfg.canTopic M.deserialize) (shortBag 0).messages
      (shortBag 7).messages :=
    .cons (.frames (f := shortFrame 0) rfl rfl rfl rfl hAgrees) .nil
  have hRaw : RawFrame.Agrees ⟨256, 2, (shortFrame 0).data⟩ ⟨256, 2, (shortFrame 7).data⟩ :=
    ⟨rfl, hBytes⟩
  obtain ⟨hNode, hBag, hReader⟩ := beyond_dlc_unused
  exact ⟨by decide, hNode E .listed n _ _ hAgrees,
    hBag M r "mcap" (shortBag 0) (shortBag 7) rfl hMessages ["out"],
    hReader (shortRead 0) (shortRead 7) ⟨3, 0, ""⟩ p p 16 _ _ none none rfl rfl hRaw⟩

end VehicleCanDecoder
