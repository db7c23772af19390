import VehicleCanDecoder.Frames

/-! Which DBC message a frame is decoded as.  A BO_ number marks an extended identifier by bit 31; a
frame has the bare identifier, and its format in a flag.  The decoder looks the bare identifier up
among the BO_ numbers, and the node looks at no flag. -/

namespace VehicleCanDecoder

/-- A remote frame carries no data, and an error frame no message. -/
def Frame.isData (f : Frame) : Bool := !f.isRtr && !f.isError

/-- The identifier of a frame has no flag bit. -/
def Frame.IsBare (f : Frame) : Prop := f.id.toNat < 2 ^ 31

/-- The frame is a data frame with the identifier and the format of the message. -/
def Frame.Matches (f : Frame) (msg : IMessage) : Prop :=
  f.isData ∧ f.IsBare ∧
    msg.id.toNat = if f.isExtended then f.id.toNat + 2 ^ 31 else f.id.toNat

instance (f : Frame) : Decidable f.IsBare := inferInstanceAs (Decidable (_ < _))

instance (f : Frame) (msg : IMessage) : Decidable (f.Matches msg) :=
  inferInstanceAs (Decidable (_ ∧ _))

namespace VehicleCanNode

variable (E : Env) (order : HashOrder) (n : VehicleCanNode) (f : Frame)

/-- The callback decodes the frame by `msg` and publishes what comes of it. -/
def DecodedAs (msg : IMessage) : Prop :=
  ∃ stamp, E.rclcpp.time f.header.stamp = .ok stamp ∧ n.decoder.messageFor f.id = some msg ∧
    n.onCanFrame E order f = .ok (n.cleared.publishDecoded E order f.id stamp
      (DbcDecoder.decodeSignals msg f.id (toCanFrame f).data))

/-- The callback counts the frame as unknown, and does nothing else. -/
def CountedUnknown : Prop :=
  n.onCanFrame E order f = .ok
    ({ n with framesReceived := n.framesReceived + 1, framesUnknown := n.framesUnknown + 1 }, [])

/-- A frame is decoded as the messages that it matches, and unknown without one. -/
def Identifies (network : INetwork) : Prop :=
  (∀ msg ∈ network.messages, DecodedAs E order n f msg ↔ f.Matches msg) ∧
    ((∀ msg ∈ network.messages, ¬ f.Matches msg) → CountedUnknown E order n f)

/-- Where the lookup of the bare identifier is right: the stamp is accepted, and unless the frame is
a standard data frame, the DBC has neither its bare identifier nor a message that it matches. -/
def LooksUpRightly (f : Frame) (network : INetwork) : Prop :=
  0 ≤ f.header.stamp.sec.toInt ∧
    ((f.isData ∧ f.IsBare ∧ f.isExtended = false) ∨
      ∀ msg ∈ network.messages, msg.id.toNat ≠ f.id.toNat ∧ ¬ f.Matches msg)

variable {E order n f}

theorem decodedAs_iff {stamp : Time} (hStamp : E.rclcpp.time f.header.stamp = .ok stamp)
    (msg : IMessage) : DecodedAs E order n f msg ↔ n.decoder.messageFor f.id = some msg := by
  constructor
  · rintro ⟨_, -, h, -⟩
    exact h
  · intro h
    refine ⟨stamp, hStamp, h, ?_⟩
    have hDecode : n.decoder.decode (toCanFrame f).id (toCanFrame f).data (toCanFrame f).dlc =
        some (DbcDecoder.decodeSignals msg f.id (toCanFrame f).data) := by
      show (n.decoder.messageFor f.id).map _ = _
      rw [h]
      rfl
    unfold onCanFrame
    rw [hStamp]
    exact congrArg Except.ok (processFrame_decoded order n (toCanFrame f) stamp hDecode)

theorem countedUnknown_of_none {stamp : Time} (hStamp : E.rclcpp.time f.header.stamp = .ok stamp)
    (h : n.decoder.messageFor f.id = none) : CountedUnknown E order n f := by
  have hDecode : n.decoder.decode (toCanFrame f).id (toCanFrame f).data (toCanFrame f).dlc =
      none := by
    show (n.decoder.messageFor f.id).map _ = _
    rw [h]
    rfl
  unfold CountedUnknown onCanFrame
  rw [hStamp]
  exact congrArg Except.ok (processFrame_unknown order n (toCanFrame f) stamp hDecode)

theorem id_eq_iff (msg : IMessage) : msg.id = f.id.toUInt64 ↔ msg.id.toNat = f.id.toNat := by
  rw [← UInt64.toNat_inj, UInt32.toNat_toUInt64]

section Loaded

variable {d : DbcDecoder} {network : INetwork} {ok : Bool}
  (hLoad : d.load (.parsed network) = some (n.decoder, ok))

include hLoad in
theorem messageFor_eq_none_iff : n.decoder.messageFor f.id = none ↔
    ∀ msg ∈ network.messages, msg.id.toNat ≠ f.id.toNat := by
  rw [DbcDecoder.messageFor_parsed hLoad, List.find?_eq_none]
  simp only [decide_eq_true_eq, id_eq_iff, ne_eq]

include hLoad in
/-- Of messages with distinct numbers, the one with the bare identifier is found. -/
theorem messageFor_eq_some_iff (hDistinct : (network.messages.map IMessage.id).Nodup)
    {msg : IMessage} (hMsg : msg ∈ network.messages) :
    n.decoder.messageFor f.id = some msg ↔ msg.id.toNat = f.id.toNat := by
  rw [DbcDecoder.messageFor_parsed hLoad]
  constructor
  · intro h
    simpa [id_eq_iff] using List.find?_some h
  · intro h
    have hSome : (network.messages.find? (·.id = f.id.toUInt64)).isSome := by
      rw [List.find?_isSome]
      exact ⟨msg, hMsg, decide_eq_true ((id_eq_iff msg).mpr h)⟩
    obtain ⟨found, hFound⟩ := Option.isSome_iff_exists.mp hSome
    have hSame : found.id = msg.id := by
      have hId := List.find?_some hFound
      simp only [decide_eq_true_eq] at hId
      rw [hId, (id_eq_iff msg).mpr h]
    rw [hFound]
    exact congrArg some (List.inj_on_of_nodup_map hDistinct (List.mem_of_find?_eq_some hFound)
      hMsg hSame)

theorem throws_of_negative (hTime : E.rclcpp.TimeDocumented)
    (hSec : f.header.stamp.sec.toInt < 0) : ∃ e, n.onCanFrame E order f = .error e := by
  obtain ⟨e, he⟩ := (hTime.throws _).mpr hSec
  exact ⟨e, by rw [onCanFrame, he]; rfl⟩

include hLoad in
/-- A frame is identified exactly where the lookup of the bare identifier is right. -/
theorem identifies_iff (hTime : E.rclcpp.TimeDocumented)
    (hDistinct : (network.messages.map IMessage.id).Nodup) :
    Identifies E order n f network ↔ LooksUpRightly f network := by
  by_cases hSec : 0 ≤ f.header.stamp.sec.toInt
  · obtain ⟨stamp, hStamp⟩ := hTime.exists_time hSec
    have hDecoded : ∀ msg ∈ network.messages,
        (DecodedAs E order n f msg ↔ msg.id.toNat = f.id.toNat) := fun msg hMsg =>
      (decodedAs_iff hStamp msg).trans (messageFor_eq_some_iff hLoad hDistinct hMsg)
    have hUnknown : (∀ msg ∈ network.messages, msg.id.toNat ≠ f.id.toNat) →
        CountedUnknown E order n f := fun h =>
      countedUnknown_of_none hStamp ((messageFor_eq_none_iff hLoad).mpr h)
    constructor
    · rintro ⟨hMatches, -⟩
      refine ⟨hSec, ?_⟩
      by_cases hStandard : f.isData ∧ f.IsBare ∧ f.isExtended = false
      · exact .inl hStandard
      · -- The frame would have to match a message with its bare identifier.
        have hNot : ∀ msg ∈ network.messages, ¬ f.Matches msg := by
          intro msg hMsg hMatch
          have hId := (hDecoded msg hMsg).mp ((hMatches msg hMsg).mpr hMatch)
          obtain ⟨hData, hBare, hNumber⟩ := hMatch
          cases hExtended : f.isExtended with
          | false => exact hStandard ⟨hData, hBare, hExtended⟩
          | true =>
            rw [hExtended, if_pos rfl] at hNumber
            omega
        exact .inr fun msg hMsg => ⟨fun hId => hNot msg hMsg
          ((hMatches msg hMsg).mp ((hDecoded msg hMsg).mpr hId)), hNot msg hMsg⟩
    · rintro ⟨-, hStandard | hNeither⟩
      · have hIff : ∀ msg ∈ network.messages, (DecodedAs E order n f msg ↔ f.Matches msg) := by
          intro msg hMsg
          rw [hDecoded msg hMsg, Frame.Matches, hStandard.2.2]
          simp [hStandard.1, hStandard.2.1]
        exact ⟨hIff, fun hNone => hUnknown fun msg hMsg hId =>
          hNone msg hMsg ((hIff msg hMsg).mp ((hDecoded msg hMsg).mpr hId))⟩
      · refine ⟨fun msg hMsg => iff_of_false ?_ (hNeither msg hMsg).2, fun _ => hUnknown fun msg hMsg =>
          (hNeither msg hMsg).1⟩
        rw [hDecoded msg hMsg]
        exact (hNeither msg hMsg).1
  · obtain ⟨e, hThrows⟩ : ∃ e, n.onCanFrame E order f = .error e :=
      throws_of_negative hTime (not_le.mp hSec)
    refine iff_of_false ?_ fun h => hSec h.1
    rintro ⟨hMatches, hUnknown⟩
    by_cases hSome : ∃ msg ∈ network.messages, f.Matches msg
    · obtain ⟨msg, hMsg, hMatch⟩ := hSome
      obtain ⟨stamp, -, -, hOk⟩ := (hMatches msg hMsg).mpr hMatch
      rw [hThrows] at hOk
      contradiction
    · have hOk := hUnknown fun msg hMsg hMatch => hSome ⟨msg, hMsg, hMatch⟩
      rw [CountedUnknown, hThrows] at hOk
      contradiction

end Loaded

/-- A data frame. -/
def dataFrame (id : UInt32) (isExtended : Bool) : Frame where
  header := ⟨⟨0, 0⟩, ""⟩
  id
  isRtr := false
  isExtended
  isError := false
  dlc := 8
  data := Payload.zeros

/-- The DBC has the message as extended 0x123; the extended frame 0x123 is counted as unknown. -/
theorem extended_unknown :
    let E := sampleEnv (sampleNetwork 0x80000123)
    let n := sampleNode (sampleNetwork 0x80000123) sampleOverrides
    let f := dataFrame 0x123 true
    Constructed E sampleOverrides n ∧
      (∀ msg ∈ (sampleNetwork 0x80000123).messages, f.Matches msg) ∧
      CountedUnknown E .listed n f ∧ ¬ Identifies E .listed n f (sampleNetwork 0x80000123) := by
  intro E n f
  have hMatches : ∀ msg ∈ (sampleNetwork 0x80000123).messages, f.Matches msg := by
    intro msg hMsg
    obtain rfl := List.mem_singleton.mp hMsg
    decide
  refine ⟨⟨.listed, ⟨0, 0⟩, _, rfl⟩, hMatches, rfl, fun hIdentifies => ?_⟩
  obtain ⟨stamp, -, hFound, -⟩ := (hIdentifies.1 _ List.mem_cons_self).mpr
    (hMatches _ List.mem_cons_self)
  have hNone : n.decoder.messageFor f.id = none := rfl
  rw [hNone] at hFound
  contradiction

theorem identifies_iff_sample :
    Identifies (sampleEnv (sampleNetwork 256)) .listed
        (sampleNode (sampleNetwork 256) sampleOverrides) (dataFrame 256 false)
        (sampleNetwork 256) ↔ LooksUpRightly (dataFrame 256 false) (sampleNetwork 256) :=
  have hLoad : DbcDecoder.fresh.load (.parsed (sampleNetwork 256)) =
      some ((sampleNode (sampleNetwork 256) sampleOverrides).decoder, true) := rfl
  identifies_iff hLoad Rclcpp.documented_time (by decide)

end VehicleCanNode

end VehicleCanDecoder
