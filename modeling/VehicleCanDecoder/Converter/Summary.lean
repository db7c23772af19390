import VehicleCanDecoder.Converter.Replay
import VehicleCanDecoder.Converter.Typing

/-! The summary that the converter prints, and the diagnostics of a live node that takes the frames
of the same recording.  Both count the same.  The live node passes over a signal that fails, and the
converter stops at it, unless the signal has no domain. -/

namespace VehicleCanDecoder

/-- A frame of which a signal with a domain fails. -/
def VehicleCanNode.LosesSignal (E : Env) (n : VehicleCanNode) (f : Frame) : Prop :=
  let frame := toCanFrame f
  ∃ decoded, n.decoder.decode frame.id frame.data frame.dlc = some decoded ∧
    ∃ raw ∈ decoded, (n.path E).Throws frame.id raw

namespace Converter

open Hoare

/-! ### The counters of a conversion -/

def decodes (decoder : DbcDecoder) (f : Frame) : Bool :=
  (decoder.decode f.id (payload f).1 (payload f).2).isSome

/-- Between two views, some frames and some groups have been counted. -/
structure Counted (decoder : DbcDecoder) (frames : List Frame) (groups : Nat) (v v' : View) :
    Prop where
  framesIn : v'.framesIn = v.framesIn + frames.length
  framesDecoded : v'.framesDecoded = v.framesDecoded + frames.countP (decodes decoder)
  framesUnknown : v'.framesUnknown = v.framesUnknown + frames.countP (! decodes decoder ·)
  groupsOut : v'.groupsOut = v.groupsOut + groups

section Counters

variable {C : ConvertEnv} {cfg : Config} {decoder : DbcDecoder} {router : SignalRouter}
  {t₀ : SignalTransformer} {topicOf : UnorderedMap ByteString ByteString}

theorem Counted.refl (decoder : DbcDecoder) (v : View) : Counted decoder [] 0 v v :=
  ⟨rfl, rfl, rfl, rfl⟩

theorem Counted.trans {frames frames' : List Frame} {groups groups' : Nat} {v v' v'' : View}
    (h : Counted decoder frames groups v v') (h' : Counted decoder frames' groups' v' v'') :
    Counted decoder (frames ++ frames') (groups + groups') v v'' where
  framesIn := by rw [h'.framesIn, h.framesIn, List.length_append, Nat.add_assoc]
  framesDecoded := by rw [h'.framesDecoded, h.framesDecoded, List.countP_append, Nat.add_assoc]
  framesUnknown := by rw [h'.framesUnknown, h.framesUnknown, List.countP_append, Nat.add_assoc]
  groupsOut := by rw [h'.groupsOut, h.groupsOut, Nat.add_assoc]

/-- A message counts as its frame, and what is generated for it as groups. -/
theorem Segment.counted {msg : BagMessage} {kind : Kind} {out : List (Origin × BagMessage)}
    (h : Segment C cfg decoder router t₀ topicOf msg kind out) (v : View) :
    Counted decoder (frameOf C cfg msg).toList (out.filterMap asGenerated).length v
      (v.after kind out) := by
  cases h with
  | recorded hTopic =>
    have hNone : frameOf C cfg msg = none := if_neg hTopic
    rw [hNone]
    exact ⟨rfl, rfl, rfl, rfl⟩
  | @unknown f hTopic hFrame hDecode =>
    have hSome : frameOf C cfg msg = some f := by simp [frameOf, hTopic, hFrame, Except.toOption]
    have hDecodes : decodes decoder f = false := by simp [decodes, hDecode]
    rw [hSome]
    constructor <;> simp [View.after, View.wrote, hDecodes]
  | @decoded f decoded entries hTopic hFrame hDecode hTransforms hGroups =>
    have hSome : frameOf C cfg msg = some f := by simp [frameOf, hTopic, hFrame, Except.toOption]
    have hDecodes : decodes decoder f = true := by simp [decodes, hDecode]
    have hGenerated : ((entries.flatMap (written topicOf f.header.stamp)).filterMap
        asGenerated).length = (entries.flatMap (written topicOf f.header.stamp)).length := by
      rw [List.filterMap_flatMap, List.length_flatMap, List.length_flatMap]
      congr 1
      refine List.map_congr_left fun e _ => ?_
      unfold written
      cases topicOf.lookup e.1 <;> rfl
    rw [hSome]
    constructor <;> simp [View.after, View.wrote, hDecodes, hGenerated]

theorem segments_counted {messages : List BagMessage}
    {segments : List (Kind × List (Origin × BagMessage))}
    (h : List.Forall₂ (fun msg seg => Segment C cfg decoder router t₀ topicOf msg seg.1 seg.2)
      messages segments) (v : View) :
    Counted decoder (messages.filterMap (frameOf C cfg))
      ((segments.flatMap Prod.snd).filterMap asGenerated).length v (v.afterAll segments) := by
  induction h generalizing v with
  | nil => exact .refl decoder v
  | @cons msg seg messages segments hSegment hRest ih =>
    rw [filterMap_cons_toList, List.flatMap_cons, List.filterMap_append, List.length_append]
    exact (hSegment.counted v).trans (ih (v.after seg.1 seg.2))

/-- A conversion that comes to its end has counted the frames of its input, and the messages that it
has generated. -/
theorem convertBag_counted {bag : InputBag} {calls : Nat} {s : State}
    (hRun : convertBag C cfg decoder router bag (State.opened calls t₀) = .ok ⟨⟩ s) :
    let frames := bag.messages.filterMap (frameOf C cfg)
    ∃ segments, List.Forall₂ (fun msg seg => Segment C cfg decoder router t₀
          (domainToTopic C.schemaOrder cfg) msg seg.1 seg.2) bag.messages segments ∧
      s.framesIn = frames.length ∧ s.framesDecoded = frames.countP (decodes decoder) ∧
      s.framesUnknown = frames.countP (! decodes decoder ·) ∧
      s.groupsOut = ((segments.flatMap Prod.snd).filterMap asGenerated).length := by
  obtain ⟨segments, hSegments, hView⟩ := (convertBag_view bag calls).ok rfl hRun
  obtain ⟨hFramesIn, hDecoded, hUnknown, hGroups⟩ :=
    segments_counted hSegments (View.ready C cfg t₀ bag.topics)
  rw [← hView, View.ready_rest] at hFramesIn hDecoded hUnknown hGroups
  simp only [State.view, State.opened, Nat.zero_add] at hFramesIn hDecoded hUnknown hGroups
  exact ⟨segments, hSegments, hFramesIn, hDecoded, hUnknown, hGroups⟩

/-- Where the frames can be read, a message fails just if its frame has a signal that is lost. -/
theorem fails_iff {msg : BagMessage}
    (hRead : msg.topicName = cfg.canTopic → ∃ f, C.deserialize msg.serializedData = .ok f) :
    Fails C cfg decoder router t₀ msg ↔ ∃ f ∈ frameOf C cfg msg, ∃ decoded,
      decoder.decode f.id (payload f).1 (payload f).2 = some decoded ∧
        ∃ raw ∈ decoded, (path cfg router t₀ C).Throws f.id raw := by
  by_cases hTopic : msg.topicName = cfg.canTopic
  · obtain ⟨f, hFrame⟩ := hRead hTopic
    have hSome : frameOf C cfg msg = some f := by simp [frameOf, hTopic, hFrame, Except.toOption]
    simp [Fails, hTopic, hFrame, hSome]
  · have hNone : frameOf C cfg msg = none := if_neg hTopic
    simp [Fails, hTopic, hNone]

/-- A conversion none of whose calls fails comes to its end just if no message does. -/
theorem convertBag_ends_iff (bag : InputBag) (calls : Nat) (hFault : ∀ k, C.fault k = none) :
    (∃ s, convertBag C cfg decoder router bag (State.opened calls t₀) = .ok ⟨⟩ s) ↔
      ∀ msg ∈ bag.messages, ¬ Fails C cfg decoder router t₀ msg := by
  constructor
  · rintro ⟨s, hRun⟩
    exact convertBag_not_fails hRun
  · exact convertBag_ends bag calls hFault

end Counters

/-! ### The counters of the live node -/

section Node

variable {E : Env} {overrides : Overrides} {start n : VehicleCanNode} {callbacks : List Callback}

theorem outcomes_eq (E : Env) (start : VehicleCanNode) (callbacks : List Callback) :
    VehicleCanNode.outcomes E start callbacks = (callbacks.filterMap Callback.message).map
      fun f => start.outcome E (VehicleCanNode.toCanFrame f) := by
  have hFrames : callbacks.filterMap Callback.frame =
      (callbacks.filterMap Callback.message).map VehicleCanNode.toCanFrame := by
    rw [List.map_filterMap]
    congr 1
    funext c
    cases c <;> rfl
  rw [VehicleCanNode.outcomes, hFrames, List.map_map]
  rfl

theorem outcome_isSome (f : Frame) :
    (start.outcome E (VehicleCanNode.toCanFrame f)).isSome = decodes start.decoder f := by
  rw [VehicleCanNode.outcome, Option.isSome_map, decodes, payload_eq]
  rfl

/-- A run counts its frames. -/
theorem spin_counters (hStart : VehicleCanNode.Constructed E overrides start)
    (hRun : start.spin E callbacks = .ok n) :
    let frames := callbacks.filterMap Callback.message
    n.framesReceived = frames.length ∧ n.framesDecoded = frames.countP (decodes start.decoder) ∧
      n.framesUnknown = frames.countP (! decodes start.decoder ·) ∧
      n.decodeErrors = (frames.map fun f =>
        (start.outcome E (VehicleCanNode.toCanFrame f)).getD 0).sum := by
  have hTally := VehicleCanNode.spin_tally hRun
  rw [hStart.tally, Tally.foldl_count, outcomes_eq] at hTally
  simpa only [VehicleCanNode.tally, Tally.zero, Nat.zero_add, Tally.mk.injEq, List.length_map,
    List.countP_map, List.map_map, Function.comp_def, outcome_isSome,
    ← Option.not_isSome] using hTally

/-- A run without a decode error has lost no signal. -/
theorem not_losesSignal (hStart : VehicleCanNode.Constructed E overrides start)
    (hRun : start.spin E callbacks = .ok n) (hErrors : n.decodeErrors = 0) :
    ∀ f ∈ callbacks.filterMap Callback.message, ¬ start.LosesSignal E f := by
  obtain ⟨-, -, -, hSum⟩ := spin_counters hStart hRun
  rw [hErrors, eq_comm, List.sum_eq_zero_iff_forall_eq_nat] at hSum
  rintro f hf ⟨decoded, hDecode, raw, hRaw, -, e, hThrows⟩
  have hFailed := hSum _ (List.mem_map_of_mem hf)
  rw [VehicleCanNode.outcome, hDecode, Option.map_some, Option.getD_some, VehicleCanNode.failed,
    List.countP_eq_zero] at hFailed
  refine hFailed raw hRaw ?_
  simp only [SignalPath.pass, hThrows, Option.isNone_none]

variable {C : ConvertEnv} {cfg : Config} {router : SignalRouter} {t₀ : SignalTransformer}

/-- A conversion none of whose calls fails, of frames that can be read, comes to its end just if no
frame has a signal that is lost. -/
theorem ends_iff_losesSignal (hPath : path cfg router t₀ C = start.path E) (bag : InputBag)
    (calls : Nat) (hFault : ∀ k, C.fault k = none)
    (hRead : ∀ msg ∈ bag.messages, msg.topicName = cfg.canTopic →
      ∃ f, C.deserialize msg.serializedData = .ok f) :
    (∃ s, convertBag C cfg start.decoder router bag (State.opened calls t₀) = .ok ⟨⟩ s) ↔
      ∀ f ∈ bag.messages.filterMap (frameOf C cfg), ¬ start.LosesSignal E f := by
  rw [convertBag_ends_iff bag calls hFault]
  constructor
  · intro hAll f hf hLoses
    obtain ⟨msg, hMsg, hFrame⟩ := List.mem_filterMap.mp hf
    refine hAll msg hMsg ((fails_iff (hRead msg hMsg)).mpr ⟨f, hFrame, ?_⟩)
    rw [payload_eq, hPath]
    exact hLoses
  · intro hNone msg hMsg hFails
    obtain ⟨f, hFrame, hLoses⟩ := (fails_iff (hRead msg hMsg)).mp hFails
    rw [payload_eq, hPath] at hLoses
    exact hNone f (List.mem_filterMap.mpr ⟨msg, hMsg, hFrame⟩) hLoses

end Node

/-- A recording, converted, and its frames taken by a live node with timers in between.  The
conversion comes to its end, where no call fails and all frames can be read, exactly if no signal
with a domain fails, as when the live node counts no decode error; and then its summary is what the
live node has counted and published.  All counts are taken before they wrap. -/
theorem summary_agrees {E : Env} (hDeclare : E.rclcpp.DeclareDocumented)
    (hTime : E.rclcpp.TimeDocumented) {overrides : Overrides} {start : VehicleCanNode}
    (hStart : VehicleCanNode.Constructed E overrides start)
    {Y : YamlCpp} {params : ParamMap} (hSame : SameParameters Y overrides params)
    {C : ConvertEnv} (hExprtk : C.exprtk = E.exprtk) {cfg : Config} {decoder : DbcDecoder}
    {router : SignalRouter} {t₀ : SignalTransformer}
    (hPrepared : Prepared E.exprtk (E.openDbc start.params.dbcFile) Y params cfg decoder router t₀)
    (hPerDomain : start.params.schemaPublishPerDomain = true)
    (hTopics : ∀ d ∈ cfg.domains, d.topic ≠ [])
    (bag : InputBag) (hValid : ∀ f ∈ bag.messages.filterMap (frameOf C cfg), f.header.stamp.Valid)
    {callbacks : List Callback}
    (hFrames : callbacks.filterMap Callback.message = bag.messages.filterMap (frameOf C cfg))
    (calls : Nat) :
    ∃ n, start.spin E callbacks = .ok n ∧
      ((∀ k, C.fault k = none) →
        (∀ msg ∈ bag.messages, msg.topicName = cfg.canTopic →
          ∃ f, C.deserialize msg.serializedData = .ok f) →
        ((∃ s, convertBag C cfg decoder router bag (State.opened calls t₀) = .ok ⟨⟩ s) ↔
            ∀ f ∈ bag.messages.filterMap (frameOf C cfg), ¬ start.LosesSignal E f) ∧
          (n.decodeErrors = 0 →
            ∃ s, convertBag C cfg decoder router bag (State.opened calls t₀) = .ok ⟨⟩ s)) ∧
      ∀ s, convertBag C cfg decoder router bag (State.opened calls t₀) = .ok ⟨⟩ s →
        n.framesReceived = s.framesIn ∧ n.framesDecoded = s.framesDecoded ∧
          n.framesUnknown = s.framesUnknown ∧
          ((start.observed E callbacks).filterMap Effect.asDomain).length = s.groupsOut := by
  obtain ⟨rfl, hPath, hPubs⟩ := hPrepared.agrees hDeclare hStart hSame hExprtk hPerDomain hTopics
  obtain ⟨n, hSpin⟩ := (VehicleCanNode.spin_ok_iff start callbacks).mpr fun f hf =>
    (VehicleCanNode.takesStamp_iff hTime f).mpr (hValid f (hFrames ▸ hf)).1
  obtain ⟨hReceived, hDecoded, hUnknown, -⟩ := spin_counters hStart hSpin
  rw [hFrames] at hReceived hDecoded hUnknown
  refine ⟨n, hSpin, fun hFault hRead => ?_, fun s hRun => ?_⟩
  · have hEnds := ends_iff_losesSignal hPath bag calls hFault hRead
    exact ⟨hEnds, fun hErrors => hEnds.mpr (hFrames ▸ not_losesSignal hStart hSpin hErrors)⟩
  · obtain ⟨segments, hSegments, hFramesIn, hFramesDecoded, hFramesUnknown, hGroups⟩ :=
      convertBag_counted hRun
    obtain ⟨pairs, hPairs, hDomains⟩ :=
      segments_observed hPath hPubs hTime hSegments hValid hFrames
    have hPerm : pairs.Perm ((start.observed E callbacks).filterMap Effect.asDomain) :=
      List.perm_of_filter_eq (fun pair => pair.2.domain) fun domain => by
        rw [hDomains, List.filter_filterMap]
        rfl
    refine ⟨hReceived.trans hFramesIn.symm, hDecoded.trans hFramesDecoded.symm,
      hUnknown.trans hFramesUnknown.symm, ?_⟩
    rw [hGroups, hPairs, List.length_map, hPerm.length_eq]

/-- The sample recording, converted and taken by a live node. -/
theorem summary_agrees_sample :
    let E := VehicleCanNode.sampleEnv (VehicleCanNode.sampleNetwork 256)
    let start := VehicleCanNode.sampleNode (VehicleCanNode.sampleNetwork 256)
      VehicleCanNode.sampleOverrides
    ∃ (s : State) (n : VehicleCanNode),
      convertBag sampleConvertEnv sampleConfig sampleDecoder sampleRouter sampleBag
        (State.opened 0 .empty) = .ok ⟨⟩ s ∧
      start.spin E [.schemaTimer .listed ⟨4, 0⟩, .canFrame .listed sampleRosFrame] = .ok n ∧
      n.decodeErrors = 0 ∧ n.framesReceived = s.framesIn ∧ n.framesDecoded = s.framesDecoded := by
  intro E start
  have hStart : VehicleCanNode.Constructed E VehicleCanNode.sampleOverrides start :=
    ⟨.listed, ⟨0, 0⟩, _, rfl⟩
  have hSent : [.schemaTimer .listed ⟨4, 0⟩, .canFrame .listed sampleRosFrame].filterMap
      Callback.message = sampleBag.messages.filterMap (frameOf sampleConvertEnv sampleConfig) := by
    rw [sampleBag_frames]
    rfl
  obtain ⟨n, hSpin, hEnds, hCounters⟩ := summary_agrees Rclcpp.documented_declare
    Rclcpp.documented_time hStart sampleParams_same (C := sampleConvertEnv) rfl sample_prepared rfl
    (by decide) sampleBag sampleBag_valid hSent 0
  have hErrors : n.decodeErrors = 0 := by
    obtain rfl := Except.ok.inj hSpin
    rfl
  obtain ⟨s, hRun⟩ := (hEnds (fun _ => rfl) sampleBag_read).2 hErrors
  obtain ⟨hReceived, hDecoded, -⟩ := hCounters s hRun
  exact ⟨s, n, hRun, hSpin, hErrors, hReceived, hDecoded⟩

end Converter

end VehicleCanDecoder
