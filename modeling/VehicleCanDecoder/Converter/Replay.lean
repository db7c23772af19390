import VehicleCanDecoder.Accepted
import VehicleCanDecoder.Converter.NameIds
import VehicleCanDecoder.Converter.Outputs
import Mathlib.Data.List.TakeWhile

/-! Two ways from a recording to the groups of its signals: converting it, and feeding its frames to
a live node.  The converter accepts every configuration that the node accepts, and both ways give
the same groups on the same topics, domain by domain and in the same order. -/

namespace VehicleCanDecoder

namespace Converter

open Hoare

/-! ### The same configuration is accepted -/

section Accepts

variable {E : Env} {overrides : Overrides} {start : VehicleCanNode}
  {δ : Type} {M : MainEnv δ} {params : ParamMap}

/-- With the parameters of a launch that the node accepts, and the same files and libraries, `main`
gets as far as the conversion. -/
theorem prepare_of_constructed (hExact : E.rclcpp.DeclareExact)
    (hStart : VehicleCanNode.Constructed E overrides start) (hParams : M.params = .ok params)
    (hSame : SameParameters M.yaml overrides params)
    (hDbc : M.dbc = E.openDbc start.params.dbcFile) (hExprtk : M.exprtk = E.exprtk) :
    ∃ r, M.prepare = .ok (some r) ∧ Prepared E.exprtk (E.openDbc start.params.dbcFile) M.yaml
      params r.cfg r.decoder r.router r.transformer := by
  have hAccepts : Accepts E overrides := by
    obtain ⟨order, now, out, hRun⟩ := hStart
    exact (VehicleCanNode.construct_ok_iff hExact order now).mp ⟨_, hRun⟩
  obtain ⟨order, l, hConfigured, rfl⟩ := hStart.configured hExact.toDeclareDocumented
  obtain ⟨network, hOpen, hLoad⟩ := hConfigured.decoder
  have hFile : (VehicleCanNode.ofLoaded order l (overrides.strings "domain_names")).params.dbcFile =
      overrides.text "dbc_file" "" := congrArg NodeParams.dbcFile hConfigured.params
  have hNames : getSv M.yaml params "signal_id_names" = overrides.strings "signal_id_names" :=
    getSv_eq_list hConfigured hSame (by simp)
  obtain ⟨cfg, hConfig⟩ := buildConfig_returns (hNames.symm ▸ hAccepts.signalIdNames)
  obtain ⟨-, -, hTransforms, -⟩ := buildConfig_agrees hConfigured hSame hConfig
  obtain ⟨t, hConfigure⟩ := (configure_ok_iff E.exprtk M.transformOrder cfg.transforms .empty).mpr
    (hTransforms ▸ hAccepts.transforms)
  rw [hFile, hOpen] at hDbc ⊢
  refine ⟨⟨cfg, l.decoder, (SignalRouter.empty.configure M.routerOrder cfg.domains
    cfg.aliases).1, t⟩, ?_, hConfig, hLoad, ⟨_, rfl⟩, ⟨_, hConfigure⟩⟩
  simp only [MainEnv.prepare, hParams, hConfig, hDbc, hLoad, hExprtk, bind, Except.bind, hConfigure]
  rfl

end Accepts

theorem prepare_of_constructed_sample : ∃ r, brokenEnv.prepare = .ok (some r) := by
  let E := VehicleCanNode.sampleEnv (VehicleCanNode.sampleNetwork 256)
  let n := VehicleCanNode.sampleNode (VehicleCanNode.sampleNetwork 256)
    VehicleCanNode.sampleOverrides
  have hStart : VehicleCanNode.Constructed E VehicleCanNode.sampleOverrides n :=
    ⟨.listed, ⟨0, 0⟩, _, rfl⟩
  obtain ⟨r, hReady, -⟩ := prepare_of_constructed (M := brokenEnv) Rclcpp.documented_exact hStart
    rfl sampleParams_same rfl rfl
  exact ⟨r, hReady⟩

/-! ### The same groups -/

/-- The frame that the loop of the converter finds in a message. -/
def frameOf (C : ConvertEnv) (cfg : Config) (msg : BagMessage) : Option Frame :=
  if msg.topicName = cfg.canTopic then (C.deserialize msg.serializedData).toOption else none

/-- The message that carries a group on a topic. -/
def carrier (pair : ByteString × SignalGroup) : BagMessage :=
  groupMessage pair.2.header.stamp pair.1 pair.2

def asGenerated : Origin × BagMessage → Option BagMessage
  | (.generated, msg) => some msg
  | (.recorded, _) => none

/-- A domain has one group of a frame, or none. -/
theorem Groups.filter_domain {p : SignalPath} {f : Frame} {decoded : List RawSignal}
    {entries : List (ByteString × SignalGroup)} (h : Groups p f decoded entries)
    (domain : ByteString) : entries.filter (·.1 = domain) =
      if p.inDomain f.id decoded domain = [] then []
      else [(domain, groupFor f.header.stamp domain (p.inDomain f.id decoded domain))] := by
  let signals := p.inDomain f.id decoded domain
  have hValue : ∀ sg, (domain, sg) ∈ entries ↔
      (if signals = [] then none else some (groupFor f.header.stamp domain signals)) = some sg := by
    intro sg
    rw [h.mem_iff]
    by_cases hSignals : signals = []
    · simp [signals, hSignals]
    · simp only [signals, hSignals, if_false, ne_eq, not_false_eq_true, true_and,
        Option.some.injEq]
      exact eq_comm
  rw [UnorderedMap.filter_key_of_nodup h.nodup hValue]
  by_cases hSignals : signals = []
  · simp [signals, hSignals]
  · simp [signals, hSignals]

/-- A selection before a function to lists. -/
theorem flatMap_filter_eq {α β : Type} (p : α → Bool) (g : α → List β) (l : List α) :
    (l.filter p).flatMap g = l.flatMap fun a => if p a then g a else [] := by
  induction l with
  | nil => rfl
  | cons a rest ih => cases h : p a <;> simp [h, ih]

theorem filterMap_cons_toList {α β : Type} (f : α → Option β) (a : α) (l : List α) :
    (a :: l).filterMap f = (f a).toList ++ l.filterMap f := by
  cases h : f a <;> simp [h]

section Replay

variable {E : Env} {overrides : Overrides} {start : VehicleCanNode} {C : ConvertEnv}
  {cfg : Config} {router : SignalRouter} {t₀ : SignalTransformer}

/-- What a message with a valid stamp comes to on the live node, by the payload of the converter. -/
theorem perFrame_of_valid {π : Type} (hTime : E.rclcpp.TimeDocumented)
    (out : Header → UInt32 → List RawSignal → List π) {f : Frame} (hValid : f.header.stamp.Valid) :
    start.perFrame E out f =
      match start.decoder.decode f.id (payload f).1 (payload f).2 with
      | none => []
      | some decoded => out ⟨f.header.stamp, ""⟩ f.id decoded := by
  obtain ⟨t, ht⟩ := hTime.exists_time hValid.1
  unfold VehicleCanNode.perFrame
  rw [ht, payload_eq]
  simp only [hTime.roundTrip hValid ht]
  rfl

variable (hPath : path cfg router t₀ C = start.path E)
  (hPubs : start.pubs.domains.lookup = cfg.topicFor)

include hPath hPubs in
/-- What the converter writes for a message, by domain, is what the live node publishes for its
frame. -/
theorem Segment.replayed (hTime : E.rclcpp.TimeDocumented) {msg : BagMessage} {kind : Kind}
    {out : List (Origin × BagMessage)}
    (h : Segment C cfg start.decoder router t₀ (domainToTopic C.schemaOrder cfg) msg kind out)
    (hValid : ∀ f ∈ frameOf C cfg msg, f.header.stamp.Valid) :
    ∃ pairs : List (ByteString × SignalGroup), out.filterMap asGenerated = pairs.map carrier ∧
      ∀ domain, pairs.filter (·.2.domain = domain) =
        (frameOf C cfg msg).toList.flatMap (start.perFrame E (start.domainOut E domain)) := by
  cases h with
  | recorded hTopic => exact ⟨[], rfl, fun domain => by simp [frameOf, hTopic]⟩
  | @unknown f hTopic hFrame hDecode =>
    have hMsg : frameOf C cfg msg = some f := by simp [frameOf, hTopic, hFrame, Except.toOption]
    refine ⟨[], rfl, fun domain => ?_⟩
    rw [hMsg, Option.toList_some, List.flatMap_singleton,
      perFrame_of_valid hTime _ (hValid f hMsg), hDecode]
    rfl
  | @decoded f decoded entries hTopic hFrame hDecode hTransforms hGroups =>
    have hMsg : frameOf C cfg msg = some f := by simp [frameOf, hTopic, hFrame, Except.toOption]
    have hStamp : ∀ e ∈ entries, e.2.header.stamp = f.header.stamp ∧ e.2.domain = e.1 := by
      rintro ⟨domain, sg⟩ he
      obtain ⟨-, rfl⟩ := (hGroups.mem_iff domain sg).mp he
      exact ⟨rfl, rfl⟩
    refine ⟨entries.flatMap fun e => (cfg.topicFor e.1).toList.map (·, e.2), ?_, fun domain => ?_⟩
    · rw [List.map_flatMap, List.filterMap_flatMap]
      refine List.flatMap_congr fun e he => ?_
      simp [written, lookup_domainToTopic, Function.comp_def, carrier, (hStamp e he).1,
        asGenerated]
    · rw [hMsg, Option.toList_some, List.flatMap_singleton,
        perFrame_of_valid hTime _ (hValid f hMsg), hDecode, List.filter_flatMap]
      have hKeep : ∀ e ∈ entries,
          ((cfg.topicFor e.1).toList.map (·, e.2)).filter (fun pair => pair.2.domain = domain) =
            if e.1 = domain then (cfg.topicFor e.1).toList.map (·, e.2) else [] := by
        intro e he
        by_cases hDomain : e.1 = domain <;> simp [(hStamp e he).2, hDomain]
      rw [List.flatMap_congr hKeep]
      have hSelected := flatMap_filter_eq
        (fun e : ByteString × SignalGroup => decide (e.1 = domain))
        (fun e => (cfg.topicFor e.1).toList.map (·, e.2)) entries
      simp only [decide_eq_true_eq] at hSelected
      rw [← hSelected, hGroups.filter_domain, hPath]
      unfold VehicleCanNode.domainOut
      have hTopicFor : start.pubs.domains.lookup domain = cfg.topicFor domain :=
        congrFun hPubs domain
      by_cases hSignals : (start.path E).inDomain f.id decoded domain = []
      · simp [hSignals]
      · simp [hSignals, VehicleCanNode.groupOf, hTopicFor, groupFor]

include hPath hPubs in
theorem segments_replayed (hTime : E.rclcpp.TimeDocumented) {messages : List BagMessage}
    {segments : List (Kind × List (Origin × BagMessage))}
    (h : List.Forall₂ (fun msg seg => Segment C cfg start.decoder router t₀
      (domainToTopic C.schemaOrder cfg) msg seg.1 seg.2) messages segments)
    (hValid : ∀ f ∈ messages.filterMap (frameOf C cfg), f.header.stamp.Valid) :
    ∃ pairs : List (ByteString × SignalGroup),
      (segments.flatMap Prod.snd).filterMap asGenerated = pairs.map carrier ∧
      ∀ domain, pairs.filter (·.2.domain = domain) =
        (messages.filterMap (frameOf C cfg)).flatMap
          (start.perFrame E (start.domainOut E domain)) := by
  induction h with
  | nil => exact ⟨[], rfl, fun _ => rfl⟩
  | @cons msg seg messages segments hSegment hRest ih =>
    rw [filterMap_cons_toList] at hValid ⊢
    obtain ⟨pairs, hPairs, hDomains⟩ := ih fun f hf => hValid f (List.mem_append_right _ hf)
    obtain ⟨here, hHere, hHereDomains⟩ := hSegment.replayed hPath hPubs hTime fun f hf =>
      hValid f (List.mem_append_left _ (Option.mem_toList.mpr hf))
    refine ⟨here ++ pairs, ?_, fun domain => ?_⟩
    · rw [List.flatMap_cons, List.filterMap_append, hHere, hPairs, List.map_append]
    · rw [List.filter_append, hHereDomains, hDomains, List.flatMap_append]

include hPath hPubs in
/-- What the converter has written, by domain, is what a run of the live node publishes. -/
theorem segments_observed (hTime : E.rclcpp.TimeDocumented) {messages : List BagMessage}
    {segments : List (Kind × List (Origin × BagMessage))}
    (h : List.Forall₂ (fun msg seg => Segment C cfg start.decoder router t₀
      (domainToTopic C.schemaOrder cfg) msg seg.1 seg.2) messages segments)
    (hValid : ∀ f ∈ messages.filterMap (frameOf C cfg), f.header.stamp.Valid)
    {callbacks : List Callback}
    (hFrames : callbacks.filterMap Callback.message = messages.filterMap (frameOf C cfg)) :
    ∃ pairs : List (ByteString × SignalGroup),
      (segments.flatMap Prod.snd).filterMap asGenerated = pairs.map carrier ∧
      ∀ domain, pairs.filter (·.2.domain = domain) =
        (start.observed E callbacks).filterMap (Effect.ofDomain domain) := by
  obtain ⟨pairs, hPairs, hDomains⟩ := segments_replayed hPath hPubs hTime h hValid
  refine ⟨pairs, hPairs, fun domain => ?_⟩
  have hTaken : (callbacks.filterMap Callback.message).takeWhile
      (VehicleCanNode.takesStamp E) = callbacks.filterMap Callback.message := by
    rw [List.takeWhile_eq_self_iff, hFrames]
    exact fun f hf => (VehicleCanNode.takesStamp_iff hTime f).mpr (hValid f hf).1
  rw [hDomains, VehicleCanNode.observed_frames (VehicleCanNode.fromFrames_domain start domain),
    hTaken, hFrames]

end Replay

/-- Feeding the frames of a recording to a live node, with timers in between, publishes on the
topics of the domains exactly the groups that converting the recording writes: for each domain the
same groups, on the same topic, in the same order, with the same stamps.  Where no call and no
evaluation fails and all frames can be read, the conversion does end. -/
theorem replay_agrees {E : Env} (hDeclare : E.rclcpp.DeclareDocumented)
    (hTime : E.rclcpp.TimeDocumented) {overrides : Overrides} {start : VehicleCanNode}
    (hStart : VehicleCanNode.Constructed E overrides start)
    {Y : YamlCpp} {params : ParamMap} (hSame : SameParameters Y overrides params)
    {C : ConvertEnv} (hExprtk : C.exprtk = E.exprtk) {cfg : Config} {decoder : DbcDecoder}
    {router : SignalRouter} {t₀ : SignalTransformer}
    (hPrepared : Prepared E.exprtk (E.openDbc start.params.dbcFile) Y params cfg decoder router t₀)
    (hPerDomain : start.params.schemaPublishPerDomain = true)
    (hTopics : ∀ d ∈ cfg.domains, d.topic ≠ [])
    (bag : InputBag) (hValid : ∀ f ∈ bag.messages.filterMap (frameOf C cfg), f.header.stamp.Valid)
    {callbacks : List Callback}
    (hFrames : callbacks.filterMap Callback.message = bag.messages.filterMap (frameOf C cfg))
    (calls : Nat) :
    ((∀ k, C.fault k = none) →
        (∀ msg ∈ bag.messages, msg.topicName = cfg.canTopic →
          ∃ f, C.deserialize msg.serializedData = .ok f) →
        (∀ expression x, ∃ y, (E.exprtk.value expression x).1 = .ok y) →
        ∃ s, convertBag C cfg decoder router bag (State.opened calls t₀) = .ok ⟨⟩ s) ∧
      ∀ s, convertBag C cfg decoder router bag (State.opened calls t₀) = .ok ⟨⟩ s →
        ∃ pairs : List (ByteString × SignalGroup),
          s.writer.messages.filterMap asGenerated = pairs.map carrier ∧
          ∀ domain, pairs.filter (·.2.domain = domain) =
            (start.observed E callbacks).filterMap (Effect.ofDomain domain) := by
  obtain ⟨rfl, hPath, hPubs⟩ := hPrepared.agrees hDeclare hStart hSame hExprtk hPerDomain hTopics
  refine ⟨fun hFault hRead hValue => convertBag_ends bag calls hFault fun msg hMsg hFails => ?_,
    fun s hRun => ?_⟩
  · obtain ⟨f, hf⟩ := hRead msg hMsg hFails.1
    exact not_fails_of_value (hExprtk ▸ hValue) hf hFails
  obtain ⟨segments, hSegments, hView⟩ := (convertBag_view bag calls).ok rfl hRun
  obtain ⟨hMessages, -, -⟩ := (View.ready C cfg t₀ bag.topics).afterAll_keeps segments
  rw [← hView, View.ready_rest] at hMessages
  obtain ⟨pairs, hPairs, hDomains⟩ :=
    segments_observed hPath hPubs hTime hSegments hValid hFrames
  exact ⟨pairs, (congrArg (List.filterMap asGenerated) hMessages).trans hPairs, hDomains⟩

theorem sample_prepared :
    let E := VehicleCanNode.sampleEnv (VehicleCanNode.sampleNetwork 256)
    let n := VehicleCanNode.sampleNode (VehicleCanNode.sampleNetwork 256)
      VehicleCanNode.sampleOverrides
    Prepared E.exprtk (E.openDbc n.params.dbcFile) sampleYaml sampleParams sampleConfig
      sampleDecoder sampleRouter .empty :=
  ⟨rfl, rfl, ⟨.listed, rfl⟩, ⟨.listed, rfl⟩⟩

theorem sampleBag_frames :
    sampleBag.messages.filterMap (frameOf sampleConvertEnv sampleConfig) = [sampleRosFrame] := rfl

theorem sampleBag_read : ∀ msg ∈ sampleBag.messages, msg.topicName = sampleConfig.canTopic →
    ∃ f, sampleConvertEnv.deserialize msg.serializedData = .ok f := by
  intro msg hMsg hCan
  rcases List.mem_cons.mp hMsg with rfl | hMsg
  · exact absurd hCan (by decide)
  · obtain rfl := List.mem_singleton.mp hMsg
    exact ⟨sampleRosFrame, rfl⟩

theorem sampleBag_valid :
    ∀ f ∈ sampleBag.messages.filterMap (frameOf sampleConvertEnv sampleConfig),
      f.header.stamp.Valid := by
  rw [sampleBag_frames]
  decide

/-- The sample recording, converted and replayed with a timer before its frame. -/
theorem replay_agrees_sample :
    let E := VehicleCanNode.sampleEnv (VehicleCanNode.sampleNetwork 256)
    let n := VehicleCanNode.sampleNode (VehicleCanNode.sampleNetwork 256)
      VehicleCanNode.sampleOverrides
    ∃ (s : State) (pairs : List (ByteString × SignalGroup)),
      convertBag sampleConvertEnv sampleConfig sampleDecoder sampleRouter sampleBag
        (State.opened 0 .empty) = .ok ⟨⟩ s ∧
      s.writer.messages.filterMap asGenerated = pairs.map carrier ∧
      pairs.filter (·.2.domain = str "chassis") =
        (n.observed E [.schemaTimer .listed ⟨4, 0⟩, .canFrame .listed sampleRosFrame]).filterMap
          (Effect.ofDomain "chassis") := by
  intro E n
  have hStart : VehicleCanNode.Constructed E VehicleCanNode.sampleOverrides n :=
    ⟨.listed, ⟨0, 0⟩, _, rfl⟩
  have hSent : [.schemaTimer .listed ⟨4, 0⟩, .canFrame .listed sampleRosFrame].filterMap
      Callback.message = sampleBag.messages.filterMap (frameOf sampleConvertEnv sampleConfig) := by
    rw [sampleBag_frames]
    rfl
  have hReplay := replay_agrees Rclcpp.documented_declare Rclcpp.documented_time hStart
    sampleParams_same (C := sampleConvertEnv) rfl sample_prepared rfl (by decide) sampleBag
    sampleBag_valid hSent 0
  obtain ⟨s, hRun⟩ := hReplay.1 (fun _ => rfl) sampleBag_read fun _ x => ⟨x, rfl⟩
  obtain ⟨pairs, hPairs, hDomains⟩ := hReplay.2 s hRun
  exact ⟨s, pairs, hRun, hPairs, hDomains "chassis"⟩

end Converter

end VehicleCanDecoder
