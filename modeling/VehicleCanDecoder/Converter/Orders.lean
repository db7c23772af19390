import VehicleCanDecoder.Converter.Again

/-! What a conversion owes to the orders of the hash tables and to the conversions before it: only
the order in which the groups of one frame are written. -/

namespace VehicleCanDecoder

namespace Converter

open Hoare

/-- Environments with the same libraries: the orders may differ, and which calls fail. -/
structure SameLibraries (C C' : ConvertEnv) : Prop where
  exprtk : C'.exprtk = C.exprtk
  deserialize : C'.deserialize = C.deserialize

/-- The same message has been converted twice. -/
structure SameSegment (seg seg' : Kind × List (Origin × BagMessage)) : Prop where
  kind : seg'.1 = seg.1
  out : seg'.2.Perm seg.2

/-- What has become of each message of a list. -/
def Segments (C : ConvertEnv) (cfg : Config) (decoder : DbcDecoder) (router : SignalRouter)
    (t₀ : SignalTransformer) :
    List BagMessage → List (Kind × List (Origin × BagMessage)) → Prop :=
  List.Forall₂ fun msg seg =>
    Segment C cfg decoder router t₀ (domainToTopic C.schemaOrder cfg) msg seg.1 seg.2

/-- The same has been counted. -/
structure SameCounts (v v' : View) : Prop where
  framesIn : v'.framesIn = v.framesIn
  framesDecoded : v'.framesDecoded = v.framesDecoded
  framesUnknown : v'.framesUnknown = v.framesUnknown
  groupsOut : v'.groupsOut = v.groupsOut
  passthrough : v'.passthrough = v.passthrough

section Orders

variable {C C' : ConvertEnv} {cfg : Config} {decoder : DbcDecoder} {router router' : SignalRouter}
  {t₀ t₀' : SignalTransformer} {topicOf topicOf' : UnorderedMap ByteString ByteString}

/-- The groups of a frame are the same, in some order. -/
theorem Groups.perm {p : SignalPath} {f : Frame} {decoded : List RawSignal}
    {entries entries' : List (ByteString × SignalGroup)} (h : Groups p f decoded entries)
    (h' : Groups p f decoded entries') : entries'.Perm entries := by
  refine (List.perm_ext_iff_of_nodup (.of_map Prod.fst h'.nodup) (.of_map Prod.fst h.nodup)).mpr ?_
  rintro ⟨domain, sg⟩
  rw [h'.mem_iff, h.mem_iff]

/-- What has become of a message does not depend on the orders. -/
theorem Segment.same (hLibraries : SameLibraries C C')
    (hPath : path cfg router' t₀' C' = path cfg router t₀ C)
    (hTopicOf : ∀ domain, topicOf'.lookup domain = topicOf.lookup domain) {msg : BagMessage}
    {kind kind' : Kind} {out out' : List (Origin × BagMessage)}
    (h : Segment C cfg decoder router t₀ topicOf msg kind out)
    (h' : Segment C' cfg decoder router' t₀' topicOf' msg kind' out') :
    SameSegment (kind, out) (kind', out') := by
  have hWritten : ∀ stamp, written topicOf' stamp = written topicOf stamp := by
    intro stamp
    funext e
    rw [written, written, hTopicOf]
  cases h with
  | recorded hTopic =>
    obtain ⟨rfl, rfl⟩ := h'.copies hTopic
    exact ⟨rfl, .refl _⟩
  | unknown hTopic hFrame hDecode =>
    rw [← hLibraries.deserialize] at hFrame
    cases h' with
    | recorded hOff => exact absurd hTopic hOff
    | unknown => exact ⟨rfl, .refl _⟩
    | decoded _ hFrame' hDecode' =>
      obtain rfl := Except.ok.inj (hFrame.symm.trans hFrame')
      rw [hDecode] at hDecode'
      contradiction
  | decoded hTopic hFrame hDecode _ hGroups =>
    rw [← hLibraries.deserialize] at hFrame
    cases h' with
    | recorded hOff => exact absurd hTopic hOff
    | unknown _ hFrame' hDecode' =>
      obtain rfl := Except.ok.inj (hFrame.symm.trans hFrame')
      rw [hDecode] at hDecode'
      contradiction
    | decoded _ hFrame' hDecode' _ hGroups' =>
      obtain rfl := Except.ok.inj (hFrame.symm.trans hFrame')
      obtain rfl := Option.some.inj (hDecode.symm.trans hDecode')
      rw [hPath] at hGroups'
      rw [hWritten]
      exact ⟨rfl, (hGroups.perm hGroups').flatMap_right _⟩

/-- The counters are the same after each message. -/
theorem SameCounts.afterAll {segments segments' : List (Kind × List (Origin × BagMessage))}
    (h : List.Forall₂ SameSegment segments segments') {v v' : View} (hCounts : SameCounts v v') :
    SameCounts (v.afterAll segments) (v'.afterAll segments') := by
  induction h generalizing v v' with
  | nil => exact hCounts
  | @cons seg seg' rest rest' hSeg _ ih =>
    obtain ⟨kind, out⟩ := seg
    obtain ⟨kind', out'⟩ := seg'
    obtain ⟨rfl, hOut⟩ := hSeg
    have hLength : out'.length = out.length := hOut.length_eq
    apply ih
    obtain ⟨hFramesIn, hDecoded, hUnknown, hGroups, hPassthrough⟩ := hCounts
    cases kind' <;> constructor <;> simp [View.after, View.wrote, *]

theorem find?_signalGroupTopic (entries : List (ByteString × ByteString)) (name : ByteString) :
    (entries.map fun e => signalGroupTopic e.2).find? (·.name = name) =
      if name ∈ entries.map Prod.snd then some (signalGroupTopic name) else none := by
  induction entries with
  | nil => rfl
  | cons e rest ih =>
    have hName : (signalGroupTopic e.2).name = e.2 := rfl
    rw [List.map_cons, List.map_cons, List.find?_cons, ih, hName]
    by_cases hHere : e.2 = name
    · simp [hHere]
    · simp only [hHere, decide_false, List.mem_cons, Ne.symm hHere, false_or]

/-- A topic is registered with the same type, in whatever order the domains come. -/
theorem registeredAs_same (C C' : ConvertEnv) (cfg : Config) (inputs : List TopicMetadata)
    (name : ByteString) : registeredAs C' cfg inputs name = registeredAs C cfg inputs name := by
  have hGenerated : name ∈ ((domainToTopic C'.schemaOrder cfg).items C'.topicsOrder).map Prod.snd ↔
      name ∈ ((domainToTopic C.schemaOrder cfg).items C.topicsOrder).map Prod.snd := by
    simp only [List.mem_map, Prod.exists, UnorderedMap.mem_items, lookup_domainToTopic]
  unfold registeredAs registrations
  simp only [List.find?_append, find?_signalGroupTopic, hGenerated]

/-- What has been written in the end, segment by segment. -/
theorem written_of_view {bag : InputBag} {s : State}
    {segments : List (Kind × List (Origin × BagMessage))}
    (hView : s.view = (View.ready C cfg t₀ bag.topics).afterAll segments) :
    s.writer.messages = (segments.map Prod.snd).flatten := by
  obtain ⟨hMessages, -, -⟩ := (View.ready C cfg t₀ bag.topics).afterAll_keeps segments
  rw [← hView, View.ready_rest] at hMessages
  exact hMessages.trans (List.flatMap_def ..)

/-- Two conversions of a bag under one configuration, whatever the orders of the hash tables and
whatever has been converted before: for each message of the bag they write the same, but for the
order of the groups of one frame, on topics that are registered alike, and count the same.  The
second comes to its end if none of its calls fails. -/
theorem convertBag_orders (hLibraries : SameLibraries C C') {order order' : HashOrder}
    (hRouter : router = (SignalRouter.empty.configure order cfg.domains cfg.aliases).1)
    (hRouter' : router' = (SignalRouter.empty.configure order' cfg.domains cfg.aliases).1)
    (hInstalled : t₀'.installed = t₀.installed) {bag : InputBag} {calls : Nat} {s : State}
    (hRun : convertBag C cfg decoder router bag (State.opened calls t₀) = .ok ⟨⟩ s) (calls' : Nat) :
    ((∀ k, C'.fault k = none) →
        ∃ s', convertBag C' cfg decoder router' bag (State.opened calls' t₀') = .ok ⟨⟩ s') ∧
      ∀ s', convertBag C' cfg decoder router' bag (State.opened calls' t₀') = .ok ⟨⟩ s' →
        (∃ segments segments', Segments C cfg decoder router t₀ bag.messages segments ∧
          Segments C' cfg decoder router' t₀' bag.messages segments' ∧
          List.Forall₂ SameSegment segments segments' ∧
          s.writer.messages = (segments.map Prod.snd).flatten ∧
          s'.writer.messages = (segments'.map Prod.snd).flatten) ∧
        (∀ name, s'.writer.topics.lookup name = s.writer.topics.lookup name) ∧
        SameCounts s.view s'.view := by
  have hPath : path cfg router' t₀' C' = path cfg router t₀ C := by
    unfold path
    rw [hRouter, hRouter', hLibraries.exprtk]
    exact of_configure C.exprtk hInstalled _ _
  obtain ⟨segments, hSegments, hView⟩ := (convertBag_view bag calls).ok rfl hRun
  refine ⟨fun hFault => convertBag_ends bag calls' hFault fun msg hMsg hFails => ?_,
    fun s' hRun' => ?_⟩
  · obtain ⟨seg, -, hSegment⟩ := (List.forall₂_exists hSegments).1 msg hMsg
    refine hSegment.not_fails ?_
    simpa only [Fails, hLibraries.deserialize, hPath] using hFails
  obtain ⟨segments', hSegments', hView'⟩ := (convertBag_view bag calls').ok rfl hRun'
  have hSame : List.Forall₂ SameSegment segments segments' :=
    List.forall₂_same_left (fun _ _ _ h h' => h.same hLibraries hPath
      (fun domain => by rw [lookup_domainToTopic, lookup_domainToTopic]) h') hSegments hSegments'
  have hReady : SameCounts (View.ready C cfg t₀ bag.topics) (View.ready C' cfg t₀' bag.topics) := by
    rw [View.ready_rest, @View.ready_rest C']
    exact ⟨rfl, rfl, rfl, rfl, rfl⟩
  refine ⟨⟨segments, segments', hSegments, hSegments', hSame, written_of_view hView,
    written_of_view hView'⟩, fun name => ?_, hView ▸ hView' ▸ hReady.afterAll hSame⟩
  rw [(output_of_run hRun).topics, (output_of_run hRun').topics, registeredAs_same]

end Orders

/-- The sample bag again, with all hash tables gone through backwards. -/
theorem convertBag_orders_sample :
    let backwards : HashOrder := ⟨List.reverse, List.reverse_perm⟩
    let C' := { sampleConvertEnv with schemaOrder := backwards, order := fun _ => backwards }
    let router' :=
      (SignalRouter.empty.configure backwards sampleConfig.domains sampleConfig.aliases).1
    ∃ s s' : State,
      convertBag sampleConvertEnv sampleConfig sampleDecoder sampleRouter sampleBag
        (State.opened 0 .empty) = .ok ⟨⟩ s ∧
      convertBag C' sampleConfig sampleDecoder router' sampleBag (State.opened 7 .empty) =
        .ok ⟨⟩ s' ∧
      SameCounts s.view s'.view := by
  intro backwards C' router'
  obtain ⟨s, hRun⟩ : ∃ s, convertBag sampleConvertEnv sampleConfig sampleDecoder sampleRouter
      sampleBag (State.opened 0 .empty) = .ok ⟨⟩ s := exists_ok_of_ends (by decide +kernel)
  have hLibraries : SameLibraries sampleConvertEnv C' := ⟨rfl, rfl⟩
  have hRouter : sampleRouter =
    (SignalRouter.empty.configure .listed sampleConfig.domains sampleConfig.aliases).1 := rfl
  have hRouter' : router' =
    (SignalRouter.empty.configure backwards sampleConfig.domains sampleConfig.aliases).1 := rfl
  have hInstalled : SignalTransformer.empty.installed = SignalTransformer.empty.installed := rfl
  have hBoth := convertBag_orders hLibraries hRouter hRouter' hInstalled hRun 7
  obtain ⟨s', hRun'⟩ := hBoth.1 fun _ => rfl
  obtain ⟨-, -, hCounts⟩ := hBoth.2 s' hRun'
  exact ⟨s, s', hRun, hRun', hCounts⟩

end Converter

end VehicleCanDecoder
