import VehicleCanDecoder.Converter.Loop

/-! What the conversion loop writes for one message of the input.  The specifications speak of a
view of the state that leaves out what no output depends on: the number of calls, the groups between
frames, and the variables of the expressions. -/

namespace VehicleCanDecoder

namespace Converter

open Hoare

structure View where
  writer : Writer
  installed : ByteString → Option (ByteString × ByteString)
  framesIn : Nat
  framesDecoded : Nat
  framesUnknown : Nat
  groupsOut : Nat
  passthrough : Nat

def State.view (s : State) : View where
  writer := s.writer
  installed := s.transformer.installed
  framesIn := s.framesIn
  framesDecoded := s.framesDecoded
  framesUnknown := s.framesUnknown
  groupsOut := s.groupsOut
  passthrough := s.passthrough

def View.wrote (v : View) (out : List (Origin × BagMessage)) : View :=
  { v with writer := { v.writer with messages := v.writer.messages ++ out } }

/-- Nothing has been registered, and no transform installed. -/
structure View.Keeps (v v' : View) : Prop where
  topics : v'.writer.topics = v.writer.topics
  installed : v'.installed = v.installed

variable {C : ConvertEnv}

/-- Some call fails. -/
def ConvertEnv.Faulty (C : ConvertEnv) : Prop := ∃ k, (C.fault k).isSome

/-! ### Calls -/

theorem callOut_view (stop : StdException → Stop) (v : View)
    (g : UnorderedMap ByteString SignalGroup) :
    Triple (fun s => s.view = v ∧ s.groups = g) (callOut C stop)
      (fun _ s => s.view = v ∧ s.groups = g) (fun _ s => C.Faulty ∧ s.view = v) := by
  refine Triple.get_bind fun s₀ hs₀ => ?_
  refine Triple.bind (Triple.set (Q := fun _ s => s.view = v ∧ s.groups = g) fun _ _ => hs₀)
    fun _ => ?_
  cases hFault : C.fault s₀.calls with
  | none => exact Triple.pure fun s hs => hs
  | some e => exact Triple.throw fun s hs => ⟨⟨s₀.calls, by rw [hFault]; rfl⟩, hs.1⟩

/-- A call that does not concern the groups. -/
theorem callOut_view' (stop : StdException → Stop) (v : View) :
    Triple (fun s => s.view = v) (callOut C stop) (fun _ s => s.view = v)
      (fun _ s => C.Faulty ∧ s.view = v) := by
  intro s hs
  have h := callOut_view (C := C) stop v s.groups s ⟨hs, rfl⟩
  split at h
  · exact h.1
  · exact h

theorem write_view (origin : Origin) (msg : BagMessage) (v : View) :
    Triple (fun s => s.view = v) (write C origin msg)
      (fun _ s => s.view = v.wrote [(origin, msg)])
      (fun _ s => (C.Faulty ∨ v.writer.topics.lookup msg.topicName = none) ∧ s.view = v) := by
  refine Triple.bind ((callOut_view' .thrown v).exits fun _ _ he => ⟨.inl he.1, he.2⟩) fun _ => ?_
  refine Triple.get_bind fun s₀ hs₀ => ?_
  subst hs₀
  cases hTopic : s₀.writer.topics.lookup msg.topicName with
  | some topic => exact Triple.set fun _ _ => rfl
  | none =>
    apply Triple.throw
    rintro s rfl
    exact ⟨.inr hTopic, rfl⟩

/-! ### One signal -/

section Signals

variable (cfg : Config) (router : SignalRouter) (t₀ : SignalTransformer)

/-- The configuration of a conversion, as functions. -/
def path (C : ConvertEnv) : SignalPath :=
  SignalPath.of C.exprtk router cfg.signalToDomain t₀ cfg.signalNameToId

/-- The groups with one more decoded signal. -/
def addRaw (C : ConvertEnv) (f : Frame) (g : UnorderedMap ByteString SignalGroup)
    (raw : RawSignal) : UnorderedMap ByteString SignalGroup :=
  match (path cfg router t₀ C).assign f.id raw with
  | some r => g.upsert r.res.domain (addSignal f.header.stamp r.res.domain r.signal)
  | none => g

variable {v : View} (hInstalled : v.installed = t₀.installed)

include hInstalled in
theorem convertSignal_view (f : Frame) (raw : RawSignal)
    (g : UnorderedMap ByteString SignalGroup) :
    Triple (fun s => s.view = v ∧ s.groups = g) (convertSignal C cfg router f raw)
      (fun _ s => ¬ (path cfg router t₀ C).Throws f.id raw ∧ s.view = v ∧
        s.groups = addRaw cfg router t₀ C f g raw)
      (fun _ s => (path cfg router t₀ C).Throws f.id raw ∧ s.view = v) := by
  let p := path cfg router t₀ C
  obtain ⟨res, hRes⟩ : ∃ res, p.resolve raw.name f.id = res := ⟨_, rfl⟩
  have hSource : resolveSignal raw.name f.id router cfg.signalToDomain = res := hRes
  unfold convertSignal addRaw
  simp only [hSource]
  by_cases hAssigned : res.isAssigned = true
  · have hAssign : p.assign f.id raw = p.pass f.id raw :=
      p.assign_of_assigned f.id (hRes ▸ hAssigned)
    rw [if_pos hAssigned]
    refine Triple.get_bind fun s₀ hs₀ => ?_
    obtain ⟨rfl, rfl⟩ := hs₀
    have hSame := SignalTransformer.transform_congr C.exprtk hInstalled res.name raw.value
    have hVariables := SignalTransformer.transform_installed C.exprtk s₀.transformer res.name raw.value
    have hView : ({ s₀ with transformer :=
        (s₀.transformer.transform C.exprtk res.name raw.value).2 } : State).view = s₀.view := by
      simp only [State.view, hVariables]
    have hValue : p.transform res.name raw.value =
        (s₀.transformer.transform C.exprtk res.name raw.value).1.map TransformResult.value := by
      rw [hSame]
      rfl
    refine Triple.bind (Triple.set (Q := fun _ s => s.view = s₀.view ∧ s.groups = s₀.groups)
      fun _ _ => ⟨hView, rfl⟩) fun _ => ?_
    cases hResult : (s₀.transformer.transform C.exprtk res.name raw.value).1 with
    | error e =>
      refine Triple.throw fun s hs => ⟨⟨hRes ▸ hAssigned, e, ?_⟩, hs.1⟩
      rw [hResult] at hValue
      exact hRes ▸ hValue
    | ok result =>
      rw [hResult] at hValue
      have hPass : p.pass f.id raw =
          some ⟨res, result.value, ⟨p.nameId res.name, result.value.toSingle⟩⟩ := by
        simp only [SignalPath.pass, hRes, hValue, Except.map]
      refine Triple.modify fun s hs => ⟨?_, hs.1, ?_⟩
      · rintro ⟨-, e, he⟩
        rw [hRes, hValue] at he
        contradiction
      · rw [hAssign, hPass, ← hs.2]
        subst hRes
        rfl
  · have hNone : p.assign f.id raw = none :=
      p.assign_of_not_assigned f.id (hRes ▸ Bool.eq_false_iff.mpr hAssigned)
    rw [if_neg hAssigned, hNone]
    refine Triple.pure fun s hs => ⟨fun hThrows => hAssigned ?_, hs⟩
    rw [← hRes]
    exact hThrows.1

/-- The loop over the decoded signals collects them by domain, or stops at one that throws. -/
theorem convertSignals_view (hInstalled : v.installed = t₀.installed) (f : Frame)
    (decoded : List RawSignal) (g : UnorderedMap ByteString SignalGroup) :
    Triple (fun s => s.view = v ∧ s.groups = g) (decoded.forM (convertSignal C cfg router f))
      (fun _ s => (∀ raw ∈ decoded, ¬ (path cfg router t₀ C).Throws f.id raw) ∧ s.view = v ∧
        s.groups = decoded.foldl (addRaw cfg router t₀ C f) g)
      (fun _ s => (∃ raw ∈ decoded, (path cfg router t₀ C).Throws f.id raw) ∧ s.view = v) := by
  let I : List RawSignal → State → Prop := fun done s =>
    (∀ raw ∈ done, ¬ (path cfg router t₀ C).Throws f.id raw) ∧ s.view = v ∧
      s.groups = done.foldl (addRaw cfg router t₀ C f) g
  refine (Triple.forM I decoded fun done raw rest hSplit => ?_).pre fun s hs => ⟨by simp, hs⟩
  refine Triple.assume fun hDone => ?_
  refine (convertSignal_view cfg router t₀ hInstalled f raw _).weaken ?_ ?_
  · intro _ s hs
    rcases hs with ⟨hHere, hView, hGroups⟩
    refine ⟨fun x hx => ?_, hView, by rw [hGroups, List.foldl_concat]⟩
    rcases List.mem_append.mp hx with hx | hx
    · exact hDone x hx
    · rwa [List.mem_singleton.mp hx]
  · exact fun _ s hs => ⟨⟨raw, by simp [hSplit], hs.1⟩, hs.2⟩

end Signals

/-! ### The groups of a frame -/

/-- The group of the signals of one domain. -/
def groupFor (stamp : Stamp) (domain : ByteString) (signals : List Signal) : SignalGroup :=
  ⟨⟨stamp, ""⟩, domain, signals⟩

theorem addSignal_groupFor (stamp : Stamp) (domain : ByteString) (signals : List Signal)
    (s : Signal) : addSignal stamp domain s (some (groupFor stamp domain signals)) =
      groupFor stamp domain (signals ++ [s]) := by
  by_cases h : domain = [] <;> simp [addSignal, groupFor, h]

theorem addSignal_none (stamp : Stamp) (domain : ByteString) (s : Signal) :
    addSignal stamp domain s none = groupFor stamp domain [s] := by
  simp [addSignal, groupFor, emptyGroup, str]

theorem foldl_addSignal (stamp : Stamp) (domain : ByteString) (l : List PassedSignal)
    (h : ∀ r ∈ l, r.res.domain = domain) (signals : List Signal) :
    l.foldl (fun old r => some (addSignal stamp r.res.domain r.signal old))
        (some (groupFor stamp domain signals)) =
      some (groupFor stamp domain (signals ++ l.map PassedSignal.signal)) := by
  induction l generalizing signals with
  | nil => simp
  | cons r rest ih =>
    rw [List.foldl_cons, h r List.mem_cons_self, addSignal_groupFor,
      ih fun r hr => h r (List.mem_cons_of_mem _ hr)]
    simp

/-- After the loop over the decoded signals, a domain holds its signals, in order, and no entry if
it has none. -/
theorem lookup_foldl_addRaw (cfg : Config) (router : SignalRouter) (t₀ : SignalTransformer)
    (f : Frame) (decoded : List RawSignal) (domain : ByteString) :
    (decoded.foldl (addRaw cfg router t₀ C f) ∅).lookup domain =
      let signals := (path cfg router t₀ C).inDomain f.id decoded domain
      if signals = [] then none else some (groupFor f.header.stamp domain signals) := by
  let p := path cfg router t₀ C
  have hFold : decoded.foldl (addRaw cfg router t₀ C f) ∅ = (p.assigned f.id decoded).foldl
      (fun m r => m.upsert r.res.domain (addSignal f.header.stamp r.res.domain r.signal)) ∅ := by
    rw [p.assigned_eq, List.foldl_filterMap]
    congr 1
    funext g raw
    unfold addRaw
    cases p.assign f.id raw <;> rfl
  rw [hFold, UnorderedMap.lookup_foldl_upsert, AList.lookup_empty]
  unfold SignalPath.inDomain
  cases hRouted : (p.assigned f.id decoded).filter (·.res.domain = domain) with
  | nil => simp
  | cons r rest =>
    have hDomain : ∀ r' ∈ r :: rest, r'.res.domain = domain := by
      rw [← hRouted]
      exact fun r' hr' => of_decide_eq_true (List.mem_filter.mp hr').2
    rw [List.foldl_cons, hDomain r List.mem_cons_self, addSignal_none,
      foldl_addSignal f.header.stamp domain rest fun r' hr' => hDomain r' (List.mem_cons_of_mem r hr')]
    simp

/-! ### One message -/

inductive Kind
  | recorded
  | unknown
  | decoded

/-- The view after a message, by what became of it and what it wrote. -/
def View.after (v : View) (kind : Kind) (out : List (Origin × BagMessage)) : View :=
  match kind with
  | .recorded => { v.wrote out with passthrough := v.passthrough + 1 }
  | .unknown => { v.wrote out with
      framesIn := v.framesIn + 1
      framesUnknown := v.framesUnknown + 1 }
  | .decoded => { v.wrote out with
      framesIn := v.framesIn + 1
      framesDecoded := v.framesDecoded + 1
      groupsOut := v.groupsOut + out.length }

@[simp] theorem View.after_messages (v : View) (kind : Kind) (out : List (Origin × BagMessage)) :
    (v.after kind out).writer.messages = v.writer.messages ++ out := by
  cases kind <;> rfl

@[simp] theorem View.after_topics (v : View) (kind : Kind) (out : List (Origin × BagMessage)) :
    (v.after kind out).writer.topics = v.writer.topics := by
  cases kind <;> rfl

@[simp] theorem View.after_installed (v : View) (kind : Kind)
    (out : List (Origin × BagMessage)) : (v.after kind out).installed = v.installed := by
  cases kind <;> rfl

/-- The view after a run of segments. -/
def View.afterAll (v : View) (segments : List (Kind × List (Origin × BagMessage))) : View :=
  segments.foldl (fun v seg => v.after seg.1 seg.2) v

theorem View.afterAll_keeps (v : View) (segments : List (Kind × List (Origin × BagMessage))) :
    (v.afterAll segments).writer.messages = v.writer.messages ++ segments.flatMap Prod.snd ∧
      (v.afterAll segments).writer.topics = v.writer.topics ∧
      (v.afterAll segments).installed = v.installed := by
  induction segments generalizing v with
  | nil => simp [afterAll]
  | cons seg rest ih =>
    obtain ⟨hMessages, hTopics, hInstalled⟩ := ih (v.after seg.1 seg.2)
    simp only [afterAll, List.foldl_cons] at hMessages hTopics hInstalled ⊢
    rw [hMessages, hTopics, hInstalled]
    simp

theorem View.afterAll_concat (v : View) (segments : List (Kind × List (Origin × BagMessage)))
    (kind : Kind) (out : List (Origin × BagMessage)) :
    v.afterAll (segments ++ [(kind, out)]) = (v.afterAll segments).after kind out :=
  List.foldl_concat ..

/-- What is written for one entry of the groups. -/
def written (topicOf : UnorderedMap ByteString ByteString) (stamp : Stamp)
    (entry : ByteString × SignalGroup) : List (Origin × BagMessage) :=
  (topicOf.lookup entry.1).toList.map fun topic =>
    (.generated, groupMessage stamp topic entry.2)

/-- The groups of a decoded frame: one for each domain with signals. -/
structure Groups (p : SignalPath) (f : Frame) (decoded : List RawSignal)
    (entries : List (ByteString × SignalGroup)) : Prop where
  nodup : (entries.map Prod.fst).Nodup
  mem_iff : ∀ domain sg, (domain, sg) ∈ entries ↔ p.inDomain f.id decoded domain ≠ [] ∧
    sg = groupFor f.header.stamp domain (p.inDomain f.id decoded domain)

/-- The entries that the loop over the groups meets, in any order, are the groups of the frame. -/
theorem groups_of_items {cfg : Config} {router : SignalRouter} {t₀ : SignalTransformer} {f : Frame}
    {decoded : List RawSignal} {groups : UnorderedMap ByteString SignalGroup}
    (hCollected : groups = decoded.foldl (addRaw cfg router t₀ C f) ∅) (order : HashOrder) :
    Groups (path cfg router t₀ C) f decoded (groups.items order) := by
  refine ⟨groups.items_keys_nodup _, fun domain sg => ?_⟩
  rw [UnorderedMap.mem_items, hCollected, lookup_foldl_addRaw]
  simp only [ne_eq]
  split
  · rename_i hEmpty
    simp [hEmpty]
  · rename_i hSome
    rw [Option.some.injEq, and_iff_right hSome]
    exact eq_comm

section Messages

variable (C : ConvertEnv) (cfg : Config) (decoder : DbcDecoder) (router : SignalRouter)
  (t₀ : SignalTransformer) (topicOf : UnorderedMap ByteString ByteString)

/-- What a message that does not fail comes to: its kind, and what is written for it. -/
inductive Segment (msg : BagMessage) : Kind → List (Origin × BagMessage) → Prop
  | recorded (hTopic : msg.topicName ≠ cfg.canTopic) : Segment msg .recorded [(.recorded, msg)]
  | unknown {f} (hTopic : msg.topicName = cfg.canTopic)
      (hFrame : C.deserialize msg.serializedData = .ok f)
      (hDecode : decoder.decode f.id (payload f).1 (payload f).2 = none) :
    Segment msg .unknown []
  | decoded {f decoded entries} (hTopic : msg.topicName = cfg.canTopic)
      (hFrame : C.deserialize msg.serializedData = .ok f)
      (hDecode : decoder.decode f.id (payload f).1 (payload f).2 = some decoded)
      (hTransforms : ∀ raw ∈ decoded, ¬ (path cfg router t₀ C).Throws f.id raw)
      (hGroups : Groups (path cfg router t₀ C) f decoded entries) :
    Segment msg .decoded (entries.flatMap (written topicOf f.header.stamp))

/-- What a message that is not converted to its end leaves: nothing, or the first groups of its
segment. -/
structure Interrupted (msg : BagMessage) (v v' : View) : Prop where
  keeps : v.Keeps v'
  written : ∃ out, v'.writer.messages = v.writer.messages ++ out ∧
    (out = [] ∨ ∃ rest, Segment C cfg decoder router t₀ topicOf msg .decoded (out ++ rest))

/-- A message whose own contents make the conversion fail. -/
def Fails (msg : BagMessage) : Prop :=
  msg.topicName = cfg.canTopic ∧
    ((∃ e, C.deserialize msg.serializedData = .error e) ∨
      ∃ f decoded, C.deserialize msg.serializedData = .ok f ∧
        decoder.decode f.id (payload f).1 (payload f).2 = some decoded ∧
        ∃ raw ∈ decoded, (path cfg router t₀ C).Throws f.id raw)

variable {C cfg decoder router t₀ topicOf} {v : View}

theorem Interrupted.nothing {msg : BagMessage} {v' : View} (hWriter : v'.writer = v.writer)
    (hInstalled : v'.installed = v.installed) :
    Interrupted C cfg decoder router t₀ topicOf msg v v' :=
  ⟨⟨by rw [hWriter], hInstalled⟩, [], by rw [hWriter, List.append_nil], .inl rfl⟩

theorem not_fails_of_decoded {msg : BagMessage} {f : Frame} {decoded : List RawSignal}
    (hFrame : C.deserialize msg.serializedData = .ok f)
    (hDecode : decoder.decode f.id (payload f).1 (payload f).2 = some decoded)
    (hTransforms : ∀ raw ∈ decoded, ¬ (path cfg router t₀ C).Throws f.id raw) :
    ¬ Fails C cfg decoder router t₀ msg := by
  rintro ⟨-, ⟨e, he⟩ | ⟨f', decoded', hFrame', hDecode', raw, hRaw, hThrows⟩⟩
  · rw [hFrame] at he
    contradiction
  · obtain rfl := Except.ok.inj (hFrame.symm.trans hFrame')
    obtain rfl := Option.some.inj (hDecode.symm.trans hDecode')
    exact hTransforms raw hRaw hThrows

theorem Segment.not_fails {msg : BagMessage} {kind : Kind} {out : List (Origin × BagMessage)}
    (h : Segment C cfg decoder router t₀ topicOf msg kind out) :
    ¬ Fails C cfg decoder router t₀ msg := by
  cases h with
  | recorded hTopic => exact fun hFails => hTopic hFails.1
  | unknown hTopic hFrame hDecode =>
    rintro ⟨-, ⟨e, he⟩ | ⟨f', decoded', hFrame', hDecode', -⟩⟩
    · rw [hFrame] at he
      contradiction
    · obtain rfl := Except.ok.inj (hFrame.symm.trans hFrame')
      rw [hDecode] at hDecode'
      contradiction
  | decoded hTopic hFrame hDecode hTransforms hGroups =>
    exact not_fails_of_decoded hFrame hDecode hTransforms

theorem writeGroups_view (stamp : Stamp)
    (hTopics : ∀ domain topic, topicOf.lookup domain = some topic →
      v.writer.topics.lookup topic ≠ none) (entries : List (ByteString × SignalGroup)) :
    Triple (fun s => s.view = v) (entries.forM (writeGroup C topicOf stamp))
      (fun _ s => s.view =
        { v.wrote (entries.flatMap (written topicOf stamp)) with
          groupsOut := v.groupsOut + (entries.flatMap (written topicOf stamp)).length })
      (fun _ s => C.Faulty ∧ v.Keeps s.view ∧
        ∃ out rest, entries.flatMap (written topicOf stamp) = out ++ rest ∧
          s.view.writer.messages = v.writer.messages ++ out) := by
  let I : List (ByteString × SignalGroup) → State → Prop := fun done s => s.view =
    { v.wrote (done.flatMap (written topicOf stamp)) with
      groupsOut := v.groupsOut + (done.flatMap (written topicOf stamp)).length }
  refine (Triple.forM I entries fun done entry rest hSplit => ?_).pre fun s hs => ?_
  · unfold writeGroup
    have hAll : entries.flatMap (written topicOf stamp) = done.flatMap (written topicOf stamp) ++
        (entry :: rest).flatMap (written topicOf stamp) := by
      rw [hSplit, List.flatMap_append]
    cases hTopic : topicOf.lookup entry.1 with
    | none =>
      refine Triple.pure fun s hs => ?_
      simpa [I, written, hTopic] using hs
    | some topic =>
      refine Triple.bind ((callOut_view' _ _).exits ?_) fun _ => ?_
      · intro _ s hs
        rcases hs with ⟨hFault, hView⟩
        exact ⟨hFault, hView ▸ ⟨rfl, rfl⟩, _, _, hAll, by rw [hView]; rfl⟩
      · refine Triple.bind ((write_view .generated _ _).exits ?_) fun _ => ?_
        · intro _ s hs
          rcases hs with ⟨hFault | hNone, hView⟩
          · exact ⟨hFault, hView ▸ ⟨rfl, rfl⟩, _, _, hAll, by rw [hView]; rfl⟩
          · exact absurd hNone (hTopics entry.1 topic hTopic)
        · refine Triple.modify fun s hs => ?_
          show { s.view with groupsOut := s.view.groupsOut + 1 } = _
          rw [hs]
          simp [View.wrote, written, hTopic, Nat.add_assoc]
  · simpa [I, View.wrote] using hs

theorem convertFrame_view (hInstalled : v.installed = t₀.installed)
    (hTopics : ∀ domain topic, topicOf.lookup domain = some topic →
      v.writer.topics.lookup topic ≠ none)
    (msg : BagMessage) (hCan : msg.topicName = cfg.canTopic) :
    Triple (fun s => s.view = v) (convertFrame C cfg decoder router topicOf msg)
      (fun _ s => ∃ kind out, Segment C cfg decoder router t₀ topicOf msg kind out ∧
        s.view = v.after kind out)
      (fun _ s => (C.Faulty ∨ Fails C cfg decoder router t₀ msg) ∧
        Interrupted C cfg decoder router t₀ topicOf msg v s.view) := by
  let v₁ : View := { v with framesIn := v.framesIn + 1 }
  refine Triple.bind (Triple.modify (Q := fun _ s => s.view = v₁) ?_) fun _ => ?_
  · rintro s rfl
    rfl
  refine Triple.bind ((callOut_view' .thrown v₁).exits ?_) fun _ => ?_
  · intro _ s hs
    rcases hs with ⟨hFault, hView⟩
    exact ⟨.inl hFault, .nothing (by rw [hView]) (by rw [hView])⟩
  cases hFrame : C.deserialize msg.serializedData with
  | error e =>
    exact Triple.throw fun s hs =>
      ⟨.inr ⟨hCan, .inl ⟨e, hFrame⟩⟩, .nothing (by rw [hs]) (by rw [hs])⟩
  | ok f =>
    cases hDecode : decoder.decode f.id (payload f).1 (payload f).2 with
    | none =>
      simp only [hDecode]
      refine Triple.modify fun s hs => ⟨.unknown, [], .unknown hCan hFrame hDecode, ?_⟩
      show { s.view with framesUnknown := s.view.framesUnknown + 1 } = _
      rw [hs]
      simp [View.after, View.wrote, v₁]
    | some decoded =>
      simp only [hDecode]
      let v₂ : View := { v₁ with framesDecoded := v.framesDecoded + 1 }
      refine Triple.bind (Triple.modify (Q := fun _ s => s.view = v₂ ∧ s.groups = ∅) ?_)
        fun _ => ?_
      · intro s hs
        refine ⟨?_, rfl⟩
        show { s.view with framesDecoded := s.view.framesDecoded + 1 } = _
        rw [hs]
      refine Triple.bind ((convertSignals_view cfg router t₀ (v := v₂) hInstalled f decoded
        ∅).exits ?_) fun _ => ?_
      · intro _ s hs
        rcases hs with ⟨hThrows, hView⟩
        exact ⟨.inr ⟨hCan, .inr ⟨f, decoded, hFrame, hDecode, hThrows⟩⟩,
          .nothing (by rw [hView]) (by rw [hView])⟩
      refine Triple.assume fun hTransforms => Triple.get_bind fun s₀ hs₀ => ?_
      obtain ⟨hView, hCollected⟩ := hs₀
      have hSegment : Segment C cfg decoder router t₀ topicOf msg .decoded _ :=
        .decoded hCan hFrame hDecode hTransforms
          (groups_of_items hCollected (C.order s₀.framesIn))
      refine (writeGroups_view (v := v₂) f.header.stamp hTopics _).conseq ?_ ?_ ?_
      · rintro s rfl
        exact hView
      · exact fun _ s hs => ⟨.decoded, _, hSegment, hs⟩
      · intro _ s hs
        rcases hs with ⟨hFault, hSame, out, rest, hOut, hMessages⟩
        exact ⟨.inl hFault, ⟨hSame.topics, hSame.installed⟩, out, hMessages,
          .inr ⟨rest, hOut ▸ hSegment⟩⟩

/-- The topics that the loop may write to are registered. -/
structure Registered (cfg : Config) (topicOf : UnorderedMap ByteString ByteString)
    (topics : UnorderedMap ByteString TopicMetadata) (messages : List BagMessage) : Prop where
  groups : ∀ domain topic, topicOf.lookup domain = some topic → topics.lookup topic ≠ none
  messages : ∀ msg ∈ messages, msg.topicName ≠ cfg.canTopic → topics.lookup msg.topicName ≠ none

theorem convertMessage_view (hInstalled : v.installed = t₀.installed) {messages : List BagMessage}
    (hRegistered : Registered cfg topicOf v.writer.topics messages) {msg : BagMessage}
    (hMsg : msg ∈ messages) :
    Triple (fun s => s.view = v) (convertMessage C cfg decoder router topicOf msg)
      (fun _ s => ∃ kind out, Segment C cfg decoder router t₀ topicOf msg kind out ∧
        s.view = v.after kind out)
      (fun _ s => (C.Faulty ∨ Fails C cfg decoder router t₀ msg) ∧
        Interrupted C cfg decoder router t₀ topicOf msg v s.view) := by
  have hStays : ∀ {s : State}, s.view = v →
      Interrupted C cfg decoder router t₀ topicOf msg v s.view := by
    rintro s rfl
    exact .nothing rfl rfl
  refine Triple.bind ((callOut_view' .thrown v).exits
    fun _ _ he => ⟨.inl he.1, hStays he.2⟩) fun _ => ?_
  refine Triple.bind ((callOut_view' .thrown v).exits
    fun _ _ he => ⟨.inl he.1, hStays he.2⟩) fun _ => ?_
  by_cases hTopic : msg.topicName ≠ cfg.canTopic
  · rw [if_pos hTopic]
    refine Triple.bind ((write_view .recorded msg v).exits ?_) fun _ => ?_
    · intro _ s hs
      rcases hs with ⟨hFault | hNone, hView⟩
      · exact ⟨.inl hFault, hStays hView⟩
      · exact absurd hNone (hRegistered.messages msg hMsg hTopic)
    · refine Triple.modify fun s hs => ⟨.recorded, _, .recorded hTopic, ?_⟩
      show { s.view with passthrough := s.view.passthrough + 1 } = _
      rw [hs]
      rfl
  · rw [if_neg hTopic]
    exact convertFrame_view hInstalled hRegistered.groups msg (not_not.mp hTopic)

/-- How a loop that stops early stops: after some segments, and within the next one. -/
structure Stopped (C : ConvertEnv) (cfg : Config) (decoder : DbcDecoder) (router : SignalRouter)
    (t₀ : SignalTransformer) (topicOf : UnorderedMap ByteString ByteString) (v : View)
    (messages : List BagMessage) (s : State) : Prop where
  keeps : v.Keeps s.view
  progress : ∃ done rest segments out, messages = done ++ rest ∧
    List.Forall₂ (fun msg seg => Segment C cfg decoder router t₀ topicOf msg seg.1 seg.2)
      done segments ∧
    s.view.writer.messages = v.writer.messages ++ segments.flatMap Prod.snd ++ out ∧
    (out = [] ∨ ∃ msg ∈ rest.head?, ∃ more,
      Segment C cfg decoder router t₀ topicOf msg .decoded (out ++ more)) ∧
    (C.Faulty ∨ ∃ msg ∈ rest.head?, Fails C cfg decoder router t₀ msg)

/-- The loop, without the call of `has_next` that ends it. -/
theorem convertLoop_view (hInstalled : v.installed = t₀.installed)
    {messages : List BagMessage} (hRegistered : Registered cfg topicOf v.writer.topics messages) :
    Triple (fun s => s.view = v) (messages.forM (convertMessage C cfg decoder router topicOf))
      (fun _ s => ∃ segments, List.Forall₂ (fun msg seg =>
          Segment C cfg decoder router t₀ topicOf msg seg.1 seg.2) messages segments ∧
        s.view = v.afterAll segments)
      (fun _ s => Stopped C cfg decoder router t₀ topicOf v messages s) := by
  let I : List BagMessage → State → Prop := fun done s => ∃ segments,
    List.Forall₂ (fun msg seg => Segment C cfg decoder router t₀ topicOf msg seg.1 seg.2)
      done segments ∧ s.view = v.afterAll segments
  refine (Triple.forM I messages fun done msg rest hSplit => ?_).pre fun s hs => ⟨[], .nil, hs⟩
  refine Triple.exists fun segments => Triple.assume fun hDone => ?_
  obtain ⟨hMessages, hTopics, hVariables⟩ := v.afterAll_keeps segments
  refine (convertMessage_view (hVariables.trans hInstalled) (hTopics ▸ hRegistered)
    (by simp [hSplit] : msg ∈ messages)).weaken ?_ ?_
  · intro _ s hs
    rcases hs with ⟨kind, out, hSegment, hView⟩
    refine ⟨segments ++ [(kind, out)], ?_, ?_⟩
    · exact List.rel_append hDone (.cons hSegment .nil)
    · rw [hView, View.afterAll_concat]
  · intro _ s hs
    rcases hs with ⟨hCause, hSame, out, hOut, hPartial⟩
    refine ⟨⟨hSame.topics.trans hTopics, hSame.installed.trans hVariables⟩, done, msg :: rest,
      segments, out, hSplit, hDone, ?_, ?_, ?_⟩
    · rw [hOut, hMessages]
    · exact hPartial.imp_right fun ⟨more, hMore⟩ => ⟨msg, rfl, more, hMore⟩
    · exact hCause.imp_right fun hFails => ⟨msg, rfl, hFails⟩

theorem convertMessages_view (hInstalled : v.installed = t₀.installed)
    {messages : List BagMessage} (hRegistered : Registered cfg topicOf v.writer.topics messages) :
    Triple (fun s => s.view = v) (convertMessages C cfg decoder router topicOf messages)
      (fun _ s => ∃ segments, List.Forall₂ (fun msg seg =>
          Segment C cfg decoder router t₀ topicOf msg seg.1 seg.2) messages segments ∧
        s.view = v.afterAll segments)
      (fun _ s => Stopped C cfg decoder router t₀ topicOf v messages s) := by
  refine Triple.bind (convertLoop_view hInstalled hRegistered) fun _ => ?_
  -- The last call can only fail when all is written.
  refine Triple.exists fun segments => Triple.assume fun hAll => ?_
  obtain ⟨hMessages, hTopics, hVariables⟩ := v.afterAll_keeps segments
  refine (callOut_view' .thrown _).weaken (fun _ s hs => ⟨segments, hAll, hs⟩) ?_
  intro _ s hs
  rcases hs with ⟨hFault, hView⟩
  exact ⟨hView ▸ ⟨hTopics, hVariables⟩, messages, [], segments, [], by simp, hAll,
    by rw [hView, hMessages, List.append_nil], .inl rfl, .inl hFault⟩

end Messages

end Converter

end VehicleCanDecoder
