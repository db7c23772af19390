import VehicleCanDecoder.Counters
import VehicleCanDecoder.Schema
import VehicleCanDecoder.Converter.Agreement

/-! What a node publishes over a whole run, with timers between the frames.  Each frame puts out
what it comes to by itself, so a run publishes what its frames come to, one after the other.
Neither the timers nor the clock show on the topics of the signals; the order of the hash tables
shows only where several domains have one topic, and there only within the groups of one frame. -/

namespace VehicleCanDecoder

/-- The message that a callback is called with. -/
def Callback.message : Callback → Option Frame
  | .canFrame _ msg => some msg
  | _ => none

namespace Effect

/-- A group of one domain. -/
def ofDomain (domain : ByteString) (e : Effect) : Option (ByteString × SignalGroup) :=
  e.asDomain.filter (·.2.domain = domain)

def asSchema : Effect → Option VehicleSchema
  | .publishSchema schema => some schema
  | _ => none

/-- What stands on a topic: the value of a promoted signal, or a group. -/
def onTopic (topic : ByteString) : Effect → Option (Double ⊕ SignalGroup)
  | .publishPromoted t value => if t = topic then some (.inl value) else none
  | .publishDomain t group => if t = topic then some (.inr group) else none
  | .publishAll t group => if t = topic then some (.inr group) else none
  | _ => none

end Effect

/-- What is published with a topic, if it is that topic. -/
def onto {α β : Type} (topic : ByteString) (f : α → β) (p : ByteString × α) : Option β :=
  if p.1 = topic then some (f p.2) else none

namespace VehicleCanNode

/-- What is published until the callbacks end, or until one of them throws. -/
def observed (E : Env) (start : VehicleCanNode) (callbacks : List Callback) : List Effect :=
  Machine.outputs (callback E) start callbacks

section Frames

variable (E : Env)

/-- The stamp of the message is one that `rclcpp::Time` takes. -/
def takesStamp (msg : Frame) : Bool := (E.rclcpp.time msg.header.stamp).isOk

/-- What a message comes to, given what its decoded signals come to. -/
def perFrame {π : Type} (n : VehicleCanNode) (out : Header → UInt32 → List RawSignal → List π)
    (msg : Frame) : List π :=
  match E.rclcpp.time msg.header.stamp with
  | .error _ => []
  | .ok stamp =>
    let frame := toCanFrame msg
    match n.decoder.decode frame.id frame.data frame.dlc with
    | none => []
    | some decoded => out ⟨E.rclcpp.stamp stamp, ""⟩ frame.id decoded

/-- The group of a domain, if it has signals and a publisher. -/
def domainOut (n : VehicleCanNode) (domain : ByteString) (header : Header) (canId : UInt32)
    (decoded : List RawSignal) : List (ByteString × SignalGroup) :=
  let signals := (n.path E).inDomain canId decoded domain
  if signals = [] then [] else groupOf n.pubs header (domain, signals)

def firehoseOut (n : VehicleCanNode) (header : Header) (canId : UInt32)
    (decoded : List RawSignal) : List (ByteString × SignalGroup) :=
  firehoseOf n header (((n.path E).assigned canId decoded).map PassedSignal.signal)

def promotedOut (n : VehicleCanNode) (_header : Header) (canId : UInt32)
    (decoded : List RawSignal) : List (ByteString × Double) :=
  ((n.path E).passed canId decoded).flatMap (promotes n.pubs)

end Frames

variable {E : Env}

/-! ### What the frames of a run come to -/

theorem callback_error {n : VehicleCanNode} {c : Callback} {e : StdException}
    (h : n.callback E c = .error e) : ∃ order msg, c = .canFrame order msg ∧
      E.rclcpp.time msg.header.stamp = .error e := by
  cases c with
  | canFrame order msg =>
    change n.onCanFrame E order msg = _ at h
    unfold onCanFrame at h
    cases hTime : E.rclcpp.time msg.header.stamp with
    | error e' =>
      rw [hTime] at h
      obtain rfl := Except.error.inj h
      exact ⟨order, msg, rfl, hTime⟩
    | ok stamp =>
      rw [hTime] at h
      contradiction
  | diagnosticsTimer checkOrder listOrder now => contradiction
  | schemaTimer order now => contradiction

/-- A kind of output that only frames put out, and that the decoded signals decide. -/
structure FromFrames {π : Type} (E : Env) (start : VehicleCanNode) (kind : Effect → Option π)
    (out : Header → UInt32 → List RawSignal → List π) : Prop where
  decoded : ∀ {canId header decoded effects},
    FrameEffects E start canId header decoded effects → effects.filterMap kind =
      out header canId decoded
  diagnostics : ∀ diag, kind (.publishDiagnostics diag) = none
  schema : ∀ schema, kind (.publishSchema schema) = none

/-- A callback with a frame puts out what the frame does, from the setup at the start, and a timer
puts out nothing else. -/
theorem callback_parts {π : Type} {start : VehicleCanNode} {kind : Effect → Option π}
    {R : Frame → List π → Prop} (hDiagnostics : ∀ diag, kind (.publishDiagnostics diag) = none)
    (hSchema : ∀ schema, kind (.publishSchema schema) = none)
    (hFrame : ∀ {n order msg stamp}, SameSetup start n →
      E.rclcpp.time msg.header.stamp = .ok stamp →
      R msg ((n.processFrame E order (toCanFrame msg) stamp).2.filterMap kind))
    {n n' : VehicleCanNode} {c : Callback} {effects : List Effect} (hSetup : SameSetup start n)
    (h : n.callback E c = .ok (n', effects)) :
    (∀ msg, c.message = some msg → takesStamp E msg = true ∧ R msg (effects.filterMap kind)) ∧
      (c.message = none → effects.filterMap kind = []) := by
  obtain ⟨order, msg, stamp, rfl, hTime, hRun⟩ | ⟨checkOrder, listOrder, now, rfl, hTimer⟩ |
    ⟨order, now, rfl, -, rfl⟩ := callback_cases h
  · refine ⟨fun msg' hMsg => ?_, by simp [Callback.message]⟩
    obtain rfl := Option.some.inj hMsg
    have hHere : R msg ((n.processFrame E order (toCanFrame msg) stamp).2.filterMap kind) :=
      hFrame hSetup hTime
    rw [hRun] at hHere
    exact ⟨by simp [takesStamp, hTime, Except.isOk, Except.toBool], hHere⟩
  · obtain ⟨-, rfl⟩ := Prod.mk.inj hTimer
    exact ⟨by simp [Callback.message], fun _ => List.filterMap_cons_none (hDiagnostics _)⟩
  · exact ⟨by simp [Callback.message], fun _ => List.filterMap_cons_none (hSchema _)⟩

/-- A run publishes a part for each of its frames, up to the first that is not taken. -/
theorem observed_parts {π : Type} {start : VehicleCanNode} {kind : Effect → Option π}
    {R : Frame → List π → Prop} (hDiagnostics : ∀ diag, kind (.publishDiagnostics diag) = none)
    (hSchema : ∀ schema, kind (.publishSchema schema) = none)
    (hFrame : ∀ {n order msg stamp}, SameSetup start n →
      E.rclcpp.time msg.header.stamp = .ok stamp →
      R msg ((n.processFrame E order (toCanFrame msg) stamp).2.filterMap kind))
    (callbacks : List Callback) :
    ∃ parts,
      List.Forall₂ R ((callbacks.filterMap Callback.message).takeWhile (takesStamp E)) parts ∧
      (start.observed E callbacks).filterMap kind = parts.flatten := by
  have hGoes : ∀ {n c n' effects}, SameSetup start n → callback E n c = .ok (n', effects) →
      SameSetup start n' ∧
        (∀ msg, c.message = some msg → takesStamp E msg = true ∧ R msg (effects.filterMap kind)) ∧
        (c.message = none → effects.filterMap kind = []) := fun hSetup hCall =>
    ⟨hSetup.trans (callback_setup hCall), callback_parts hDiagnostics hSchema hFrame hSetup hCall⟩
  have hFails : ∀ {n c e}, callback E n c = .error e →
      ∃ msg, c.message = some msg ∧ takesStamp E msg = false := by
    intro n c e hCall
    obtain ⟨order, msg, rfl, hTime⟩ := callback_error hCall
    exact ⟨msg, rfl, by simp [takesStamp, hTime, Except.isOk, Except.toBool]⟩
  exact Machine.outputs_parts @hGoes @hFails (SameSetup.refl start) callbacks

/-- Where the decoded signals decide what is put out, a run publishes what its frames come to. -/
theorem observed_frames {π : Type} {start : VehicleCanNode} {kind : Effect → Option π}
    {out : Header → UInt32 → List RawSignal → List π} (hKind : FromFrames E start kind out)
    (callbacks : List Callback) :
    (start.observed E callbacks).filterMap kind =
      ((callbacks.filterMap Callback.message).takeWhile (takesStamp E)).flatMap
        (start.perFrame E out) := by
  have hFrame : ∀ {n order msg stamp}, SameSetup start n →
      E.rclcpp.time msg.header.stamp = .ok stamp →
      (n.processFrame E order (toCanFrame msg) stamp).2.filterMap kind =
        start.perFrame E out msg := by
    intro n order msg stamp hSetup hTime
    rw [perFrame, hTime]
    cases hDecode : start.decoder.decode (toCanFrame msg).id (toCanFrame msg).data
        (toCanFrame msg).dlc with
    | none =>
      rw [processFrame_unknown order n _ stamp (hSetup.decoder ▸ hDecode)]
      simp [hDecode]
    | some decoded =>
      simp only [hDecode]
      exact hKind.decoded (processFrame_effects hSetup order (toCanFrame msg) stamp hDecode)
  obtain ⟨parts, hParts, hOut⟩ := observed_parts (R := fun msg part => part =
    start.perFrame E out msg) hKind.diagnostics hKind.schema hFrame callbacks
  rw [hOut, List.forall₂_eq_map hParts, List.flatMap_def]

theorem fromFrames_domain (start : VehicleCanNode) (domain : ByteString) :
    FromFrames E start (Effect.ofDomain domain) (start.domainOut E domain) where
  decoded {canId header decoded effects} h := by
    rw [domainOut, ← h.domains domain, List.filter_filterMap]
    rfl
  diagnostics _ := rfl
  schema _ := rfl

theorem fromFrames_firehose (start : VehicleCanNode) :
    FromFrames E start Effect.asAll (start.firehoseOut E) where
  decoded h := h.firehose
  diagnostics _ := rfl
  schema _ := rfl

theorem fromFrames_promoted (start : VehicleCanNode) :
    FromFrames E start Effect.asPromoted (start.promotedOut E) where
  decoded h := h.promoted
  diagnostics _ := rfl
  schema _ := rfl

/-! ### What stands on a topic -/

/-- What a frame puts on a topic: the values of promoted signals, the groups of the domains, which
may come in any order, and the firehose. -/
def PutsOut (E : Env) (n : VehicleCanNode) (topic : ByteString) (msg : Frame)
    (part : List (Double ⊕ SignalGroup)) : Prop :=
  ∃ groups : List (ByteString × SignalGroup),
    (∀ domain, groups.filter (·.2.domain = domain) =
      n.perFrame E (n.domainOut E domain) msg) ∧
    part = (n.perFrame E (n.promotedOut E) msg).filterMap (onto topic .inl) ++
      groups.filterMap (onto topic .inr) ++
      (n.perFrame E (n.firehoseOut E) msg).filterMap (onto topic .inr)

/-- At most one domain has its publisher on the topic. -/
def OneDomainOn (n : VehicleCanNode) (topic : ByteString) : Prop :=
  ∀ domain domain', n.pubs.domains.lookup domain = some topic →
    n.pubs.domains.lookup domain' = some topic → domain = domain'

/-- Outputs of one kind stand on a topic as that kind has them. -/
theorem filterMap_onTopic {π : Type} {kind : Effect → Option π}
    {f : π → Option (Double ⊕ SignalGroup)} {topic : ByteString} {effects : List Effect}
    (h : ∀ e ∈ effects, e.onTopic topic = (kind e).bind f) :
    effects.filterMap (Effect.onTopic topic) = (effects.filterMap kind).filterMap f := by
  rw [List.filterMap_filterMap]
  exact List.filterMap_congr h

/-- A decoded frame puts out its promoted signals first, then its groups, and the firehose last. -/
theorem publishDecoded_onTopic (order : HashOrder) (n : VehicleCanNode) (canId : UInt32)
    (stamp : Time) (decoded : List RawSignal) (topic : ByteString) :
    let effects := (n.publishDecoded E order canId stamp decoded).2
    effects.filterMap (Effect.onTopic topic) =
      (effects.filterMap Effect.asPromoted).filterMap (onto topic .inl) ++
        (effects.filterMap Effect.asDomain).filterMap (onto topic .inr) ++
        (effects.filterMap Effect.asAll).filterMap (onto topic .inr) := by
  let header : Header := ⟨E.rclcpp.stamp stamp, ""⟩
  let after := gathered canId n decoded E
  let first := (Machine.run (processSignal E canId) n decoded).2
  let groups := Machine.run (publishGroup header) after (after.frameSignals.items order)
  let last := (publishFirehose header groups.1).2
  intro effects
  have hEffects : effects = first ++ groups.2 ++ last := rfl
  obtain ⟨hFirstDomain, hFirstAll⟩ := gathered_groups (E := E) canId n decoded
  obtain ⟨-, hGroupsPromoted, hGroupsAll⟩ := publishGroups_effects header after
    (after.frameSignals.items order)
  obtain ⟨-, hLastPromoted, hLastDomain⟩ := publishFirehose_effects header groups.1
  have hNone : ∀ {π : Type} {kind : Effect → Option π} {l : List Effect},
      l.filterMap kind = [] → ∀ e ∈ l, kind e = none := fun h => List.filterMap_eq_nil_iff.mp h
  have hFirst : first.filterMap (Effect.onTopic topic) =
      (first.filterMap Effect.asPromoted).filterMap (onto topic .inl) := by
    refine filterMap_onTopic fun e he => ?_
    have hDomain := hNone hFirstDomain e he
    have hAll := hNone hFirstAll e he
    cases e <;> first | rfl | contradiction
  have hMiddle : groups.2.filterMap (Effect.onTopic topic) =
      (groups.2.filterMap Effect.asDomain).filterMap (onto topic .inr) := by
    refine filterMap_onTopic fun e he => ?_
    have hPromoted := hNone hGroupsPromoted e he
    have hAll := hNone hGroupsAll e he
    cases e <;> first | rfl | contradiction
  have hLast : last.filterMap (Effect.onTopic topic) =
      (last.filterMap Effect.asAll).filterMap (onto topic .inr) := by
    refine filterMap_onTopic fun e he => ?_
    have hPromoted := hNone hLastPromoted e he
    have hDomain := hNone hLastDomain e he
    cases e <;> first | rfl | contradiction
  simp only [hEffects, List.filterMap_append, hFirst, hMiddle, hLast, hFirstDomain, hFirstAll,
    hGroupsPromoted, hGroupsAll, hLastPromoted, hLastDomain, List.append_nil, List.nil_append,
    first, groups, last]

theorem processFrame_putsOut {start n : VehicleCanNode} (hSetup : SameSetup start n)
    (order : HashOrder) {msg : Frame} {stamp : Time}
    (hTime : E.rclcpp.time msg.header.stamp = .ok stamp) (topic : ByteString) :
    start.PutsOut E topic msg
      ((n.processFrame E order (toCanFrame msg) stamp).2.filterMap (Effect.onTopic topic)) := by
  unfold PutsOut perFrame
  simp only [hTime]
  cases hDecode : start.decoder.decode (toCanFrame msg).id (toCanFrame msg).data
      (toCanFrame msg).dlc with
  | none =>
    rw [processFrame_unknown order n _ stamp (hSetup.decoder ▸ hDecode)]
    exact ⟨[], fun _ => rfl, rfl⟩
  | some decoded =>
    have hEffects := processFrame_effects (E := E) hSetup order (toCanFrame msg) stamp hDecode
    have hTopic := publishDecoded_onTopic (E := E) order n.cleared (toCanFrame msg).id stamp decoded
      topic
    rw [processFrame_decoded order n _ stamp (hSetup.decoder ▸ hDecode)] at hEffects ⊢
    refine ⟨_, hEffects.domains, hTopic.trans ?_⟩
    rw [hEffects.promoted, hEffects.firehose]
    rfl

/-- The groups of a frame go out on the topics of their domains. -/
theorem perFrame_topic {n : VehicleCanNode} {msg : Frame} {domain : ByteString}
    {p : ByteString × SignalGroup} (h : p ∈ n.perFrame E (n.domainOut E domain) msg) :
    n.pubs.domains.lookup domain = some p.1 := by
  unfold perFrame at h
  split at h
  · contradiction
  · simp only at h
    split at h
    · contradiction
    · unfold domainOut at h
      simp only at h
      split at h
      · contradiction
      · obtain ⟨topic, hTopic, rfl⟩ := List.mem_map.mp h
        exact Option.mem_toList.mp hTopic

section PutsOut

variable {n : VehicleCanNode} {topic : ByteString} {msg : Frame}
  {part part' : List (Double ⊕ SignalGroup)}

/-- Only the order of the groups is open. -/
theorem PutsOut.perm (h : n.PutsOut E topic msg part) (h' : n.PutsOut E topic msg part') :
    part.Perm part' := by
  obtain ⟨groups, hGroups, rfl⟩ := h
  obtain ⟨groups', hGroups', rfl⟩ := h'
  have hPerm : groups.Perm groups' := List.perm_of_filter_eq (fun p => p.2.domain) fun domain =>
    (hGroups domain).trans (hGroups' domain).symm
  exact ((hPerm.filterMap _).append_left _).append_right _

/-- With one domain on the topic, nothing is. -/
theorem PutsOut.eq (hOne : n.OneDomainOn topic) (h : n.PutsOut E topic msg part)
    (h' : n.PutsOut E topic msg part') : part = part' := by
  obtain ⟨groups, hGroups, rfl⟩ := h
  obtain ⟨groups', hGroups', rfl⟩ := h'
  obtain ⟨domain, hDomain⟩ : ∃ domain, ∀ other, n.pubs.domains.lookup other = some topic →
      other = domain := by
    by_cases hSome : ∃ domain, n.pubs.domains.lookup domain = some topic
    · obtain ⟨domain, hLookup⟩ := hSome
      exact ⟨domain, fun other hOther => hOne other domain hOther hLookup⟩
    · exact ⟨[], fun other hOther => absurd ⟨other, hOther⟩ hSome⟩
  -- What is on the topic is what the one domain puts out.
  have hOnly : ∀ groups : List (ByteString × SignalGroup),
      (∀ domain, groups.filter (·.2.domain = domain) = n.perFrame E (n.domainOut E domain) msg) →
      groups.filterMap (onto topic (.inr : SignalGroup → Double ⊕ SignalGroup)) =
        (n.perFrame E (n.domainOut E domain) msg).filterMap (onto topic .inr) := by
    intro groups hGroups
    rw [← hGroups domain, List.filterMap_filter]
    refine List.filterMap_congr fun p hp => ?_
    have hLookup := perFrame_topic (hGroups p.2.domain ▸
      List.mem_filter.mpr ⟨hp, decide_eq_true rfl⟩ : p ∈ n.perFrame E _ msg)
    by_cases hTopic : p.1 = topic
    · rw [if_pos (decide_eq_true (hDomain _ (hTopic ▸ hLookup)))]
    · simp [onto, hTopic]
  rw [hOnly groups hGroups, hOnly groups' hGroups']

end PutsOut

/-- What stands on a topic after two runs, frame by frame: the same, but for the order of the groups
of one frame. -/
def SameByFrame (E : Env) (n : VehicleCanNode) (topic : ByteString) (frames : List Frame)
    (out out' : List (Double ⊕ SignalGroup)) : Prop :=
  ∃ parts parts', List.Forall₂ (n.PutsOut E topic) frames parts ∧
    List.Forall₂ (n.PutsOut E topic) frames parts' ∧ List.Forall₂ List.Perm parts parts' ∧
    out = parts.flatten ∧ out' = parts'.flatten

/-- A run comes to its end just when the stamps of all its frames are taken. -/
theorem spin_ok_iff (start : VehicleCanNode) (callbacks : List Callback) :
    (∃ n, start.spin E callbacks = .ok n) ↔
      ∀ msg ∈ callbacks.filterMap Callback.message, takesStamp E msg = true := by
  induction callbacks generalizing start with
  | nil => exact iff_of_true ⟨start, rfl⟩ (by simp)
  | cons c rest ih =>
    unfold spin
    cases hCall : start.callback E c with
    | error e =>
      obtain ⟨order, msg, rfl, hTime⟩ := callback_error hCall
      refine iff_of_false ?_ fun hAll => ?_
      · rintro ⟨n, hn⟩
        contradiction
      have hTakes := hAll msg (by simp [Callback.message])
      simp [takesStamp, hTime, Except.isOk, Except.toBool] at hTakes
    | ok r =>
      have hHere : ∀ msg, c.message = some msg → takesStamp E msg = true := by
        intro msg hMsg
        obtain ⟨order, msg', stamp, rfl, hTime, -⟩ | ⟨checkOrder, listOrder, now, rfl, -⟩ |
          ⟨order, now, rfl, -⟩ := callback_cases hCall
        · obtain rfl := Option.some.inj hMsg
          simp [takesStamp, hTime, Except.isOk, Except.toBool]
        · contradiction
        · contradiction
      refine (ih r.1).trans ?_
      cases hMsg : c.message with
      | none => rw [List.filterMap_cons_none hMsg]
      | some msg =>
        rw [List.filterMap_cons_some hMsg, List.forall_mem_cons]
        exact (and_iff_right (hHere msg hMsg)).symm

/-! ### Two launches -/

/-- Two nodes that publish alike: the same configuration, on tables that may be laid out
differently. -/
structure Alike (E E' : Env) (n n' : VehicleCanNode) : Prop where
  params : n'.params = n.params
  decoder : n'.decoder = n.decoder
  path : n'.path E' = n.path E
  allSignals : n'.pubs.allSignals = n.pubs.allSignals
  domains : ∀ domain, n'.pubs.domains.lookup domain = n.pubs.domains.lookup domain
  promoted : ∀ name, n'.pubs.promoted.lookup name = n.pubs.promoted.lookup name

/-- Which domains have a publisher does not depend on the order of the loop over the schema. -/
theorem lookup_domains (order : HashOrder) (params : NodeParams) (router : SignalRouter)
    (names : List ByteString) (domain : ByteString) :
    (setupPublishers order params router names).domains.lookup domain =
      (if params.schemaPublishPerDomain then params.schemaDomainTopics.lookup domain
        else none).or
        (if domain ∈ names ∧ router.topicForDomain domain ≠ [] then
          some (router.topicForDomain domain) else none) := by
  unfold setupPublishers
  cases params.schemaPublishPerDomain with
  | true =>
    simp only [if_true, UnorderedMap.lookup_foldl_items, lookup_foldl_addLegacyPub,
      AList.lookup_empty]
  | false =>
    simp only [Bool.false_eq_true, if_false, Option.none_or, lookup_foldl_addLegacyPub,
      AList.lookup_empty]

/-- The same parameters make nodes that publish alike, on any clock. -/
theorem Constructed.alike (hDeclare : E.rclcpp.DeclareDocumented) {overrides : Overrides}
    {clock clock' : Nat → UInt64} {n n' : VehicleCanNode}
    (h : Constructed { E with steadyClock := clock } overrides n)
    (h' : Constructed { E with steadyClock := clock' } overrides n') :
    Alike { E with steadyClock := clock } { E with steadyClock := clock' } n n' := by
  obtain ⟨order, l, hConfigured, rfl⟩ := h.configured hDeclare
  obtain ⟨order', l', hConfigured', rfl⟩ := h'.configured hDeclare
  have hParams : l'.params = l.params := hConfigured'.params.trans hConfigured.params.symm
  have hTopic : l'.router.topicForDomain = l.router.topicForDomain := by
    funext domain
    simp only [SignalRouter.topicForDomain, hConfigured.router, hConfigured'.router,
      SignalRouter.configure_domainToTopic]
  refine ⟨hParams, ?_, ?_, ?_, fun domain => ?_, fun name => ?_⟩
  · obtain ⟨network, hOpen, hLoad⟩ := hConfigured.decoder
    obtain ⟨network', hOpen', hLoad'⟩ := hConfigured'.decoder
    obtain rfl : network = network' := DbcSource.parsed.inj (hOpen.symm.trans hOpen')
    exact (congrArg Prod.fst (Option.some.inj (hLoad.symm.trans hLoad'))).symm
  · have hInstalled : l'.transformer.installed = l.transformer.installed := by
      funext name
      rw [hConfigured.transformer, hConfigured'.transformer]
    simp only [VehicleCanNode.path, ofLoaded, hConfigured.router, hConfigured'.router, hParams]
    exact Converter.of_configure E.exprtk hInstalled _ _
  · simp only [ofLoaded, setupPublishers, hParams]
  · simp only [ofLoaded, lookup_domains, hParams, hTopic]
  · simp only [ofLoaded, setupPublishers, hParams]

section TwoLaunches

variable {clock clock' : Nat → UInt64} {n n' : VehicleCanNode}
  (h : Alike { E with steadyClock := clock } { E with steadyClock := clock' } n n')

include h

/-- A message comes to the same on both. -/
theorem Alike.perFrame {π : Type} {out out' : Header → UInt32 → List RawSignal → List π}
    (hOut : ∀ header canId decoded, out' header canId decoded = out header canId decoded) :
    n'.perFrame { E with steadyClock := clock' } out' =
      n.perFrame { E with steadyClock := clock } out := by
  funext msg
  simp only [VehicleCanNode.perFrame, h.decoder, hOut]

theorem Alike.domainOut (domain : ByteString) (header : Header) (canId : UInt32)
    (decoded : List RawSignal) :
    n'.domainOut { E with steadyClock := clock' } domain header canId decoded =
      n.domainOut { E with steadyClock := clock } domain header canId decoded := by
  simp only [VehicleCanNode.domainOut, groupOf, h.path, h.domains]

theorem Alike.firehoseOut (header : Header) (canId : UInt32) (decoded : List RawSignal) :
    n'.firehoseOut { E with steadyClock := clock' } header canId decoded =
      n.firehoseOut { E with steadyClock := clock } header canId decoded := by
  simp only [VehicleCanNode.firehoseOut, firehoseOf, h.path, h.allSignals, h.params]

theorem Alike.promotedOut (header : Header) (canId : UInt32) (decoded : List RawSignal) :
    n'.promotedOut { E with steadyClock := clock' } header canId decoded =
      n.promotedOut { E with steadyClock := clock } header canId decoded := by
  have hPromotes : promotes n'.pubs = promotes n.pubs := by
    funext r
    rw [promotes, promotes, h.promoted]
  simp only [VehicleCanNode.promotedOut, h.path, hPromotes]

/-- From the same frames, a kind of output that frames alone decide is the same. -/
theorem Alike.observed {π : Type} {kind : Effect → Option π}
    {out out' : Header → UInt32 → List RawSignal → List π}
    (hKind : FromFrames { E with steadyClock := clock } n kind out)
    (hKind' : FromFrames { E with steadyClock := clock' } n' kind out')
    (hOut : ∀ header canId decoded, out' header canId decoded = out header canId decoded)
    {callbacks callbacks' : List Callback}
    (hFrames : callbacks'.filterMap Callback.message = callbacks.filterMap Callback.message) :
    (n'.observed { E with steadyClock := clock' } callbacks').filterMap kind =
      (n.observed { E with steadyClock := clock } callbacks).filterMap kind := by
  rw [observed_frames hKind, observed_frames hKind', h.perFrame hOut, hFrames]
  rfl

end TwoLaunches

section Topics

variable {clock clock' : Nat → UInt64} {n n' : VehicleCanNode}
  (h : Alike { E with steadyClock := clock } { E with steadyClock := clock' } n n')

include h

/-- A frame puts the same on a topic on both. -/
theorem Alike.putsOut (topic : ByteString) :
    n'.PutsOut { E with steadyClock := clock' } topic =
      n.PutsOut { E with steadyClock := clock } topic := by
  funext msg part
  have hDomains := fun domain => h.perFrame (h.domainOut domain)
  simp only [PutsOut, hDomains, h.perFrame h.firehoseOut, h.perFrame h.promotedOut]

/-- From the same frames, the same stands on a topic, frame by frame. -/
theorem Alike.onTopic (topic : ByteString) {callbacks callbacks' : List Callback}
    (hFrames : callbacks'.filterMap Callback.message = callbacks.filterMap Callback.message) :
    let out := (n.observed { E with steadyClock := clock } callbacks).filterMap
      (Effect.onTopic topic)
    let out' := (n'.observed { E with steadyClock := clock' } callbacks').filterMap
      (Effect.onTopic topic)
    n.SameByFrame { E with steadyClock := clock } topic
        ((callbacks.filterMap Callback.message).takeWhile (takesStamp E)) out out' ∧
      (n.OneDomainOn topic → out = out') := by
  let same := { E with steadyClock := clock }
  let other := { E with steadyClock := clock' }
  have hPuts : ∀ {m : VehicleCanNode} {order : HashOrder} {msg : Frame} {stamp : Time},
      SameSetup n m → same.rclcpp.time msg.header.stamp = .ok stamp →
      n.PutsOut same topic msg
        ((m.processFrame same order (toCanFrame msg) stamp).2.filterMap (Effect.onTopic topic)) :=
    fun hSetup hTime => processFrame_putsOut hSetup _ hTime topic
  have hPuts' : ∀ {m : VehicleCanNode} {order : HashOrder} {msg : Frame} {stamp : Time},
      SameSetup n' m → other.rclcpp.time msg.header.stamp = .ok stamp →
      n'.PutsOut other topic msg
        ((m.processFrame other order (toCanFrame msg) stamp).2.filterMap (Effect.onTopic topic)) :=
    fun hSetup hTime => processFrame_putsOut hSetup _ hTime topic
  obtain ⟨parts, hParts, hOut⟩ := observed_parts (fun _ => rfl) (fun _ => rfl) hPuts callbacks
  obtain ⟨parts', hParts', hOut'⟩ := observed_parts (fun _ => rfl) (fun _ => rfl) hPuts' callbacks'
  rw [h.putsOut, hFrames] at hParts'
  have hPerm : List.Forall₂ List.Perm parts parts' :=
    List.forall₂_same_left (fun _ _ _ hPart hPart' => hPart.perm hPart') hParts hParts'
  refine ⟨⟨parts, parts', hParts, hParts', hPerm, hOut, hOut'⟩, fun hOne => ?_⟩
  have hEq : List.Forall₂ Eq parts parts' :=
    List.forall₂_same_left (fun _ _ _ hPart hPart' => hPart.eq hOne hPart') hParts hParts'
  rw [List.forall₂_eq_eq_eq] at hEq
  exact hOut.trans (hEq ▸ hOut'.symm)

end Topics

/-- The schema of a node, but for the time, is that of its parameters. -/
theorem publishSchema_eq {n n' : VehicleCanNode} (hParams : n'.params = n.params)
    {names : List ByteString} (hIds : n.params.signalNameToId = numberNames names)
    (hLength : names.length ≤ 65535) (order order' : HashOrder) (now now' : Stamp) :
    { n.publishSchema order now with header := ⟨now', ""⟩ } = n'.publishSchema order' now' := by
  have hEntry : n'.schemaEntry = n.schemaEntry := by
    funext p
    rw [schemaEntry, schemaEntry, hParams]
  have hTable := publishSchema_table order n now hIds hLength
  have hTable' := publishSchema_table order' n' now' (hParams ▸ hIds) hLength
  rw [hEntry, ← hTable] at hTable'
  rw [show n'.publishSchema order' now' =
    ⟨⟨now', ""⟩, n'.params.schemaVersion, (n'.publishSchema order' now').signalTable,
      n'.params.unitIdNames⟩ from rfl, hTable', hParams]
  rfl

/-- A frame publishes no schema. -/
theorem processFrame_no_schema (order : HashOrder) (n : VehicleCanNode) (frame : CanFrame)
    (stamp : Time) : (n.processFrame E order frame stamp).2.filterMap Effect.asSchema = [] := by
  cases hDecode : n.decoder.decode frame.id frame.data frame.dlc with
  | none =>
    rw [processFrame_unknown order n frame stamp hDecode]
    rfl
  | some decoded =>
    rw [processFrame_decoded order n frame stamp hDecode, publishDecoded]
    simp only [List.filterMap_append]
    rw [Machine.run_filterMap_nil, Machine.run_filterMap_nil,
      publishFirehose_other fun _ _ => rfl]
    · rfl
    · exact fun s entry => publishGroup_other (fun _ _ => rfl) _ s entry
    · intro s raw
      have hPromoted := publishPromoted_other (k := Effect.asSchema) (fun _ _ => rfl) s
      obtain ⟨t, -, ⟨-, name, what, hEq⟩ | ⟨r, -, -, hEq⟩ | ⟨r, -, -, hEq⟩⟩ :=
        processSignal_cases (E := E) frame.id s raw
      · rw [hEq]
        rfl
      · rw [hEq]
        exact hPromoted _ _
      · rw [hEq]
        exact hPromoted _ _

/-- Every schema of a run is one that the node at its start would publish. -/
theorem observed_schema {start : VehicleCanNode} (callbacks : List Callback)
    {schema : VehicleSchema}
    (h : schema ∈ (start.observed E callbacks).filterMap Effect.asSchema) :
    ∃ n order now, SameSetup start n ∧ schema = n.publishSchema order now := by
  let P : Effect → Prop := fun e => ∀ schema, e.asSchema = some schema →
    ∃ n order now, SameSetup start n ∧ schema = n.publishSchema order now
  obtain ⟨e, hMem, hSchema⟩ := List.mem_filterMap.mp h
  refine Machine.mem_outputs (I := SameSetup start) (P := P) (fun {n _ _ _} hSetup hCall => ?_)
    (SameSetup.refl start) callbacks e hMem schema hSchema
  refine ⟨hSetup.trans (callback_setup hCall), fun e hMem schema hSchema => ?_⟩
  have hHere := List.mem_filterMap.mpr ⟨e, hMem, hSchema⟩
  obtain ⟨order, msg, stamp, -, -, hFrame⟩ | ⟨checkOrder, listOrder, now, -, hTimer⟩ |
    ⟨order, now, -, -, rfl⟩ := callback_cases hCall
  · have hNone := processFrame_no_schema (E := E) order n (toCanFrame msg) stamp
    rw [hFrame] at hNone
    rw [hNone] at hHere
    contradiction
  · obtain ⟨-, rfl⟩ := Prod.mk.inj hTimer
    contradiction
  · exact ⟨n, order, now, hSetup, List.mem_singleton.mp hHere⟩

/-! ### Schedules -/

end VehicleCanNode

end VehicleCanDecoder
