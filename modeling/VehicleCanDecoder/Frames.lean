import VehicleCanDecoder.Configured
import VehicleCanDecoder.Node

/-! What a frame makes the live node put out.  The loop over the decoded signals changes neither the
configuration nor the publishers, and it collects the signals in the two buffers; the groups are
then the buffers, by domain.  All of it depends on the decoded signals and the configuration
alone. -/

namespace VehicleCanDecoder

namespace Effect

def asPromoted : Effect → Option (ByteString × Double)
  | .publishPromoted topic value => some (topic, value)
  | _ => none

def asDomain : Effect → Option (ByteString × SignalGroup)
  | .publishDomain topic group => some (topic, group)
  | _ => none

def asAll : Effect → Option (ByteString × SignalGroup)
  | .publishAll topic group => some (topic, group)
  | _ => none

/-- An effect of a kind is in the list when what is taken from it is. -/
theorem mem_filterMap_of_eq_some_iff {π : Type} {f : Effect → Option π} {x : π} {e : Effect}
    (h : ∀ e', f e' = some x ↔ e' = e) {effects : List Effect} :
    x ∈ effects.filterMap f ↔ e ∈ effects := by
  rw [List.mem_filterMap]
  constructor
  · rintro ⟨e', hMem, hEq⟩
    rwa [← (h e').mp hEq]
  · exact fun hMem => ⟨e, hMem, (h e).mpr rfl⟩

theorem mem_filterMap_asDomain {effects : List Effect} {topic : ByteString} {group : SignalGroup} :
    (topic, group) ∈ effects.filterMap asDomain ↔ .publishDomain topic group ∈ effects :=
  mem_filterMap_of_eq_some_iff fun e => by cases e <;> simp [asDomain]

theorem mem_filterMap_asAll {effects : List Effect} {topic : ByteString} {group : SignalGroup} :
    (topic, group) ∈ effects.filterMap asAll ↔ .publishAll topic group ∈ effects :=
  mem_filterMap_of_eq_some_iff fun e => by cases e <;> simp [asAll]

end Effect

namespace VehicleCanNode

open Hoare

/-- The configuration of a node, as functions. -/
def path (E : Env) (n : VehicleCanNode) : SignalPath :=
  SignalPath.of E.exprtk n.router n.params.signalToDomain n.transformer n.params.signalNameToId

/-- What is set up once: a node may change the variables of its expressions, and nothing else of
it. -/
structure SameSetup (n n' : VehicleCanNode) : Prop where
  params : n'.params = n.params
  decoder : n'.decoder = n.decoder
  router : n'.router = n.router
  pubs : n'.pubs = n.pubs
  installed : n'.transformer.installed = n.transformer.installed

theorem SameSetup.refl (n : VehicleCanNode) : SameSetup n n := ⟨rfl, rfl, rfl, rfl, rfl⟩

theorem SameSetup.trans {n n' n'' : VehicleCanNode} (h : SameSetup n n') (h' : SameSetup n' n'') :
    SameSetup n n'' :=
  ⟨h'.params.trans h.params, h'.decoder.trans h.decoder, h'.router.trans h.router,
    h'.pubs.trans h.pubs, h'.installed.trans h.installed⟩

theorem SameSetup.path {n n' : VehicleCanNode} (h : SameSetup n n') (E : Env) :
    n'.path E = n.path E := by
  unfold VehicleCanNode.path
  rw [h.router, h.params]
  exact SignalPath.of_congr h.installed rfl (fun _ => rfl) _ _

variable {E : Env}

/-! ### One decoded signal -/

/-- All that `processSignal` can do: it counts a transform that throws, and publishes a signal that
passes, which it has received before that if the signal has a domain. -/
theorem processSignal_cases (canId : UInt32) (n : VehicleCanNode) (raw : RawSignal) :
    ∃ t : SignalTransformer, t.installed = n.transformer.installed ∧
      (((n.path E).pass canId raw = none ∧ ∃ name what, processSignal E canId n raw =
          ({ n with transformer := t, decodeErrors := n.decodeErrors + 1 },
            [.transformError name what])) ∨
        (∃ r, (n.path E).pass canId raw = some r ∧ r.res.isAssigned = true ∧
          processSignal E canId n raw =
            ((({ n with transformer := t } : VehicleCanNode).receive E r.res.name r.res.domain
                r.signal).1,
              .received r.res.name (E.steadyClock n.clockReads) ::
                n.publishPromoted r.res.name r.value)) ∨
        ∃ r, (n.path E).pass canId raw = some r ∧ r.res.isAssigned = false ∧
          processSignal E canId n raw =
            ({ n with transformer := t }, n.publishPromoted r.res.name r.value)) := by
  refine ⟨(n.transformer.transform E.exprtk
    (resolveSignal raw.name canId n.router n.params.signalToDomain).name raw.value).2,
    SignalTransformer.transform_installed _ _ _ _, ?_⟩
  simp only [SignalPath.pass, path, SignalPath.of]
  unfold processSignal
  generalize resolveSignal raw.name canId n.router n.params.signalToDomain = res
  cases hTransform : (n.transformer.transform E.exprtk res.name raw.value).1 with
  | error e =>
    simp only [hTransform]
    exact .inl ⟨rfl, res.name, e.what, rfl⟩
  | ok result =>
    simp only [hTransform, Except.map, SignalResolution.isAssigned]
    by_cases hDomain : res.domain = SignalRouter.kUnassignedDomain
    · refine .inr (.inr ⟨_, rfl, ?_⟩)
      simp [hDomain, publishPromoted]
    · refine .inr (.inl ⟨_, rfl, ?_⟩)
      simp [hDomain, publishPromoted, nameId, receive]

theorem processSignal_setup (canId : UInt32) (n : VehicleCanNode) (raw : RawSignal) :
    SameSetup n (processSignal E canId n raw).1 := by
  obtain ⟨t, ht, ⟨-, name, what, hEq⟩ | ⟨r, -, -, hEq⟩ | ⟨r, -, -, hEq⟩⟩ :=
    processSignal_cases (E := E) canId n raw
  all_goals
    rw [hEq]
    exact ⟨rfl, rfl, rfl, rfl, ht⟩

theorem processSignal_frameSignals (canId : UInt32) (n : VehicleCanNode) (raw : RawSignal) :
    (processSignal E canId n raw).1.frameSignals =
      match (n.path E).assign canId raw with
      | some r => n.frameSignals.pushBack r.res.domain r.signal
      | none => n.frameSignals := by
  obtain ⟨t, -, ⟨hPass, name, what, hEq⟩ | ⟨r, hPass, hAssigned, hEq⟩ | ⟨r, hPass, hNot, hEq⟩⟩ :=
    processSignal_cases (E := E) canId n raw
  · rw [hEq, SignalPath.assign_of_throws _ _ hPass]
  · rw [hEq, SignalPath.assign_of_pass _ _ hPass, if_pos hAssigned]
    rfl
  · rw [hEq, SignalPath.assign_of_pass _ _ hPass, hNot]
    rfl

theorem processSignal_allSigs (canId : UInt32) (n : VehicleCanNode) (raw : RawSignal) :
    (processSignal E canId n raw).1.allSigs =
      if n.params.publishAllSignals then
        n.allSigs ++ ((n.path E).assign canId raw).toList.map PassedSignal.signal
      else n.allSigs := by
  obtain ⟨t, -, ⟨hPass, name, what, hEq⟩ | ⟨r, hPass, hAssigned, hEq⟩ | ⟨r, hPass, hNot, hEq⟩⟩ :=
    processSignal_cases (E := E) canId n raw
  · rw [hEq, SignalPath.assign_of_throws _ _ hPass]
    simp
  · rw [hEq, SignalPath.assign_of_pass _ _ hPass, if_pos hAssigned]
    rfl
  · rw [hEq, SignalPath.assign_of_pass _ _ hPass, hNot]
    simp

/-- The value that a passed signal publishes, if its name is promoted. -/
def promotes (pubs : Publishers) (r : PassedSignal) : List (ByteString × Double) :=
  (pubs.promoted.lookup r.res.name).toList.map fun topic => (topic, r.value)

theorem publishPromoted_promoted (n : VehicleCanNode) (r : PassedSignal) :
    (n.publishPromoted r.res.name r.value).filterMap Effect.asPromoted = promotes n.pubs r := by
  unfold publishPromoted promotes
  cases n.pubs.promoted.lookup r.res.name <;> rfl

theorem processSignal_promoted (canId : UInt32) (n : VehicleCanNode) (raw : RawSignal) :
    (processSignal E canId n raw).2.filterMap Effect.asPromoted =
      ((n.path E).pass canId raw).toList.flatMap (promotes n.pubs) := by
  obtain ⟨t, -, ⟨hPass, name, what, hEq⟩ | ⟨r, hPass, -, hEq⟩ | ⟨r, hPass, -, hEq⟩⟩ :=
    processSignal_cases (E := E) canId n raw
  · rw [hEq, hPass]
    rfl
  · rw [hEq, hPass, Option.toList_some, List.flatMap_singleton]
    exact publishPromoted_promoted n r
  · rw [hEq, hPass, Option.toList_some, List.flatMap_singleton]
    exact publishPromoted_promoted n r

/-- A signal goes out as a promoted one or not at all. -/
theorem publishPromoted_other {π : Type} {k : Effect → Option π}
    (h : ∀ topic value, k (.publishPromoted topic value) = none) (n : VehicleCanNode)
    (name : ByteString) (value : Double) : (n.publishPromoted name value).filterMap k = [] := by
  unfold publishPromoted
  cases n.pubs.promoted.lookup name with
  | none => rfl
  | some topic => exact List.filterMap_cons_none (h topic value)

/-- The loop publishes no group. -/
theorem processSignal_groups (canId : UInt32) (n : VehicleCanNode) (raw : RawSignal) :
    (processSignal E canId n raw).2.filterMap Effect.asDomain = [] ∧
      (processSignal E canId n raw).2.filterMap Effect.asAll = [] := by
  have hDomain := publishPromoted_other (k := Effect.asDomain) (fun _ _ => rfl) n
  have hAll := publishPromoted_other (k := Effect.asAll) (fun _ _ => rfl) n
  obtain ⟨t, -, ⟨-, name, what, hEq⟩ | ⟨r, -, -, hEq⟩ | ⟨r, -, -, hEq⟩⟩ :=
    processSignal_cases (E := E) canId n raw
  · rw [hEq]
    exact ⟨rfl, rfl⟩
  · rw [hEq]
    exact ⟨hDomain _ _, hAll _ _⟩
  · rw [hEq]
    exact ⟨hDomain _ _, hAll _ _⟩

/-! ### All decoded signals -/

section Loop

variable (canId : UInt32) (n : VehicleCanNode) (decoded : List RawSignal)

/-- The node after the loop over the decoded signals. -/
def gathered (E : Env) : VehicleCanNode := (Machine.run (processSignal E canId) n decoded).1

theorem gathered_setup : SameSetup n (gathered canId n decoded E) :=
  Machine.run_invariant (I := SameSetup n)
    (fun s raw h => h.trans (processSignal_setup canId s raw)) (SameSetup.refl n) decoded

theorem gathered_frameSignals :
    (gathered canId n decoded E).frameSignals =
      ((n.path E).assigned canId decoded).foldl
        (fun m r => m.pushBack r.res.domain r.signal) n.frameSignals := by
  rw [SignalPath.assigned_eq, List.foldl_filterMap]
  refine Machine.run_component (I := SameSetup n) frameSignals _ (fun s raw h => ?_)
    (SameSetup.refl n) decoded
  rw [processSignal_frameSignals, h.path]
  exact ⟨h.trans (processSignal_setup canId s raw), by cases (n.path E).assign canId raw <;> rfl⟩

theorem foldl_append_toList {α β γ : Type} (f : α → Option β) (g : β → γ) (l : List α)
    (init : List γ) :
    l.foldl (fun acc a => acc ++ (f a).toList.map g) init = init ++ (l.filterMap f).map g := by
  induction l generalizing init with
  | nil => simp
  | cons a rest ih => cases h : f a <;> simp [ih, h]

theorem gathered_allSigs :
    (gathered canId n decoded E).allSigs =
      n.allSigs ++ if n.params.publishAllSignals then
        ((n.path E).assigned canId decoded).map PassedSignal.signal else [] := by
  have hFold := Machine.run_component (I := SameSetup n) allSigs
    (fun l raw => if n.params.publishAllSignals then
      l ++ ((n.path E).assign canId raw).toList.map PassedSignal.signal else l)
    (fun s raw h => by
      rw [processSignal_allSigs, h.path, h.params]
      exact ⟨h.trans (processSignal_setup canId s raw), rfl⟩) (SameSetup.refl n) decoded
  rw [gathered, hFold, SignalPath.assigned_eq]
  cases n.params.publishAllSignals with
  | false => simp [List.foldl_fixed]
  | true => simp only [if_true, foldl_append_toList]

theorem flatMap_filterMap {α β γ : Type} (f : α → Option β) (g : β → List γ) (l : List α) :
    (l.filterMap f).flatMap g = l.flatMap fun a => (f a).toList.flatMap g := by
  induction l with
  | nil => rfl
  | cons a rest ih => cases h : f a <;> simp [ih, h]

theorem gathered_promoted :
    (Machine.run (processSignal E canId) n decoded).2.filterMap Effect.asPromoted =
      ((n.path E).passed canId decoded).flatMap (promotes n.pubs) := by
  rw [SignalPath.passed, flatMap_filterMap]
  refine Machine.run_filterMap (I := SameSetup n) (fun s raw h => ?_) (SameSetup.refl n) decoded
  rw [processSignal_promoted, h.path, h.pubs]
  exact ⟨h.trans (processSignal_setup canId s raw), rfl⟩

theorem gathered_groups :
    (Machine.run (processSignal E canId) n decoded).2.filterMap Effect.asDomain = [] ∧
      (Machine.run (processSignal E canId) n decoded).2.filterMap Effect.asAll = [] := by
  have hNothing : decoded.flatMap (fun _ => ([] : List (ByteString × SignalGroup))) = [] :=
    List.flatMap_eq_nil_iff.mpr fun _ _ => rfl
  constructor
  · exact (Machine.run_filterMap (I := fun _ => True)
      (fun s raw _ => ⟨trivial, (processSignal_groups canId s raw).1⟩) trivial decoded).trans hNothing
  · exact (Machine.run_filterMap (I := fun _ => True)
      (fun s raw _ => ⟨trivial, (processSignal_groups canId s raw).2⟩) trivial decoded).trans hNothing

end Loop

/-! ### The groups -/

theorem publishGroup_setup (header : Header) (n : VehicleCanNode)
    (entry : ByteString × List Signal) : SameSetup n (publishGroup header n entry).1 :=
  ⟨rfl, rfl, rfl, rfl, rfl⟩

/-- The group of one entry of the buffer, if its domain has a publisher. -/
def groupOf (pubs : Publishers) (header : Header) (entry : ByteString × List Signal) :
    List (ByteString × SignalGroup) :=
  (pubs.domains.lookup entry.1).toList.map fun topic => (topic, ⟨header, entry.1, entry.2⟩)

/-- A group goes out to its domain or not at all. -/
theorem publishGroup_other {π : Type} {k : Effect → Option π}
    (h : ∀ topic group, k (.publishDomain topic group) = none) (header : Header)
    (n : VehicleCanNode) (entry : ByteString × List Signal) :
    (publishGroup header n entry).2.filterMap k = [] := by
  unfold publishGroup
  cases n.pubs.domains.lookup entry.1 with
  | none => rfl
  | some topic => exact List.filterMap_cons_none (h topic _)

theorem publishGroup_effects (header : Header) (n : VehicleCanNode)
    (entry : ByteString × List Signal) :
    (publishGroup header n entry).2.filterMap Effect.asDomain = groupOf n.pubs header entry ∧
      (publishGroup header n entry).2.filterMap Effect.asPromoted = [] ∧
      (publishGroup header n entry).2.filterMap Effect.asAll = [] := by
  refine ⟨?_, publishGroup_other (fun _ _ => rfl) header n entry,
    publishGroup_other (fun _ _ => rfl) header n entry⟩
  unfold publishGroup groupOf
  cases n.pubs.domains.lookup entry.1 <;> rfl

section Groups

variable (header : Header) (n : VehicleCanNode) (entries : List (ByteString × List Signal))

theorem publishGroups_keeps :
    SameSetup n (Machine.run (publishGroup header) n entries).1 ∧
      (Machine.run (publishGroup header) n entries).1.allSigs = n.allSigs :=
  Machine.run_invariant (I := fun s => SameSetup n s ∧ s.allSigs = n.allSigs)
    (fun s entry h => ⟨h.1.trans (publishGroup_setup header s entry), h.2⟩)
    ⟨SameSetup.refl n, rfl⟩ entries

theorem publishGroups_effects :
    (Machine.run (publishGroup header) n entries).2.filterMap Effect.asDomain =
        entries.flatMap (groupOf n.pubs header) ∧
      (Machine.run (publishGroup header) n entries).2.filterMap Effect.asPromoted = [] ∧
      (Machine.run (publishGroup header) n entries).2.filterMap Effect.asAll = [] := by
  refine ⟨?_, ?_, ?_⟩
  · refine Machine.run_filterMap (I := fun s => s.pubs = n.pubs) (fun s entry h => ?_) rfl entries
    rw [(publishGroup_effects header s entry).1, h]
    exact ⟨h, rfl⟩
  · exact Machine.run_filterMap_nil (fun s entry => (publishGroup_effects header s entry).2.1) n
      entries
  · exact Machine.run_filterMap_nil (fun s entry => (publishGroup_effects header s entry).2.2) n
      entries

end Groups

/-- The firehose moves out what the frame collected, or leaves it. -/
theorem publishFirehose_cases (header : Header) (n : VehicleCanNode) :
    publishFirehose header n = (n, []) ∨
      ∃ topic, publishFirehose header n =
        ({ n with allSigs := [] }, [.publishAll topic ⟨header, "all", n.allSigs⟩]) := by
  unfold publishFirehose
  cases n.pubs.allSignals with
  | none => exact .inl rfl
  | some topic =>
    by_cases h : n.params.publishAllSignals ∧ n.allSigs ≠ []
    · exact .inr ⟨topic, if_pos h⟩
    · exact .inl (if_neg h)

theorem publishFirehose_setup (header : Header) (n : VehicleCanNode) :
    SameSetup n (publishFirehose header n).1 := by
  rcases publishFirehose_cases header n with h | ⟨topic, h⟩
  · rw [h]
    exact SameSetup.refl n
  · rw [h]
    exact ⟨rfl, rfl, rfl, rfl, rfl⟩

/-- The firehose goes out as such or not at all. -/
theorem publishFirehose_other {π : Type} {k : Effect → Option π}
    (h : ∀ topic group, k (.publishAll topic group) = none) (header : Header)
    (n : VehicleCanNode) : (publishFirehose header n).2.filterMap k = [] := by
  rcases publishFirehose_cases header n with hNone | ⟨topic, hAll⟩
  · rw [hNone]
    rfl
  · rw [hAll]
    exact List.filterMap_cons_none (h topic _)

/-- The firehose of a frame, from the signals that it collected. -/
def firehoseOf (n : VehicleCanNode) (header : Header) (signals : List Signal) :
    List (ByteString × SignalGroup) :=
  match n.pubs.allSignals with
  | some topic =>
    if n.params.publishAllSignals ∧ signals ≠ [] then [(topic, ⟨header, "all", signals⟩)] else []
  | none => []

theorem publishFirehose_effects (header : Header) (n : VehicleCanNode) :
    (publishFirehose header n).2.filterMap Effect.asAll = firehoseOf n header n.allSigs ∧
      (publishFirehose header n).2.filterMap Effect.asPromoted = [] ∧
      (publishFirehose header n).2.filterMap Effect.asDomain = [] := by
  refine ⟨?_, publishFirehose_other (fun _ _ => rfl) header n,
    publishFirehose_other (fun _ _ => rfl) header n⟩
  unfold publishFirehose firehoseOf
  cases n.pubs.allSignals with
  | none => rfl
  | some topic =>
    by_cases h : n.params.publishAllSignals ∧ n.allSigs ≠ []
    · simp only [if_pos h]
      rfl
    · simp only [if_neg h]
      rfl

/-! ### A whole frame -/

section Frame

variable (order : HashOrder) (n : VehicleCanNode) (frame : CanFrame) (stamp : Time)

/-- The node in which the loop over the decoded signals starts: the buffers are cleared. -/
def cleared (n : VehicleCanNode) : VehicleCanNode :=
  { n with
    framesReceived := n.framesReceived + 1
    framesDecoded := n.framesDecoded + 1
    frameSignals := ∅
    allSigs := [] }

theorem cleared_setup : SameSetup n n.cleared := ⟨rfl, rfl, rfl, rfl, rfl⟩

theorem processFrame_unknown (h : n.decoder.decode frame.id frame.data frame.dlc = none) :
    n.processFrame E order frame stamp =
      ({ n with
          framesReceived := n.framesReceived + 1
          framesUnknown := n.framesUnknown + 1 }, []) := by
  simp only [processFrame, h]

theorem processFrame_decoded {decoded : List RawSignal}
    (h : n.decoder.decode frame.id frame.data frame.dlc = some decoded) :
    n.processFrame E order frame stamp =
      n.cleared.publishDecoded E order frame.id stamp decoded := by
  simp only [processFrame, h, cleared]

theorem publishDecoded_setup (canId : UInt32) (decoded : List RawSignal) :
    SameSetup n (n.publishDecoded E order canId stamp decoded).1 := by
  let header : Header := ⟨E.rclcpp.stamp stamp, ""⟩
  let gathered := gathered canId n decoded E
  have hGroups := (publishGroups_keeps header gathered (gathered.frameSignals.items order)).1
  exact ((gathered_setup canId n decoded).trans hGroups).trans (publishFirehose_setup header _)

theorem processFrame_setup : SameSetup n (n.processFrame E order frame stamp).1 := by
  cases h : n.decoder.decode frame.id frame.data frame.dlc with
  | none =>
    rw [processFrame_unknown order n frame stamp h]
    exact ⟨rfl, rfl, rfl, rfl, rfl⟩
  | some decoded =>
    rw [processFrame_decoded order n frame stamp h]
    exact (cleared_setup n).trans (publishDecoded_setup order _ stamp frame.id decoded)

/-- What a decoded frame puts out, by kind. -/
structure FrameEffects (E : Env) (n : VehicleCanNode) (canId : UInt32) (header : Header)
    (decoded : List RawSignal) (effects : List Effect) : Prop where
  promoted : effects.filterMap Effect.asPromoted =
    ((n.path E).passed canId decoded).flatMap (promotes n.pubs)
  domains : ∀ domain, (effects.filterMap Effect.asDomain).filter (·.2.domain = domain) =
    let signals := (n.path E).inDomain canId decoded domain
    if signals = [] then [] else groupOf n.pubs header (domain, signals)
  firehose : effects.filterMap Effect.asAll =
    firehoseOf n header (((n.path E).assigned canId decoded).map PassedSignal.signal)

/-- The groups of one domain: the entry of the domain in the buffer, if there is one. -/
theorem groupOf_domain (pubs : Publishers) (header : Header)
    (m : UnorderedMap ByteString (List Signal)) (domain : ByteString) :
    ((m.items order).flatMap (groupOf pubs header)).filter (·.2.domain = domain) =
      ((m.lookup domain).toList.map (domain, ·)).flatMap (groupOf pubs header) := by
  rw [← m.items_filter_key order domain]
  generalize m.items order = entries
  induction entries with
  | nil => rfl
  | cons e rest ih =>
    rw [List.flatMap_cons, List.filter_append, ih]
    by_cases h : e.1 = domain
    · simp [h, groupOf]
    · simp [h, groupOf]

theorem publishDecoded_effects (canId : UInt32) (decoded : List RawSignal)
    (hFrame : n.frameSignals = ∅) (hAll : n.allSigs = []) :
    FrameEffects E n canId ⟨E.rclcpp.stamp stamp, ""⟩ decoded
      (n.publishDecoded E order canId stamp decoded).2 := by
  let header : Header := ⟨E.rclcpp.stamp stamp, ""⟩
  let after := gathered canId n decoded E
  have hSetup : SameSetup n after := gathered_setup canId n decoded
  have hGroups := publishGroups_effects header after (after.frameSignals.items order)
  obtain ⟨hKeeps, hSigs⟩ := publishGroups_keeps header after (after.frameSignals.items order)
  have hFirehose := publishFirehose_effects header
    (Machine.run (publishGroup header) after (after.frameSignals.items order)).1
  have hEffects : (n.publishDecoded E order canId stamp decoded).2 =
      (Machine.run (processSignal E canId) n decoded).2 ++
        (Machine.run (publishGroup header) after (after.frameSignals.items order)).2 ++
        (publishFirehose header
          (Machine.run (publishGroup header) after (after.frameSignals.items order)).1).2 := rfl
  rw [hEffects]
  refine ⟨?_, fun domain => ?_, ?_⟩
  · rw [List.filterMap_append, List.filterMap_append, gathered_promoted, hGroups.2.1,
      hFirehose.2.1, List.append_nil, List.append_nil]
  · rw [List.filterMap_append, List.filterMap_append, (gathered_groups canId n decoded).1,
      hGroups.1, hFirehose.2.2, List.append_nil, List.nil_append, groupOf_domain, hSetup.pubs,
      gathered_frameSignals, hFrame, UnorderedMap.lookup_foldl_pushBack]
    unfold SignalPath.inDomain
    cases ((n.path E).assigned canId decoded).filter (·.res.domain = domain) with
    | nil => rfl
    | cons r rest => simp [header]
  · rw [List.filterMap_append, List.filterMap_append, (gathered_groups canId n decoded).2,
      hGroups.2.2, hFirehose.1, List.append_nil, List.nil_append, hSigs, gathered_allSigs, hAll,
      List.nil_append]
    unfold firehoseOf
    rw [hKeeps.pubs, hSetup.pubs, hKeeps.params, hSetup.params]
    cases n.params.publishAllSignals <;> rfl

end Frame

/-! ### Publishers -/

/-- A listed domain has a publisher unless its topic is empty. -/
theorem lookup_foldl_addLegacyPub (router : SignalRouter) (names : List ByteString)
    (pubs : UnorderedMap ByteString ByteString) (domain : ByteString) :
    (names.foldl (addLegacyPub router) pubs).lookup domain =
      if domain ∈ names ∧ router.topicForDomain domain ≠ [] then
        some (router.topicForDomain domain)
      else pubs.lookup domain := by
  induction names generalizing pubs with
  | nil => simp
  | cons name rest ih =>
    rw [List.foldl_cons, ih, addLegacyPub]
    by_cases hTopic : router.topicForDomain name = []
    · by_cases hHere : domain = name
      · subst hHere
        simp [hTopic]
      · simp [hTopic, hHere]
    · by_cases hHere : domain = name
      · subst hHere
        simp [hTopic]
      · simp [hTopic, hHere]

/-! ### Runs -/

theorem Runs.setup {start n : VehicleCanNode} {out : List Effect} (h : Runs E start n out) :
    SameSetup start n := by
  induction h with
  | start => exact SameSetup.refl start
  | frame h order frame stamp ih => exact ih.trans (processFrame_setup order _ frame stamp)
  | diagnostics h checkOrder listOrder now ih => exact ih.trans ⟨rfl, rfl, rfl, rfl, rfl⟩
  | schema h order now ih => exact ih

theorem setUp_ofLoaded {overrides : Overrides} {order : HashOrder} {n : VehicleCanNode}
    {declared : Declared} (h : setUp E overrides order [] = .ok n declared) :
    ∃ l domainNames, n = ofLoaded order l domainNames := by
  have hTriple : Loads (fun _ => True) (setUp E overrides order)
      fun n _ => ∃ l domainNames, n = ofLoaded order l domainNames :=
    Triple.bind (Triple.unspecified _) fun _ => Triple.bind (Triple.unspecified _) fun l =>
      Triple.bind (Triple.unspecified _) fun names => Triple.pure fun _ _ => ⟨l, names, rfl⟩
  exact hTriple.ok trivial h

/-- With `rclcpp` as documented, the node has the configuration that the overrides denote. -/
theorem setUp_configured (hDeclare : E.rclcpp.DeclareDocumented) {overrides : Overrides}
    {order : HashOrder} {n : VehicleCanNode} {declared : Declared}
    (h : setUp E overrides order [] = .ok n declared) :
    ∃ l, Configured E overrides order l ∧ n = ofLoaded order l (overrides.strings "domain_names") := by
  have hTriple : Loads (fun _ => True) (setUp E overrides order) fun n _ => ∃ l,
      Configured E overrides order l ∧
        n = ofLoaded order l (overrides.strings "domain_names") := by
    refine Triple.bind (declareParameters_settled hDeclare) fun _ => ?_
    refine Triple.bind (loadParameters_loads hDeclare order) fun l => ?_
    refine Triple.assume fun hConfigured => ?_
    apply Triple.bind_eq (getStringArray_settled (.head _))
    exact Triple.pure fun _ _ => ⟨l, hConfigured, rfl⟩
  exact hTriple.ok trivial h

theorem Constructed.setUp {overrides : Overrides} {n : VehicleCanNode}
    (h : Constructed E overrides n) :
    ∃ order declared, setUp E overrides order [] = .ok n declared := by
  obtain ⟨order, now, out, hRun⟩ := h
  unfold construct at hRun
  cases hSetUp : VehicleCanNode.setUp E overrides order [] with
  | error e declared => simp [hSetUp] at hRun
  | ok n' declared =>
    simp only [hSetUp, Except.ok.injEq, Prod.mk.injEq] at hRun
    exact ⟨order, declared, hRun.1 ▸ hSetUp⟩

theorem Constructed.configured (hDeclare : E.rclcpp.DeclareDocumented) {overrides : Overrides}
    {n : VehicleCanNode} (h : Constructed E overrides n) : ∃ order l,
      Configured E overrides order l ∧ n = ofLoaded order l (overrides.strings "domain_names") := by
  obtain ⟨order, declared, hSetUp⟩ := h.setUp
  exact ⟨order, setUp_configured hDeclare hSetUp⟩

theorem Constructed.allSignals {overrides : Overrides} {n : VehicleCanNode}
    (h : Constructed E overrides n) : n.pubs.allSignals =
      if n.params.publishAllSignals then some n.params.allSignalsTopic else none := by
  obtain ⟨order, declared, hSetUp⟩ := h.setUp
  obtain ⟨l, names, rfl⟩ := setUp_ofLoaded hSetUp
  rfl

/-- What a node of a run publishes for a frame is what the node at the start of the run would. -/
theorem processFrame_effects {start n : VehicleCanNode} (hSetup : SameSetup start n)
    (order : HashOrder) (frame : CanFrame) (stamp : Time) {decoded : List RawSignal}
    (hDecoded : start.decoder.decode frame.id frame.data frame.dlc = some decoded) :
    FrameEffects E start frame.id ⟨E.rclcpp.stamp stamp, ""⟩ decoded
      (n.processFrame E order frame stamp).2 := by
  have hCleared : SameSetup start n.cleared := hSetup.trans (cleared_setup n)
  have hEffects := publishDecoded_effects (E := E) order n.cleared stamp frame.id decoded rfl rfl
  rw [← processFrame_decoded order n frame stamp (hSetup.decoder ▸ hDecoded)] at hEffects
  obtain ⟨hPromoted, hDomains, hFirehose⟩ := hEffects
  rw [hCleared.path, hCleared.pubs] at hPromoted
  simp only [hCleared.path, hCleared.pubs] at hDomains
  simp only [firehoseOf, hCleared.path, hCleared.pubs, hCleared.params] at hFirehose
  exact ⟨hPromoted, hDomains, hFirehose⟩

/-- In every run, a decodable frame publishes exactly the signals that pass: all of them on the
firehose, those of each domain in one group on the topic of the domain, and the promoted ones each
by itself.  What earlier frames left in the buffers and in the transformer does not matter. -/
theorem processFrame_publishes {overrides : Overrides} {start n : VehicleCanNode}
    {out : List Effect} (hStart : Constructed E overrides start) (hRuns : Runs E start n out)
    (buffers : UnorderedMap ByteString (List Signal)) (sigs : List Signal) (order : HashOrder)
    (frame : CanFrame) (stamp : Time) {decoded : List RawSignal}
    (hDecoded : start.decoder.decode frame.id frame.data frame.dlc = some decoded) :
    let header : Header := ⟨E.rclcpp.stamp stamp, ""⟩
    let effects := (processFrame E order { n with frameSignals := buffers, allSigs := sigs }
      frame stamp).2
    let passed := (start.path E).passed frame.id decoded
    let assigned := passed.filter (·.res.isAssigned)
    effects.filterMap Effect.asAll =
        (if start.params.publishAllSignals ∧ assigned ≠ [] then
          [(start.params.allSignalsTopic, ⟨header, "all", assigned.map PassedSignal.signal⟩)]
        else []) ∧
      (∀ domain, (effects.filterMap Effect.asDomain).filter (·.2.domain = domain) =
        match start.pubs.domains.lookup domain with
        | none => []
        | some topic =>
          let routed := assigned.filter (·.res.domain = domain)
          if routed = [] then []
          else [(topic, ⟨header, domain, routed.map PassedSignal.signal⟩)]) ∧
      effects.filterMap Effect.asPromoted = passed.flatMap fun r =>
        match start.pubs.promoted.lookup r.res.name with
        | some topic => [(topic, r.value)]
        | none => [] := by
  intro header effects passed assigned
  have hSetup : SameSetup start { n with frameSignals := buffers, allSigs := sigs } :=
    hRuns.setup.trans ⟨rfl, rfl, rfl, rfl, rfl⟩
  obtain ⟨hPromoted, hDomains, hFirehose⟩ :=
    processFrame_effects (E := E) hSetup order frame stamp hDecoded
  refine ⟨hFirehose.trans ?_, fun domain => (hDomains domain).trans ?_, hPromoted.trans ?_⟩
  · unfold firehoseOf
    rw [hStart.allSignals]
    by_cases hAll : start.params.publishAllSignals
    · simp [hAll, assigned, passed, SignalPath.assigned, header]
    · simp [hAll]
  · show (if ((assigned.filter (·.res.domain = domain)).map PassedSignal.signal) = [] then [] else
      groupOf start.pubs header (domain, _)) = _
    simp only [List.map_eq_nil_iff, groupOf]
    cases start.pubs.domains.lookup domain with
    | none => simp
    | some topic => rfl
  · congr 1
    funext r
    unfold promotes
    cases start.pubs.promoted.lookup r.res.name <;> rfl

/-! ### A sample configuration, without transforms -/

def sampleEnv (network : INetwork) : Env where
  exprtk := ⟨fun _ => .error "", fun _ x => (.ok x, x)⟩
  rclcpp := Rclcpp.documented
  openDbc path := if path = str "vehicle.dbc" then .parsed network else .missing
  steadyClock n := UInt64.ofNat (300 * min n 1000)

def sampleNode (network : INetwork) (overrides : Overrides) : VehicleCanNode :=
  ofLoaded .listed
    { params := overrides.params
      decoder := ((DbcDecoder.fresh.load (.parsed network)).map Prod.fst).getD .fresh
      router := (SignalRouter.configure .listed .empty overrides.domains overrides.aliases).1
      transformer := .empty }
    (overrides.strings "domain_names")

/-- A signal of one bit, which is `0.0` or `1.0`. -/
def sampleSignal (name : ByteString) (bit : UInt64) : ISignal where
  name
  decode data := data[0].toUInt64 >>> bit &&& 1
  rawToPhys raw := if raw = 0 then 0 else one

def sampleNetwork (id : UInt64) : INetwork where
  addr := 1
  messages := [⟨id, "BRAKE", [sampleSignal "pressed" 0, sampleSignal "locked" 1]⟩]

def sampleOverrides : Overrides :=
  List.toAList
    [⟨str "dbc_file", ParameterValue.string "vehicle.dbc"⟩,
      ⟨"domain_names", .stringArray ["chassis"]⟩,
      ⟨"domains.chassis.can_ids", .integerArray [256]⟩,
      ⟨"promoted_signal_names", .stringArray ["locked"]⟩,
      ⟨"signal_id_names", .stringArray ["pressed"]⟩,
      ⟨"signal_id_unit_names", .stringArray [""]⟩]

def sampleFrame (id : UInt32) : CanFrame := ⟨id, Payload.fillFrom .zeros 0 (by decide) 1, 8, 0⟩

theorem processFrame_publishes_sample :
    let n := sampleNode (sampleNetwork 256) sampleOverrides
    let stale : UnorderedMap ByteString (List Signal) := AList.insert "chassis" [⟨7, 7⟩] ∅
    (processFrame (sampleEnv (sampleNetwork 256)) .listed
        { n with frameSignals := stale, allSigs := [⟨7, 7⟩] } (sampleFrame 256)
        5000000000).2.filterMap Effect.asAll =
      [(str "/vehicle/decoded_can", ⟨⟨⟨5, 0⟩, ""⟩, "all", [⟨1, 0x3F800000⟩, ⟨0, 0⟩]⟩)] := by
  intro n stale
  have hStart : Constructed (sampleEnv (sampleNetwork 256)) sampleOverrides n :=
    ⟨.listed, ⟨0, 0⟩, _, rfl⟩
  exact (processFrame_publishes hStart .start stale [⟨7, 7⟩] .listed (sampleFrame 256) 5000000000
    rfl).1.trans (by decide +kernel)

end VehicleCanNode

end VehicleCanDecoder
