import VehicleCanDecoder.Routing

/-! Where the signals of the schema go when it has no publishers of its own.  The groups are looked
up by the names of their domains, and a domain of CAN identifiers can have the name of a schema
domain; then its publisher puts out the signals of the schema. -/

namespace VehicleCanDecoder

namespace Overrides

variable (overrides : Overrides)

/-- A domain of CAN identifiers with a topic. -/
def HasDomainPublisher (name : ByteString) : Prop :=
  name ∈ overrides.strings "domain_names" ∧ (overrides.domain name).topic ≠ []

/-- The domain under which the schema lists a signal, if it does not have the name for none. -/
def schemaDomain (sig : ByteString) : Option ByteString :=
  (overrides.lastSchemaDomain sig).filter (· ≠ SignalRouter.kUnassignedDomain)

theorem lastDomainNamed_domains (name : ByteString) :
    SignalRouter.lastDomainNamed overrides.domains name =
      if name ∈ overrides.strings "domain_names" then some (overrides.domain name) else none := by
  have hNamed := SignalRouter.lastDomainNamed_isSome overrides.domains name
  cases hLast : SignalRouter.lastDomainNamed overrides.domains name with
  | none =>
    rw [if_neg]
    intro hName
    rw [hLast] at hNamed
    exact absurd (hNamed.mpr ⟨_, List.mem_map_of_mem hName, rfl⟩) (by simp)
  | some d =>
    obtain ⟨hMem, hSame⟩ := List.mem_filter.mp (List.mem_of_getLast? hLast)
    obtain ⟨name', hName', rfl⟩ := List.mem_map.mp hMem
    obtain rfl : name' = name := of_decide_eq_true hSame
    rw [if_pos hName']

end Overrides

namespace VehicleCanNode

section FirehoseOnly

variable (E : Env) (overrides : Overrides) (start n : VehicleCanNode)

/-- The signals of a frame that the schema lists, and whose transforms do not throw. -/
def schemaRouted (frame : CanFrame) : List PassedSignal :=
  match start.decoder.decode frame.id frame.data frame.dlc with
  | none => []
  | some decoded => ((start.path E).passed frame.id decoded).filter
      fun r => (overrides.lastSchemaDomain r.res.name).isSome

/-- The frame puts no group of a signal of the schema out on a publisher of a domain; with a
firehose, the signal is in its group. -/
def FirehoseOnly (order : HashOrder) (frame : CanFrame) (stamp : Time) : Prop :=
  ∀ r ∈ schemaRouted E overrides start frame,
    (∀ topic group, Effect.publishDomain topic group ∈ (n.processFrame E order frame stamp).2 →
      group.domain ≠ r.res.domain) ∧
    (start.params.publishAllSignals = true → r.res.isAssigned = true → ∃ topic group,
      Effect.publishAll topic group ∈ (n.processFrame E order frame stamp).2 ∧
        r.signal ∈ group.signals)

/-- No signal of the frame is listed under the name of a domain that has a publisher. -/
def SchemaApart (frame : CanFrame) : Prop :=
  ∀ r ∈ schemaRouted E overrides start frame, ∀ domain,
    overrides.schemaDomain r.res.name = some domain → ¬ overrides.HasDomainPublisher domain

end FirehoseOnly

variable {E : Env} {overrides : Overrides} {start n : VehicleCanNode}

/-- Without publishers of the schema, those of the domains are left. -/
theorem lookup_domainPublishers {order : HashOrder} {l : Loaded}
    (h : Configured E overrides order l)
    (hFlag : overrides.value ParameterValue.asBool "schema_publish_per_domain" true = false)
    (name : ByteString) :
    ((ofLoaded order l (overrides.strings "domain_names")).pubs.domains.lookup name).isSome ↔
      overrides.HasDomainPublisher name := by
  have hPerDomain : l.params.schemaPublishPerDomain = false := by
    rw [h.params]
    exact hFlag
  have hTopic : l.router.topicForDomain name =
      ((SignalRouter.lastDomainNamed overrides.domains name).map DomainConfig.topic).getD "" := by
    rw [SignalRouter.topicForDomain, h.router, SignalRouter.configure_domainToTopic]
  have hPubs : (ofLoaded order l (overrides.strings "domain_names")).pubs.domains =
      (overrides.strings "domain_names").foldl (addLegacyPub l.router) ∅ := by
    simp [ofLoaded, setupPublishers, hPerDomain]
  rw [hPubs, lookup_foldl_addLegacyPub, hTopic, overrides.lastDomainNamed_domains]
  unfold Overrides.HasDomainPublisher
  by_cases hName : name ∈ overrides.strings "domain_names"
  · by_cases hEmpty : (overrides.domain name).topic = [] <;> simp [hName, hEmpty]
  · simp [hName]

/-- A frame puts a group of a domain out just when signals of it resolve to the domain, and the
domain has a publisher. -/
theorem publishDomain_iff (hSetup : SameSetup start n) (order : HashOrder) (frame : CanFrame)
    (stamp : Time) {decoded : List RawSignal}
    (hDecoded : start.decoder.decode frame.id frame.data frame.dlc = some decoded)
    (domain : ByteString) :
    (∃ topic group, Effect.publishDomain topic group ∈ (n.processFrame E order frame stamp).2 ∧
      group.domain = domain) ↔
      (∃ r ∈ (start.path E).assigned frame.id decoded, r.res.domain = domain) ∧
        (start.pubs.domains.lookup domain).isSome := by
  have hGroups := (processFrame_effects (E := E) hSetup order frame stamp hDecoded).domains domain
  have hMem : (∃ topic group, Effect.publishDomain topic group ∈
      (n.processFrame E order frame stamp).2 ∧ group.domain = domain) ↔
      (((n.processFrame E order frame stamp).2.filterMap Effect.asDomain).filter
        (·.2.domain = domain)) ≠ [] := by
    rw [ne_eq, List.filter_eq_nil_iff]
    simp only [Prod.forall, Effect.mem_filterMap_asDomain, decide_eq_true_eq, not_forall, not_not,
      exists_prop]
  rw [hMem, hGroups]
  unfold SignalPath.inDomain groupOf
  simp only [List.map_eq_nil_iff, List.filter_eq_nil_iff, decide_eq_true_eq]
  by_cases hSome : ∃ r ∈ (start.path E).assigned frame.id decoded, r.res.domain = domain
  · rw [if_neg (by simpa using hSome)]
    cases start.pubs.domains.lookup domain <;> simp [hSome]
  · rw [if_pos (by simpa using hSome)]
    simp [hSome]

/-- A signal that the schema lists resolves to the last domain that lists it. -/
theorem domain_of_listed {order : HashOrder} {l : Loaded} (h : Configured E overrides order l)
    {frame : CanFrame} {r : PassedSignal}
    (hMem : r ∈ schemaRouted E overrides (ofLoaded order l (overrides.strings "domain_names")) frame) :
    overrides.lastSchemaDomain r.res.name = some r.res.domain := by
  unfold schemaRouted at hMem
  split at hMem
  · exact absurd hMem List.not_mem_nil
  · rename_i decoded hDecoded
    obtain ⟨hPassed, hListed⟩ := List.mem_filter.mp hMem
    obtain ⟨raw, -, hPass⟩ := List.mem_filterMap.mp hPassed
    have hRes := (SignalPath.pass_signal _ frame.id hPass).1
    have hDomain := resolve_domain h raw.name frame.id
    change r.res = resolveSignal raw.name frame.id l.router l.params.signalToDomain at hRes
    simp only [← hRes] at hDomain
    obtain ⟨domain, hLast⟩ := Option.isSome_iff_exists.mp hListed
    obtain ⟨listing, hListing, hSig⟩ := (overrides.lastSchemaDomain_isSome _).mp hListed
    have hSome : ¬ ∀ domain ∈ overrides.strings "schema_domain_names",
        overrides.schemaSignals domain = [] := fun hNone => by simp [hNone listing hListing] at hSig
    rw [if_neg hSome, hLast, Option.getD_some] at hDomain
    rw [hLast, hDomain]

theorem mem_assigned_of_routed {frame : CanFrame} {r : PassedSignal} {decoded : List RawSignal}
    (hDecoded : start.decoder.decode frame.id frame.data frame.dlc = some decoded)
    (hMem : r ∈ schemaRouted E overrides start frame) (hAssigned : r.res.isAssigned = true) :
    r ∈ (start.path E).assigned frame.id decoded := by
  unfold schemaRouted at hMem
  rw [hDecoded] at hMem
  exact List.mem_filter.mpr ⟨(List.mem_filter.mp hMem).1, hAssigned⟩

theorem decoded_of_routed {frame : CanFrame} {r : PassedSignal}
    (hMem : r ∈ schemaRouted E overrides start frame) :
    ∃ decoded, start.decoder.decode frame.id frame.data frame.dlc = some decoded := by
  unfold schemaRouted at hMem
  split at hMem
  · exact absurd hMem List.not_mem_nil
  · exact ⟨_, by assumption⟩

/-- The firehose of a frame has all of its assigned signals. -/
theorem publishAll_of_assigned (hStart : Constructed E overrides start) (hSetup : SameSetup start n)
    (hAll : start.params.publishAllSignals = true) (order : HashOrder) (frame : CanFrame)
    (stamp : Time) {decoded : List RawSignal}
    (hDecoded : start.decoder.decode frame.id frame.data frame.dlc = some decoded)
    {r : PassedSignal} (hMem : r ∈ (start.path E).assigned frame.id decoded) :
    ∃ topic group, Effect.publishAll topic group ∈ (n.processFrame E order frame stamp).2 ∧
      r.signal ∈ group.signals := by
  have hFirehose := (processFrame_effects (E := E) hSetup order frame stamp hDecoded).firehose
  have hSignal : r.signal ∈ ((start.path E).assigned frame.id decoded).map PassedSignal.signal :=
    List.mem_map_of_mem hMem
  unfold firehoseOf at hFirehose
  rw [hStart.allSignals, if_pos hAll] at hFirehose
  simp only [if_pos (And.intro hAll (List.ne_nil_of_mem hSignal))] at hFirehose
  refine ⟨start.params.allSignalsTopic, ⟨⟨E.rclcpp.stamp stamp, ""⟩, "all", _⟩, ?_, hSignal⟩
  rw [← Effect.mem_filterMap_asAll, hFirehose]
  exact List.mem_singleton_self _

theorem firehoseOnly_iff_apart (hDeclare : E.rclcpp.DeclareDocumented)
    (hStart : Constructed E overrides start)
    (hFlag : overrides.value ParameterValue.asBool "schema_publish_per_domain" true = false)
    (hSetup : SameSetup start n) (order : HashOrder) (frame : CanFrame) (stamp : Time) :
    FirehoseOnly E overrides start n order frame stamp ↔ SchemaApart E overrides start frame := by
  obtain ⟨order', l, hConfigured, rfl⟩ := hStart.configured hDeclare
  have hPublisher := lookup_domainPublishers hConfigured hFlag
  have hAssigned : ∀ {res : SignalResolution}, res.isAssigned = true ↔
      res.domain ≠ SignalRouter.kUnassignedDomain := decide_eq_true_iff
  constructor
  · intro hOnly r hMem domain hDomain hHas
    obtain ⟨decoded, hDecoded⟩ := decoded_of_routed hMem
    unfold Overrides.schemaDomain at hDomain
    rw [domain_of_listed hConfigured hMem, Option.filter_some] at hDomain
    obtain ⟨hNamed, rfl⟩ : r.res.domain ≠ SignalRouter.kUnassignedDomain ∧ r.res.domain = domain := by
      simpa using hDomain
    have hRouted := mem_assigned_of_routed hDecoded hMem (hAssigned.mpr hNamed)
    obtain ⟨topic, group, hPublished, hSame⟩ := (publishDomain_iff hSetup order frame stamp hDecoded
      r.res.domain).mpr ⟨⟨r, hRouted, rfl⟩, (hPublisher _).mpr hHas⟩
    exact (hOnly r hMem).1 topic group hPublished hSame
  · intro hApart r hMem
    obtain ⟨decoded, hDecoded⟩ := decoded_of_routed hMem
    refine ⟨fun topic group hPublished hSame => ?_, fun hAll hNamed => ?_⟩
    · obtain ⟨⟨r', hRouted, hDomain⟩, hHas⟩ := (publishDomain_iff hSetup order frame stamp hDecoded
        r.res.domain).mp ⟨topic, group, hPublished, hSame⟩
      have hNamed := hAssigned.mp (List.mem_filter.mp hRouted).2
      rw [hDomain] at hNamed
      refine hApart r hMem r.res.domain ?_ ((hPublisher _).mp hHas)
      simp [Overrides.schemaDomain, domain_of_listed hConfigured hMem, Option.filter, hNamed]
    · exact publishAll_of_assigned hStart hSetup hAll order frame stamp hDecoded
        (mem_assigned_of_routed hDecoded hMem hNamed)

/-- The node after a sequence of frames. -/
def afterFrames (E : Env) (start : VehicleCanNode) (frames : List (HashOrder × CanFrame × Time)) :
    VehicleCanNode :=
  (Machine.run (fun n i => n.processFrame E i.1 i.2.1 i.2.2) start frames).1

theorem afterFrames_setup (start : VehicleCanNode) (frames : List (HashOrder × CanFrame × Time)) :
    SameSetup start (afterFrames E start frames) :=
  Machine.run_invariant (I := SameSetup start)
    (fun n i h => h.trans (processFrame_setup i.1 n i.2.1 i.2.2)) (SameSetup.refl start) frames

/-- With no publishers for the schema, its signals stay off the publishers of domains exactly as
long as no frame brings one that is listed under the name of a domain with a publisher. -/
theorem firehoseOnly_iff (hDeclare : E.rclcpp.DeclareDocumented)
    (hStart : Constructed E overrides start)
    (hFlag : overrides.value ParameterValue.asBool "schema_publish_per_domain" true = false) :
    (∀ n out, Runs E start n out → ∀ order frame stamp,
      FirehoseOnly E overrides start n order frame stamp ↔ SchemaApart E overrides start frame) ∧
    ∀ frames : List (HashOrder × CanFrame × Time),
      (∀ before i after, frames = before ++ i :: after →
        FirehoseOnly E overrides start (afterFrames E start before) i.1 i.2.1 i.2.2) ↔
      ∀ i ∈ frames, SchemaApart E overrides start i.2.1 := by
  refine ⟨fun n out hRuns => firehoseOnly_iff_apart hDeclare hStart hFlag hRuns.setup,
    fun frames => ?_⟩
  have hFrame := fun before => firehoseOnly_iff_apart hDeclare hStart hFlag
    (afterFrames_setup (E := E) start before)
  constructor
  · intro hAll i hMem
    obtain ⟨before, after, hSplit⟩ := List.append_of_mem hMem
    exact (hFrame before _ _ _).mp (hAll before i after hSplit)
  · rintro hApart before i after rfl
    exact (hFrame before _ _ _).mpr (hApart i (by simp))

/-- A domain of CAN identifiers with the name of a schema domain. -/
def overlapping : Overrides :=
  List.toAList
    [⟨str "dbc_file", ParameterValue.string "vehicle.dbc"⟩,
      ⟨"domain_names", .stringArray ["dynamics"]⟩,
      ⟨"domains.dynamics.can_ids", .integerArray [512]⟩,
      ⟨"schema_domain_names", .stringArray ["dynamics"]⟩,
      ⟨"schema.dynamics.signals", .stringArray ["pressed"]⟩,
      ⟨"schema_publish_per_domain", .bool false⟩]

/-- A signal of the schema, of another frame than that domain lists, is put out on its publisher. -/
theorem overlapping_published :
    let E := sampleEnv (sampleNetwork 256)
    let n := sampleNode (sampleNetwork 256) overlapping
    Constructed E overlapping n ∧ n.params.schemaPublishPerDomain = false ∧
      Effect.publishDomain "/vehicle/dynamics" ⟨⟨⟨5, 0⟩, ""⟩, "dynamics", [⟨0, 0x3F800000⟩]⟩ ∈
        (n.processFrame E .listed (sampleFrame 256) 5000000000).2 ∧
      ¬ FirehoseOnly E overlapping n n .listed (sampleFrame 256) 5000000000 := by
  intro E n
  have hPublished : Effect.publishDomain "/vehicle/dynamics"
      ⟨⟨⟨5, 0⟩, ""⟩, "dynamics", [⟨0, 0x3F800000⟩]⟩ ∈
        (n.processFrame E .listed (sampleFrame 256) 5000000000).2 := by decide +kernel
  have hRouted : ⟨⟨"pressed", "dynamics"⟩, one, ⟨0, 0x3F800000⟩⟩ ∈
      schemaRouted E overlapping n (sampleFrame 256) := by decide +kernel
  exact ⟨⟨.listed, ⟨0, 0⟩, _, rfl⟩, rfl, hPublished,
    fun hOnly => (hOnly _ hRouted).1 _ _ hPublished rfl⟩

theorem firehoseOnly_iff_sample :
    let E := sampleEnv (sampleNetwork 256)
    let quiet : Overrides :=
      sampleOverrides.insert "schema_publish_per_domain" (ParameterValue.bool false)
    let n := sampleNode (sampleNetwork 256) quiet
    FirehoseOnly E quiet n n .listed (sampleFrame 256) 5000000000 ↔
      SchemaApart E quiet n (sampleFrame 256) := by
  intro E quiet n
  have hStart : Constructed E quiet n := ⟨.listed, ⟨0, 0⟩, _, rfl⟩
  exact (firehoseOnly_iff Rclcpp.documented_declare hStart rfl).1 n [] .start _ _ _

end VehicleCanNode

end VehicleCanDecoder
