import VehicleCanDecoder.Accepted

/-! The launch of the node with what it asks of the middleware.  `create_publisher` and
`create_subscription` throw for a topic that is no valid name, and `create_wall_timer` for a period
that is too long; the constructor checks neither.  So a launch ends well just if the loader accepts
it and the middleware takes each topic and each period of its configuration. -/

namespace VehicleCanDecoder

open Hoare

namespace Launch

/-- The messages that the node publishes. -/
inductive MessageType
  | signalGroup
  | float64
  | signalDiagnostic
  | vehicleSchema

/-- What the middleware says to publishers, by their type and topic, to subscriptions, and to
timers, by their period in seconds. -/
structure Middleware where
  createPublisher : MessageType → ByteString → Except StdException PUnit
  createSubscription : ByteString → Except StdException PUnit
  createWallTimer : Double → Except StdException PUnit

/-- `1.0 / d`. -/
def reciprocal (d : Double) : Double := (1.0 / Float.ofBits d).toBits

section Source

variable (W : Middleware)

/-- A call of the middleware by the constructor. -/
def ask : Except StdException PUnit → Load PUnit
  | .ok _ => pure ⟨⟩
  | .error e => throw e

/-- An `if` without an else. -/
def when (p : Prop) [Decidable p] (c : Load PUnit) : Load PUnit := if p then c else pure ⟨⟩

def setupPublishers (order : HashOrder) (n : VehicleCanNode) : Load PUnit := do
  when n.params.publishAllSignals (ask (W.createPublisher .signalGroup n.params.allSignalsTopic))
  let domainNames ← getStringArray "domain_names"
  domainNames.forM fun name =>
    let topic := n.router.topicForDomain name
    when (topic ≠ []) (ask (W.createPublisher .signalGroup topic))
  when n.params.schemaPublishPerDomain
    ((n.params.schemaDomainTopics.items order).forM fun e =>
      ask (W.createPublisher .signalGroup e.2))
  n.params.promotedSignals.forM fun pc =>
    ask (W.createPublisher .float64 (str "/vehicle/signals/" ++ pc.topicSuffix))
  ask (W.createPublisher .signalDiagnostic n.params.diagnosticsTopic)
  ask (W.createPublisher .vehicleSchema "/vehicle/schema")

def setupDiagnosticsTimer (n : VehicleCanNode) : Load PUnit :=
  ask (W.createWallTimer (reciprocal n.params.diagnosticsRateHz))

def setupSchemaTimer (n : VehicleCanNode) : Load PUnit :=
  ask (W.createWallTimer n.params.schemaRepublishIntervalS)

/-- Everything that the constructor asks for. -/
def askAll (order : HashOrder) (n : VehicleCanNode) : Load PUnit := do
  setupPublishers W order n
  -- The schema is published here.
  ask (W.createSubscription n.params.canTopic)
  setupDiagnosticsTimer W n
  setupSchemaTimer W n

variable (E : Env) (overrides : Overrides)

/-- The constructor: the node as it is loaded, once it has got what it asks for. -/
def setUp (order : HashOrder) : Load VehicleCanNode := do
  let n ← VehicleCanNode.setUp E overrides order
  askAll W order n
  pure n

def construct (order : HashOrder) (now : Stamp) :
    Except StdException (VehicleCanNode × List Effect) :=
  match setUp W E overrides order [] with
  | .ok n _ => .ok (n, [.publishSchema (n.publishSchema order now)])
  | .error e _ => .error e

/-- `main`, which is shut down after the callbacks. -/
def main (order : HashOrder) (now : Stamp) (callbacks : List Callback) : Nat :=
  let run : Except StdException VehicleCanNode := do
    let (n, _) ← construct W E overrides order now
    n.spin E callbacks
  match run with
  | .ok _ => 0
  | .error _ => 1

end Source

/-! ### What the middleware takes -/

/-- The middleware takes the publishers of the configuration. -/
structure TakesPublishers (W : Middleware) (overrides : Overrides) : Prop where
  allSignals : overrides.params.publishAllSignals = true →
    (W.createPublisher .signalGroup overrides.params.allSignalsTopic).isOk
  domains : ∀ name ∈ overrides.strings "domain_names", (overrides.domain name).topic ≠ [] →
    (W.createPublisher .signalGroup (overrides.domain name).topic).isOk
  schemaDomains : overrides.params.schemaPublishPerDomain = true →
    ∀ name ∈ overrides.strings "schema_domain_names",
      (W.createPublisher .signalGroup (overrides.schemaTopic name)).isOk
  promoted : ∀ pc ∈ overrides.promoted,
    (W.createPublisher .float64 (str "/vehicle/signals/" ++ pc.topicSuffix)).isOk
  diagnostics : (W.createPublisher .signalDiagnostic overrides.params.diagnosticsTopic).isOk
  schema : (W.createPublisher .vehicleSchema "/vehicle/schema").isOk

/-- The middleware takes all of the configuration. -/
structure Takes (W : Middleware) (overrides : Overrides) : Prop extends
    TakesPublishers W overrides where
  subscription : (W.createSubscription overrides.params.canTopic).isOk
  diagnosticsTimer : (W.createWallTimer (reciprocal overrides.params.diagnosticsRateHz)).isOk
  schemaTimer : (W.createWallTimer overrides.params.schemaRepublishIntervalS).isOk

section Steps

variable {A : Prop} {P : Declared → Prop}

/-- A call returns where the launch ends well, `A`; where it throws, the launch does not. -/
theorem ask_takes {c : Except StdException PUnit} (hA : A → c.isOk) :
    Triple P (ask c) (fun _ s => c.isOk ∧ P s) fun _ _ => ¬ A := by
  cases c with
  | ok _ => exact Triple.pure fun s hs => ⟨rfl, hs⟩
  | error e => exact Triple.throw fun _ _ a => absurd (hA a) Bool.false_ne_true

/-- What is done under a condition establishes its fact under the condition. -/
theorem when_takes {p : Prop} [Decidable p] {c : Load PUnit} {Φ : Prop}
    {R : StdException → Declared → Prop} (h : p → Triple P c (fun _ s => Φ ∧ P s) R) :
    Triple P (when p c) (fun _ s => (p → Φ) ∧ P s) R := by
  unfold when
  by_cases hp : p
  · rw [if_pos hp]
    exact (h hp).post fun _ s hs => ⟨fun _ => hs.1, hs.2⟩
  · rw [if_neg hp]
    exact Triple.pure fun s hs => ⟨fun h => absurd h hp, hs⟩

end Steps

/-- The topic of a domain is that of its parameters. -/
theorem topicForDomain_configured (order : HashOrder) (overrides : Overrides) {name : ByteString}
    (hName : name ∈ overrides.strings "domain_names") :
    (SignalRouter.configure order .empty overrides.domains overrides.aliases).1.topicForDomain
      name = (overrides.domain name).topic := by
  rw [SignalRouter.topicForDomain, SignalRouter.configure_domainToTopic]
  have hMem : overrides.domain name ∈ overrides.domains.filter (·.name = name) :=
    List.mem_filter.mpr ⟨List.mem_map_of_mem hName, decide_eq_true rfl⟩
  obtain ⟨d, hLast⟩ : ∃ d, SignalRouter.lastDomainNamed overrides.domains name = some d :=
    ⟨_, List.getLast?_eq_some_getLast (List.ne_nil_of_mem hMem)⟩
  obtain ⟨hDomain, hHere⟩ := List.mem_filter.mp (List.mem_of_getLast? hLast)
  obtain ⟨name', -, rfl⟩ := List.mem_map.mp hDomain
  obtain rfl : name' = name := of_decide_eq_true hHere
  rw [hLast]
  rfl

section Constructor

variable {E : Env} {W : Middleware} {overrides : Overrides} {n : VehicleCanNode}

theorem setupPublishers_takes {A : Prop} (hA : A → TakesPublishers W overrides) (order : HashOrder)
    (hParams : n.params = overrides.params) (hTopics : ∀ name ∈ overrides.strings "domain_names",
      n.router.topicForDomain name = (overrides.domain name).topic) :
    Triple (Holds overrides overrides.parameters) (setupPublishers W order n)
      (fun _ _ => TakesPublishers W overrides) fun _ _ => ¬ A := by
  have hSchemaTopics : ∀ e, e ∈ overrides.params.schemaDomainTopics.items order ↔
      e.1 ∈ overrides.strings "schema_domain_names" ∧ e.2 = overrides.schemaTopic e.1 := by
    rintro ⟨name, topic⟩
    rw [UnorderedMap.mem_items]
    show (SchemaMaps.ofNames _ _ _).domainTopics.lookup name = some topic ↔ _
    rw [SchemaMaps.ofNames_domainTopics, Option.ite_none_right_eq_some, Option.some.injEq,
      eq_comm (a := topic)]
  unfold setupPublishers
  rw [hParams]
  refine Triple.bind (when_takes fun hFirehose => ask_takes fun a =>
    (hA a).allSignals hFirehose) fun _ => ?_
  refine Triple.assume fun hAllSignals => ?_
  apply Triple.bind_eq (getStringArray_holds (by simp [Overrides.parameters]))
  refine Triple.bind (Triple.forM_forall (Φ := fun name => n.router.topicForDomain name ≠ [] →
    (W.createPublisher .signalGroup (n.router.topicForDomain name)).isOk) _ fun name hName =>
      when_takes fun hNe => ask_takes fun a => ?_) fun _ => ?_
  · rw [hTopics name hName] at hNe ⊢
    exact (hA a).domains name hName hNe
  refine Triple.assume fun hDomains => ?_
  refine Triple.bind (when_takes (Φ := ∀ e ∈ overrides.params.schemaDomainTopics.items order,
    (W.createPublisher .signalGroup e.2).isOk) fun hPerDomain =>
      Triple.forM_forall _ fun e he => ask_takes fun a => ?_) fun _ => ?_
  · obtain ⟨hName, hTopic⟩ := (hSchemaTopics e).mp he
    rw [hTopic]
    exact (hA a).schemaDomains hPerDomain e.1 hName
  refine Triple.assume fun hSchemaDomains => ?_
  refine Triple.bind (Triple.forM_forall _ fun pc hMem => ask_takes fun a =>
    (hA a).promoted pc hMem) fun _ => ?_
  refine Triple.assume fun hPromoted => ?_
  refine Triple.bind (ask_takes fun a => (hA a).diagnostics) fun _ => ?_
  refine Triple.assume fun hDiagnostics => ?_
  refine (ask_takes fun a => (hA a).schema).post fun _ s hs => ?_
  exact
    { allSignals := hAllSignals
      domains := fun name hName => hTopics name hName ▸ hDomains name hName
      schemaDomains := fun hPerDomain name hName =>
        hSchemaDomains hPerDomain (name, overrides.schemaTopic name)
          ((hSchemaTopics _).mpr ⟨hName, rfl⟩)
      promoted := hPromoted
      diagnostics := hDiagnostics
      schema := hs.1 }

theorem askAll_takes (order : HashOrder) (hParams : n.params = overrides.params)
    (hTopics : ∀ name ∈ overrides.strings "domain_names",
      n.router.topicForDomain name = (overrides.domain name).topic) :
    Triple (Holds overrides overrides.parameters) (askAll W order n)
      (fun _ _ => Takes W overrides) fun _ _ => ¬ Takes W overrides := by
  unfold askAll setupDiagnosticsTimer setupSchemaTimer
  rw [hParams]
  refine Triple.bind (setupPublishers_takes Takes.toTakesPublishers order hParams hTopics)
    fun _ => ?_
  refine (Triple.assume fun hPublishers => ?_).pre fun _ hs => And.intro hs trivial
  refine Triple.bind (ask_takes fun a => a.subscription) fun _ => ?_
  refine Triple.assume fun hSubscription => ?_
  refine Triple.bind (ask_takes fun a => a.diagnosticsTimer) fun _ => ?_
  refine Triple.assume fun hDiagnosticsTimer => ?_
  exact (ask_takes fun a => a.schemaTimer).post fun _ s hs =>
    ⟨hPublishers, hSubscription, hDiagnosticsTimer, hs.1⟩

/-- The calls for a node that the loader has made. -/
theorem askAll_constructed (hDeclare : E.rclcpp.DeclareDocumented)
    (hStart : VehicleCanNode.Constructed E overrides n) (order : HashOrder) :
    Triple (Holds overrides overrides.parameters) (askAll W order n)
      (fun _ _ => Takes W overrides) fun _ _ => ¬ Takes W overrides := by
  obtain ⟨order', l, hConfigured, rfl⟩ := hStart.configured hDeclare
  refine askAll_takes order hConfigured.params fun name hName => ?_
  rw [← topicForDomain_configured order' overrides hName, ← hConfigured.router]
  rfl

/-- The constructor gets what it asks for just if the launch is acceptable in both respects. -/
theorem construct_takes (hExact : E.rclcpp.DeclareExact) (order : HashOrder) (now : Stamp) :
    match construct W E overrides order now with
    | .ok r => (Accepts E overrides ∧ Takes W overrides) ∧
        VehicleCanNode.construct E overrides order now = .ok r
    | .error _ => ¬ (Accepts E overrides ∧ Takes W overrides) := by
  have hNone : Holds overrides [] [] := ⟨rfl, List.nodup_nil, by simp⟩
  have hLoads : Triple (Holds overrides []) (VehicleCanNode.setUp E overrides order)
      (fun _ s => Accepts E overrides ∧ Holds overrides overrides.parameters s)
      fun _ _ => ¬ Accepts E overrides := VehicleCanNode.setUp_holds hExact order
  cases hLoad : VehicleCanNode.setUp E overrides order [] with
  | error e declared =>
    have hRun : construct W E overrides order now = .error e := by
      simp only [construct, setUp, bind, EStateM.bind, hLoad]
    rw [hRun]
    exact fun h => hLoads.error hNone hLoad h.1
  | ok n declared =>
    obtain ⟨hAccepts, hHolds⟩ := hLoads.ok hNone hLoad
    have hConstruct : VehicleCanNode.construct E overrides order now =
        .ok (n, [.publishSchema (n.publishSchema order now)]) := by
      simp only [VehicleCanNode.construct, hLoad]
    have hAsk := askAll_constructed (W := W) hExact.toDeclareDocumented
      ⟨order, now, _, hConstruct⟩ order
    cases hCalls : askAll W order n declared with
    | error e declared' =>
      have hRun : construct W E overrides order now = .error e := by
        simp only [construct, setUp, bind, EStateM.bind, hLoad, hCalls]
      rw [hRun]
      exact fun h => hAsk.error hHolds hCalls h.2
    | ok u declared' =>
      have hRun : construct W E overrides order now =
          .ok (n, [.publishSchema (n.publishSchema order now)]) := by
        simp only [construct, setUp, bind, EStateM.bind, hLoad, hCalls, pure, EStateM.pure]
      rw [hRun]
      exact ⟨⟨hAccepts, hAsk.ok hHolds hCalls⟩, hConstruct⟩

/-- The constructor returns exactly from the launches that the loader accepts and whose topics and
periods the middleware takes, whatever the order of the hash tables and the time; then with the node
that the loader makes.  The call of `publish` is taken not to throw. -/
theorem launch_ok_iff (hExact : E.rclcpp.DeclareExact) (order : HashOrder) (now : Stamp) :
    ((∃ r, construct W E overrides order now = .ok r) ↔
        Accepts E overrides ∧ Takes W overrides) ∧
      ∀ r, construct W E overrides order now = .ok r →
        VehicleCanNode.construct E overrides order now = .ok r := by
  have hEnds := @construct_takes E W overrides hExact order now
  cases hRun : construct W E overrides order now with
  | error e =>
    rw [hRun] at hEnds
    refine ⟨iff_of_false ?_ hEnds, fun r hr => by contradiction⟩
    rintro ⟨r, hr⟩
    contradiction
  | ok r =>
    rw [hRun] at hEnds
    exact ⟨iff_of_true ⟨r, rfl⟩ hEnds.1, fun r' hr => hr ▸ hEnds.2⟩

/-- The process ends with 0 when the launch ends well and no frame is stamped before the epoch, and
with 1 otherwise.  Calls of `publish` are taken not to throw. -/
theorem process_returns (hExact : E.rclcpp.DeclareExact) (hTime : E.rclcpp.TimeDocumented)
    (order : HashOrder) (now : Stamp) (callbacks : List Callback) :
    (main W E overrides order now callbacks = 0 ↔
        (Accepts E overrides ∧ Takes W overrides) ∧ VehicleCanNode.StampsSinceEpoch callbacks) ∧
      (main W E overrides order now callbacks = 1 ↔
        ¬ ((Accepts E overrides ∧ Takes W overrides) ∧
          VehicleCanNode.StampsSinceEpoch callbacks)) := by
  have hEnds := @construct_takes E W overrides hExact order now
  unfold main
  cases hRun : construct W E overrides order now with
  | error e =>
    rw [hRun] at hEnds
    simp only [bind, Except.bind, one_ne_zero, false_iff, true_iff]
    exact ⟨fun h => hEnds h.1, fun h => hEnds h.1⟩
  | ok r =>
    rw [hRun] at hEnds
    have hStamps := VehicleCanNode.spin_ok_iff_since_epoch hTime r.1 callbacks
    simp only [bind, Except.bind, hEnds.1, true_and, ← hStamps]
    cases r.1.spin E callbacks <;> simp

end Constructor

/-- A middleware that refuses an empty topic. -/
def sampleMiddleware : Middleware where
  createPublisher _ topic :=
    if topic = [] then .error ⟨"Invalid topic name: topic name must not be empty string"⟩
    else .ok ⟨⟩
  createSubscription _ := .ok ⟨⟩
  createWallTimer _ := .ok ⟨⟩

/-- The sample, with its domain listed twice. -/
def repeatedDomain : Overrides :=
  AList.insert "domain_names" (.stringArray ["chassis", "chassis"]) VehicleCanNode.sampleOverrides

/-- The sample, without a topic for the diagnostics. -/
def noDiagnosticsTopic : Overrides :=
  AList.insert "diagnostics_topic" (.string "") VehicleCanNode.sampleOverrides

open VehicleCanNode in
theorem launch_ok_iff_sample :
    let E := sampleEnv (sampleNetwork 256)
    (Accepts E sampleOverrides ∧ Takes sampleMiddleware sampleOverrides) ∧
      ¬ (Accepts E repeatedDomain ∧ Takes sampleMiddleware repeatedDomain) ∧
      ¬ (Accepts E noDiagnosticsTopic ∧ Takes sampleMiddleware noDiagnosticsTopic) := by
  intro E
  refine ⟨(launch_ok_iff Rclcpp.documented_exact .listed ⟨0, 0⟩).1.mp ⟨_, rfl⟩, ?_, ?_⟩
  · intro h
    obtain ⟨r, hr⟩ := (launch_ok_iff Rclcpp.documented_exact .listed ⟨0, 0⟩).1.mpr h
    exact nomatch hr
  · intro h
    obtain ⟨r, hr⟩ := (launch_ok_iff Rclcpp.documented_exact .listed ⟨0, 0⟩).1.mpr h
    exact nomatch hr

open VehicleCanNode in
theorem process_returns_sample :
    let E := sampleEnv (sampleNetwork 256)
    (Accepts E sampleOverrides ∧ Takes sampleMiddleware sampleOverrides) ∧
      main sampleMiddleware E sampleOverrides .listed ⟨0, 0⟩
        [.canFrame .listed earlyFrame] = 1 := by
  intro E
  have hMain := @process_returns E sampleMiddleware sampleOverrides Rclcpp.documented_exact
    Rclcpp.documented_time .listed ⟨0, 0⟩
  refine ⟨((hMain []).1.mp rfl).1, (hMain _).2.mpr fun h => ?_⟩
  exact absurd (h.2 .listed earlyFrame (by simp)) (by decide)

end Launch

end VehicleCanDecoder
