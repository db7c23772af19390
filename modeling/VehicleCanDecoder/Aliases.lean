import VehicleCanDecoder.Frames

/-! Compound aliases.  A key of digits, an underscore and a name has one reading, so an entry for a
compound key concerns one signal of one message.  Whether the entry is there is judged by comparing
what it gives with the key, so an entry that gives the key itself passes for none. -/

namespace VehicleCanDecoder

theorem compoundKey_inj {rawName rawName' : ByteString} {canId canId' : UInt32}
    (h : compoundKey rawName canId = compoundKey rawName' canId') :
    canId = canId' ∧ rawName = rawName' := by
  have hSplit : toDecimal canId.toNat ++ 95 :: rawName =
      toDecimal canId'.toNat ++ 95 :: rawName' := by
    simp only [compoundKey, List.append_assoc, List.append_cancel_left_eq] at h
    exact h
  obtain ⟨hDigits, hName⟩ := append_separator_inj (underscore_not_mem_toDecimal _)
    (underscore_not_mem_toDecimal _) hSplit
  exact ⟨UInt32.toNat_inj.mp (toDecimal_injective hDigits), hName⟩

theorem compoundKey_ne (rawName : ByteString) (canId : UInt32) :
    rawName ≠ compoundKey rawName canId := by
  intro h
  have hLength := congrArg List.length h
  simp only [compoundKey, List.length_append] at hLength
  have hPrefix : (str "CAN").length = 3 := rfl
  omega

section Resolve

variable (order : HashOrder) (r : SignalRouter) (domains : List DomainConfig)

/-! ### Precedence -/

/-- The name of a signal by precedence: what is configured for the compound key, else what is
configured for the bare name, else the name itself. -/
def namedByPrecedence (aliases : UnorderedMap ByteString ByteString) (rawName : ByteString)
    (canId : UInt32) : ByteString :=
  match aliases.lookup (compoundKey rawName canId) with
  | some target => target
  | none => (aliases.lookup rawName).getD rawName

/-- The name of the resolution, from the entries of the two keys. -/
theorem resolveName_configure (aliases : UnorderedMap ByteString ByteString) (rawName : ByteString)
    (canId : UInt32) :
    resolveName rawName canId (r.configure order domains aliases).1 =
      match aliases.lookup (compoundKey rawName canId) with
      | some target =>
        if target = compoundKey rawName canId then (aliases.lookup rawName).getD rawName else target
      | none => (aliases.lookup rawName).getD rawName := by
  unfold resolveName SignalRouter.applyAlias
  rw [SignalRouter.configure_aliases]
  cases aliases.lookup (compoundKey rawName canId) with
  | none => simp
  | some target =>
    by_cases hSelf : target = compoundKey rawName canId
    · simp [hSelf]
    · simp [hSelf]

/-- A signal has its name by precedence unless its compound key is configured to be itself, and then
only where the bare name is configured to be the compound key as well. -/
theorem resolve_byPrecedence_iff (aliases signalToDomain : UnorderedMap ByteString ByteString)
    (rawName : ByteString) (canId : UInt32) :
    (resolveSignal rawName canId (r.configure order domains aliases).1 signalToDomain).name =
        namedByPrecedence aliases rawName canId ↔
      (aliases.lookup (compoundKey rawName canId) = some (compoundKey rawName canId) →
        aliases.lookup rawName = some (compoundKey rawName canId)) := by
  show resolveName rawName canId (r.configure order domains aliases).1 = _ ↔ _
  rw [resolveName_configure, namedByPrecedence]
  cases aliases.lookup (compoundKey rawName canId) with
  | none => simp
  | some target =>
    by_cases hSelf : target = compoundKey rawName canId
    · subst hSelf
      cases aliases.lookup rawName with
      | none => simp [compoundKey_ne]
      | some bare => simp
    · simp [hSelf]

/-! ### Isolation -/

/-- The entry of one compound key matters to one signal of one message, and to a signal that has the
key as its raw name. -/
theorem resolve_isolated :
    (∀ rawName rawName' canId canId', compoundKey rawName canId = compoundKey rawName' canId' →
        canId = canId' ∧ rawName = rawName') ∧
      ∀ aliases aliases' signalToDomain rawName canId,
        (∀ key, key ≠ compoundKey rawName canId → aliases'.lookup key = aliases.lookup key) →
        ∀ rawName' canId', (canId', rawName') ≠ (canId, rawName) →
          rawName' ≠ compoundKey rawName canId →
          resolveSignal rawName' canId' (r.configure order domains aliases').1 signalToDomain =
            resolveSignal rawName' canId' (r.configure order domains aliases).1 signalToDomain := by
  refine ⟨fun _ _ _ _ h => compoundKey_inj h, ?_⟩
  intro aliases aliases' signalToDomain rawName canId hSame rawName' canId' hOther hRaw
  have hKey : aliases'.lookup (compoundKey rawName' canId') =
      aliases.lookup (compoundKey rawName' canId') := by
    apply hSame
    intro hEq
    obtain ⟨rfl, rfl⟩ := compoundKey_inj hEq
    exact hOther rfl
  have hName : resolveName rawName' canId' (r.configure order domains aliases').1 =
      resolveName rawName' canId' (r.configure order domains aliases).1 := by
    rw [resolveName_configure, resolveName_configure, hKey, hSame rawName' hRaw]
  have hDomain : (r.configure order domains aliases').1.domainForId canId' =
      (r.configure order domains aliases).1.domainForId canId' := by
    simp only [SignalRouter.domainForId, SignalRouter.configure_idToDomain]
  rw [resolveSignal, resolveSignal, hName, resolveDomain, resolveDomain, hDomain]

end Resolve

theorem resolve_isolated_sample :
    let aliases : UnorderedMap ByteString ByteString := AList.singleton "pressed" "brake"
    let changed : UnorderedMap ByteString ByteString := aliases.insert "CAN256_pressed" "brake"
    resolveSignal "pressed" 257 (SignalRouter.empty.configure .listed [] changed).1 ∅ =
      resolveSignal "pressed" 257 (SignalRouter.empty.configure .listed [] aliases).1 ∅ := by
  intro aliases changed
  refine (resolve_isolated .listed .empty []).2 aliases changed ∅ "pressed" 256 (fun key hKey => ?_)
    "pressed" 257 (by decide) (by decide)
  exact AList.lookup_insert_ne hKey

/-- The compound key is listed without a target, which makes the key its target. -/
def selfAlias : Overrides :=
  List.toAList
    [⟨str "dbc_file", ParameterValue.string "vehicle.dbc"⟩,
      ⟨"alias_names", .stringArray ["CAN256_pressed", "pressed"]⟩,
      ⟨"aliases.pressed", .string "brake"⟩]

/-- The signal takes the bare alias, although its compound key is configured. -/
theorem selfAlias_passed_over :
    let E := VehicleCanNode.sampleEnv (VehicleCanNode.sampleNetwork 256)
    let n := VehicleCanNode.sampleNode (VehicleCanNode.sampleNetwork 256) selfAlias
    let res := resolveSignal "pressed" 256 n.router n.params.signalToDomain
    VehicleCanNode.Constructed E selfAlias n ∧
      n.router.aliases.lookup (str "CAN256_pressed") = some (str "CAN256_pressed") ∧
      namedByPrecedence n.router.aliases "pressed" 256 = str "CAN256_pressed" ∧
      res.name = str "brake" ∧ res.name ≠ namedByPrecedence n.router.aliases "pressed" 256 := by
  intro E n res
  refine ⟨⟨.listed, ⟨0, 0⟩, _, rfl⟩, ?_, ?_, ?_, ?_⟩ <;> decide

end VehicleCanDecoder
