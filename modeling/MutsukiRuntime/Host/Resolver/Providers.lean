/-
  RECORDED PROVIDERS: which provider an accepted plan records for a capability, and when
  it meets the constraints of the enabled plugins.

  Every requirement of an accepted plan is met by some provider of the capability it
  names.  The one recorded is chosen by a single requirement, the first that names the
  capability in full; the others, and those that use the short id, have no say in it.
  `recorded_provider_meets_iff` says exactly when the recorded provider meets them all.
-/
import MutsukiRuntime.Host.Resolver.LoadPlan

namespace MutsukiRuntime.Resolver

open Std Prog List Option

/-! ## Activated extensions are active capabilities -/

/-- An activated id of this kind stands in the set of active capabilities. -/
def KindListed (kind : ExtensionKind) (tables : CapabilityTables) : Prop :=
  ∀ id ∈ tables.activeIds kind, s!"{kind.text}:{id}" ∈ tables.active

section Listed

variable {kind : ExtensionKind} {tables : CapabilityTables} {context : ActivationContext}

theorem kindListed_activate (h : KindListed kind tables) (other : ExtensionKind) (id : String) :
    KindListed kind (tables.activate other id) := by
  intro listed hlisted
  rw [CapabilityTables.activate, ExtTreeSet.mem_insert]
  simp only [CapabilityTables.activate, CapabilityTables.listId] at hlisted
  split at hlisted
  next heq =>
    subst heq
    rcases ExtTreeSet.mem_insert.1 hlisted with hid | hold
    · rw [LawfulEqCmp.eq_of_compare hid]
      exact .inl compare_self
    · exact .inr (h listed hold)
  · exact .inr (h listed hlisted)

theorem kindListed_listId (h : KindListed kind tables) {other : ExtensionKind}
    (hother : kind ≠ other) (id : String) : KindListed kind (tables.listId other id) := by
  intro listed hlisted
  simp only [CapabilityTables.listId, if_neg hother] at hlisted
  exact h listed hlisted

theorem kindListed_activateExtensionIfNeeded (h : KindListed kind tables)
    (other : ExtensionKind) (id : String) (used : Bool) :
    KindListed kind (tables.activateExtensionIfNeeded context other id used) := by
  unfold CapabilityTables.activateExtensionIfNeeded
  split
  · exact kindListed_activate h other id
  · exact h

theorem kindListed_foldl {α : Type} {step : CapabilityTables → α → CapabilityTables}
    (hstep : ∀ tables a, KindListed kind tables → KindListed kind (step tables a))
    (xs : List α) (h : KindListed kind tables) : KindListed kind (xs.foldl step tables) := by
  induction xs generalizing tables with
  | nil => exact h
  | cons a xs ih => exact ih (hstep tables a h)

theorem kindListed_activateManifest (hcodec : kind ≠ .codec) (hbridge : kind ≠ .bridge)
    (h : KindListed kind tables) (manifest : HostManifest) :
    KindListed kind (tables.activateManifest context manifest) := by
  have hif : ∀ {tables : CapabilityTables}, KindListed kind tables → ∀ other id used,
      KindListed kind (tables.activateExtensionIfNeeded context other id used) :=
    fun h other id used => kindListed_activateExtensionIfNeeded h other id used
  have hbackend : ∀ (tables : CapabilityTables) backend, KindListed kind tables →
      KindListed kind (tables.activatePluginBackend context backend) := by
    intro tables backend h
    unfold CapabilityTables.activatePluginBackend
    dsimp only
    split
    · have hactivated := kindListed_activate (hif h .pluginBackend backend.backendId
          (deploymentIsUsed context.deployments [backend.deploymentKind]))
        .pluginBackend backend.backendId
      cases backend.codecId <;> cases backend.bridgeId
      · exact hactivated
      · exact kindListed_listId hactivated hbridge _
      · exact kindListed_listId hactivated hcodec _
      · exact kindListed_listId (kindListed_listId hactivated hcodec _) hbridge _
    · exact hif h _ _ _
  have hbridges : ∀ (tables : CapabilityTables) bridge, KindListed kind tables →
      KindListed kind (tables.activateBridge context bridge) := by
    intro tables bridge h
    unfold CapabilityTables.activateBridge
    dsimp only
    split
    · exact kindListed_foldl (fun _ codecId h => kindListed_listId h hcodec codecId) _ (hif h _ _ _)
    · exact hif h _ _ _
  unfold CapabilityTables.activateManifest
  refine kindListed_foldl (fun _ _ h => hif h _ _ _) _ ?_
  refine kindListed_foldl (fun _ _ h => hif h _ _ _) _ ?_
  refine kindListed_foldl (fun _ _ h => hif h _ _ _) _ ?_
  refine kindListed_foldl hbridges _ ?_
  refine kindListed_foldl hbackend _ ?_
  refine kindListed_foldl (fun _ _ h => hif h _ _ _) _ ?_
  exact kindListed_foldl (fun _ _ h => hif h _ _ _) _ h

theorem activeIds_foldl {α : Type} {step : CapabilityTables → α → CapabilityTables}
    (hstep : ∀ tables a, (step tables a).activeIds = tables.activeIds) (xs : List α)
    (tables : CapabilityTables) : (xs.foldl step tables).activeIds = tables.activeIds := by
  induction xs generalizing tables with
  | nil => rfl
  | cons a xs ih => exact (ih _).trans (hstep tables a)

theorem capabilityTables_listed (hcodec : kind ≠ .codec) (hbridge : kind ≠ .bridge)
    (profile : RuntimeProfile) (manifests : List HostManifest)
    (deployments : ExtTreeMap String PluginDeploymentKind) :
    KindListed kind (capabilityTables profile manifests deployments) := by
  refine kindListed_foldl
    (fun _ manifest h => kindListed_activateManifest hcodec hbridge h manifest) _ ?_
  have hcollect : ∀ (tables : CapabilityTables) (manifest : HostManifest),
      (tables.collectManifest manifest).activeIds = tables.activeIds := by
    intro tables manifest
    rw [CapabilityTables.collectManifest, activeIds_foldl, activeIds_foldl]
    · exact fun _ _ => rfl
    · exact fun _ _ => rfl
  intro id hid
  rw [activeIds_foldl hcollect] at hid
  exact absurd hid ExtTreeSet.not_mem_empty

end Listed

variable {tables : CapabilityTables} {requirement : CapabilityRequirement} {capability : String}

theorem activeCapabilityForRequirement_mem (hlisted : KindListed .resourceProvider tables)
    (h : activeCapabilityForRequirement requirement tables.active
      (tables.activeIds .resourceProvider) = some capability) :
    capability ∈ tables.active := by
  have hbyId : (if requirement.capability.toList.contains ':' then none
      else tables.active.toList.find? fun activeCapability =>
        (rsplitOnce ':' activeCapability).any (·.2 == requirement.capability)) =
          some capability → capability ∈ tables.active := by
    intro hfind
    split at hfind
    · cases hfind
    · exact ExtTreeSet.mem_toList.1 (mem_of_find?_eq_some hfind)
  unfold activeCapabilityForRequirement at h
  dsimp only at h
  split at h
  next hactive =>
    cases h
    exact ExtTreeSet.mem_iff_contains.2 hactive
  split at h
  next providerId _ =>
    split at h
    next hprovider =>
      cases h
      exact hlisted providerId (ExtTreeSet.mem_iff_contains.2 hprovider)
    · exact hbyId h
  · exact hbyId h

/-! ## Selection -/

/-- The provider declares a version that satisfies the constraint, if there is one. -/
def meets (constraint : Option String) (provider : CapabilityProvider) : Bool :=
  constraint.all fun required =>
    provider.providerVersion.any fun version => versionMatchesConstraint version required

variable {constraint : Option String} {candidates listed : List CapabilityProvider}
  {provider : CapabilityProvider} {profile : RuntimeProfile} {graph : RuntimeCapabilityGraph}

theorem selectAmong_eq_ok (h : selectAmong capability constraint candidates listed = .ok provider) :
    listed.find? (meets constraint) = some provider := by
  induction listed with
  | nil => cases h
  | cons first rest ih =>
    cases constraint with
    | none =>
      cases h
      rfl
    | some required =>
      cases hversion : first.providerVersion with
      | none =>
        simp only [selectAmong, hversion] at h
        cases h
      | some version =>
        have hmeets : meets (some required) first = versionMatchesConstraint version required := by
          simp [meets, hversion]
        simp only [selectAmong, hversion] at h
        rw [find?_cons, hmeets]
        split at h
        next hmatch =>
          cases h
          rw [hmatch]
        next hmatch =>
          rw [Bool.eq_false_of_not_eq_true hmatch]
          exact ih h

theorem selectProvider_eq_ok {providers : ExtTreeMap String (List CapabilityProvider)}
    (h : selectProvider providers capability constraint = .ok provider) :
    (providers.getD capability []).find? (meets constraint) = some provider := by
  unfold selectProvider at h
  rw [ExtTreeMap.getD_eq_getD_getElem?]
  split at h
  · cases h
  next candidates hcandidates =>
    rw [hcandidates]
    exact selectAmong_eq_ok h

/-- No provider without a version is listed before the first one that meets the constraint. -/
def Unobstructed (constraint : String) (listed : List CapabilityProvider) : Prop :=
  ∀ provider ∈ listed.takeWhile (!meets (some constraint) ·), provider.providerVersion.isSome

theorem selectAmong_succeeds_iff {constraint : String} :
    (∃ provider, selectAmong capability (some constraint) candidates listed = .ok provider) ↔
      (∃ provider ∈ listed, meets (some constraint) provider = true) ∧
        Unobstructed constraint listed := by
  induction listed with
  | nil => simp [selectAmong]
  | cons first rest ih =>
    cases hversion : first.providerVersion with
    | none =>
      have hmeets : meets (some constraint) first = false := by simp [meets, hversion]
      simp [selectAmong, hversion, Unobstructed, hmeets]
    | some version =>
      have hmeets : meets (some constraint) first =
          versionMatchesConstraint version constraint := by
        simp [meets, hversion]
      cases hmatch : versionMatchesConstraint version constraint with
      | true => simp [selectAmong, hversion, hmatch, Unobstructed, hmeets]
      | false =>
        rw [hmatch] at hmeets
        simpa [selectAmong, hversion, hmatch, Unobstructed, hmeets] using ih

/-- With a provider that meets the constraint listed, `select_provider` finds one exactly if no
    provider without a version is listed before it. -/
theorem select_provider_complete_iff (manifests : List HostManifest)
    (capability constraint : String) :
    let providers := (manifests.foldl CapabilityTables.collectManifest {}).providers
    let listed := providers.getD capability []
    ((∃ provider ∈ listed, meets (some constraint) provider = true) →
        ∃ provider, selectProvider providers capability (some constraint) = .ok provider) ↔
      ((∃ provider ∈ listed, meets (some constraint) provider = true) →
        Unobstructed constraint listed) := by
  intro providers listed
  refine imp_congr_right fun hlisted => ?_
  have hentry : providers[capability]? = some listed := by
    cases hlookup : providers[capability]? with
    | none =>
      obtain ⟨provider, hmem, -⟩ := hlisted
      simp [listed, ExtTreeMap.getD_eq_getD_getElem?, hlookup] at hmem
    | some => simp [listed, ExtTreeMap.getD_eq_getD_getElem?, hlookup]
  rw [selectProvider, hentry]
  exact selectAmong_succeeds_iff.trans (and_iff_right hlisted)

/-- A schema that is listed by name, and again with the version of its resource type. -/
def schemaTwice : HostManifest :=
  { bareManifest "store" with
    resourceSchemas := ["doc"]
    resourceTypes := [⟨"doc", "store", [], "1.0.0"⟩] }

theorem unversioned_schema_obstructs :
    let providers := ([schemaTwice].foldl CapabilityTables.collectManifest {}).providers
    (∃ provider ∈ providers.getD "resource_schema:doc" [], meets (some "1.0.0") provider = true) ∧
      (selectProvider providers "resource_schema:doc" (some "1.0.0")).isOk = false := by
  decide +kernel

/-- The constraint the recorded provider is chosen by: that of the first requirement that names
    the capability in full. -/
def leadingConstraint (requirements : List CapabilityRequirement) (capability : String) :
    Option String :=
  (matchingRequirement requirements capability).bind (·.versionConstraint)

variable {requirements : List CapabilityRequirement}

theorem selectActiveProvider_eq_ok {selection : CapabilityProviderSelection}
    (h : selectActiveProvider tables requirements capability = .ok selection) :
    selection.capability = capability ∧ ∃ provider, (tables.providers.getD capability []).find?
        (meets (leadingConstraint requirements capability)) = some provider ∧
      selection.providerVersion = provider.providerVersion := by
  unfold selectActiveProvider at h
  dsimp only at h
  unfold leadingConstraint
  cases hmatching : matchingRequirement requirements capability with
  | none =>
    rw [hmatching] at h
    obtain ⟨provider, hprovider, h⟩ := except_bind_eq_ok.1 h
    cases h
    exact ⟨rfl, provider, selectProvider_eq_ok hprovider, rfl⟩
  | some =>
    rw [hmatching] at h
    obtain ⟨provider, hprovider, h⟩ := except_bind_eq_ok.1 h
    cases h
    have hselected := except_mapError_eq_ok.1 hprovider
    exact ⟨rfl, provider, selectProvider_eq_ok hselected, rfl⟩

/-- One provider is recorded for every active capability, the first that meets the leading
    constraint. -/
theorem recorded_of_active {selections : List CapabilityProviderSelection}
    (h : activeCapabilityProviders tables requirements = .ok selections)
    (hactive : capability ∈ tables.active) :
    ∃ selection provider, selections.find? (·.capability == capability) = some selection ∧
      (tables.providers.getD capability []).find?
        (meets (leadingConstraint requirements capability)) = some provider ∧
      selection.providerVersion = provider.providerVersion := by
  have hall := Checks.forall₂_of_mapM h
  obtain ⟨own, hown, hselected⟩ := Checks.exists_of_mem_left hall (ExtTreeSet.mem_toList.2 hactive)
  have hsome : (selections.find? (·.capability == capability)).isSome = true :=
    find?_isSome.2 ⟨own, hown, by simp [(selectActiveProvider_eq_ok hselected).1]⟩
  obtain ⟨selection, hfind⟩ := isSome_iff_exists.1 hsome
  -- whatever the search finds was selected for this capability
  obtain ⟨other, -, hother⟩ := Checks.exists_of_mem_right hall (mem_of_find?_eq_some hfind)
  obtain ⟨hname, provider, hprovider, hversion⟩ := selectActiveProvider_eq_ok hother
  have hcapability : selection.capability = capability := by
    simpa using find?_some hfind
  obtain rfl : other = capability := hname.symm.trans hcapability
  exact ⟨selection, provider, hfind, hprovider, hversion⟩

/-! ## Requirements of an accepted plan -/

variable {manifests : List HostManifest}

theorem mem_parseRequirements : requirement ∈ parseRequirements (requiredRaw manifests) ↔
      ∃ manifest ∈ manifests, ∃ raw ∈ manifest.requires, parseRequirement raw = requirement := by
  simp only [parseRequirements, requiredRaw, List.mem_map, ExtTreeSet.mem_toList,
    ExtTreeSet.mem_ofList, contains_iff_mem, mem_flatMap]
  constructor
  · rintro ⟨raw, ⟨manifest, hmem, hraw⟩, hparse⟩
    exact ⟨manifest, hmem, raw, hraw, hparse⟩
  · rintro ⟨manifest, hmem, raw, hraw, hparse⟩
    exact ⟨raw, ⟨manifest, hmem, hraw⟩, hparse⟩

variable {deployments : ExtTreeMap String PluginDeploymentKind}

theorem capabilityGraphFor_eq_ok
    (h : capabilityGraphFor profile manifests deployments = .ok graph) :
    let tables := capabilityTables profile manifests deployments
    let requirements := parseRequirements (requiredRaw manifests)
    graph.activeCapabilities = tables.active ∧
      graph.activeResourceProviders = tables.activeIds .resourceProvider ∧
      (∀ requirement ∈ requirements, ensureRequiredCapability tables requirement = .ok ()) ∧
      activeCapabilityProviders tables requirements = .ok graph.activeCapabilityProviders := by
  obtain ⟨⟨⟩, -, h⟩ := except_bind_eq_ok.1 h
  obtain ⟨⟨⟩, -, h⟩ := except_bind_eq_ok.1 h
  obtain ⟨⟨⟩, hrequired, h⟩ := except_bind_eq_ok.1 h
  obtain ⟨selections, hselections, h⟩ := except_bind_eq_ok.1 h
  obtain ⟨audit, -, h⟩ := except_bind_eq_ok.1 h
  cases h
  exact ⟨rfl, rfl, Checks.forM_eq_ok.1 hrequired, hselections⟩

theorem exists_named (h : ensureRequiredCapability tables requirement = .ok ()) :
    ∃ capability, activeCapabilityForRequirement requirement tables.active
      (tables.activeIds .resourceProvider) = some capability := by
  unfold ensureRequiredCapability at h
  split at h
  · cases h
  · next capability hnamed => exact ⟨capability, hnamed⟩

/-- The provider the plan records for what a requirement names declares a version that
    satisfies the constraint. -/
def RecordedMeets (graph : RuntimeCapabilityGraph) (requirement : CapabilityRequirement)
    (constraint : String) : Prop :=
  ∃ capability selection version,
    activeCapabilityForRequirement requirement graph.activeCapabilities
      graph.activeResourceProviders = some capability ∧
    graph.activeCapabilityProviders.find? (·.capability == capability) = some selection ∧
    selection.providerVersion = some version ∧
    versionMatchesConstraint version constraint = true

/-- The first declared provider of a capability that meets its leading constraint meets every
    constraint an enabled plugin puts on the capability, under whichever name. -/
def LeadingProvidersSuffice (profile : RuntimeProfile) (enabled : List HostManifest)
    (deployments : ExtTreeMap String PluginDeploymentKind) : Prop :=
  let tables := capabilityTables profile enabled deployments
  let requirements := parseRequirements (requiredRaw enabled)
  ∀ requirement ∈ requirements, ∀ constraint ∈ requirement.versionConstraint,
    ∀ capability ∈ activeCapabilityForRequirement requirement tables.active
        (tables.activeIds .resourceProvider),
      ∀ provider ∈ (tables.providers.getD capability []).find?
          (meets (leadingConstraint requirements capability)),
        meets (some constraint) provider = true

theorem recordedMeets_iff (h : capabilityGraphFor profile manifests deployments = .ok graph)
    (hrequirement : requirement ∈ parseRequirements (requiredRaw manifests)) (constraint : String) :
    RecordedMeets graph requirement constraint ↔
      ∀ capability ∈ activeCapabilityForRequirement requirement
          (capabilityTables profile manifests deployments).active
          ((capabilityTables profile manifests deployments).activeIds .resourceProvider),
        ∀ provider ∈ ((capabilityTables profile manifests deployments).providers.getD
            capability []).find? (meets (leadingConstraint
              (parseRequirements (requiredRaw manifests)) capability)),
          meets (some constraint) provider = true := by
  obtain ⟨hactive, hproviders, hensured, hselections⟩ := capabilityGraphFor_eq_ok h
  obtain ⟨capability, hnamed⟩ := exists_named (hensured requirement hrequirement)
  have hlisted : KindListed .resourceProvider (capabilityTables profile manifests deployments) :=
    capabilityTables_listed (by decide) (by decide) profile manifests deployments
  obtain ⟨selection, provider, hrecorded, hprovider, hversion⟩ :=
    recorded_of_active hselections (activeCapabilityForRequirement_mem hlisted hnamed)
  have hmeets : meets (some constraint) provider = true ↔ ∃ version,
      selection.providerVersion = some version ∧
        versionMatchesConstraint version constraint = true := by
    rw [hversion]
    simp [meets, Option.any_eq_true]
  constructor
  · rintro ⟨other, recorded, version, hother, hfound, hrecordedVersion, hmatch⟩
    rw [hactive, hproviders, hnamed] at hother
    cases hother
    obtain rfl := some.inj (hrecorded.symm.trans hfound)
    intro c hc p hp
    obtain rfl := some.inj (hnamed.symm.trans hc)
    obtain rfl := some.inj (hprovider.symm.trans hp)
    exact hmeets.2 ⟨version, hrecordedVersion, hmatch⟩
  · intro hall
    obtain ⟨version, hrecordedVersion, hmatch⟩ :=
      hmeets.1 (hall capability hnamed provider hprovider)
    exact ⟨capability, selection, version, by rw [hactive, hproviders, hnamed], hrecorded,
      hrecordedVersion, hmatch⟩

/-- In an accepted plan every recorded provider meets the constraints of all enabled plugins
    exactly when the providers that the leading constraints single out do. -/
theorem recorded_provider_meets_iff {manifests : List HostManifest} {profile : RuntimeProfile}
    {plan : HostLoadPlan} (h : resolveLoadPlan manifests profile = .ok plan) :
    (∀ manifest ∈ plan.plugins, ∀ raw ∈ manifest.requires, ∀ constraint,
      (parseRequirement raw).versionConstraint = some constraint →
        RecordedMeets plan.capabilityGraph (parseRequirement raw) constraint) ↔
    ∀ resolved, resolveEnabledPlugins manifests profile = .ok resolved →
      LeadingProvidersSuffice profile resolved.manifests resolved.deployments := by
  obtain ⟨resolved, hresolved, hplugins, hgraph⟩ := resolveLoadPlan_eq_ok h
  rw [hplugins]
  constructor
  · intro hmet resolved' hresolved' requirement hrequirement constraint hconstraint
    cases hresolved.symm.trans hresolved'
    obtain ⟨manifest, hmem, raw, hraw, rfl⟩ := mem_parseRequirements.1 hrequirement
    exact (recordedMeets_iff hgraph hrequirement constraint).1
      (hmet manifest hmem raw hraw constraint hconstraint)
  · intro hsuffice manifest hmem raw hraw constraint hconstraint
    have hrequirement := mem_parseRequirements.2 ⟨manifest, hmem, raw, hraw, rfl⟩
    exact (recordedMeets_iff hgraph hrequirement constraint).2
      (hsuffice resolved hresolved (parseRequirement raw) hrequirement constraint hconstraint)

/-- Two providers of `echo`, and a plugin that requires the newer one by its short id. -/
def echoManifests : List HostManifest :=
  [echoManifest "one" "1.0.0", echoManifest "two" "2.0.0",
    { bareManifest "consumer" with requires := ["echo@>=2.0.0"] }]

theorem recorded_provider_meets_iff_echo :
    ∃ plan, resolveLoadPlan echoManifests (profileOf echoManifests) = .ok plan ∧
      ((∀ manifest ∈ plan.plugins, ∀ raw ∈ manifest.requires, ∀ constraint,
        (parseRequirement raw).versionConstraint = some constraint →
          RecordedMeets plan.capabilityGraph (parseRequirement raw) constraint) ↔
      ∀ resolved, resolveEnabledPlugins echoManifests (profileOf echoManifests) = .ok resolved →
        LeadingProvidersSuffice (profileOf echoManifests) resolved.manifests
          resolved.deployments) := by
  obtain ⟨plan, hplan⟩ := Checks.exists_eq_ok
    (x := resolveLoadPlan echoManifests (profileOf echoManifests)) (by decide +kernel)
  exact ⟨plan, hplan, recorded_provider_meets_iff hplan⟩

/-- The requirement is accepted because the second provider meets it; recorded is the first. -/
theorem short_id_constraint_unmet :
    ∃ plan, resolveLoadPlan echoManifests (profileOf echoManifests) = .ok plan ∧
      ¬ ∀ manifest ∈ plan.plugins, ∀ raw ∈ manifest.requires, ∀ constraint,
        (parseRequirement raw).versionConstraint = some constraint →
          RecordedMeets plan.capabilityGraph (parseRequirement raw) constraint := by
  obtain ⟨plan, hplan, htest⟩ := Checks.exists_ok_of_any
    (x := resolveLoadPlan echoManifests (profileOf echoManifests)) (p := fun plan => decide
      ((∃ manifest ∈ plan.plugins, "echo@>=2.0.0" ∈ manifest.requires) ∧
        activeCapabilityForRequirement (parseRequirement "echo@>=2.0.0")
          plan.capabilityGraph.activeCapabilities plan.capabilityGraph.activeResourceProviders =
            some "protocol:echo" ∧
        (plan.capabilityGraph.activeCapabilityProviders.find?
          (·.capability == "protocol:echo")).map (·.providerVersion) = some (some "1.0.0")))
    (by decide +kernel)
  obtain ⟨⟨manifest, hmem, hraw⟩, hnamed, hversion⟩ := of_decide_eq_true htest
  refine ⟨plan, hplan, fun hmet => ?_⟩
  obtain ⟨capability, selection, version, hother, hfound, hdeclared, hmatch⟩ :=
    hmet manifest hmem _ hraw ">=2.0.0" (by decide +kernel)
  obtain rfl := some.inj (hnamed.symm.trans hother)
  rw [hfound, map_some, hdeclared] at hversion
  obtain rfl : version = "1.0.0" := some.inj (some.inj hversion)
  exact absurd hmatch (by decide +kernel)

end MutsukiRuntime.Resolver
