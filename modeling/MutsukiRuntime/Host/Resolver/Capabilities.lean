/-
  THE CAPABILITY GRAPH of the Host's resolver (`resolver/capabilities.rs`).

  * Versions and constraints: `parse_version`, `version_matches_constraint`.
  * Collecting: what the manifests declare goes into the tables of the resolver, every
    declaration as one more provider of its capability.
  * Activating: the extensions of each manifest in turn, as the profile prunes them.
  * Checking: every activated id has a provider, every requirement an active one, and
    one provider is recorded for each active capability.
  * The permission audit.

  Capabilities are the texts `prefix:id`; an `&mut` set of activated ids is indexed here
  by the kind of extension it is for.
-/
import MutsukiRuntime.Host.Resolver.Plugins

namespace MutsukiRuntime.Resolver

open Std

/-! ## Texts -/

/-- `rsplit_once`: the text before and after the last separator. -/
def rsplitOnce (separator : Char) (text : String) : Option (String × String) :=
  let reversed := text.toList.reverse
  match reversed.dropWhile (· != separator) with
  | [] => none
  | _ :: before =>
    some (String.ofList before.reverse,
      String.ofList (reversed.takeWhile (· != separator)).reverse)

/-- `split_once`: the text before and after the first separator. -/
def splitOnce (separator : Char) (text : String) : Option (String × String) :=
  match text.toList.dropWhile (· != separator) with
  | [] => none
  | _ :: after =>
    some (String.ofList (text.toList.takeWhile (· != separator)), String.ofList after)

/-- `strip_prefix`. -/
def stripStart (start text : String) : Option String :=
  if startsWith text start then some (String.ofList (text.toList.drop start.toList.length))
  else none

/-- `str::parse::<u64>`. -/
def parseU64 (text : List Char) : Option Nat :=
  let digits := if text.head? = some '+' then text.tail else text
  if digits.isEmpty || !digits.all Char.isDigit then none
  else
    let value := digits.foldl (fun n d => 10 * n + (d.toNat - '0'.toNat)) 0
    if value ≤ u64Max then some value else none

/-! ## Versions -/

structure Version where
  major : Nat
  minor : Nat
  patch : Nat
  deriving DecidableEq

def Version.cmp (a b : Version) : Ordering :=
  (compare a.major b.major).then ((compare a.minor b.minor).then (compare a.patch b.patch))

def parseVersion (version : String) : Option Version :=
  match version.toList.splitOn '.' with
  | [major] => do pure ⟨← parseU64 major, 0, 0⟩
  | [major, minor] => do pure ⟨← parseU64 major, ← parseU64 minor, 0⟩
  | [major, minor, patch] => do pure ⟨← parseU64 major, ← parseU64 minor, ← parseU64 patch⟩
  | _ => none

inductive VersionOperator where
  | atLeast
  | atMost
  | above
  | below
  | equal
  deriving DecidableEq

def VersionOperator.text : VersionOperator → String
  | .atLeast => ">="
  | .atMost => "<="
  | .above => ">"
  | .below => "<"
  | .equal => "="

/-- The operators are tried in this order; no operator means equality. -/
def parseVersionConstraint (constraint : String) : VersionOperator × String :=
  let operators : List VersionOperator := [.atLeast, .atMost, .above, .below, .equal]
  (operators.findSome? fun operator =>
    (stripStart operator.text constraint).map fun version => (operator, version)).getD
      (.equal, constraint)

def VersionOperator.holds : VersionOperator → Ordering → Bool
  | .equal, ordering => ordering == .eq
  | .above, ordering => ordering == .gt
  | .atLeast, ordering => ordering != .lt
  | .below, ordering => ordering == .lt
  | .atMost, ordering => ordering != .gt

def versionMatchesConstraint (version constraint : String) : Bool :=
  let (operator, requiredVersion) := parseVersionConstraint constraint
  match parseVersion version, parseVersion requiredVersion with
  | some actual, some required => operator.holds (actual.cmp required)
  | _, _ => false

example : versionMatchesConstraint "1.2" ">=1.2.0" = true := by decide +kernel

/-! ## Failures -/

def capabilityFailure (reason capability : String) : RuntimeError :=
  (runtimeError errRegistryUnauthorized "runtime.host"
    s!"host.plugin.{reason}.{capability}").withEvidence "capability" (.string capability)

def requiredCapabilityMissing : String → RuntimeError :=
  capabilityFailure "required_capability_missing"

def capabilityProviderMissing : String → RuntimeError :=
  capabilityFailure "capability_provider_missing"

def capabilityVersionMismatch (capability constraint : String) (actualVersion : Option String) :
    RuntimeError :=
  let error := (capabilityFailure "capability_version_mismatch" capability).withEvidence
    "version_constraint" (.string constraint)
  match actualVersion with
  | none => error
  | some actualVersion => error.withEvidence "actual_version" (.string actualVersion)

def permissionUnauthorized (pluginId permissionKind permission : String) : RuntimeError :=
  (((runtimeError errRegistryUnauthorized "runtime.host"
    s!"host.plugin.permission_unauthorized.{pluginId}.{permissionKind}").withEvidence
    "plugin_id" (.string pluginId)).withEvidence
    "permission_kind" (.string permissionKind)).withEvidence
    "permission" (.string permission)

/-! ## Tables -/

structure CapabilityProvider where
  providerPluginId : String
  providerVersion : Option String
  surfaceId : String
  deriving DecidableEq

structure CapabilityRequirement where
  raw : String
  capability : String
  versionConstraint : Option String
  deriving DecidableEq

/-- The extensions that are activated one by one. -/
inductive ExtensionKind where
  | resourceProvider
  | hostExtension
  | pluginBackend
  | bridge
  | codec
  | schedulerPolicy
  | workflow
  deriving DecidableEq

def ExtensionKind.text : ExtensionKind → String
  | .resourceProvider => "resource_provider"
  | .hostExtension => "host_extension"
  | .pluginBackend => "plugin_backend"
  | .bridge => "bridge"
  | .codec => "codec"
  | .schedulerPolicy => "scheduler_policy"
  | .workflow => "workflow"

structure CapabilityTables where
  provided : ExtTreeSet String := ∅
  active : ExtTreeSet String := ∅
  providers : ExtTreeMap String (List CapabilityProvider) := ∅
  activeIds : ExtensionKind → ExtTreeSet String := fun _ => ∅

/-! ## Collecting -/

/-- One `collect_.._capability` call: kind, id and version of what a manifest declares. -/
structure Declaration where
  kind : String
  id : String
  version : Option String

def Declaration.capability (declaration : Declaration) : String :=
  s!"{declaration.kind}:{declaration.id}"

def runnerDeclarations (runner : RunnerDescriptor) : List Declaration :=
  ⟨"runner", runner.runnerId, some (toString runner.pluginGeneration)⟩ ::
    runner.acceptedProtocolIds.map fun protocolId => ⟨"task_protocol", protocolId, none⟩

def resourceTypeDeclarations (resourceType : ResourceTypeDescriptor) : List Declaration :=
  [⟨"resource_schema", resourceType.kindId, some resourceType.schemaVersion⟩,
    ⟨"resource_type", resourceType.kindId, some resourceType.schemaVersion⟩]

/-- The declarations of `collect_base_capabilities`, in its order. -/
def baseDeclarations (manifest : HostManifest) : List Declaration :=
  [⟨"plugin", manifest.pluginId, some manifest.version⟩] ++
    manifest.runners.flatMap runnerDeclarations ++
    manifest.protocols.map (fun protocol =>
      ⟨"protocol", protocol.protocolId, some protocol.version⟩) ++
    manifest.handlerBindings.map (fun binding => ⟨"handler_binding", binding.bindingId, none⟩) ++
    manifest.resourceSchemas.map (⟨"resource_schema", ·, none⟩) ++
    manifest.streams.map (⟨"stream", ·, none⟩) ++
    manifest.subscriptions.map (⟨"subscription", ·, none⟩) ++
    manifest.timers.map (⟨"timer", ·, none⟩) ++
    manifest.stateSchemas.map (⟨"state_schema", ·, none⟩) ++
    (manifest.protocolClasses.toList.filter (·.2 == .effect)).map (⟨"effect", ·.1, none⟩) ++
    manifest.resourceTypes.flatMap resourceTypeDeclarations

/-- The declarations of `collect_system_extension_capabilities`, in its order. -/
def extensionDeclarations (manifest : HostManifest) : List Declaration :=
  manifest.hostExtensions.map (⟨ExtensionKind.hostExtension.text, ·.extensionId, none⟩) ++
    manifest.pluginBackends.map (⟨ExtensionKind.pluginBackend.text, ·.backendId, none⟩) ++
    manifest.resourceProviders.map (⟨ExtensionKind.resourceProvider.text, ·, none⟩) ++
    manifest.codecs.map (fun codec =>
      ⟨ExtensionKind.codec.text, codec.codecId, some codec.version⟩) ++
    manifest.bridges.map (⟨ExtensionKind.bridge.text, ·.bridgeId, none⟩) ++
    manifest.schedulerPolicies.map (fun policy =>
      ⟨ExtensionKind.schedulerPolicy.text, policy.policyId, some policy.version⟩) ++
    manifest.workflows.map (⟨ExtensionKind.workflow.text, ·.workflowId, none⟩)

namespace CapabilityTables

def addProvider (tables : CapabilityTables) (manifest : HostManifest)
    (declaration : Declaration) : CapabilityTables :=
  let provider := ⟨manifest.pluginId, declaration.version, declaration.capability⟩
  let listed := tables.providers.getD declaration.capability []
  { tables with providers := tables.providers.insert declaration.capability (listed ++ [provider]) }

def collectProvidedCapability (manifest : HostManifest) (tables : CapabilityTables)
    (declaration : Declaration) : CapabilityTables :=
  { tables.addProvider manifest declaration with
    provided := tables.provided.insert declaration.capability }

def collectActiveCapability (manifest : HostManifest) (tables : CapabilityTables)
    (declaration : Declaration) : CapabilityTables :=
  let tables := collectProvidedCapability manifest tables declaration
  { tables with active := tables.active.insert declaration.capability }

def collectManifest (tables : CapabilityTables) (manifest : HostManifest) : CapabilityTables :=
  (extensionDeclarations manifest).foldl (collectProvidedCapability manifest)
    ((baseDeclarations manifest).foldl (collectActiveCapability manifest) tables)

end CapabilityTables

def parseRequirement (raw : String) : CapabilityRequirement :=
  match rsplitOnce '@' raw with
  | some (capability, constraint) => ⟨raw, capability, some constraint⟩
  | none => ⟨raw, raw, none⟩

def requiredRaw (manifests : List HostManifest) : ExtTreeSet String :=
  .ofList (manifests.flatMap (·.requires))

/-- `parse_requirements`, in the order of the set of requirement texts. -/
def parseRequirements (required : ExtTreeSet String) : List CapabilityRequirement :=
  required.toList.map parseRequirement

/-! ## Activating -/

def deploymentIsUsed (deployments : ExtTreeMap String PluginDeploymentKind)
    (candidates : List PluginDeploymentKind) : Bool :=
  candidates.any fun candidate => deployments.values.any (· == candidate)

def requiresCapability (required : ExtTreeSet String) (kind id : String) : Bool :=
  required.contains id || required.contains s!"{kind}:{id}"

def resourceProviderIsUsed (manifests : List HostManifest) (providerId : String) : Bool :=
  (manifests.flatMap (·.resourceTypes)).any (·.providerId == providerId)

/-- What the activation of extensions reads besides the tables. -/
structure ActivationContext where
  pruneExtensions : Bool
  required : ExtTreeSet String
  deployments : ExtTreeMap String PluginDeploymentKind
  manifests : List HostManifest

def shouldActivateExtension (context : ActivationContext) (kind : ExtensionKind) (id : String)
    (usedByActivePlan : Bool) : Bool :=
  !context.pruneExtensions || usedByActivePlan ||
    requiresCapability context.required kind.text id

namespace CapabilityTables

/-- An id is listed as activated. -/
def listId (tables : CapabilityTables) (kind : ExtensionKind) (id : String) : CapabilityTables :=
  { tables with activeIds := fun k =>
      if k = kind then (tables.activeIds k).insert id else tables.activeIds k }

def activate (tables : CapabilityTables) (kind : ExtensionKind) (id : String) :
    CapabilityTables :=
  { tables.listId kind id with active := tables.active.insert s!"{kind.text}:{id}" }

def activateExtensionIfNeeded (context : ActivationContext) (tables : CapabilityTables)
    (kind : ExtensionKind) (id : String) (usedByActivePlan : Bool) : CapabilityTables :=
  if shouldActivateExtension context kind id usedByActivePlan then tables.activate kind id
  else tables

def activateHostExtension (context : ActivationContext) (tables : CapabilityTables)
    (extension : HostExtensionDescriptor) : CapabilityTables :=
  tables.activateExtensionIfNeeded context .hostExtension extension.extensionId
    (deploymentIsUsed context.deployments extension.supportedDeployments)

def activateResourceProvider (context : ActivationContext) (tables : CapabilityTables)
    (providerId : String) : CapabilityTables :=
  tables.activateExtensionIfNeeded context .resourceProvider providerId
    (resourceProviderIsUsed context.manifests providerId ||
      requiresCapability context.required "resource_strategy" providerId)

/-- An activated backend also lists its codec and its bridge. -/
def activatePluginBackend (context : ActivationContext) (tables : CapabilityTables)
    (backend : PluginBackendDescriptor) : CapabilityTables :=
  let used := deploymentIsUsed context.deployments [backend.deploymentKind]
  let activated :=
    tables.activateExtensionIfNeeded context .pluginBackend backend.backendId used
  if shouldActivateExtension context .pluginBackend backend.backendId used then
    let activated := activated.activate .pluginBackend backend.backendId
    let activated := backend.codecId.elim activated (activated.listId .codec)
    backend.bridgeId.elim activated (activated.listId .bridge)
  else activated

/-- An activated bridge also lists its codecs. -/
def activateBridge (context : ActivationContext) (tables : CapabilityTables)
    (bridge : BridgeDescriptor) : CapabilityTables :=
  let referenced := (tables.activeIds .bridge).contains bridge.bridgeId
  let activated := tables.activateExtensionIfNeeded context .bridge bridge.bridgeId referenced
  if shouldActivateExtension context .bridge bridge.bridgeId referenced then
    bridge.codecIds.foldl (fun tables codecId => tables.listId .codec codecId) activated
  else activated

def activateCodec (context : ActivationContext) (tables : CapabilityTables)
    (codec : CodecDescriptor) : CapabilityTables :=
  tables.activateExtensionIfNeeded context .codec codec.codecId
    ((tables.activeIds .codec).contains codec.codecId)

def activateManifest (context : ActivationContext) (tables : CapabilityTables)
    (manifest : HostManifest) : CapabilityTables :=
  let tables := manifest.hostExtensions.foldl (activateHostExtension context) tables
  let tables := manifest.resourceProviders.foldl (activateResourceProvider context) tables
  let tables := manifest.pluginBackends.foldl (activatePluginBackend context) tables
  let tables := manifest.bridges.foldl (activateBridge context) tables
  let tables := manifest.codecs.foldl (activateCodec context) tables
  let tables := manifest.schedulerPolicies.foldl (fun tables policy =>
    tables.activateExtensionIfNeeded context .schedulerPolicy policy.policyId false) tables
  manifest.workflows.foldl (fun tables workflow =>
    tables.activateExtensionIfNeeded context .workflow workflow.workflowId false) tables

end CapabilityTables

/-- The tables after all manifests have been collected and their extensions activated. -/
def capabilityTables (profile : RuntimeProfile) (manifests : List HostManifest)
    (deployments : ExtTreeMap String PluginDeploymentKind) : CapabilityTables :=
  let required : ExtTreeSet String :=
    .ofList ((parseRequirements (requiredRaw manifests)).map (·.capability))
  let context : ActivationContext :=
    { pruneExtensions := profile.mode == .builtinOnly || profile.mode == .lockedBuiltin
      required, deployments, manifests }
  manifests.foldl (·.activateManifest context)
    (manifests.foldl CapabilityTables.collectManifest {})

/-! ## Checking -/

def validateActiveIds (tables : CapabilityTables) (kind : ExtensionKind) : RuntimeResult Unit :=
  (tables.activeIds kind).toList.forM fun activeId =>
    let capability := s!"{kind.text}:{activeId}"
    if tables.providers.contains capability then .ok ()
    else .error (capabilityProviderMissing capability)

def validateResourceTypeProviders (manifests : List HostManifest) (tables : CapabilityTables) :
    RuntimeResult Unit :=
  (manifests.flatMap (·.resourceTypes)).forM fun resourceType =>
    if (tables.activeIds .resourceProvider).contains resourceType.providerId then .ok ()
    else .error (capabilityProviderMissing s!"resource_provider:{resourceType.providerId}")

/-- The active capability a requirement names: in full, as a strategy of a resource provider,
    or by its id alone. -/
def activeCapabilityForRequirement (requirement : CapabilityRequirement)
    (active activeResourceProviders : ExtTreeSet String) : Option String :=
  let byId :=
    if requirement.capability.toList.contains ':' then none
    else active.toList.find? fun activeCapability =>
      (rsplitOnce ':' activeCapability).any (·.2 == requirement.capability)
  if active.contains requirement.capability then some requirement.capability
  else
    match stripStart "resource_strategy:" requirement.capability with
    | some providerId =>
      if activeResourceProviders.contains providerId then
        some s!"resource_provider:{providerId}"
      else byId
    | none => byId

/-- The greatest of the texts. -/
def greatest (texts : List String) : Option String :=
  texts.foldl (fun best text => some (best.elim text fun b => if text < b then b else text)) none

/-- The loop of `select_provider`.  Its list is never empty to begin with, so a failure at its
    end has a constraint. -/
def selectAmong (capability : String) (constraint : Option String)
    (candidates : List CapabilityProvider) : List CapabilityProvider →
      RuntimeResult CapabilityProvider
  | [] => .error (capabilityVersionMismatch capability (constraint.getD "")
      (greatest (candidates.filterMap (·.providerVersion))))
  | provider :: rest =>
    match constraint with
    | none => .ok provider
    | some required =>
      match provider.providerVersion with
      | none => .error (capabilityVersionMismatch capability required none)
      | some version =>
        if versionMatchesConstraint version required then .ok provider
        else selectAmong capability constraint candidates rest

def selectProvider (providers : ExtTreeMap String (List CapabilityProvider))
    (capability : String) (constraint : Option String) : RuntimeResult CapabilityProvider :=
  match providers[capability]? with
  | none => .error (capabilityProviderMissing capability)
  | some candidates => selectAmong capability constraint candidates candidates

def selectProviderForRequirement (providers : ExtTreeMap String (List CapabilityProvider))
    (activeCapability : String) (requirement : CapabilityRequirement) :
    RuntimeResult CapabilityProvider :=
  (selectProvider providers activeCapability requirement.versionConstraint).mapError
    fun failure =>
      if requirement.versionConstraint.isSome then failure
      else requiredCapabilityMissing requirement.raw

def ensureRequiredCapability (tables : CapabilityTables) (requirement : CapabilityRequirement) :
    RuntimeResult Unit :=
  match activeCapabilityForRequirement requirement tables.active
      (tables.activeIds .resourceProvider) with
  | none => .error (requiredCapabilityMissing requirement.raw)
  | some activeCapability => do
    let _ ← selectProviderForRequirement tables.providers activeCapability requirement
    pure ()

/-- The requirement that names a capability in full, the first in the order of the texts. -/
def matchingRequirement (requirements : List CapabilityRequirement) (capability : String) :
    Option CapabilityRequirement :=
  requirements.find? (·.capability == capability)

/-- One round of `active_capability_providers`. -/
def selectActiveProvider (tables : CapabilityTables) (requirements : List CapabilityRequirement)
    (capability : String) : RuntimeResult CapabilityProviderSelection := do
  let matching := matchingRequirement requirements capability
  let provider ← match matching with
    | some requirement => selectProviderForRequirement tables.providers capability requirement
    | none => selectProvider tables.providers capability none
  pure
    { capability
      providerPluginId := provider.providerPluginId
      providerVersion := provider.providerVersion
      surfaceId := provider.surfaceId
      reason := if (matching.bind (·.versionConstraint)).isSome then "required_version"
        else "active_plan" }

def activeCapabilityProviders (tables : CapabilityTables)
    (requirements : List CapabilityRequirement) :
    RuntimeResult (List CapabilityProviderSelection) :=
  tables.active.toList.mapM (selectActiveProvider tables requirements)

/-! ## Permissions -/

def activeResourceTypeCapability (tables : CapabilityTables)
    (resourceType : ResourceTypeDescriptor) : Option String :=
  if (tables.activeIds .resourceProvider).contains resourceType.providerId then
    some s!"resource_type:{resourceType.kindId}"
  else none

def activeResourceOperation (tables : CapabilityTables) (manifests : List HostManifest)
    (kindId : Option String) (operation : String) : Option String :=
  ((manifests.flatMap (·.resourceTypes)).find? fun resourceType =>
    kindId.all (resourceType.kindId == ·) &&
      resourceType.operations.any (· == operation)).bind (activeResourceTypeCapability tables)

def resourcePermissionCapability (tables : CapabilityTables) (manifests : List HostManifest)
    (permission : String) : Option String :=
  if tables.active.contains permission then some permission
  else
    match (["resource_provider", "resource_type", "resource_schema"].map
        fun kind => s!"{kind}:{permission}").find? tables.active.contains with
    | some capability => some capability
    | none =>
      match (stripStart "resource:" permission).bind (splitOnce ':') with
      | some (kindId, operation) =>
        activeResourceOperation tables manifests (some kindId) operation
      | none => activeResourceOperation tables manifests none permission

def auditEffect (tables : CapabilityTables) (manifest : HostManifest) (effect : String) :
    RuntimeResult PermissionAuditEntry :=
  let capability := s!"effect:{effect}"
  if tables.active.contains capability then
    .ok ⟨manifest.pluginId, "effect", effect, true, some capability, "active_effect"⟩
  else .error (permissionUnauthorized manifest.pluginId "effect" effect)

def auditResource (tables : CapabilityTables) (manifests : List HostManifest)
    (manifest : HostManifest) (resource : String) : RuntimeResult PermissionAuditEntry :=
  match resourcePermissionCapability tables manifests resource with
  | some capability =>
    .ok ⟨manifest.pluginId, "resource", resource, true, some capability, "active_resource"⟩
  | none => .error (permissionUnauthorized manifest.pluginId "resource" resource)

def permissionAuditFor (manifests : List HostManifest) (tables : CapabilityTables) :
    RuntimeResult (List PermissionAuditEntry) := do
  let audits ← manifests.mapM fun manifest => do
    let effects ← manifest.permissions.effects.mapM (auditEffect tables manifest)
    let resources ← manifest.permissions.resources.mapM
      (auditResource tables manifests manifest)
    pure (effects ++ resources)
  pure audits.flatten

/-! ## The graph -/

def capabilityGraphFor (profile : RuntimeProfile) (manifests : List HostManifest)
    (deployments : ExtTreeMap String PluginDeploymentKind) :
    RuntimeResult RuntimeCapabilityGraph := do
  let required := requiredRaw manifests
  let requirements := parseRequirements required
  let tables := capabilityTables profile manifests deployments
  let kinds : List ExtensionKind := [.resourceProvider, .hostExtension, .pluginBackend, .bridge,
    .codec, .schedulerPolicy, .workflow]
  kinds.forM (validateActiveIds tables)
  validateResourceTypeProviders manifests tables
  requirements.forM (ensureRequiredCapability tables)
  let activeCapabilityProviders ← activeCapabilityProviders tables requirements
  let permissionAudit ← permissionAuditFor manifests tables
  pure
    { profileMode := profile.mode
      providedCapabilities := tables.provided
      requiredCapabilities := required
      activeCapabilities := tables.active
      activeCapabilityProviders
      activeResourceProviders := tables.activeIds .resourceProvider
      activeHostExtensions := tables.activeIds .hostExtension
      activePluginBackends := tables.activeIds .pluginBackend
      activeCodecs := tables.activeIds .codec
      activeBridges := tables.activeIds .bridge
      activeSchedulerPolicies := tables.activeIds .schedulerPolicy
      activeWorkflows := tables.activeIds .workflow
      permissionAudit }

end MutsukiRuntime.Resolver
