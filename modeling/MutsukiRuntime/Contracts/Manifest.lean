/-
  MANIFESTS AND PROFILES as the Host's resolver reads them (`plugin.rs`, `extension.rs`).

  `HostManifest` adds to the manifest of a load plan what only the resolver reads:
  the version, the further things a plugin provides, what it requires and what it asks
  permission for.  Schemas, media types, lifecycle, reload policies and metadata are
  compared or printed nowhere in the resolver and are left out.
-/
import MutsukiRuntime.Contracts.Runner

namespace MutsukiRuntime

open Std

inductive ArtifactType where
  | abi
  | process
  | wasm
  | python
  | native
  deriving DecidableEq

inductive PluginDeploymentKind where
  | builtin
  | abi
  | wasm
  | process
  | python
  deriving DecidableEq

namespace PluginDeploymentKind

def defaultForArtifact : ArtifactType → PluginDeploymentKind
  | .native => .builtin
  | .abi => .abi
  | .wasm => .wasm
  | .process => .process
  | .python => .python

def isCompatibleWithArtifact : PluginDeploymentKind → ArtifactType → Bool
  | .builtin, .native => true
  | .abi, .abi => true
  | .wasm, .wasm => true
  | .process, .process => true
  | .python, .python => true
  | _, _ => false

/-- The `{:?}` text of a deployment. -/
def debug : PluginDeploymentKind → String
  | .builtin => "Builtin"
  | .abi => "Abi"
  | .wasm => "Wasm"
  | .process => "Process"
  | .python => "Python"

end PluginDeploymentKind

inductive RuntimeProfileMode where
  | fullDev
  | extensibleRuntime
  | builtinOnly
  | lockedBuiltin
  deriving DecidableEq

structure ProtocolDescriptor where
  protocolId : String
  version : String

/-- `schema_version` is that of the descriptor's compatibility. -/
structure ResourceTypeDescriptor where
  kindId : String
  providerId : String
  operations : List String
  schemaVersion : String

structure HostExtensionDescriptor where
  extensionId : String
  supportedDeployments : List PluginDeploymentKind

structure PluginBackendDescriptor where
  backendId : String
  deploymentKind : PluginDeploymentKind
  codecId : Option String
  bridgeId : Option String

structure CodecDescriptor where
  codecId : String
  version : String

structure BridgeDescriptor where
  bridgeId : String
  codecIds : List String

structure SchedulerPolicyDescriptor where
  policyId : String
  version : String

structure WorkflowDescriptor where
  workflowId : String

structure PermissionGrant where
  effects : List String := []
  resources : List String := []

structure HostManifest extends PluginManifest where
  version : String
  artifactType : ArtifactType
  protocols : List ProtocolDescriptor := []
  resourceSchemas : List String := []
  resourceProviders : List String := []
  resourceTypes : List ResourceTypeDescriptor := []
  effects : List String := []
  streams : List String := []
  subscriptions : List String := []
  timers : List String := []
  stateSchemas : List String := []
  hostExtensions : List HostExtensionDescriptor := []
  pluginBackends : List PluginBackendDescriptor := []
  codecs : List CodecDescriptor := []
  bridges : List BridgeDescriptor := []
  schedulerPolicies : List SchedulerPolicyDescriptor := []
  workflows : List WorkflowDescriptor := []
  requires : List String := []
  permissions : PermissionGrant := {}

structure RuntimeProfile where
  mode : RuntimeProfileMode
  enabledPlugins : List String
  bindings : ExtTreeMap String String := ∅
  pluginDeployments : ExtTreeMap String PluginDeploymentKind := ∅

structure CapabilityProviderSelection where
  capability : String
  providerPluginId : String
  providerVersion : Option String
  surfaceId : String
  reason : String
  deriving DecidableEq

structure PermissionAuditEntry where
  pluginId : String
  permissionKind : String
  permission : String
  granted : Bool
  providerCapability : Option String
  reason : String
  deriving DecidableEq

/-- The `Vec`s that come out of ordered sets are kept as the sets. -/
structure RuntimeCapabilityGraph where
  profileMode : RuntimeProfileMode
  providedCapabilities : ExtTreeSet String
  requiredCapabilities : ExtTreeSet String
  activeCapabilities : ExtTreeSet String
  activeCapabilityProviders : List CapabilityProviderSelection
  activeResourceProviders : ExtTreeSet String
  activeHostExtensions : ExtTreeSet String
  activePluginBackends : ExtTreeSet String
  activeCodecs : ExtTreeSet String
  activeBridges : ExtTreeSet String
  activeSchedulerPolicies : ExtTreeSet String
  activeWorkflows : ExtTreeSet String
  permissionAudit : List PermissionAuditEntry

end MutsukiRuntime
