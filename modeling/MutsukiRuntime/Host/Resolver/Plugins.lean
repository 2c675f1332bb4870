/-
  ENABLED PLUGINS of the Host's resolver (`resolver/plugins.rs`): finding the manifests
  of a profile, giving every protocol its class, and binding protocols to runners.

  `normalize_protocol_classes` works on one manifest: it sorts what the runners accept,
  adds the class a name stands for where the manifest names none, and checks the
  runners against the classes.  `reject_cross_plugin_protocol_class_conflicts` then
  compares the manifests.  The `expect` of the runner check is never reached
  (`Normalized.known`); the model reads the default class there.
-/
import MutsukiRuntime.Contracts.Manifest
import MutsukiRuntime.Core.PlanChecks
import MutsukiRuntime.Lib.Prog

namespace MutsukiRuntime

open Std

def errPluginNotFound := "plugin.not_found"

namespace Resolver

/-- `starts_with`. -/
def startsWith (text start : String) : Bool := start.toList.isPrefixOf text.toList

/-! ## Failures -/

def pluginNotFound (pluginId : String) : RuntimeError :=
  (runtimeError errPluginNotFound "runtime.host" s!"host.plugin.{pluginId}").withEvidence
    "plugin_id" (.string pluginId)

def deploymentMismatch (route pluginId : String) (actual expected : PluginDeploymentKind) :
    RuntimeError :=
  (((runtimeError errRegistryUnauthorized "runtime.host" s!"{route}.{pluginId}").withEvidence
    "plugin_id" (.string pluginId)).withEvidence
    "actual_deployment" (.string actual.debug)).withEvidence
    "expected_deployment" (.string expected.debug)

def runnerBindingInvalid (protocolId runnerId detail : String) : RuntimeError :=
  (((runtimeError errRegistryUnauthorized "runtime.host"
    s!"host.plugin.runner_binding_invalid.{protocolId}").withEvidence
    "protocol_id" (.string protocolId)).withEvidence
    "runner_id" (.string runnerId)).withEvidence
    "detail" (.string detail)

def protocolClassError (manifest : HostManifest) (protocolId reason : String) : RuntimeError :=
  runtimeError errRegistryUnauthorized "host.load_plan.protocol_class"
    s!"plugin.{manifest.pluginId}.protocol.{protocolId}.{reason}"

/-! ## Protocol classes of one manifest -/

def legacyProtocolClass (protocolId : String) : ProtocolClass :=
  if startsWith protocolId "effect." then .effect
  else if startsWith protocolId "core." then .core
  else .domain

/-- `sort` followed by `dedup`. -/
def sortDedup (ids : List String) : List String := (ExtTreeSet.ofList ids).toList

def normalizedRunners (manifest : HostManifest) : List RunnerDescriptor :=
  manifest.runners.map fun runner =>
    { runner with acceptedProtocolIds := sortDedup runner.acceptedProtocolIds }

def knownProtocols (manifest : HostManifest) : ExtTreeSet String :=
  .ofList (manifest.protocols.map (·.protocolId) ++
    (normalizedRunners manifest).flatMap (·.acceptedProtocolIds) ++ manifest.effects)

/-- The `canonical_conflict`s of a protocol. -/
def canonicalConflict (manifest : HostManifest) (protocolId : String)
    (protocolClass : ProtocolClass) : Bool :=
  (startsWith protocolId "effect." && protocolClass != .effect) ||
    (startsWith protocolId "core." && !(protocolClass == .core || protocolClass == .control)) ||
    (manifest.effects.contains protocolId && protocolClass != .effect)

/-- The entry of a known protocol; the class its name stands for where there is none. -/
def normalizeClass (manifest : HostManifest) (classes : ExtTreeMap String ProtocolClass)
    (protocolId : String) : RuntimeResult (ExtTreeMap String ProtocolClass) :=
  let protocolClass := classes[protocolId]?.getD (legacyProtocolClass protocolId)
  if canonicalConflict manifest protocolId protocolClass then
    .error (protocolClassError manifest protocolId "canonical_conflict")
  else .ok (classes.insert protocolId protocolClass)

/-- The class of an accepted protocol against the runner. -/
def runnerMatches (runner : RunnerDescriptor) (protocolClass : ProtocolClass) : Bool :=
  matchesPurity runner.purity protocolClass &&
    (protocolClass != .control || runner.executionClass == .control)

def validateRunnerClass (manifest : HostManifest) (runner : RunnerDescriptor)
    (protocolId : String) : RuntimeResult Unit :=
  let protocolClass :=
    manifest.protocolClasses[protocolId]?.getD (legacyProtocolClass protocolId)
  if runnerMatches runner protocolClass then .ok ()
  else .error (protocolClassError manifest protocolId s!"runner.{runner.runnerId}.purity_conflict")

def validateRunnerClasses (manifest : HostManifest) (runner : RunnerDescriptor) :
    RuntimeResult Unit :=
  runner.acceptedProtocolIds.forM (validateRunnerClass manifest runner)

def normalizeProtocolClasses (manifest : HostManifest) : RuntimeResult HostManifest := do
  let known := knownProtocols manifest
  match manifest.protocolClasses.keys.find? fun protocolId => !known.contains protocolId with
  | some unknown => .error (protocolClassError manifest unknown "unknown_protocol")
  | none =>
    let classes ← known.toList.foldlM (normalizeClass manifest) manifest.protocolClasses
    let normalized := { manifest with
      runners := normalizedRunners manifest
      protocolClasses := classes }
    normalized.runners.forM (validateRunnerClasses normalized)
    pure normalized

/-! ## All enabled manifests -/

/-- One entry of a manifest against those of the manifests before it. -/
def rejectConflict (manifest : HostManifest) (classes : ExtTreeMap String ProtocolClass)
    (entry : String × ProtocolClass) : RuntimeResult (ExtTreeMap String ProtocolClass) :=
  if classes[entry.1]?.any (· != entry.2) then
    .error (protocolClassError manifest entry.1 "cross_plugin_conflict")
  else .ok (classes.insert entry.1 entry.2)

def rejectConflicts (classes : ExtTreeMap String ProtocolClass) (manifest : HostManifest) :
    RuntimeResult (ExtTreeMap String ProtocolClass) :=
  manifest.protocolClasses.toList.foldlM (rejectConflict manifest) classes

def rejectCrossPluginProtocolClassConflicts (manifests : List HostManifest) :
    RuntimeResult Unit := do
  let _ ← manifests.foldlM rejectConflicts ∅
  pure ()

structure ResolvedPlugins where
  manifests : List HostManifest := []
  deployments : ExtTreeMap String PluginDeploymentKind := ∅

def deploymentFor (profile : RuntimeProfile) (manifest : HostManifest) : PluginDeploymentKind :=
  profile.pluginDeployments[manifest.pluginId]?.getD (.defaultForArtifact manifest.artifactType)

def ensureDeploymentMatchesArtifact (pluginId : String) (deployment : PluginDeploymentKind)
    (artifactType : ArtifactType) : RuntimeResult Unit :=
  if deployment.isCompatibleWithArtifact artifactType then .ok ()
  else .error (deploymentMismatch "host.plugin.deployment_artifact_mismatch" pluginId deployment
    (.defaultForArtifact artifactType))

/-- One round of the loop over `enabled_plugins`. -/
def resolvePlugin (manifests : List HostManifest) (profile : RuntimeProfile)
    (resolved : ResolvedPlugins) (pluginId : String) : RuntimeResult ResolvedPlugins := do
  let manifest ← (manifests.find? (·.pluginId == pluginId)).elim
    (.error (pluginNotFound pluginId)) .ok
  let deployment := deploymentFor profile manifest
  ensureDeploymentMatchesArtifact pluginId deployment manifest.artifactType
  let normalized ← normalizeProtocolClasses manifest
  pure
    { manifests := resolved.manifests ++ [normalized]
      deployments := resolved.deployments.insert pluginId deployment }

def resolveEnabledPlugins (manifests : List HostManifest) (profile : RuntimeProfile) :
    RuntimeResult ResolvedPlugins := do
  let resolved ← profile.enabledPlugins.foldlM (resolvePlugin manifests profile) {}
  rejectCrossPluginProtocolClassConflicts resolved.manifests
  pure resolved

/-! ## Runner bindings -/

def validateProfileBinding (manifests : List HostManifest) (binding : String × String) :
    RuntimeResult Unit :=
  match (manifests.flatMap (·.runners)).find? (·.runnerId == binding.2) with
  | none => .error (runnerBindingInvalid binding.1 binding.2 "runner_not_enabled")
  | some runner =>
    if runner.acceptedProtocolIds.any (· == binding.1) then .ok ()
    else .error (runnerBindingInvalid binding.1 binding.2 "protocol_not_accepted")

/-- The first runner that accepts a protocol is bound to it, unless the profile binds one. -/
def runnerBindings (profile : RuntimeProfile) (manifests : List HostManifest) :
    RuntimeResult (ExtTreeMap String String) := do
  profile.bindings.toList.forM (validateProfileBinding manifests)
  pure ((manifests.flatMap (·.runners)).foldl
    (fun bindings runner => runner.acceptedProtocolIds.foldl
      (fun bindings protocolId => bindings.insertIfNew protocolId runner.runnerId) bindings)
    profile.bindings)

end Resolver

end MutsukiRuntime
