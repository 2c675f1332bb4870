/-
  RESOLVED LOAD PLANS (`resolver.rs`) and the classes of their protocols.

  A protocol that one plugin accepts and another declares has a class in each of the two
  manifests, so the comparison carries the runner check over to the declaring plugin.
  `resolved_runners_pass`: the core's own class check never fails on an accepted plan.
-/
import MutsukiRuntime.Host.Resolver.Capabilities
import MutsukiRuntime.Lib.Checks

namespace MutsukiRuntime

open Std Prog

/-- The load plan as the Host keeps it.  Its identity, its outlets and its contract surfaces
    are not modelled. -/
structure HostLoadPlan where
  registryGeneration : Nat
  plugins : List HostManifest
  loadOrder : List String
  runnerBindings : ExtTreeMap String String
  pluginDeployments : ExtTreeMap String PluginDeploymentKind
  capabilityGraph : RuntimeCapabilityGraph

/-- The plan as the core reads it. -/
def HostLoadPlan.toRuntimeLoadPlan (plan : HostLoadPlan) (observability : ObservabilityProfile)
    (contractSurfaces : List ContractSurface) : RuntimeLoadPlan where
  registryGeneration := plan.registryGeneration
  plugins := plan.plugins.map (·.toPluginManifest)
  observability
  contractSurfaces

namespace Resolver

def resolveLoadPlan (manifests : List HostManifest) (profile : RuntimeProfile) :
    RuntimeResult HostLoadPlan := do
  let resolved ← resolveEnabledPlugins manifests profile
  let runnerBindings ← runnerBindings profile resolved.manifests
  let capabilityGraph ← capabilityGraphFor profile resolved.manifests resolved.deployments
  pure
    { registryGeneration := 1
      plugins := resolved.manifests
      loadOrder := profile.enabledPlugins
      runnerBindings
      pluginDeployments := resolved.deployments
      capabilityGraph }

variable {manifests : List HostManifest} {profile : RuntimeProfile} {plan : HostLoadPlan}

theorem resolveLoadPlan_eq_ok (h : resolveLoadPlan manifests profile = .ok plan) :
    ∃ resolved, resolveEnabledPlugins manifests profile = .ok resolved ∧
      plan.plugins = resolved.manifests ∧
      capabilityGraphFor profile resolved.manifests resolved.deployments =
        .ok plan.capabilityGraph := by
  obtain ⟨resolved, hresolved, h⟩ := except_bind_eq_ok.1 h
  obtain ⟨bindings, -, h⟩ := except_bind_eq_ok.1 h
  obtain ⟨graph, hgraph, h⟩ := except_bind_eq_ok.1 h
  cases h
  exact ⟨resolved, hresolved, rfl, hgraph⟩

/-! ## One manifest -/

/-- A manifest with its classes filled in and checked. -/
structure Normalized (raw manifest : HostManifest) : Prop where
  pluginId : manifest.pluginId = raw.pluginId
  runners : manifest.runners = normalizedRunners raw
  kept : ∀ (protocolId : String) (c : ProtocolClass), raw.protocolClasses[protocolId]? = some c →
    manifest.protocolClasses[protocolId]? = some c
  known : ∀ protocolId ∈ knownProtocols raw,
    ∃ c, manifest.protocolClasses[protocolId]? = some c
  canonical : ∀ (protocolId : String) (c : ProtocolClass),
    manifest.protocolClasses[protocolId]? = some c → canonicalConflict raw protocolId c = false
  matched : ∀ runner ∈ manifest.runners, ∀ protocolId ∈ runner.acceptedProtocolIds,
    ∃ c, manifest.protocolClasses[protocolId]? = some c ∧ runnerMatches runner c = true

/-- The classes after the known protocols in `done` have had their turn. -/
structure ClassesFilled (raw : HostManifest) (done : List String)
    (classes : ExtTreeMap String ProtocolClass) : Prop where
  kept : ∀ (protocolId : String) (c : ProtocolClass), raw.protocolClasses[protocolId]? = some c →
    classes[protocolId]? = some c
  filled : ∀ protocolId ∈ done,
    ∃ c, classes[protocolId]? = some c ∧ canonicalConflict raw protocolId c = false
  origin : ∀ (protocolId : String) (c : ProtocolClass), classes[protocolId]? = some c →
    raw.protocolClasses[protocolId]? = some c ∨ protocolId ∈ done

variable {raw : HostManifest} {protocolId : String} {classes : ExtTreeMap String ProtocolClass}

variable {classes' before : ExtTreeMap String ProtocolClass}

theorem classesFilled_step {done : List String} (h : ClassesFilled raw done classes)
    (hstep : normalizeClass raw classes protocolId = .ok classes') :
    ClassesFilled raw (done ++ [protocolId]) classes' := by
  obtain ⟨hconflict, hclasses⟩ := except_check_eq_ok.1 hstep
  cases hclasses
  refine ⟨fun id c hraw => ?_, fun id hid => ?_, fun id c hget => ?_⟩
  · have hold := h.kept id c hraw
    rw [Buckets.getElem?_insert_ite]
    split
    next heq =>
      subst heq
      rw [hold]
      rfl
    · exact hold
  · rw [Buckets.getElem?_insert_ite]
    by_cases heq : protocolId = id
    · subst heq
      exact ⟨_, if_pos rfl, Bool.eq_false_of_not_eq_true hconflict⟩
    · rw [if_neg heq]
      refine h.filled id ((List.mem_append.1 hid).resolve_right fun hlast => heq ?_)
      exact (List.mem_singleton.1 hlast).symm
  · rw [Buckets.getElem?_insert_ite] at hget
    by_cases heq : protocolId = id
    · exact .inr (List.mem_append_right _ (by simp [heq]))
    · rw [if_neg heq] at hget
      exact (h.origin id c hget).imp_right (List.mem_append_left _)

variable {manifest : HostManifest}

theorem normalizeProtocolClasses_eq_ok (h : normalizeProtocolClasses raw = .ok manifest) :
    Normalized raw manifest := by
  unfold normalizeProtocolClasses at h
  dsimp only at h
  split at h
  · cases h
  next hunknown =>
  obtain ⟨classes, hclasses, h⟩ := except_bind_eq_ok.1 h
  obtain ⟨⟨⟩, hrunners, h⟩ := except_bind_eq_ok.1 h
  cases h
  have hstart : ClassesFilled raw [] raw.protocolClasses :=
    ⟨fun _ _ hget => hget, fun _ hid => absurd hid List.not_mem_nil, fun _ _ hget => .inl hget⟩
  have hfilled := Checks.foldlM_invariant (ClassesFilled raw)
    (fun _ _ _ _ hok hstep => classesFilled_step hok hstep) hstart hclasses
  rw [List.nil_append] at hfilled
  -- every class the manifest names is that of a known protocol
  have hknown : ∀ (protocolId : String) (c : ProtocolClass), classes[protocolId]? = some c →
      protocolId ∈ (knownProtocols raw).toList := by
    intro protocolId c hget
    rcases hfilled.origin protocolId c hget with hraw | hdone
    · have hmem : protocolId ∈ raw.protocolClasses.keys :=
        ExtTreeMap.mem_keys.2 (ExtTreeMap.mem_iff_isSome_getElem?.2 (by rw [hraw]; rfl))
      have hlisted := List.find?_eq_none.1 hunknown protocolId hmem
      rw [Bool.not_eq_true', Bool.not_eq_false] at hlisted
      exact ExtTreeSet.mem_toList.2 (ExtTreeSet.mem_iff_contains.2 hlisted)
    · exact hdone
  refine ⟨rfl, rfl, hfilled.kept, fun protocolId hmem => ?_, fun protocolId c hget => ?_,
    fun runner hrunner protocolId haccepted => ?_⟩
  · obtain ⟨c, hget, -⟩ := hfilled.filled protocolId (ExtTreeSet.mem_toList.2 hmem)
    exact ⟨c, hget⟩
  · obtain ⟨c', hget', hcanonical⟩ := hfilled.filled protocolId (hknown protocolId c hget)
    rw [hget] at hget'
    cases hget'
    exact hcanonical
  · have hmem : protocolId ∈ knownProtocols raw := by
      rw [knownProtocols, ExtTreeSet.mem_ofList, List.contains_iff_mem]
      exact List.mem_append_left _ (List.mem_append_right _
        (List.mem_flatMap.2 ⟨runner, hrunner, haccepted⟩))
    obtain ⟨c, hget, -⟩ := hfilled.filled protocolId (ExtTreeSet.mem_toList.2 hmem)
    refine ⟨c, hget, ?_⟩
    have hchecked := Checks.forM_eq_ok.1 (Checks.forM_eq_ok.1 hrunners runner hrunner)
      protocolId haccepted
    simp only [validateRunnerClass, hget, Option.getD_some] at hchecked
    split at hchecked
    · assumption
    · cases hchecked

/-! ## All manifests -/

/-- No two manifests name different classes for one protocol. -/
def ClassesAgree (manifests : List HostManifest) : Prop :=
  ∀ first ∈ manifests, ∀ second ∈ manifests, ∀ (protocolId : String) (c c' : ProtocolClass),
    first.protocolClasses[protocolId]? = some c → second.protocolClasses[protocolId]? = some c' →
    c = c'

/-- The table of the comparison: what it held at first is kept, and the entries done are in. -/
structure EntriesJoined (before : ExtTreeMap String ProtocolClass)
    (done : List (String × ProtocolClass)) (classes : ExtTreeMap String ProtocolClass) :
    Prop where
  kept : ∀ (protocolId : String) (c : ProtocolClass), before[protocolId]? = some c →
    classes[protocolId]? = some c
  joined : ∀ entry ∈ done, classes[entry.1]? = some entry.2

theorem entriesJoined_step {done : List (String × ProtocolClass)} {entry : String × ProtocolClass}
    (h : EntriesJoined before done classes)
    (hstep : rejectConflict manifest classes entry = .ok classes') :
    EntriesJoined before (done ++ [entry]) classes' := by
  obtain ⟨hsame, hclasses⟩ := except_check_eq_ok.1 hstep
  cases hclasses
  -- the class that is overwritten is the same one
  have hover : ∀ (protocolId : String) (c : ProtocolClass), classes[protocolId]? = some c →
      (classes.insert entry.1 entry.2)[protocolId]? = some c := by
    intro protocolId c hget
    rw [Buckets.getElem?_insert_ite]
    split
    next heq =>
      subst heq
      rw [hget] at hsame
      have hclass : c = entry.2 := by simpa using hsame
      rw [hclass]
    · exact hget
  refine ⟨fun protocolId c hget => hover protocolId c (h.kept protocolId c hget), fun e he => ?_⟩
  rcases List.mem_append.1 he with he | he
  · exact hover _ _ (h.joined e he)
  · rw [List.mem_singleton.1 he, Buckets.getElem?_insert_ite, if_pos rfl]

theorem rejectConflicts_eq_ok (h : rejectConflicts before manifest = .ok classes) :
    EntriesJoined before manifest.protocolClasses.toList classes := by
  have hstart : EntriesJoined before [] before :=
    ⟨fun _ _ hget => hget, fun _ he => absurd he List.not_mem_nil⟩
  exact Checks.foldlM_invariant (EntriesJoined before)
    (fun _ _ _ _ hok hstep => entriesJoined_step hok hstep) hstart h

theorem rejectCrossPluginProtocolClassConflicts_eq_ok
    (h : rejectCrossPluginProtocolClassConflicts manifests = .ok ()) : ClassesAgree manifests := by
  obtain ⟨classes, hclasses, -⟩ := except_bind_eq_ok.1 h
  have hjoined : ∀ manifest ∈ manifests, ∀ (protocolId : String) (c : ProtocolClass),
      manifest.protocolClasses[protocolId]? = some c → classes[protocolId]? = some c := by
    refine Checks.foldlM_invariant
      (fun done classes => ∀ manifest ∈ done, ∀ (protocolId : String) (c : ProtocolClass),
        manifest.protocolClasses[protocolId]? = some c → classes[protocolId]? = some c)
      ?_ (fun _ hmem => absurd hmem List.not_mem_nil) hclasses
    intro done manifest before after hdone hstep other hother protocolId c hget
    have hjoin := rejectConflicts_eq_ok hstep
    rcases List.mem_append.1 hother with hother | hother
    · exact hjoin.kept _ _ (hdone other hother protocolId c hget)
    · rw [List.mem_singleton.1 hother] at hget
      exact hjoin.joined (protocolId, c) (ExtTreeMap.mem_toList_iff_getElem?_eq_some.2 hget)
  intro first hfirst second hsecond protocolId c c' hc hc'
  have hsame := (hjoined first hfirst protocolId c hc).symm.trans
    (hjoined second hsecond protocolId c' hc')
  exact Option.some.inj hsame

/-- The manifests of an accepted profile, one for each enabled plugin and in its order. -/
theorem resolveEnabledPlugins_eq_ok {resolved : ResolvedPlugins}
    (h : resolveEnabledPlugins manifests profile = .ok resolved) :
    List.Forall₂ (fun pluginId manifest =>
        ∃ raw, manifests.find? (·.pluginId == pluginId) = some raw ∧ Normalized raw manifest)
      profile.enabledPlugins resolved.manifests ∧ ClassesAgree resolved.manifests := by
  obtain ⟨found, hfound, h⟩ := except_bind_eq_ok.1 h
  obtain ⟨⟨⟩, hagree, h⟩ := except_bind_eq_ok.1 h
  cases h
  refine ⟨?_, rejectCrossPluginProtocolClassConflicts_eq_ok hagree⟩
  refine Checks.foldlM_invariant
    (fun done (resolved : ResolvedPlugins) => List.Forall₂ (fun pluginId manifest =>
      ∃ raw, manifests.find? (·.pluginId == pluginId) = some raw ∧ Normalized raw manifest)
      done resolved.manifests) ?_ List.Forall₂.nil hfound
  intro done pluginId before after hdone hstep
  obtain ⟨raw, hraw, hstep⟩ := except_bind_eq_ok.1 hstep
  obtain ⟨⟨⟩, -, hstep⟩ := except_bind_eq_ok.1 hstep
  obtain ⟨normalized, hnormalized, hstep⟩ := except_bind_eq_ok.1 hstep
  cases hstep
  have hfind : manifests.find? (·.pluginId == pluginId) = some raw := by
    cases hf : manifests.find? (·.pluginId == pluginId) with
    | none =>
      rw [hf] at hraw
      cases hraw
    | some found =>
      rw [hf] at hraw
      cases hraw
      rfl
  exact List.rel_append hdone (List.Forall₂.cons
    ⟨raw, hfind, normalizeProtocolClasses_eq_ok hnormalized⟩ List.Forall₂.nil)

/-! ## Plans -/

theorem exists_normalized (h : resolveLoadPlan manifests profile = .ok plan)
    (hmem : manifest ∈ plan.plugins) :
    ∃ raw ∈ manifests, Normalized raw manifest := by
  obtain ⟨resolved, hresolved, hplugins, -⟩ := resolveLoadPlan_eq_ok h
  rw [hplugins] at hmem
  obtain ⟨pluginId, -, raw, hfind, hnormalized⟩ :=
    Checks.exists_of_mem_right (resolveEnabledPlugins_eq_ok hresolved).1 hmem
  exact ⟨raw, List.mem_of_find?_eq_some hfind, hnormalized⟩

theorem classesAgree_of_resolved (h : resolveLoadPlan manifests profile = .ok plan) :
    ClassesAgree plan.plugins := by
  obtain ⟨resolved, hresolved, hplugins, -⟩ := resolveLoadPlan_eq_ok h
  rw [hplugins]
  exact (resolveEnabledPlugins_eq_ok hresolved).2

theorem Normalized.effect_or_core (h : Normalized raw manifest) {c : ProtocolClass}
    (hget : manifest.protocolClasses[protocolId]? = some c) :
    (startsWith protocolId "effect." = true → c = .effect) ∧
      (startsWith protocolId "core." = true → c = .core ∨ c = .control) := by
  have hcanonical := h.canonical protocolId c hget
  simp only [canonicalConflict, Bool.or_eq_false_iff, Bool.and_eq_false_imp] at hcanonical
  obtain ⟨⟨heffect, hcore⟩, -⟩ := hcanonical
  refine ⟨fun hstart => ?_, fun hstart => ?_⟩
  · simpa using heffect hstart
  · have hclass := hcore hstart
    cases c <;> simp_all

/-- A declared protocol: one the manifest describes, one of its runners accepts, one of its
    effects, or one it names a class for. -/
def Declares (manifest : HostManifest) (protocolId : String) : Prop :=
  (∃ protocol ∈ manifest.protocols, protocol.protocolId = protocolId) ∨
    (∃ runner ∈ manifest.runners, protocolId ∈ runner.acceptedProtocolIds) ∨
    protocolId ∈ manifest.effects ∨ protocolId ∈ manifest.protocolClasses

theorem mem_knownProtocols : protocolId ∈ knownProtocols manifest ↔
      (∃ protocol ∈ manifest.protocols, protocol.protocolId = protocolId) ∨
        (∃ runner ∈ manifest.runners, protocolId ∈ runner.acceptedProtocolIds) ∨
        protocolId ∈ manifest.effects := by
  simp only [knownProtocols, normalizedRunners, sortDedup, ExtTreeSet.mem_ofList,
    List.contains_iff_mem, List.mem_append, List.mem_map, List.flatMap_map, List.mem_flatMap,
    ExtTreeSet.mem_toList, or_assoc]

theorem Normalized.classed (h : Normalized raw manifest) (hdeclares : Declares raw protocolId) :
    ∃ c, manifest.protocolClasses[protocolId]? = some c := by
  rcases hdeclares with hprotocol | hrunner | heffect | hclass
  · exact h.known protocolId (mem_knownProtocols.2 (.inl hprotocol))
  · exact h.known protocolId (mem_knownProtocols.2 (.inr (.inl hrunner)))
  · exact h.known protocolId (mem_knownProtocols.2 (.inr (.inr heffect)))
  · rw [ExtTreeMap.mem_iff_isSome_getElem?, Option.isSome_iff_exists] at hclass
    obtain ⟨c, hc⟩ := hclass
    exact ⟨c, h.kept protocolId c hc⟩

/-- In an accepted plan every declared protocol of an enabled manifest has a class, the one the
    manifest names where it names one; all manifests agree on it; every runner has the purity
    of what it accepts, whichever plugin declares it; and the classes are those that the names
    `effect.` and `core.` reserve. -/
theorem protocol_classes_consistent {manifests : List HostManifest} {profile : RuntimeProfile}
    {plan : HostLoadPlan} (h : resolveLoadPlan manifests profile = .ok plan) :
    (∀ pluginId ∈ profile.enabledPlugins, ∃ raw manifest,
      manifests.find? (·.pluginId == pluginId) = some raw ∧ manifest ∈ plan.plugins ∧
      (∀ protocolId, Declares raw protocolId → ∃ c, manifest.protocolClasses[protocolId]? = some c ∧
          ∀ named, raw.protocolClasses[protocolId]? = some named → named = c)) ∧
    (∀ first ∈ plan.plugins, ∀ second ∈ plan.plugins,
      ∀ (protocolId : String) (c c' : ProtocolClass), first.protocolClasses[protocolId]? = some c →
        second.protocolClasses[protocolId]? = some c' → c = c') ∧
    (∀ manifest ∈ plan.plugins, ∀ runner ∈ manifest.runners,
      ∀ protocolId ∈ runner.acceptedProtocolIds,
        (∃ c, manifest.protocolClasses[protocolId]? = some c) ∧
        ∀ declaring ∈ plan.plugins, ∀ c, declaring.protocolClasses[protocolId]? = some c →
          matchesPurity runner.purity c = true) ∧
    ∀ manifest ∈ plan.plugins, ∀ (protocolId : String) (c : ProtocolClass),
      manifest.protocolClasses[protocolId]? = some c →
      (startsWith protocolId "effect." = true → c = .effect) ∧
        (startsWith protocolId "core." = true → c = .core ∨ c = .control) := by
  have hagree := classesAgree_of_resolved h
  refine ⟨fun pluginId henabled => ?_, hagree, ?_, ?_⟩
  · obtain ⟨resolved, hresolved, hplugins, -⟩ := resolveLoadPlan_eq_ok h
    obtain ⟨manifest, hmem, raw, hfind, hnormalized⟩ :=
      Checks.exists_of_mem_left (resolveEnabledPlugins_eq_ok hresolved).1 henabled
    refine ⟨raw, manifest, hfind, by rwa [hplugins], fun protocolId hdeclares => ?_⟩
    obtain ⟨c, hc⟩ := hnormalized.classed hdeclares
    refine ⟨c, hc, fun named hnamed => ?_⟩
    exact Option.some.inj ((hnormalized.kept protocolId named hnamed).symm.trans hc)
  · intro manifest hmem runner hrunner protocolId haccepted
    obtain ⟨raw, -, hnormalized⟩ := exists_normalized h hmem
    obtain ⟨c, hc, hmatches⟩ := hnormalized.matched runner hrunner protocolId haccepted
    refine ⟨⟨c, hc⟩, fun declaring hdeclaring c' hc' => ?_⟩
    rw [hagree declaring hdeclaring manifest hmem protocolId c' c hc' hc]
    exact (Bool.and_eq_true_iff.1 hmatches).1
  · intro manifest hmem protocolId c hget
    obtain ⟨raw, -, hnormalized⟩ := exists_normalized h hmem
    exact hnormalized.effect_or_core hget

/-- A native plugin that provides nothing yet. -/
def bareManifest (pluginId : String) : HostManifest where
  pluginId
  artifactSha256 := ""
  runners := []
  protocolClasses := ∅
  handlerBindings := []
  version := "1.0.0"
  artifactType := .native

/-- Declares the protocol `echo` at a version. -/
def echoManifest (pluginId version : String) : HostManifest :=
  { bareManifest pluginId with protocols := [⟨"echo", version⟩] }

/-- A runner for `echo`, which another plugin declares. -/
def echoRunnerManifest : HostManifest :=
  { bareManifest "runner" with
    runners := [{ runnerId := "echo.runner", pluginId := "runner", pluginGeneration := 1
                  acceptedProtocolIds := ["echo"], purity := .pure, executionClass := .cpu }] }

def profileOf (manifests : List HostManifest) : RuntimeProfile where
  mode := .fullDev
  enabledPlugins := manifests.map (·.pluginId)

theorem protocol_classes_consistent_echo :
    ∃ plan, resolveLoadPlan [echoManifest "one" "1.0.0", echoRunnerManifest]
        (profileOf [echoManifest "one" "1.0.0", echoRunnerManifest]) = .ok plan ∧
      ∀ manifest ∈ plan.plugins, ∀ runner ∈ manifest.runners,
        ∀ protocolId ∈ runner.acceptedProtocolIds,
          ∀ declaring ∈ plan.plugins, ∀ c, declaring.protocolClasses[protocolId]? = some c →
            matchesPurity runner.purity c = true := by
  obtain ⟨plan, hplan⟩ := Checks.exists_eq_ok
    (x := resolveLoadPlan [echoManifest "one" "1.0.0", echoRunnerManifest]
      (profileOf [echoManifest "one" "1.0.0", echoRunnerManifest])) (by decide +kernel)
  refine ⟨plan, hplan, fun manifest hmem runner hrunner protocolId haccepted => ?_⟩
  exact ((protocol_classes_consistent hplan).2.2.1 manifest hmem runner hrunner protocolId
    haccepted).2

/-! ## The core's own check -/

/-- The class check of the core passes every runner of an accepted plan. -/
theorem resolved_runners_pass (h : resolveLoadPlan manifests profile = .ok plan)
    (observability : ObservabilityProfile) (contractSurfaces : List ContractSurface)
    (hmem : manifest ∈ plan.plugins) {runner : RunnerDescriptor}
    (hrunner : runner ∈ manifest.runners) :
    validateRunnerProtocolClasses (plan.toRuntimeLoadPlan observability contractSurfaces)
      runner = .ok () := by
  obtain ⟨raw, -, hnormalized⟩ := exists_normalized h hmem
  refine Checks.forM_eq_ok.2 fun protocolId haccepted => ?_
  obtain ⟨c, hc, hmatches⟩ := hnormalized.matched runner hrunner protocolId haccepted
  -- the first plugin that mentions the protocol names the same class
  have hplanned : plannedClass (plan.toRuntimeLoadPlan observability contractSurfaces)
      protocolId = some c := by
    cases hfound : plannedClass (plan.toRuntimeLoadPlan observability contractSurfaces)
        protocolId with
    | none =>
      have hnone := List.findSome?_eq_none_iff.1 hfound manifest.toPluginManifest
        (List.mem_map_of_mem hmem)
      rw [hnone] at hc
      cases hc
    | some c' =>
      obtain ⟨_, hplugin, hget⟩ := List.exists_of_findSome?_eq_some hfound
      obtain ⟨first, hfirst, rfl⟩ := List.mem_map.1 hplugin
      rw [classesAgree_of_resolved h first hfirst manifest hmem protocolId c' c hget hc]
  obtain ⟨hpurity, hcontrol⟩ := Bool.and_eq_true_iff.1 hmatches
  simp only [validateProtocolClass, hplanned, hpurity, Bool.not_true, Bool.false_or]
  cases c <;> simp_all

theorem resolved_runners_pass_echo :
    ∃ plan, resolveLoadPlan [echoManifest "one" "1.0.0", echoRunnerManifest]
        (profileOf [echoManifest "one" "1.0.0", echoRunnerManifest]) = .ok plan ∧
      ∀ observability, ∀ manifest ∈ plan.plugins, ∀ runner ∈ manifest.runners,
        validateRunnerProtocolClasses (plan.toRuntimeLoadPlan observability []) runner =
          .ok () := by
  obtain ⟨plan, hplan⟩ := Checks.exists_eq_ok
    (x := resolveLoadPlan [echoManifest "one" "1.0.0", echoRunnerManifest]
      (profileOf [echoManifest "one" "1.0.0", echoRunnerManifest])) (by decide +kernel)
  exact ⟨plan, hplan, fun observability manifest hmem runner hrunner =>
    resolved_runners_pass hplan observability [] hmem hrunner⟩

end Resolver

end MutsukiRuntime
