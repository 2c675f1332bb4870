/-
  SETTLING DRAINING GENERATIONS: what becomes of the table of `settle_draining_generations`.

  The loop consumes the table: a generation with running tasks goes to a list of its own, any
  other one is disposed of.  That list becomes the table only when the loop ends, so an error
  leaves the table empty.
-/
import MutsukiRuntime.Core.Runtime.FailedReloads

namespace MutsukiRuntime

namespace CoreRuntime

open Prog

section Settling

variable {calls : RunnerCalls} {pool : TaskPool}

/-- Some task runs on a runner of the generation. -/
def busy (pool : TaskPool) (generation : DrainingGeneration) : Bool :=
  generation.runnerIds.any pool.hasRunningRecords

/-- No runner and no handler of the generation refuses to be disposed of. -/
def Disposable (calls : RunnerCalls) (generation : DrainingGeneration) : Prop :=
  (∀ runner ∈ generation.registry.runners.toList.flatMap (·.2), calls.dispose runner = .ok ()) ∧
    ∀ handler ∈ generation.registry.asyncHandlers.toList.map (·.2),
      calls.disposeHandler handler = .ok ()

theorem disposeAll_isOk_iff {generation : DrainingGeneration} :
    (generation.registry.disposeAll calls).isOk = true ↔ Disposable calls generation := by
  constructor
  · intro h
    obtain ⟨disposed, h⟩ := Checks.exists_eq_ok h
    unfold RunnerRegistry.disposeAll at h
    rw [except_bind_eq_ok] at h
    obtain ⟨⟨⟩, hrunners, h⟩ := h
    rw [except_bind_eq_ok] at h
    obtain ⟨⟨⟩, hhandlers, -⟩ := h
    exact ⟨Checks.forM_eq_ok.1 hrunners, Checks.forM_eq_ok.1 hhandlers⟩
  · rintro ⟨hrunners, hhandlers⟩
    unfold RunnerRegistry.disposeAll
    dsimp only
    rw [Checks.forM_eq_ok.2 hrunners, Checks.forM_eq_ok.2 hhandlers]
    rfl

theorem sticks_iff {generation : DrainingGeneration} : Sticks calls pool generation ↔
      busy pool generation = false ∧ ¬ Disposable calls generation := by
  rw [Sticks, ← disposeAll_isOk_iff, Bool.not_eq_true]
  rfl

theorem settle_ok {generations : List DrainingGeneration} {acc settled : SettledGenerations}
    (h : generations.foldlM (settleGeneration calls pool) acc = .ok settled) :
    settled.remaining = acc.remaining ++ generations.filter (busy pool) := by
  induction generations generalizing acc with
  | nil =>
    cases h
    simp
  | cons generation generations ih =>
    rw [List.foldlM_cons, except_bind_eq_ok] at h
    obtain ⟨acc', hstep, h⟩ := h
    rw [ih h]
    change (if busy pool generation = true then _ else _) = _ at hstep
    by_cases hbusy : busy pool generation = true
    · rw [if_pos hbusy] at hstep
      cases hstep
      simp [hbusy]
    · rw [if_neg hbusy, except_bind_eq_ok] at hstep
      obtain ⟨disposed, -, hstep⟩ := hstep
      cases hstep
      simp [hbusy]

/-- The loop gets past the generations `before`, and disposes of this one. -/
def DisposedAfter (calls : RunnerCalls) (pool : TaskPool) (before : List DrainingGeneration)
    (generation : DrainingGeneration) : Prop :=
  (∀ earlier ∈ before, busy pool earlier = true ∨ Disposable calls earlier) ∧
    busy pool generation = false ∧ Disposable calls generation

end Settling

/-- Settling leaves every generation in the table that it has not disposed of, if and only if no
    generation without running tasks has a runner that refuses to be disposed of. -/
theorem generations_tracked_iff (rt : CoreRuntime) (calls : RunnerCalls) :
    (∀ before generation rest, rt.drainingGenerations = before ++ generation :: rest →
      DisposedAfter calls rt.tasks before generation ∨
        generation ∈ ((settleDrainingGenerations calls).run rt).2.drainingGenerations) ↔
      ∀ generation ∈ rt.drainingGenerations,
        busy rt.tasks generation = true ∨ Disposable calls generation := by
  have hsticks : ∀ generation, (busy rt.tasks generation = true ∨ Disposable calls generation) ↔
      ¬ Sticks calls rt.tasks generation := by
    intro generation
    rw [sticks_iff]
    cases busy rt.tasks generation <;> simp
  have herror := @settle_error_iff calls rt.tasks rt.drainingGenerations {}
  unfold settleDrainingGenerations
  rw [run_read_bind]
  cases hsettled : rt.drainingGenerations.foldlM (settleGeneration calls rt.tasks) {} with
  | error e =>
    rw [hsettled] at herror
    obtain ⟨generation, hmem, hstick⟩ := herror.1 rfl
    have hbad : ¬ (busy rt.tasks generation = true ∨ Disposable calls generation) :=
      fun h => (hsticks generation).1 h hstick
    refine iff_of_false (fun h => ?_) fun h => hbad (h generation hmem)
    obtain ⟨before, rest, hsplit⟩ := List.append_of_mem hmem
    rcases h before generation rest hsplit with hdisposed | hkept
    · exact hbad (.inr hdisposed.2.2)
    · exact absurd hkept List.not_mem_nil
  | ok settled =>
    have hnone : ∀ generation ∈ rt.drainingGenerations,
        busy rt.tasks generation = true ∨ Disposable calls generation := by
      intro generation hmem
      rw [hsticks]
      intro hstick
      have := herror.2 ⟨generation, hmem, hstick⟩
      rw [hsettled] at this
      cases this
    refine iff_of_true (fun before generation rest hsplit => ?_) hnone
    rw [hsplit] at hnone
    by_cases hbusy : busy rt.tasks generation = true
    · right
      dsimp only
      rw [run_update_bind, run_pure, markGenerations_frame]
      show generation ∈ settled.remaining
      rw [settle_ok hsettled, List.nil_append, hsplit]
      exact List.mem_filter.2 ⟨by simp, hbusy⟩
    · refine .inl ⟨fun earlier hmem => hnone earlier (by simp [hmem]), by simpa using hbusy, ?_⟩
      exact (hnone generation (by simp)).resolve_left hbusy

/-- The sender is reloaded while a task runs on it, and the lease of that task expires. -/
def reloadedSender : CoreRuntime :=
  after [.submitTask (Task.new "t.1" "p.effect" .null), .claimReadyDispatches keenPolicy (some 2),
    .reloadWithAsyncHandlers obliging storedOrder
      (planOf 2 [pluginOf kernelRunner .core, pluginOf senderRunner .effect])
      [kernelRunner, senderRunner] [],
    .claimReadyDispatches keenPolicy none] senderRuntime

/-- The old generation drains; its runners refuse to be disposed of, and it is tracked no more. -/
theorem draining_generation_lost : Run (fun _ _ => True) reloadedSender ∧
    reloadedSender.drainingGenerations.map (·.registryGeneration) = [1] ∧
    ((settleDrainingGenerations stuckCalls).run reloadedSender).1.error?.map (·.code) =
      some "plugin.failed" ∧
    ((settleDrainingGenerations stuckCalls).run
      reloadedSender).2.drainingGenerations.map (·.registryGeneration) = [] := by
  exact ⟨(Run.of_boot _).after _ fun _ _ _ => trivial, by decide +kernel, by decide +kernel,
    by decide +kernel⟩

end CoreRuntime

end MutsukiRuntime
