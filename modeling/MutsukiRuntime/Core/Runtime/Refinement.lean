/-
  THE RUNTIME AGAINST THE BOARD.  Whatever the public calls of a run are and whether they return
  a value or an error, what they do to the tasks is a run of moves of the abstract board, and
  none of these moves gives a task that runs to a second claim.
-/
import MutsukiRuntime.Core.Runtime.History

namespace MutsukiRuntime

open Board TaskPool Prog

/-- The moves of the board but the take-over of a task that runs. -/
def Move.isFair : Move → Prop
  | .change _ (.takeOver _) | .sweep (.takeOver _) => False
  | _ => True

namespace CoreRuntime

variable {s : Scope} {strict : Prop} {admin : Bool} {rt start : CoreRuntime}

theorem fair_of_routes {ended : TaskId → Prop} {m : Move} (h : Routes s ended m) : m.isFair := by
  cases m with
  | change id c => cases c <;> first | exact trivial | exact h
  | sweep c => exact h.elim
  | _ => exact trivial

theorem Hop.refines (h : Hop s strict admin start rt) :
    Reach Move.isFair start.tasks.board rt.tasks.board := by
  cases h with
  | routed h => exact h.pool.reach.mono fun _ => fair_of_routes
  | later | configure | registry => exact .refl
  | claim _ _ _ hp =>
    refine hp.reach.mono ?_
    rintro _ ⟨id, lease, rfl, -⟩
    exact trivial
  | kernel _ _ _ _ hb => exact hb.pool.reach.mono fun _ => fair_of_routes
  | stop _ _ hp =>
    refine hp.reach.mono fun m hm => ?_
    unfold Aborts at hm
    split at hm
    all_goals first | exact trivial | exact hm.elim
  | plan _ _ hp =>
    refine hp.1.reach.mono ?_
    rintro _ rfl
    exact trivial

theorem Hops.refines (h : Hops s strict admin start rt) :
    Reach Move.isFair start.tasks.board rt.tasks.board := by
  induction h with
  | refl => exact .refl
  | tail _ hop ih => exact ih.trans hop.refines

/-- Every state of a run has a board that fair moves lead to from the empty one, and a call panics
    in it only where `Call.Panics` says: for a runner with wide batches, or for a step that is no
    `u64`. -/
theorem runs_refine_board {allowed : CoreRuntime → Call → Prop} (h : Run allowed rt) :
    Reach Move.isFair ({} : TaskPool).board rt.tasks.board ∧
    ∀ (call : Call) (site : String), (call.exec.run rt).1 = .panic site → call.Panics rt site := by
  constructor
  · induction h with
    | boot h =>
      obtain ⟨_, -, rfl⟩ := boot_eq_ok h
      exact .refl
    | @call rt hrun call _ ih =>
      have hmoved := exec_state_moved call hrun.inOrder (within_anyScope call) False.elim
      exact ih.trans (Hops.refines hmoved.hops)
  · exact fun call site => wlp_site (exec_moved call h.inOrder (within_anyScope call) False.elim)

/-- A task is submitted and claimed; the runners have narrow batches, so no pass panics. -/
theorem runs_refine_board_claimed :
    Reach Move.isFair ({} : TaskPool).board claimedRuntime.tasks.board ∧
    ∀ decideSchedule leaseExpiresAt site,
      ((Call.claimReadyDispatches decideSchedule leaseExpiresAt).exec.run claimedRuntime).1 ≠
        .panic site := by
  have hrun : Run (fun _ _ => True) claimedRuntime :=
    run_sampleRuntime.after _ fun _ _ _ => trivial
  obtain ⟨hreach, hpanics⟩ := runs_refine_board hrun
  have hnarrow : ∀ d ∈ claimedRuntime.registry.descriptorSnapshot,
      24 * (d.batch.maxBatchEntries * d.concurrency.maxInflightBatches) ≤ isizeMax := by
    decide +kernel
  refine ⟨hreach, fun decideSchedule leaseExpiresAt site hsite => ?_⟩
  obtain ⟨d, hd, -, hwide⟩ := hpanics (.claimReadyDispatches decideSchedule leaseExpiresAt) _ hsite
  exact absurd (hnarrow d hd) (Nat.not_le.2 hwide)

/-- After the last step of a `u64` a tick panics. -/
example : ((Call.tickOnce (answering fun taskId => { taskId })).exec.run
    (after [.claimReadyDispatchesAtStep u64Max keenPolicy none] sampleRuntime)).1.site? =
      some addOverflow := by decide +kernel

end CoreRuntime

end MutsukiRuntime
