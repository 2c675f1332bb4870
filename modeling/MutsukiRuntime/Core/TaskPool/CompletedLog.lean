/-
  COMPLETIONS.  The log of completed tasks of a board, against the moves that led to it.
-/
import MutsukiRuntime.Core.TaskPool.Board

namespace MutsukiRuntime

theorem Change.Allows.completes {r r' : TaskRecord} {c : Change} (h : c.Allows r r')
    (hdone : r'.status = .completed) : ∃ lease, c = .complete lease := by
  cases c with
  | complete lease => exact ⟨lease, rfl⟩
  | claim | takeOver => cases hdone.symm.trans h.2.1
  | release => rcases h.2 with h | h | h <;> cases hdone.symm.trans h
  | wake | rebind => cases hdone.symm.trans h.2
  | reject | finish => exact absurd hdone h.2.2

namespace Board

/-- The running task that a move completes, and what it leaves. -/
structure Completion (b b' : Board) (m : Move) (id : TaskId) (lease : TaskLease)
    (r r' : TaskRecord) : Prop where
  move : m = .change id (.complete lease)
  stored : b.tasks id = some r
  running : r.status = .running
  lease : r.lease = some lease
  same : SameTask false r r'
  done : r'.status = .completed
  tasks : b'.tasks = Function.update b.tasks id (some r')
  completed : b'.completed = r'.task :: b.completed

theorem Step.completed {m : Move} {b b' : Board} (hs : Step m b b') : (b'.completed = b.completed ∧
      ∀ id v, b'.tasks id = some v → v.status = .completed → b.tasks id = some v) ∨
    ∃ id lease r r', Completion b b' m id lease r r' := by
  by_cases hcompletes : ∃ id lease, m = .change id (.complete lease)
  · obtain ⟨id, lease, rfl⟩ := hcompletes
    cases hs with
    | @change _ _ r r' _ hr hc hok hsame =>
      refine .inr ⟨id, lease, r, r', rfl, hr, hc.1, hc.2.1, hsame, hc.2.2, rfl, ?_⟩
      show completedTasks r' ++ b.completed = _
      rw [completedTasks, if_pos hc.2.2]
      rfl
  · refine .inl ⟨?_, fun id v hv hdone => ?_⟩
    · cases hs with
      | @change _ id r r' c hr hc hok hsame =>
        have hnot : r'.status ≠ .completed := by
          intro hdone
          obtain ⟨lease, rfl⟩ := hc.completes hdone
          exact hcompletes ⟨id, lease, rfl⟩
        show completedTasks r' ++ b.completed = _
        rw [completedTasks, if_neg hnot]
        rfl
      | _ => rfl
    · rcases hs.record hv with hold | ⟨-, -, -, hready, -⟩ | ⟨c, r, hmove, hr, hc, -, -⟩
      · exact hold
      · cases hdone.symm.trans hready
      · obtain ⟨lease, rfl⟩ := hc.completes hdone
        rcases hmove with rfl | rfl
        · exact absurd ⟨id, lease, rfl⟩ hcompletes
        · cases hs with
          | sweep _ f ended hf hlive => rcases hlive with hends | hends <;> cases hends

/-! ## Histories -/

def empty : Board where
  tasks _ := none
  waits _ := none
  log := []
  completed := []

/-- The moves that led from the empty board to this one, the latest first. -/
inductive Told : List Move → Board → Prop where
  | empty : Told [] empty
  | move {m : Move} {moves : List Move} {b b' : Board} (h : Told moves b) (hs : Step m b b') :
      Told (m :: moves) b'

def submitsTask (id : TaskId) : Move → Bool
  | .submit task => task.taskId == id
  | _ => false

section Told

variable {moves : List Move} {b b' : Board}

theorem Told.reach {allowed : Move → Prop} (h : ∃ moves, Told moves b)
    (hr : Reach allowed b b') : ∃ moves, Told moves b' :=
  hr.invariant (I := fun b => ∃ moves, Told moves b)
    (fun m _ _ _ hs ⟨moves, h⟩ => ⟨m :: moves, h.move hs⟩) h

theorem Told.wf (h : Told moves b) : Wf b := by
  induction h with
  | empty => constructor <;> intro _ _ hr <;> cases hr
  | move _ hs ih => exact ih.step hs

theorem Told.logged (h : Told moves b) {id : TaskId} {r : TaskRecord} (hr : b.tasks id = some r)
    (hdone : r.status = .completed) : r.task ∈ b.completed := by
  induction h generalizing id r with
  | empty => cases hr
  | move _ hs ih =>
    rcases hs.completed with ⟨hlog, hkept⟩ | ⟨id', lease, v, v', hc⟩
    · rw [hlog]
      exact ih (hkept id r hr hdone) hdone
    · rw [hc.completed]
      rw [hc.tasks, Function.update_apply] at hr
      split at hr
      · cases hr
        exact List.mem_cons_self
      · exact List.mem_cons_of_mem _ (ih hr hdone)

theorem Told.completions_le (h : Told moves b) (id : TaskId) :
    b.completed.countP (·.taskId == id) ≤ moves.countP (submitsTask id) ∧
      ∀ r, b.tasks id = some r → r.status ≠ .completed →
        b.completed.countP (·.taskId == id) < moves.countP (submitsTask id) := by
  induction h with
  | empty => exact ⟨Nat.le_refl 0, fun _ hr => by cases hr⟩
  | @move m moves b b' h hs ih =>
    have hmono : moves.countP (submitsTask id) ≤ (m :: moves).countP (submitsTask id) := by
      rw [List.countP_cons]
      exact Nat.le_add_right _ _
    rcases hs.completed with ⟨hlog, -⟩ | ⟨id', lease, v, v', hc⟩
    · rw [hlog]
      refine ⟨ih.1.trans hmono, fun r hr hopen => ?_⟩
      rcases hs.record hr with hold | ⟨rfl, -, hid, -⟩ | ⟨c, r₀, -, hr₀, hallows, -⟩
      · exact (ih.2 r hold hopen).trans_le hmono
      · have hsubmit : submitsTask id (.submit r.task) = true := by simp [submitsTask, hid]
        rw [List.countP_cons, if_pos hsubmit]
        exact Nat.lt_succ_of_le ih.1
      · refine (ih.2 r₀ hr₀ fun hdone => ?_).trans_le hmono
        have hlive := hallows.source_live
        rw [hdone] at hlive
        cases hlive
    · have hkeyed : v'.task.taskId = id' := hc.same.taskId.trans (h.wf.keyed id' v hc.stored)
      rw [hc.completed, List.countP_cons, hkeyed]
      by_cases hid : id' = id
      · subst hid
        have hopen : v.status ≠ .completed := by
          rw [hc.running]
          exact TaskStatus.noConfusion
        have hlt := ih.2 v hc.stored hopen
        simp only [beq_self_eq_true, if_true]
        refine ⟨hlt.trans_le hmono, fun r hr hnot => ?_⟩
        rw [hc.tasks, Function.update_self] at hr
        cases hr
        exact absurd hc.done hnot
      · have hother : ¬ ((id' == id) = true) := by simpa using hid
        rw [if_neg hother, Nat.add_zero]
        refine ⟨ih.1.trans hmono, fun r hr hopen => ?_⟩
        rw [hc.tasks, Function.update_of_ne fun he => hid he.symm] at hr
        exact (ih.2 r hr hopen).trans_le hmono

end Told

end Board

end MutsukiRuntime
