/-
  DERIVED TASKS: what applying the outputs of a result does to the pool, once
  their ids have been found free.

  * `Derives rejected pool tasks pool'`: each task is stored ready, or, if it is
    `rejected`, stored and ended at once; other live records are untouched.
-/
import MutsukiRuntime.Lib.Checks
import MutsukiRuntime.Core.TaskPool.Edits
import MutsukiRuntime.Core.TaskPool.Fencing
import MutsukiRuntime.Core.Runtime.Steady

namespace MutsukiRuntime

open Std Buckets Board Prog List

variable {tasks : List Task} {task : Task}

namespace TaskPool

variable {pool pool' pool'' : TaskPool}

/-! ## Derived tasks -/

/-- The record is as it was, or the history has dropped it; a live record is not dropped. -/
def Kept (pool pool' : TaskPool) (id : TaskId) : Prop :=
  pool'.tasks[id]? = pool.tasks[id]? ∨ (pool'.tasks[id]? = none ∧ ¬ pool.board.Live id)

variable {id : TaskId}

theorem Kept.not_live (h : Kept pool pool' id) (hid : ¬ pool.board.Live id) :
    ¬ pool'.board.Live id := by
  rintro ⟨r, hr, hlive⟩
  rcases h with he | ⟨he, -⟩
  · exact hid ⟨r, he.symm.trans hr, hlive⟩
  · cases he.symm.trans hr

variable {r : TaskRecord}

theorem Kept.record (h : Kept pool pool' id) (hr : pool.tasks[id]? = some r)
    (hlive : isTerminalStatus r.status = false) :
    pool'.tasks[id]? = some r := by
  rcases h with he | ⟨-, hdead⟩
  · exact he.trans hr
  · exact absurd ⟨r, hr, hlive⟩ hdead

theorem Kept.trans (h : Kept pool pool' id) (h' : Kept pool' pool'' id) : Kept pool pool'' id := by
  rcases h' with he' | ⟨he', hdead'⟩
  · rcases h with he | ⟨he, hdead⟩
    · exact .inl (he'.trans he)
    · exact .inr ⟨he'.trans he, hdead⟩
  · refine .inr ⟨he', fun hlive => ?_⟩
    obtain ⟨r, hr, hl⟩ := hlive
    exact hdead' ⟨r, h.record hr hl, hl⟩

structure Derives (refused : Task → Prop) (pool : TaskPool) (tasks : List Task)
    (pool' : TaskPool) : Prop where
  others : ∀ id, (∀ t ∈ tasks, t.taskId ≠ id) → Kept pool pool' id
  stored : ∀ t ∈ tasks, ¬ refused t → ∃ r, pool'.tasks[t.taskId]? = some r ∧
    isTerminalStatus r.status = false ∧
    ∀ parent handle, awaitChildMatches parent r.task handle = awaitChildMatches parent t handle
  ended : ∀ t ∈ tasks, refused t → ¬ pool'.board.Live t.taskId
  sequence : pool'.nextSequence = pool.nextSequence + tasks.length
  known : ∀ id, pool'.containsTaskId id = true →
    pool.containsTaskId id = true ∨ ∃ t ∈ tasks, t.taskId = id

variable {refused : Task → Prop}

theorem Derives.nil : Derives refused pool [] pool :=
  ⟨fun _ _ => .inl rfl, by simp, by simp, rfl, fun _ h => .inl h⟩

theorem Derives.append {later : List Task} (h : Derives refused pool tasks pool')
    (h' : Derives refused pool' later pool'')
    (hne : ∀ t ∈ tasks, ∀ t' ∈ later, t'.taskId ≠ t.taskId) :
    Derives refused pool (tasks ++ later) pool'' where
  others := by
    intro id hid
    have hfirst := h.others id fun t ht => hid t (mem_append_left _ ht)
    exact hfirst.trans (h'.others id fun t ht => hid t (mem_append_right _ ht))
  stored := by
    intro t ht hr
    rcases mem_append.1 ht with ht | ht
    · obtain ⟨r, hstored, hlive, hmatch⟩ := h.stored t ht hr
      exact ⟨r, (h'.others t.taskId (hne t ht)).record hstored hlive, hlive, hmatch⟩
    · exact h'.stored t ht hr
  ended := by
    intro t ht hr
    rcases mem_append.1 ht with ht | ht
    · exact (h'.others t.taskId (hne t ht)).not_live (h.ended t ht hr)
    · exact h'.ended t ht hr
  sequence := by
    rw [h'.sequence, h.sequence, length_append]
    omega
  known := by
    intro id hid
    rcases h'.known id hid with hid | ⟨t, ht, he⟩
    · rcases h.known id hid with hid | ⟨t, ht, he⟩
      · exact .inl hid
      · exact .inr ⟨t, mem_append_left _ ht, he⟩
    · exact .inr ⟨t, mem_append_right _ ht, he⟩

theorem Derives.cons (h : Derives refused pool [task] pool')
    (h' : Derives refused pool' tasks pool'') (hne : ∀ t ∈ tasks, t.taskId ≠ task.taskId) :
    Derives refused pool (task :: tasks) pool'' := by
  refine h.append h' fun t ht t' ht' => ?_
  rw [mem_singleton.1 ht]
  exact hne t' ht'

/-- The handle of an await cannot tell the two tasks apart. -/
def SameHandle (task bound : Task) : Prop :=
  bound.taskId = task.taskId ∧
    ∀ parent handle, awaitChildMatches parent bound handle = awaitChildMatches parent task handle

theorem newRecord_sameHandle {bound : Task} (h : SameHandle task bound) (currentStep : Nat) :
    SameHandle task (pool.newRecord bound currentStep).task := by
  refine ⟨(newRecord_taskId pool bound currentStep).trans h.1, fun parent handle => ?_⟩
  rw [← h.2 parent handle]
  unfold newRecord
  split <;> rfl

theorem known_enqueued (h : (pool.enqueued r).containsTaskId id = true) :
    pool.containsTaskId id = true ∨ r.task.taskId = id := by
  rcases containsTaskId_iff.1 h with hmem | hmem
  · rcases ExtTreeMap.mem_insert.1 hmem with he | hold
    · exact .inr (Std.compare_eq_iff_eq.1 he)
    · exact .inl (containsTaskId_iff.2 (.inl hold))
  · exact .inl (containsTaskId_iff.2 (.inr hmem))

theorem getElem?_enqueued (r : TaskRecord) (id : TaskId) :
    (pool.enqueued r).tasks[id]? = if r.task.taskId = id then some r else pool.tasks[id]? :=
  getElem?_insert_ite _ _ _ _

theorem Derives.enqueued (hr : SameHandle task r.task) (hlive : isTerminalStatus r.status = false)
    (htask : ¬ refused task) :
    Derives refused pool [task] (pool.enqueued r) where
  others := by
    intro id hid
    left
    rw [getElem?_enqueued, if_neg]
    rw [hr.1]
    exact hid task (mem_singleton.2 rfl)
  stored := by
    intro t ht _
    rw [mem_singleton.1 ht, getElem?_enqueued, if_pos hr.1]
    exact ⟨r, rfl, hlive, hr.2⟩
  ended := by
    intro t ht hrefused
    rw [mem_singleton.1 ht] at hrefused
    exact absurd hrefused htask
  sequence := rfl
  known := fun id hid => (known_enqueued hid).imp_right fun he =>
    ⟨task, mem_singleton.2 rfl, hr.1.symm.trans he⟩

theorem Derives.rejected (hr : SameHandle task r.task) (failure : RuntimeError)
    (htask : refused task)
    (htidy : Reach Tidies
      ((pool.enqueued r).board.put task.taskId (TaskPool.rejected failure r)) pool'.board)
    (hshrinks : Shrinks (pool.enqueued r) pool') : Derives refused pool [task] pool' := by
  obtain ⟨-, -, hkept⟩ := htidy.tidied
  have hput : ∀ id,
      ((pool.enqueued r).board.put task.taskId (TaskPool.rejected failure r)).tasks id =
      if id = task.taskId then some (TaskPool.rejected failure r)
      else (pool.enqueued r).tasks[id]? :=
    fun id => Function.update_apply _ _ _ _
  refine ⟨?_, ?_, ?_, ?_, ?_⟩
  · intro id hid
    have hne : id ≠ task.taskId := fun he => hid task (mem_singleton.2 rfl) he.symm
    have hold : ((pool.enqueued r).board.put task.taskId (TaskPool.rejected failure r)).tasks id =
        pool.tasks[id]? := by
      rw [hput, if_neg hne, getElem?_enqueued, if_neg]
      rw [hr.1]
      exact hne.symm
    rcases hkept id with he | ⟨he, hdead⟩
    · exact .inl (he.trans hold)
    · refine .inr ⟨he, ?_⟩
      rintro ⟨v, hv, hlive⟩
      exact hdead ⟨v, hold.trans hv, hlive⟩
  · intro t ht hnot
    rw [mem_singleton.1 ht] at hnot
    exact absurd htask hnot
  · intro t ht _
    rw [mem_singleton.1 ht]
    refine htidy.not_live ?_
    rintro ⟨v, hv, hlive⟩
    rw [hput, if_pos rfl] at hv
    cases hv
    cases hlive
  · exact hshrinks.sequence
  · intro id hid
    exact (known_enqueued (hshrinks.known id hid)).imp_right fun he =>
      ⟨task, mem_singleton.2 rfl, hr.1.symm.trans he⟩

end TaskPool

namespace CoreRuntime

open TaskPool

variable {rt : CoreRuntime}

/-- A task the runtime rejects as soon as it is stored: it needs a deprecated surface. -/
def Refuses (rt : CoreRuntime) (task : Task) : Prop := (rt.deprecatedSurface task).isSome = true

instance (task : Task) : Decidable (rt.Refuses task) := inferInstanceAs (Decidable (_ = _))

theorem bindGeneration_sameHandle (task : Task) : SameHandle task (rt.bindGeneration task) := by
  unfold bindGeneration
  split <;> exact ⟨rfl, fun _ _ => rfl⟩

theorem deprecatedSurface_bindGeneration (task : Task) :
    rt.deprecatedSurface (rt.bindGeneration task) = rt.deprecatedSurface task := by
  unfold bindGeneration
  split <;> rfl

theorem enqueueTask_derives (h : Good rt.tasks) (hopen : rt.stopState ≠ .aborted)
    (hnew : rt.tasks.containsTaskId task.taskId = false) :
    wp (enqueueTask task)
      (fun _ rt' => Derives rt.Refuses rt.tasks [task] rt'.tasks) (fun _ _ => False) rt := by
  have hbound : SameHandle task (rt.bindGeneration task) := bindGeneration_sameHandle task
  have hhandle : SameHandle task
      (rt.tasks.newRecord (rt.bindGeneration task) rt.currentStep).task :=
    newRecord_sameHandle hbound rt.currentStep
  have hgood : Good (rt.tasks.enqueued
      (rt.tasks.newRecord (rt.bindGeneration task) rt.currentStep)) :=
    h.enqueued rfl (recordOk_idle rfl rfl (by simp [newRecord]) (by simp [newRecord]))
      (by rw [hhandle.1]; exact hnew)
  have hready : (rt.tasks.newRecord (rt.bindGeneration task) rt.currentStep).status = .ready := rfl
  unfold enqueueTask
  rw [wp_bind, wp_read, wp_bind, ensureNotAborted_ok_iff.2 hopen, wp_lift_ok,
    wp_bind, wp_onPool, wp_of_run_ok (enqueueAt_run_new _ rt.currentStep
      (by rw [hbound.1]; exact hnew)), deprecatedSurface_bindGeneration, hbound.1]
  generalize rt.tasks.newRecord (rt.bindGeneration task) rt.currentStep = r at *
  cases hsurface : rt.deprecatedSurface task with
  | none =>
    have hkeep : ¬ rt.Refuses task := by
      unfold Refuses
      rw [hsurface]
      exact Bool.false_ne_true
    exact Derives.enqueued hhandle (by rw [hready]; rfl) hkeep
  | some surfaceId =>
    have hrefused : rt.Refuses task := by
      unfold Refuses
      rw [hsurface]
      rfl
    have hstored : (rt.tasks.enqueued r).tasks[task.taskId]? = some r := by
      rw [getElem?_enqueued, if_pos hhandle.1]
    unfold rejectDeprecated
    rw [wp_bind, wp_bind, wp_attempt, wp_onPool]
    have hrevises : Leads (Revises fun _ _ => True)
        (rejectReady task.taskId (deprecatedSurfaceError surfaceId)) :=
      revises_rejectReady trivial _
    refine wp_mono (wp_leads (rejectReady_rejects hgood hstored hready
      (deprecatedSurfaceError surfaceId)) hrevises) ?_ (fun _ _ hf => hf.1.elim)
    intro _ pool hdone
    obtain ⟨hsettled, hrevised⟩ := hdone
    exact Derives.rejected hhandle _ hrefused hsettled.reach hrevised.shrinks

/-- The ids `duplicate_task` finds free and distinct. -/
theorem duplicateTask_eq_none {pool : TaskPool} : duplicateTask pool [] tasks = none ↔
    (∀ t ∈ tasks, pool.containsTaskId t.taskId = false) ∧ (tasks.map (·.taskId)).Nodup := by
  refine (Checks.scan_eq_none (·.taskId) (pool.containsTaskId ·.taskId = false) (fun _ => rfl)
    fun seen task tasks => ?_).trans (by simp)
  grind [duplicateTask]

/-- Any task, link or completion, but of the attempts of no task. -/
def deriveScope : Scope :=
  { new := fun _ => True, effects := fun _ => True, completes := fun _ => True
    links := fun _ => True }

theorem enqueueAll_derives (h : Good rt.tasks) (hopen : rt.stopState ≠ .aborted)
    (runner : RunnerDescriptor) (hfree : ∀ t ∈ tasks, rt.tasks.containsTaskId t.taskId = false)
    (hnd : (tasks.map (·.taskId)).Nodup) :
    wp (Prog.forEach tasks fun task => do
        let _ ← enqueueTask task
        noteOrigin runner task)
      (fun _ rt' => Derives rt.Refuses rt.tasks tasks rt'.tasks) (fun _ _ => False) rt := by
  induction tasks generalizing rt with
  | nil => exact Derives.nil
  | cons task tasks ih =>
    rw [map_cons, nodup_cons] at hnd
    have hne : ∀ t ∈ tasks, t.taskId ≠ task.taskId := fun t ht he => hnd.1 (mem_map.2 ⟨t, ht, he⟩)
    have hself : Steady deriveScope False noneTaken rt rt := steady_self h fun hf => hf.elim
    have hfirst := enqueueTask_derives h hopen (hfree task (by simp))
    have hsteady : wp (enqueueTask task)
        (fun _ => Steady deriveScope False noneTaken rt) (fun _ rt' => rt' = rt) rt :=
      enqueueTask_steady hself fun _ _ => trivial
    rw [Prog.forEach, wp_bind, wp_bind]
    refine wp_mono (wp_and hfirst hsteady) ?_ (fun _ _ hf => hf.1)
    intro _ rt' hdone
    obtain ⟨hd, hs⟩ := hdone
    have hopen' : rt'.stopState ≠ .aborted := by
      rw [hs.stopState]
      exact hopen
    have hfree' : ∀ t ∈ tasks, rt'.tasks.containsTaskId t.taskId = false := by
      intro t ht
      rw [← Bool.not_eq_true]
      intro hknown
      rcases hd.known t.taskId hknown with hold | ⟨t', ht', he⟩
      · rw [hfree t (mem_cons_of_mem _ ht)] at hold
        cases hold
      · rw [mem_singleton.1 ht'] at he
        exact hne t ht he.symm
    have hsame : rt'.Refuses = rt.Refuses := by
      funext t
      unfold Refuses deprecatedSurface isSurfaceDeprecated
      rw [hs.surfaces, hs.protocolClasses]
    unfold noteOrigin
    rw [wp_update]
    refine wp_total (ih ?_ ?_ ?_ hnd.2) ?_
    · exact hs.good
    · exact hopen'
    · exact hfree'
    · intro _ rt'' hrest
      have hrest : Derives rt'.Refuses rt'.tasks tasks rt''.tasks := hrest
      rw [hsame] at hrest
      exact hd.cons hrest hne

end CoreRuntime

end MutsukiRuntime
