/-
  WHAT THE TASK INTERFACE KEEPS: submission, cancellation, expiry, wake-up.

  Cancellation is the one that can fail half way.  `cancelTaskById_steady` measures
  the recursion by the tasks that are still live, so the fuel `cancelTaskHandle`
  gives is enough.  It wakes every parent it owes a wake-up provided that every link
  below the awaited child cascades (`CascadesBelow`); a link there with another policy
  makes an inner call fail after outer tasks have ended.
-/
import MutsukiRuntime.Core.Runtime.Steady

namespace MutsukiRuntime

open Std Board TaskPool Prog

namespace CoreRuntime

variable {s : Scope} {done : TaskId → Prop} {strict : Prop} {start rt : CoreRuntime}

/-! ## Cancellation -/

/-- What cancellation may do: end tasks, wake and unlink, but neither submit, complete nor
    link. -/
abbrev cancelScope : Scope := { ids := fun _ => True }

abbrev Cancels (strict : Prop) (done : TaskId → Prop) (start rt : CoreRuntime) : Prop :=
  Steady cancelScope strict done start rt

/-- The links a cancellation of `taskId` would follow beyond its own all cascade. -/
def CascadesBelow (b : Board) (taskId : TaskId) : Prop :=
  ∀ taskAwait, b.waits taskId = some taskAwait → taskAwait.cancelPolicy = .cascade →
    ∀ below, b.Below taskAwait.child.taskId below → below.cancelPolicy = .cascade

theorem Cancels.waits (h : Cancels strict done start rt) (parent : TaskId)
    (taskAwait : TaskAwait) (hw : rt.tasks.board.waits parent = some taskAwait) :
    start.tasks.board.waits parent = some taskAwait :=
  (h.pool.reach.waits_links hw).resolve_right fun hf => hf

theorem Cancels.live (h : Cancels strict done start rt) {id : TaskId}
    (hl : rt.tasks.board.Live id) : start.tasks.board.Live id :=
  (h.pool.reach.live hl).resolve_right fun ⟨_, _, hf⟩ => hf

variable {taskId : TaskId}

theorem live_of_isLiveStatus (h : isLiveStatus (rt.taskStatus taskId) = true) :
    rt.tasks.board.Live taskId := by
  cases hst : rt.taskStatus taskId with
  | none =>
    rw [hst] at h
    cases h
  | some status =>
    obtain ⟨r, hr, hs⟩ := taskStatus_eq_some.1 hst
    rw [hst] at h
    refine ⟨r, hr, ?_⟩
    rw [hs]
    simpa [isLiveStatus] using h

theorem mem_awaitsForParent (h : Good rt.tasks) {taskAwait : TaskAwait} :
    taskAwait ∈ rt.tasks.awaitsForParent taskId ↔ rt.tasks.board.waits taskId = some taskAwait :=
  (h.links.waits_iff taskId taskAwait).symm

/-- An inner failure needs a link that does not cascade; without one, only the outermost call
    can fail, and it fails before it has done anything. -/
theorem cancelTaskById_steady (fuel : Nat) {live : List TaskId} (h : Cancels strict done rt rt)
    (hlive : ∀ id, rt.tasks.board.Live id → id ∈ live) (hfuel : live.length < fuel)
    (hcascade : strict → CascadesBelow rt.tasks.board taskId) :
    wp (cancelTaskById fuel taskId) (fun _ => Cancels strict done rt)
      (fun _ rt' => Cancels strict done rt rt' ∧ (strict → rt' = rt ∧
        ¬ (rt.tasks.board.Live taskId ∧ ∀ taskAwait,
          rt.tasks.board.waits taskId = some taskAwait → taskAwait.cancelPolicy = .cascade)))
      rt := by
  induction fuel generalizing live taskId done rt with
  | zero => exact absurd hfuel (Nat.not_lt_zero _)
  | succ fuel ih =>
    unfold cancelTaskById
    rw [wp_bind, wp_read, wp_ite]
    constructor
    · intro hany
      obtain ⟨taskAwait, hmem, hpolicy⟩ := List.any_eq_true.1 hany
      refine ⟨h, fun _ => ⟨rfl, fun ⟨_, hall⟩ => ?_⟩⟩
      simp [hall taskAwait ((mem_awaitsForParent h.good).1 hmem)] at hpolicy
    · intro hall
      have hpolicy : ∀ taskAwait ∈ rt.tasks.awaitsForParent taskId,
          taskAwait.cancelPolicy = .cascade := by
        intro taskAwait hmem
        by_contra hne
        exact hall (List.any_eq_true.2 ⟨taskAwait, hmem, by simpa using hne⟩)
      have hself : Settled (Routes cancelScope fun id => done id ∨ id = taskId) rt.tasks.board
          rt.tasks := settled_self h.good
      rw [wp_bind, wp_onPool]
      refine wp_mono (terminalByCore_ends hself (fun _ => trivial) trivial
        ⟨trivial, .inr rfl⟩ rfl (by decide) none "cancel" rt.currentStep) ?_ ?_
      · intro _ pool ⟨hp, hwas, hended⟩
        have hcancelled := h.withPool hp fun _ hd => .inl hd
        rw [wp_bind]
        refine wp_mono (hcancelled.restart.recordEvent _ _ _ _ _) ?_ (fun _ _ he => he)
        intro _ rt₁ h₁
        rw [wp_bind]
        refine wp_mono (wp_forEach (fun rest rt' =>
          (∀ taskAwait ∈ rest, taskAwait ∈ rt.tasks.awaitsForParent taskId) ∧
          Cancels strict (fun id => done id ∨ id = taskId) rt rt' ∧
          ¬ rt'.tasks.board.Live taskId)
          ⟨fun _ hmem => hmem, hcancelled.trans h₁, fun hl => hended (Cancels.live h₁ hl)⟩ ?_) ?_
          (fun _ _ he => he)
        · intro taskAwait rest rt' ⟨hrest, h', hdead⟩
          have hmem := hrest taskAwait (by simp)
          have hwaits := (mem_awaitsForParent h.good).1 hmem
          have htail : ∀ a ∈ rest, a ∈ rt.tasks.awaitsForParent taskId := fun a ha =>
            hrest a (by simp [ha])
          rw [wp_bind, wp_read, wp_ite]
          constructor
          · intro hchild
            -- the links below the child were there at the start, and they all cascade
            have hbelow : strict → ∀ below, rt'.tasks.board.Below taskAwait.child.taskId below →
                below.cancelPolicy = .cascade := fun hs below hb =>
              hcascade hs taskAwait hwaits (hpolicy taskAwait hmem) below
                (hb.mono (Cancels.waits h'))
            have hlive' : ∀ id, rt'.tasks.board.Live id → id ∈ live.filter (· ≠ taskId) := by
              intro id hl
              have hne : id ≠ taskId := fun he => hdead (he ▸ hl)
              simpa [hne] using hlive id (Cancels.live h' hl)
            have hless : (live.filter (· ≠ taskId)).length < live.length :=
              List.length_filter_lt_length_iff_exists.2 ⟨taskId, hlive taskId hwas, by simp⟩
            refine wp_mono (ih h'.restart hlive' (by omega) fun hs a ha _ below hb =>
              hbelow hs below (.child ha hb)) ?_ ?_
            · intro _ rt'' h''
              exact ⟨htail, h'.trans h'', fun hl => hdead (Cancels.live h'' hl)⟩
            · intro _ rt'' ⟨h'', herr⟩
              have hno : ¬ strict := fun hs => (herr hs).2
                ⟨live_of_isLiveStatus hchild, fun a ha => hbelow hs a (.own ha)⟩
              exact ⟨(h'.trans h'').settle fun hs => absurd hs hno, fun hs => absurd hs hno⟩
          · intro _
            exact ⟨htail, h', hdead⟩
        · intro _ rt' ⟨_, h', _⟩
          rw [wp_bind]
          refine wp_total (wakeTasksWaitingOn_steady h' taskId) ?_
          intro _ rt'' h''
          exact h''.settle fun _ _ _ _ hd => hd.1.resolve_right hd.2
      · rintro _ pool ⟨he, hdead⟩
        rw [he]
        exact ⟨h, fun _ => ⟨rfl, fun hc => hdead hc.1⟩⟩

theorem mem_keys_of_live {id : TaskId} (h : rt.tasks.board.Live id) : id ∈ rt.tasks.tasks.keys := by
  obtain ⟨r, hr, -⟩ := h
  rw [ExtTreeMap.mem_keys, Buckets.mem_iff_exists]
  exact ⟨r, hr⟩

theorem length_keys_lt (rt : CoreRuntime) :
    rt.tasks.tasks.keys.length < rt.tasks.tasks.size + 1 := by
  rw [ExtTreeMap.length_keys]
  omega

theorem cancelTaskHandle_steady (h : Cancels strict done rt rt) {handle : TaskHandle}
    (hcascade : strict → CascadesBelow rt.tasks.board handle.taskId) :
    wp (cancelTaskHandle handle) (fun _ => Cancels strict done rt)
      (fun _ => Cancels strict done rt) rt := by
  unfold cancelTaskHandle
  rw [wp_bind, wp_read]
  exact wp_mono (cancelTaskById_steady _ h (fun _ => mem_keys_of_live) (length_keys_lt rt)
    hcascade) (fun _ _ h' => h') (fun _ _ h' => h'.1)

/-! ## The other calls -/

theorem Steady.mono {s' : Scope} (h : Steady s strict done start rt) (hle : s.Le s') :
    Steady s' strict done start rt :=
  { h with
    pool := ⟨h.pool.wf, h.pool.reach.mono fun _ hm => hm.mono hle fun _ hd => hd⟩
    effects := fun task ht => (h.effects task ht).imp_right (hle.effects task) }

/-- Expiry and dead-lettering: a terminal transition of the core, its event, its wake-up. -/
theorem terminalByCore_steady (h : Steady s strict noneTaken start rt) (hid : s.ids taskId)
    {status : TaskStatus} (hstatus : isTerminalStatus status = true) (hne : status ≠ .completed)
    (failure : Option RuntimeError) (action : String) (name : String)
    (cause : Option RuntimeError) :
    wp (do
        onPool (TaskPool.terminalByCore taskId status failure action rt.currentStep)
        recordTaskTerminalEvent taskId name cause
        let _ ← wakeTasksWaitingOn taskId)
      (fun _ => Steady s strict noneTaken start) (fun _ rt' => rt' = rt) rt := by
  have hself : Settled (Routes s (only taskId)) rt.tasks.board rt.tasks := settled_self h.good
  rw [wp_bind]
  refine wp_mono (h.onPool (terminalByCore_tracks hself (fun _ => trivial) trivial
    ⟨hid, rfl⟩ hstatus hne failure action rt.currentStep) fun _ hd => hd.elim) ?_ (fun _ _ he => he)
  intro _ rt' h'
  exact reportFinished_steady h' taskId rfl name cause fun _ _ h'' => h''

theorem keeps_expireTask (hid : s.ids taskId) (reason : String) :
    Keeps (Steady s strict noneTaken start) (expireTask taskId reason) :=
  .read_bind fun _ h => wp_mono (terminalByCore_steady h hid rfl (by decide) _ "expire" _ _)
    (fun _ _ h' => h') (fun _ _ he => he ▸ h)

theorem keeps_deadLetterTask (hid : s.ids taskId) (reason : String) :
    Keeps (Steady s strict noneTaken start) (deadLetterTask taskId reason) :=
  .read_bind fun _ h => wp_mono (terminalByCore_steady h hid rfl (by decide) _ "dead_letter" _ _)
    (fun _ _ h' => h') (fun _ _ he => he ▸ h)

theorem keeps_wakeTaskHandle (handle : TaskHandle) :
    Keeps (Steady s strict done start) (wakeTaskHandle handle) := by
  refine .read_bind fun rt h => ?_
  have hself : Settled (Routes s done) rt.tasks.board rt.tasks := settled_self h.good
  exact wp_mono (h.onPool (wake_tracks hself trivial trivial rt.currentStep) fun _ hd => hd)
    (fun _ _ h' => h') (fun _ _ he => he ▸ h)

theorem keeps_submitBatch {batch : TaskBatch} (hnew : ∀ task ∈ batch.tasks, Accepts s start task) :
    Keeps (Steady s strict noneTaken start) (submitBatch batch) := by
  refine .bind .read fun rt => .bind (.lift _) fun _ => ?_
  cases duplicateTask rt.tasks [] batch.tasks with
  | some taskId => exact .fail _
  | none =>
    refine .bind (.foldEach fun taskIds task hmem => .bind ?_ fun _ => .pure _) fun _ =>
      .bind .read fun _ => .lift _
    exact .of_restore fun _ h => enqueueTask_steady h (hnew task hmem)

theorem keeps_submitTask {task : Task} (hnew : Accepts s start task) :
    Keeps (Steady s strict noneTaken start) (submitTask task) := by
  refine .bind (keeps_submitBatch fun t ht => ?_) fun handles => ?_
  · rw [List.mem_singleton.1 ht]
    exact hnew
  · cases handles with
    | nil => exact .fail _
    | cons handle _ => exact .pure handle

/-- The task `submit_targeted_task` makes for a binding. -/
def targetedTask (taskId : TaskId) (binding : HandlerBinding) (payload : Value) : Task :=
  { Task.new taskId binding.targetProtocolId payload with
    targetBindingId := some binding.bindingId
    runnerHint := binding.targetRunnerHint }

theorem keeps_submitTargetedTask (bindingId : BindingId) {payload : Value}
    (hnew : ∀ binding, Accepts s start (targetedTask taskId binding payload)) :
    Keeps (Steady s strict noneTaken start) (submitTargetedTask taskId bindingId payload) := by
  refine .bind .read fun rt => ?_
  cases rt.handlerBindings.find? (·.bindingId == bindingId) with
  | none => exact .fail _
  | some binding => exact keeps_submitTask (hnew binding)

end CoreRuntime

end MutsukiRuntime
