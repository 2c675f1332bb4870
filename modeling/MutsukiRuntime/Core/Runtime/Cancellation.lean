/-
  HOW FAR A CANCELLATION REACHES.

  A task waits for one child at most, so the await graph below a task is a chain that
  may run into a cycle.  `Board.Chained` says which tasks lie on it, by the live tasks
  and the cascading links that lead there.
-/
import MutsukiRuntime.Core.Runtime.PassTurns

namespace MutsukiRuntime

open Board TaskPool Prog

/-! ## The chain of a task -/

namespace Board

/-- The tasks `root` leads to, over live tasks and cascading links. -/
inductive Chained (b : Board) (root : TaskId) : TaskId → Prop where
  | root (hlive : b.Live root) : Chained b root root
  | next {id : TaskId} {taskAwait : TaskAwait} (h : Chained b root id)
      (hw : b.waits id = some taskAwait) (hpolicy : taskAwait.cancelPolicy = .cascade)
      (hlive : b.Live taskAwait.child.taskId) : Chained b root taskAwait.child.taskId

/-- A task whose link does not cascade. -/
def Uncascaded (b : Board) (id : TaskId) : Prop :=
  ∃ taskAwait, b.waits id = some taskAwait ∧ taskAwait.cancelPolicy ≠ .cascade

/-- A live task that is stored as cancelled afterwards, or not any more. -/
def BecameCancelled (b b' : Board) (id : TaskId) : Prop :=
  b.Live id ∧ ∀ r, b'.tasks id = some r → r.status = .cancelled

/-- The chain of `root` is cancelled, and every other live task is live. -/
structure ChainCancelled (b : Board) (root : TaskId) (b' : Board) : Prop where
  live_iff : ∀ id, b'.Live id ↔ b.Live id ∧ ¬ b.Chained root id
  cancelled : ∀ id, b.Chained root id → ∀ r, b'.tasks id = some r → r.status = .cancelled

/-- One task is cancelled and loses its link; terminal records may be gone. -/
structure Closes (b : Board) (taskId : TaskId) (b' : Board) : Prop where
  cancelled : ∀ r, b'.tasks taskId = some r → r.status = .cancelled
  others : ∀ id, id ≠ taskId →
    b'.tasks id = b.tasks id ∨ (b'.tasks id = none ∧ ¬ b.Live id)
  waits : b'.waits = Function.update b.waits taskId none

section Chain

variable {b b₁ b' : Board} {root id : TaskId} {taskAwait : TaskAwait}

theorem Chained.live (h : b.Chained root id) : b.Live id := by
  cases h with
  | root hlive | next h hw hpolicy hlive => exact hlive

theorem Chained.root_live (h : b.Chained root id) : b.Live root := by
  induction h with
  | root hlive => exact hlive
  | next h hw hpolicy hlive ih => exact ih

/-- A chain goes no further than a task whose link does not cascade. -/
theorem Chained.eq_root (h : b.Chained root id) (hroot : b.Uncascaded root) : id = root := by
  induction h with
  | root hlive => rfl
  | next h hw hpolicy hlive ih =>
    obtain ⟨other, hother, hne⟩ := hroot
    rw [ih, hother] at hw
    cases hw
    exact absurd hpolicy hne

theorem chained_unlinked (hlive : b.Live root) (hw : b.waits root = none) :
    b.Chained root id ↔ id = root := by
  constructor
  · intro h
    induction h with
    | root hlive => rfl
    | next h hw' hpolicy hlive ih =>
      rw [ih, hw] at hw'
      cases hw'
  · intro he
    rw [he]
    exact .root hlive

theorem Closes.not_live (h : b.Closes root b₁) : ¬ b₁.Live root := by
  intro ⟨r, hr, hlive⟩
  rw [h.cancelled r hr] at hlive
  cases hlive

theorem Closes.live_iff (h : b.Closes root b₁) : b₁.Live id ↔ b.Live id ∧ id ≠ root := by
  by_cases hid : id = root
  · rw [hid]
    exact ⟨fun hl => absurd hl h.not_live, fun hl => absurd rfl hl.2⟩
  · rcases h.others id hid with he | ⟨hnone, hdead⟩
    · simp only [Board.Live, he, ne_eq, hid, not_false_eq_true, and_true]
    · refine ⟨?_, fun hl => absurd hl.1 hdead⟩
      intro ⟨r, hr, _⟩
      rw [hnone] at hr
      cases hr

theorem Closes.waits_iff (h : b.Closes root b₁) :
    b₁.waits id = some taskAwait ↔ b.waits id = some taskAwait ∧ id ≠ root := by
  rw [h.waits, Function.update_apply]
  by_cases hid : id = root
  · simp [hid]
  · simp [hid]

theorem Closes.chained_iff (h : b.Closes root b₁) (hlive : b.Live root)
    (hw : b.waits root = some taskAwait) (hpolicy : taskAwait.cancelPolicy = .cascade) :
    b.Chained root id ↔ id = root ∨ b₁.Chained taskAwait.child.taskId id := by
  constructor
  · intro hid
    induction hid with
    | root hlive => exact .inl rfl
    | @next id below hid hbelow hcascade hchild ih =>
      by_cases hback : below.child.taskId = root
      · -- the chain has run into a cycle
        exact .inl hback
      · have hchild' : b₁.Live below.child.taskId := h.live_iff.2 ⟨hchild, hback⟩
        rcases ih with he | hrest
        · rw [he, hw] at hbelow
          cases hbelow
          exact .inr (.root hchild')
        · have hne : id ≠ root := (h.live_iff.1 hrest.live).2
          exact .inr (hrest.next (h.waits_iff.2 ⟨hbelow, hne⟩) hcascade hchild')
  · intro hid
    rcases hid with he | hrest
    · rw [he]
      exact .root hlive
    · induction hrest with
      | root hchild => exact (Chained.root hlive).next hw hpolicy (h.live_iff.1 hchild).1
      | next hrest hbelow hcascade hchild ih =>
        exact ih.next (h.waits_iff.1 hbelow).1 hcascade (h.live_iff.1 hchild).1

theorem chainCancelled_of_not_live (h : ¬ b.Live root) : b.ChainCancelled root b where
  live_iff _ := ⟨fun hl => ⟨hl, fun hc => h hc.root_live⟩, fun hl => hl.1⟩
  cancelled _ hc := absurd hc.root_live h

theorem Closes.chainCancelled_unlinked (h : b.Closes root b₁) (hlive : b.Live root)
    (hw : b.waits root = none) : b.ChainCancelled root b₁ where
  live_iff id := by rw [h.live_iff, chained_unlinked hlive hw]
  cancelled id hc r hr := by
    rw [(chained_unlinked hlive hw).1 hc] at hr
    exact h.cancelled r hr

/-- The chain of a task is cancelled with the chain of its child. -/
theorem Closes.chainCancelled {allowed : Move → Prop} (h : b.Closes root b₁)
    (hlive : b.Live root) (hw : b.waits root = some taskAwait)
    (hpolicy : taskAwait.cancelPolicy = .cascade) (hreach : Reach allowed b₁ b')
    (hnew : ∀ task, ¬ allowed (.submit task))
    (hrest : b₁.ChainCancelled taskAwait.child.taskId b') : b.ChainCancelled root b' where
  live_iff id := by
    rw [hrest.live_iff, h.live_iff, h.chained_iff hlive hw hpolicy, not_or, and_assoc]
  cancelled id hc r hr := by
    rcases (h.chained_iff hlive hw hpolicy).1 hc with he | hbelow
    · rw [he] at hr
      rcases hreach.dead_kept (fun task _ => hnew task) h.not_live with hsame | hnone
      · exact h.cancelled r (hsame.symm.trans hr)
      · cases hnone.symm.trans hr
    · exact hrest.cancelled id hbelow r hr

theorem ChainCancelled.woken {b₂ : Board} (h : b.ChainCancelled root b')
    (hreach : Reach (Routes {} noneTaken) b' b₂) : b.ChainCancelled root b₂ where
  live_iff id := by
    rw [← h.live_iff id]
    exact ⟨fun hl => hreach.live_kept (fun _ hm => hm) hl,
      fun hl => hreach.stays_live (fun hf => hf) hl⟩
  cancelled id hc r hr := by
    have hdead : ¬ b'.Live id := fun hl => ((h.live_iff id).1 hl).2 hc
    rcases hreach.dead_kept (fun _ _ hm => hm) hdead with hsame | hnone
    · exact h.cancelled id hc r (hsame.symm.trans hr)
    · cases hnone.symm.trans hr

theorem ChainCancelled.becameCancelled_iff (h : b.ChainCancelled root b') (id : TaskId) :
    b.BecameCancelled b' id ↔ b.Chained root id := by
  constructor
  · intro ⟨hlive, hcancelled⟩
    by_contra hc
    obtain ⟨r, hr, hl⟩ := (h.live_iff id).2 ⟨hlive, hc⟩
    rw [hcancelled r hr] at hl
    cases hl
  · exact fun hc => ⟨hc.live, h.cancelled id hc⟩

end Chain

end Board

/-! ## One cancellation -/

namespace CoreRuntime

section Cancellation

variable {rt : CoreRuntime}

theorem isLiveStatus_iff {taskId : TaskId} :
    isLiveStatus (rt.taskStatus taskId) = true ↔ rt.tasks.board.Live taskId := by
  refine ⟨live_of_isLiveStatus, ?_⟩
  intro ⟨r, hr, hlive⟩
  rw [taskStatus_eq_some.2 ⟨r, hr, rfl⟩]
  simp [isLiveStatus, hlive]

theorem awaitsForParent_eq {pool : TaskPool} (h : Good pool) (taskId : TaskId) :
    pool.awaitsForParent taskId = (pool.board.waits taskId).toList := by
  have hone : (pool.awaitsForParent taskId).length ≤ 1 := h.links.single taskId
  show _ = (pool.awaitsForParent taskId).head?.toList
  cases hlinks : pool.awaitsForParent taskId with
  | nil => rfl
  | cons a rest =>
    rw [hlinks, List.length_cons] at hone
    rw [List.eq_nil_of_length_eq_zero (by omega : rest.length = 0)]
    rfl

/-- What `cancelByCore` leaves of a live task. -/
theorem closes_of_reach {b b' : Board} {taskId : TaskId} {r : TaskRecord}
    (h : Reach (fun m => ∃ id, m = .forget id)
      (b.close taskId (markTerminalRecord r .cancelled none)) b') : b.Closes taskId b' := by
  obtain ⟨hwaits, htasks⟩ := h.forgotten
  refine ⟨?_, ?_, hwaits⟩
  · intro v hv
    rcases htasks taskId with he | ⟨hnone, -⟩
    · rw [hv, close_tasks, Function.update_self] at he
      cases he
      rfl
    · cases hnone.symm.trans hv
  · intro id hid
    have hsame : (b.close taskId (markTerminalRecord r .cancelled none)).tasks id = b.tasks id := by
      rw [close_tasks, Function.update_of_ne hid]
    rcases htasks id with he | ⟨hnone, hdead⟩
    · exact .inl (he.trans hsame)
    · refine .inr ⟨hnone, fun hl => hdead ?_⟩
      obtain ⟨v, hv, hlive⟩ := hl
      exact ⟨v, hsame.trans hv, hlive⟩

/-- The moves of a cancellation. -/
abbrev CancelMoves : Move → Prop := Routes cancelScope fun _ => True

/-- What a cancellation that returns has done. -/
structure CancelReturned (root : TaskId) (rt rt' : CoreRuntime) : Prop where
  settled : Settled CancelMoves rt.tasks.board rt'.tasks
  live : rt.tasks.board.Live root
  chain : rt.tasks.board.ChainCancelled root rt'.tasks.board
  cascades : ∀ id, rt.tasks.board.Chained root id → ¬ rt.tasks.board.Uncascaded id

/-- A cancellation refused at its own task: nothing is done. -/
def CancelRefused (root : TaskId) (rt rt' : CoreRuntime) : Prop :=
  rt' = rt ∧ (rt.tasks.board.Live root → rt.tasks.board.Uncascaded root)

/-- A cancellation that fails below its task: the task is not live any more. -/
structure CancelCut (root : TaskId) (rt rt' : CoreRuntime) : Prop where
  settled : Settled CancelMoves rt.tasks.board rt'.tasks
  live : rt.tasks.board.Live root
  dead : ¬ rt'.tasks.board.Live root
  cut : ∃ id, rt.tasks.board.Chained root id ∧ id ≠ root ∧ rt.tasks.board.Uncascaded id

theorem CancelReturned.woken {root : TaskId} {rt' rt'' : CoreRuntime}
    (h : CancelReturned root rt rt')
    (hwoken : Settled (Routes {} noneTaken) rt'.tasks.board rt''.tasks) :
    CancelReturned root rt rt'' where
  settled := ⟨hwoken.wf, h.settled.reach.trans (hwoken.reach.mono fun _ hm =>
    hm.mono (Scope.empty_le _) fun _ _ => trivial)⟩
  live := h.live
  chain := h.chain.woken hwoken.reach
  cascades := h.cascades

/-- The walk down from a task that has just been cancelled, given what the call on its child
    does. -/
theorem cancelChild_reaches {fuel : Nat} {root : TaskId} {rt₁ : CoreRuntime}
    (hsettled : Settled CancelMoves rt.tasks.board rt₁.tasks)
    (hcloses : rt.tasks.board.Closes root rt₁.tasks.board) (hlive : rt.tasks.board.Live root)
    (hpolicy : ¬ rt.tasks.board.Uncascaded root)
    (hrec : ∀ child, wp (cancelTaskById fuel child) (fun _ => CancelReturned child rt₁)
      (fun _ rt' => CancelRefused child rt₁ rt' ∨ CancelCut child rt₁ rt') rt₁) :
    wp (Prog.forEach (rt.tasks.board.waits root).toList fun taskAwait => do
        let rt ← Prog.read
        if isLiveStatus (rt.taskStatus taskAwait.child.taskId) then
          cancelTaskById fuel taskAwait.child.taskId
        else pure ())
      (fun _ => CancelReturned root rt) (fun _ => CancelCut root rt) rt₁ := by
  cases hw : rt.tasks.board.waits root with
  | none =>
    refine ⟨hsettled, hlive, hcloses.chainCancelled_unlinked hlive hw, ?_⟩
    intro id hc
    rw [(chained_unlinked hlive hw).1 hc]
    exact hpolicy
  | some taskAwait =>
    have hcascade : taskAwait.cancelPolicy = .cascade := by
      by_contra hne
      exact hpolicy ⟨taskAwait, hw, hne⟩
    have hchained : ∀ {id}, rt.tasks.board.Chained root id ↔
        id = root ∨ rt₁.tasks.board.Chained taskAwait.child.taskId id :=
      hcloses.chained_iff hlive hw hcascade
    -- the links below the root are those of the old board
    have huncascaded : ∀ {id}, rt₁.tasks.board.Chained taskAwait.child.taskId id →
        (rt₁.tasks.board.Uncascaded id ↔ rt.tasks.board.Uncascaded id) := by
      intro id hc
      have hne : id ≠ root := (hcloses.live_iff.1 hc.live).2
      simp only [Uncascaded, hcloses.waits_iff, hne, ne_eq, not_false_eq_true, and_true]
    have hreturn : ∀ {rt'}, Settled CancelMoves rt₁.tasks.board rt'.tasks →
        rt₁.tasks.board.ChainCancelled taskAwait.child.taskId rt'.tasks.board →
        (∀ id, rt₁.tasks.board.Chained taskAwait.child.taskId id →
          ¬ rt₁.tasks.board.Uncascaded id) → CancelReturned root rt rt' := by
      intro rt' hs hchain hcascades
      refine ⟨⟨hs.wf, hsettled.reach.trans hs.reach⟩, hlive,
        hcloses.chainCancelled hlive hw hcascade hs.reach (fun _ hm => hm) hchain, ?_⟩
      intro id hc
      rcases hchained.1 hc with he | hrest
      · rw [he]
        exact hpolicy
      · exact fun hu => hcascades id hrest ((huncascaded hrest).2 hu)
    have hcut : ∀ {rt' : CoreRuntime} {id : TaskId}, Settled CancelMoves rt₁.tasks.board rt'.tasks →
        rt₁.tasks.board.Chained taskAwait.child.taskId id → rt₁.tasks.board.Uncascaded id →
        CancelCut root rt rt' := by
      intro rt' id hs hc hu
      refine ⟨⟨hs.wf, hsettled.reach.trans hs.reach⟩, hlive, ?_, id, hchained.2 (.inr hc),
        (hcloses.live_iff.1 hc.live).2, (huncascaded hc).1 hu⟩
      exact fun hl => hcloses.not_live (hs.reach.live_kept (fun _ hm => hm) hl)
    show wp (Prog.forEach [taskAwait] _) _ _ _
    unfold Prog.forEach
    rw [wp_bind, wp_bind, wp_read, wp_ite]
    constructor
    · intro hchild
      have hchild' := live_of_isLiveStatus hchild
      refine wp_mono (hrec taskAwait.child.taskId) ?_ ?_
      · exact fun _ rt' h' => hreturn h'.settled h'.chain h'.cascades
      · intro _ rt' herr
        rcases herr with ⟨he, hu⟩ | h'
        · rw [he]
          exact hcut (settled_self hsettled.wf) (.root hchild') (hu hchild')
        · obtain ⟨id, hc, -, hu⟩ := h'.cut
          exact hcut h'.settled hc hu
    · intro hchild
      have hdead : ¬ rt₁.tasks.board.Live taskAwait.child.taskId := fun hl =>
        hchild (isLiveStatus_iff.2 hl)
      exact hreturn (settled_self hsettled.wf) (chainCancelled_of_not_live hdead)
        fun id hc => absurd hc.root_live hdead

/-- The live tasks measure the recursion: a cancelled task is not cancelled again. -/
theorem cancelTaskById_reaches (fuel : Nat) {live : List TaskId} {root : TaskId}
    (hgood : Good rt.tasks) (hlive : ∀ id, rt.tasks.board.Live id → id ∈ live)
    (hfuel : live.length < fuel) :
    wp (cancelTaskById fuel root) (fun _ => CancelReturned root rt)
      (fun _ rt' => CancelRefused root rt rt' ∨ CancelCut root rt rt') rt := by
  induction fuel generalizing live root rt with
  | zero => exact absurd hfuel (Nat.not_lt_zero _)
  | succ fuel ih =>
    unfold cancelTaskById
    rw [wp_bind, wp_read, wp_ite, awaitsForParent_eq hgood]
    constructor
    · intro hany
      obtain ⟨taskAwait, hmem, hpolicy⟩ := List.any_eq_true.1 hany
      exact .inl ⟨rfl, fun _ => ⟨taskAwait, Option.mem_toList.1 hmem, by simpa using hpolicy⟩⟩
    · intro hall
      have hpolicy : ¬ rt.tasks.board.Uncascaded root := by
        rintro ⟨taskAwait, hw, hne⟩
        exact hall (List.any_eq_true.2 ⟨taskAwait, Option.mem_toList.2 hw, by simpa using hne⟩)
      have hself : Settled CancelMoves rt.tasks.board rt.tasks := settled_self hgood
      rw [wp_bind, wp_onPool]
      by_cases hroot : rt.tasks.board.Live root
      · obtain ⟨r, hr, hterm⟩ := id hroot
        refine wp_total (terminalByCore_closes hself (fun _ => trivial) trivial
          ⟨trivial, trivial⟩ rfl (by decide) hr hterm none "cancel" rt.currentStep) ?_
        rintro _ pool ⟨hpool, hforgotten⟩
        have hcloses := closes_of_reach hforgotten
        have hlive' : ∀ id, pool.board.Live id → id ∈ live.filter (· ≠ root) := by
          intro id hl
          obtain ⟨hold, hne⟩ := hcloses.live_iff.1 hl
          simpa [hne] using hlive id hold
        have hless : (live.filter (· ≠ root)).length < live.length :=
          List.length_filter_lt_length_iff_exists.2 ⟨root, hlive root hroot, by simp⟩
        unfold recordTaskTerminalEvent recordEvent
        rw [wp_bind, wp_update, wp_bind]
        refine wp_mono (cancelChild_reaches hpool hcloses hroot hpolicy
          fun child => ih hpool.wf hlive' (by omega)) ?_ (fun _ _ h' => .inr h')
        intro _ rt₂ h₂
        rw [wp_bind]
        exact wp_total (wakeTasksWaitingOn_tracks (settled_self h₂.settled.wf) root)
          (fun _ _ hwoken => h₂.woken hwoken)
      · refine wp_mono (terminalByCore_refused hgood hroot none "cancel" rt.currentStep)
          (fun _ _ hf => hf.elim) fun _ pool he => ?_
        rw [he]
        exact .inl ⟨rfl, fun hl => absurd hl hroot⟩

theorem cancelTaskById_extends (fuel more : Nat) (taskId : TaskId) :
    Prog.Extends (cancelTaskById fuel taskId) (cancelTaskById (fuel + more) taskId) := by
  induction fuel generalizing taskId with
  | zero => exact .crash _ _
  | succ fuel ih =>
    rw [Nat.succ_add]
    unfold cancelTaskById
    refine .bind (.refl _) fun rt => .ite (.refl _) (.bind (.refl _) fun _ =>
      .bind (.refl _) fun _ => .bind (.forEach fun taskAwait => ?_) fun _ => .refl _)
    exact .bind (.refl _) fun rt => .ite (ih _) (.refl _)

theorem cancelTaskHandle_reaches (hgood : Good rt.tasks) (handle : TaskHandle) :
    wp (cancelTaskHandle handle) (fun _ => CancelReturned handle.taskId rt)
      (fun _ rt' => CancelRefused handle.taskId rt rt' ∨ CancelCut handle.taskId rt rt') rt := by
  unfold cancelTaskHandle
  rw [wp_bind, wp_read]
  exact cancelTaskById_reaches _ hgood (fun _ => mem_keys_of_live) (length_keys_lt rt)

/-! ## What a cancellation does -/

/-- On any await graph, cycles included, a cancellation comes to an end, whatever fuel it has
    beyond the number of tasks; if it returns, the tasks it has cancelled are those its task
    leads to over live tasks and cascading links. -/
theorem cancellation_exact (hgood : Good rt.tasks) (handle : TaskHandle) :
    (∀ more, (cancelTaskById (rt.tasks.tasks.size + 1 + more) handle.taskId).run rt =
      (cancelTaskHandle handle).run rt) ∧
    ((∃ rt', (cancelTaskHandle handle).run rt = (.ok (), rt') ∧
        ∀ id, rt.tasks.board.BecameCancelled rt'.tasks.board id ↔
          rt.tasks.board.Chained handle.taskId id) ∨
      ∃ e rt', (cancelTaskHandle handle).run rt = (.err e, rt')) := by
  have hreaches := cancelTaskHandle_reaches hgood handle
  constructor
  · intro more
    have hextends := cancelTaskById_extends (rt.tasks.tasks.size + 1) more handle.taskId
    exact hextends.run_eq hreaches
  · rcases wp_outcome hreaches with ⟨_, rt', hrun, hreturned⟩ | ⟨e, rt', hrun, -⟩
    · exact .inl ⟨rt', hrun, hreturned.chain.becameCancelled_iff⟩
    · exact .inr ⟨e, rt', hrun⟩

/-- The task records, their indexes and the wait links are as they were. -/
structure PoolKept (rt rt' : CoreRuntime) : Prop where
  tasks : rt'.tasks.tasks = rt.tasks.tasks
  indexes : rt'.tasks.indexes = rt.tasks.indexes
  waitsByChild : rt'.tasks.waitsByChild = rt.tasks.waitsByChild
  waitsByParent : rt'.tasks.waitsByParent = rt.tasks.waitsByParent

theorem CancelCut.not_poolKept {root : TaskId} {rt' : CoreRuntime} (h : CancelCut root rt rt') :
    ¬ PoolKept rt rt' := by
  intro hkept
  obtain ⟨r, hr, hlive⟩ := h.live
  refine h.dead ⟨r, ?_, hlive⟩
  show rt'.tasks.tasks[root]? = some r
  rw [hkept.tasks]
  exact hr

/-- A cancellation that fails leaves the pool alone if and only if no link below its task, on the
    chain it would cancel, has another policy than `Cascade`. -/
theorem cancellation_atomic_iff (hgood : Good rt.tasks) (handle : TaskHandle) :
    (∀ e rt', (cancelTaskHandle handle).run rt = (.err e, rt') → PoolKept rt rt') ↔
      ∀ id, rt.tasks.board.Chained handle.taskId id → id ≠ handle.taskId →
        ¬ rt.tasks.board.Uncascaded id := by
  have hreaches := cancelTaskHandle_reaches hgood handle
  constructor
  · intro hkept id hc hne hu
    rcases wp_outcome hreaches with ⟨_, rt', _, hreturned⟩ | ⟨e, rt', hrun, herr⟩
    · exact hreturned.cascades id hc hu
    · rcases herr with ⟨-, hroot⟩ | hcut
      · exact hne (hc.eq_root (hroot hc.root_live))
      · exact hcut.not_poolKept (hkept e rt' hrun)
  · intro hcascades e rt' hrun
    rcases (wp_of_run_err hrun).1 hreaches with ⟨he, -⟩ | hcut
    · rw [he]
      exact ⟨rfl, rfl, rfl, rfl⟩
    · obtain ⟨id, hc, hne, hu⟩ := hcut.cut
      exact absurd hu (hcascades id hc hne)

end Cancellation

/-- `p` waits for `a`, and `a` for `p`. -/
def awaitRing (taskId : TaskId) : RunnerResult :=
  if taskId = "p" then waitFor (Task.new "a" "p.work" .null) .cascade taskId
  else { waitFor (Task.new "p" "p.work" .null) .cascade taskId with tasks := [] }

def ringRun : CoreRuntime :=
  after [.submitTask (Task.new "p" "p.work" .null), .tickOnce (answering awaitRing),
    .tickOnce (answering awaitRing)] sampleRuntime

/-- Cancelling one task of a cycle cancels the other. -/
theorem cancellation_exact_ring :
    ∃ rt', (cancelTaskHandle (awaitOn "p" "a" "p.work" .cascade).child).run ringRun =
        (.ok (), rt') ∧
      ∀ id, ringRun.tasks.board.BecameCancelled rt'.tasks.board id ↔
        ringRun.tasks.board.Chained "a" id := by
  have hrun : Run (fun _ _ => True) ringRun := run_sampleRuntime.after _ fun _ _ _ => trivial
  obtain ⟨_, rt', hok⟩ : ∃ value rt',
      (cancelTaskHandle (awaitOn "p" "a" "p.work" .cascade).child).run ringRun =
        (.ok value, rt') := Checks.exists_run_ok (by decide +kernel)
  rcases (cancellation_exact hrun.good (awaitOn "p" "a" "p.work" .cascade).child).2 with
    hexact | ⟨e, rt', herr⟩
  · exact hexact
  · cases hok.symm.trans herr

/-- Every link of the cycle cascades. -/
theorem cancellation_atomic_ring : Good ringRun.tasks ∧
      ((∀ e rt', (cancelTaskHandle (awaitOn "p" "a" "p.work" .cascade).child).run ringRun =
          (.err e, rt') → PoolKept ringRun rt') ↔
        ∀ id, ringRun.tasks.board.Chained "a" id → id ≠ "a" →
          ¬ ringRun.tasks.board.Uncascaded id) := by
  have hrun : Run (fun _ _ => True) ringRun := run_sampleRuntime.after _ fun _ _ _ => trivial
  exact ⟨hrun.good, cancellation_atomic_iff hrun.good (awaitOn "p" "a" "p.work" .cascade).child⟩

/-- `p` waits for `a`, `a` for `b`, and `b`, without cascading, for `c`. -/
def chainRun : CoreRuntime :=
  after [.submitTask (Task.new "p" "p.work" .null), .tickOnce (answering chain),
    .tickOnce (answering chain), .tickOnce (answering chain)] sampleRuntime

/-- Cancelling `a` fails on `b`, when `a` is already cancelled. -/
theorem cancellation_half_done : Run (fun _ _ => True) chainRun ∧
      ∃ e rt', (cancelTaskHandle (awaitOn "p" "a" "p.work" .cascade).child).run chainRun =
        (.err e, rt') ∧ ¬ PoolKept chainRun rt' := by
  refine ⟨run_sampleRuntime.after _ fun _ _ _ => trivial, ?_⟩
  obtain ⟨e, hfails⟩ := Checks.exists_run_err
    (m := cancelTaskHandle (awaitOn "p" "a" "p.work" .cascade).child) (s := chainRun)
    (by decide +kernel)
  have hbefore : chainRun.tasks.tasks["a"]?.map (·.status) = some .waiting := by decide +kernel
  have hafter : ((cancelTaskHandle (awaitOn "p" "a" "p.work" .cascade).child).run
      chainRun).2.tasks.tasks["a"]?.map (·.status) = some .cancelled := by decide +kernel
  refine ⟨e, _, hfails, ?_⟩
  intro hkept
  rw [hkept.tasks, hbefore] at hafter
  cases hafter

end CoreRuntime

end MutsukiRuntime
