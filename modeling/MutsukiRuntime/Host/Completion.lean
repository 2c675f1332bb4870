/-
  COMPLETION NOTIFICATIONS (`host.rs`, and `publish_terminal_changes` of `actor.rs`).  The actor
  counts the tasks that have ended and publishes the count after each message.  The hub passes
  it on to the subscriptions; `wait_task_states` asks for the states of its tasks and waits on
  its subscription until it may ask again.

  Publishing, subscribing and closing hold the lock of the hub and take the lock of each
  subscription once, so each is one step.  The notifiers that `publish` drops are those of
  subscriptions that are closed or gone, where a notification does nothing; so the subscribers
  are the calls.  The hub is closed where the actor leaves its loop; an actor thread that panics
  does not close it, and is not in the model.
-/
import MutsukiRuntime.Lib.Interleaving
import MutsukiRuntime.Core.Runtime.Drained

namespace MutsukiRuntime

/-- Where a call of `wait_task_states` is.  `seen` is its variable `revision`; `asked`, a ghost, is
    the count of ended tasks when the actor answered its last query. -/
inductive WaiterAt where
  | subscribed
  | asking (seen : Nat)
  | waiting (seen asked : Nat)
  | askingLast
  | returned
  deriving DecidableEq

/-- A call with its subscription. -/
structure CompletionWaiter where
  revision : Nat := 0
  closed : Bool := false
  phase : WaiterAt := .subscribed

structure CompletionHub where
  /-- `terminal_revision(&core)`. -/
  core : Nat
  /-- The variable `terminal_revision` of the actor. -/
  published : Nat
  /-- The actor is handling a message. -/
  handling : Bool := false
  revision : Nat := 0
  closed : Bool := false
  waiters : List CompletionWaiter := []

inductive WaiterStep where
  | read
  /-- The actor answers; `settled` if all tasks have ended or the deadline has passed. -/
  | answer (settled : Bool)
  /-- `wait_until` looks at its condition. -/
  | resume (timedOut : Bool)

inductive CompletionEvent where
  /-- So many tasks end within a message. -/
  | work (ended : Nat)
  /-- A message has been handled. -/
  | publish
  /-- The actor leaves its loop. -/
  | stop
  | subscribe
  | waiter (index : Nat) (step : WaiterStep)

namespace CompletionHub

/-- `TaskCompletionNotifier::notify`; the subscription of a call that has returned is gone. -/
def notify (revision : Nat) (waiter : CompletionWaiter) : CompletionWaiter :=
  if waiter.phase = .returned ∨ waiter.closed then waiter
  else { waiter with revision := max waiter.revision revision }

def publish (hub : CompletionHub) (revision : Nat) : CompletionHub :=
  if hub.closed ∨ revision ≤ hub.revision then hub
  else { hub with revision, waiters := hub.waiters.map (notify revision) }

def close (hub : CompletionHub) : CompletionHub :=
  { hub with closed := true, waiters := hub.waiters.map ({ · with closed := true }) }

/-- Where a call goes on.  An actor that has stopped answers with an error. -/
def advance (hub : CompletionHub) (waiter : CompletionWaiter) (step : WaiterStep) :
    Option WaiterAt :=
  match waiter.phase, step with
  | .subscribed, .read => some (.asking waiter.revision)
  | .asking seen, .answer settled =>
    if hub.closed then some .returned
    else if ¬ hub.handling then none
    else if settled then some .returned
    else some (.waiting seen hub.core)
  | .waiting seen _, .resume timedOut =>
    if waiter.closed then some .askingLast
    else if waiter.revision > seen then some (.asking waiter.revision)
    else if timedOut then some .askingLast
    else none
  | .askingLast, .answer _ => some .returned
  | _, _ => none

def step (hub : CompletionHub) : CompletionEvent → Option CompletionHub
  | .work ended =>
    if hub.closed then none else some { hub with core := hub.core + ended, handling := true }
  | .publish =>
    if hub.closed then none
    else if hub.core > hub.published then
      some ({ hub with published := hub.core, handling := false }.publish hub.core)
    else some { hub with handling := false }
  | .stop => some hub.close
  | .subscribe =>
    let waiter := if hub.closed then { closed := true } else { revision := hub.revision }
    some { hub with waiters := hub.waiters ++ [waiter] }
  | .waiter index step => do
    let waiter ← hub.waiters[index]?
    let phase ← hub.advance waiter step
    return { hub with waiters := hub.waiters.set index { waiter with phase } }

/-- What holds of a call that has not returned, with the numbers of the hub. -/
structure WaiterOk (start core published : Nat) (closed : Bool) (waiter : CompletionWaiter) :
    Prop where
  released : closed → waiter.closed
  revision : waiter.revision ≤ published
  told : ¬ closed → ¬ waiter.closed ∧ published ≤ waiter.revision
  asking : ∀ seen, waiter.phase = .asking seen → seen ≤ published
  waiting : ∀ seen asked, waiter.phase = .waiting seen asked →
    seen ≤ asked ∧ start ≤ asked ∧ asked ≤ core

structure Ok (start : Nat) (hub : CompletionHub) : Prop where
  ordered : hub.revision ≤ hub.published ∧ start ≤ hub.published ∧ hub.published ≤ hub.core
  idle : ¬ hub.closed → ¬ hub.handling → hub.published = hub.core
  /-- The count that the actor started with is never published. -/
  latest : ¬ hub.closed → hub.revision = hub.published ∨ hub.published = start
  waiters : ∀ waiter ∈ hub.waiters, waiter.phase ≠ .returned →
    WaiterOk start hub.core hub.revision hub.closed waiter

open TaskPool in
/-- The operations of a message on the pool are a `work` of the transitions they make. -/
theorem work_of_runOps {hub : CompletionHub} {pool : TaskPool} (ops : List PoolOp)
    (hproper : ∀ op ∈ ops, op.Proper) (h : Good pool) (hc : Counted pool)
    (hroom : (runOps ops pool).statistics.submittedTotal < u64Max) (hopen : ¬ hub.closed)
    (hcore : hub.core = pool.statistics.terminalRevision) :
    hub.step (.work (terminalTransitions ops pool)) = some
      { hub with core := (runOps ops pool).statistics.terminalRevision, handling := true } := by
  rw [runOps_revision ops hproper h hc hroom, ← hcore]
  exact if_neg hopen

variable {start : Nat} {hub after : CompletionHub} {waiter : CompletionWaiter}

theorem advance_cases {step : WaiterStep} {phase : WaiterAt}
    (h : hub.advance waiter step = some phase) :
    waiter.phase ≠ .returned ∧ (phase = .returned ∨ phase = .askingLast ∨
      phase = .asking waiter.revision ∨
      ∃ seen, waiter.phase = .asking seen ∧ phase = .waiting seen hub.core) := by
  unfold advance at h
  split at h <;> (try split_ifs at h) <;> cases h <;> simp_all

theorem Ok.advance (h : Ok start hub) (hwaiter : waiter ∈ hub.waiters) {step : WaiterStep}
    {phase : WaiterAt} (hphase : hub.advance waiter step = some phase) :
    WaiterOk start hub.core hub.revision hub.closed { waiter with phase } := by
  obtain ⟨hrevision, hstart, hpublished⟩ := h.ordered
  obtain ⟨hlive, hcases⟩ := advance_cases hphase
  have hok := h.waiters waiter hwaiter hlive
  refine ⟨hok.released, hok.revision, hok.told, fun seen hasking => ?_,
    fun seen asked hwaiting => ?_⟩
  · obtain rfl : phase = .asking seen := hasking
    have hread : seen = waiter.revision := by simpa using hcases
    exact hread.trans_le hok.revision
  · obtain rfl : phase = .waiting seen asked := hwaiting
    obtain ⟨hat, rfl⟩ : waiter.phase = .asking seen ∧ asked = hub.core := by simpa using hcases
    exact ⟨(hok.asking seen hat).trans (hrevision.trans hpublished), hstart.trans hpublished,
      le_rfl⟩

/-- A publication reaches every call that is under way. -/
theorem Ok.publish (h : Ok start hub) (hopen : ¬ hub.closed) (hnew : hub.published < hub.core) :
    Ok start ({ hub with published := hub.core, handling := false }.publish hub.core) := by
  obtain ⟨hrevision, hstart, hpublished⟩ := h.ordered
  have hlater : ¬ (hub.closed ∨ hub.core ≤ hub.revision) := by
    rintro (hclosed | hold)
    · exact hopen hclosed
    · omega
  rw [CompletionHub.publish, if_neg hlater]
  refine ⟨⟨le_rfl, hstart.trans hpublished, le_rfl⟩, fun _ _ => rfl, fun _ => .inl rfl,
    fun waiter hwaiter hlive => ?_⟩
  obtain ⟨before, hbefore, rfl⟩ := List.mem_map.1 hwaiter
  by_cases hgone : before.phase = .returned ∨ before.closed
  · rw [notify, if_pos hgone] at hlive ⊢
    have hok := h.waiters before hbefore hlive
    exact absurd (hgone.resolve_left hlive) (hok.told hopen).1
  · rw [notify, if_neg hgone] at hlive ⊢
    have hok := h.waiters before hbefore hlive
    have hgrows : hub.revision ≤ hub.core := hrevision.trans hpublished
    exact ⟨fun hclosed => absurd hclosed hopen, max_le (hok.revision.trans hgrows) le_rfl,
      fun _ => ⟨(hok.told hopen).1, le_max_right _ _⟩,
      fun seen hseen => (hok.asking seen hseen).trans hgrows, hok.waiting⟩

theorem Ok.close (h : Ok start hub) : Ok start hub.close := by
  refine ⟨h.ordered, fun hopen => absurd rfl hopen, fun hopen => absurd rfl hopen,
    fun waiter hwaiter hlive => ?_⟩
  obtain ⟨before, hbefore, rfl⟩ := List.mem_map.1 hwaiter
  have hok := h.waiters before hbefore hlive
  exact ⟨fun _ => rfl, hok.revision, fun hopen => absurd rfl hopen, hok.asking, hok.waiting⟩

theorem Ok.step {event : CompletionEvent} (h : Ok start hub) (hstep : hub.step event = some after) :
    Ok start after := by
  obtain ⟨hrevision, hstart, hpublished⟩ := h.ordered
  cases event with
  | work ended =>
    obtain ⟨-, hstep⟩ := Option.ite_none_left_eq_some.1 hstep
    cases hstep
    refine ⟨⟨hrevision, hstart, hpublished.trans (Nat.le_add_right _ _)⟩,
      fun _ hbusy => absurd rfl hbusy, h.latest, fun waiter hwaiter hlive => ?_⟩
    have hok := h.waiters waiter hwaiter hlive
    refine ⟨hok.released, hok.revision, hok.told, hok.asking, fun seen asked hphase => ?_⟩
    obtain ⟨hseen, hasked, hcore⟩ := hok.waiting seen asked hphase
    exact ⟨hseen, hasked, hcore.trans (Nat.le_add_right _ _)⟩
  | publish =>
    obtain ⟨hopen, hstep⟩ := Option.ite_none_left_eq_some.1 hstep
    split at hstep
    next hnew =>
      cases hstep
      exact h.publish hopen hnew
    next hold =>
      cases hstep
      exact ⟨h.ordered, fun _ _ => hpublished.antisymm (Nat.le_of_not_lt hold), h.latest,
        h.waiters⟩
  | stop =>
    cases hstep
    exact h.close
  | subscribe =>
    cases hstep
    refine ⟨h.ordered, h.idle, h.latest, fun waiter hwaiter hlive => ?_⟩
    obtain hwaiter | hnew := List.mem_append.1 hwaiter
    · exact h.waiters waiter hwaiter hlive
    · obtain rfl := List.mem_singleton.1 hnew
      split
      next hclosed =>
        exact ⟨fun _ => rfl, Nat.zero_le _, fun hopen => absurd hclosed hopen, by simp, by simp⟩
      next hopen =>
        exact ⟨fun hclosed => absurd hclosed hopen, le_rfl, by simp, by simp, by simp⟩
  | waiter index step =>
    obtain ⟨waiter, hindex, hstep⟩ := Option.bind_eq_some_iff.1 hstep
    obtain ⟨phase, hphase, hstep⟩ := Option.bind_eq_some_iff.1 hstep
    cases hstep
    refine ⟨h.ordered, h.idle, h.latest, fun other hother hlive => ?_⟩
    obtain hother | rfl := List.mem_or_eq_of_mem_set hother
    · exact h.waiters other hother hlive
    · exact h.advance (List.mem_of_getElem? hindex) hphase

/-- The hub of an actor that starts with a core in which some tasks have ended. -/
def new (start : Nat) : CompletionHub := { core := start, published := start }

variable {events : List CompletionEvent}

theorem ok_of_run (hrun : Interleaving.run step (new start) events = some hub) : Ok start hub :=
  Interleaving.run_invariant (fun _ _ _ h hstep => h.step hstep) hrun
    ⟨⟨Nat.zero_le _, le_rfl, le_rfl⟩, fun _ _ => rfl, fun _ => .inr rfl, by simp [new]⟩

/-- A publication that counts more than the call has asked about is past what it waits on. -/
theorem Ok.told {seen asked : Nat} (h : Ok start hub) (hopen : ¬ hub.closed)
    (hwaiter : waiter ∈ hub.waiters) (hphase : waiter.phase = .waiting seen asked)
    (hlater : asked < hub.published) : seen < waiter.revision := by
  have hok := h.waiters waiter hwaiter (by simp [hphase])
  have hwaiting := hok.waiting seen asked hphase
  have hsame := (hok.told hopen).2
  have hlatest := h.latest hopen
  omega

/-- Over every interleaving: a call that waits is released when the actor stops.  Until then, once a
    publication counts a task that ended after the call's last query, the call's subscription is
    past what the call waits on; so between two messages a call stays blocked only if no task has
    ended since it asked. -/
theorem no_completion_missed {seen asked : Nat}
    (hrun : Interleaving.run step (new start) events = some hub) (hwaiter : waiter ∈ hub.waiters)
    (hphase : waiter.phase = .waiting seen asked) :
    (hub.closed → waiter.closed) ∧
    (¬ hub.closed → asked < hub.published → seen < waiter.revision) ∧
    (¬ hub.closed → ¬ hub.handling → waiter.revision ≤ seen → hub.core = asked) := by
  have h := ok_of_run hrun
  have hok := h.waiters waiter hwaiter (by simp [hphase])
  obtain ⟨-, -, hcore⟩ := hok.waiting seen asked hphase
  have htold := fun hopen => h.told hopen hwaiter hphase
  refine ⟨hok.released, htold, fun hopen hidle hblocked => ?_⟩
  have hpublished := h.idle hopen hidle
  by_contra hne
  exact absurd (htold hopen (by omega)) (by omega)

/-- A call asks while its task runs; then the task ends and the actor publishes. -/
def askedTooEarly : List CompletionEvent :=
  [.subscribe, .waiter 0 .read, .work 0, .waiter 0 (.answer false), .publish, .work 1, .publish]

theorem no_completion_missed_sample :
    Interleaving.run step (new 0) askedTooEarly = some
      { core := 1, published := 1, revision := 1,
        waiters := [{ revision := 1, phase := .waiting 0 0 }] } ∧
    0 < ({ revision := 1, phase := .waiting 0 0 } : CompletionWaiter).revision := by
  have hrun : Interleaving.run step (new 0) askedTooEarly = some _ := rfl
  exact ⟨rfl, (no_completion_missed hrun (List.mem_singleton.2 rfl) rfl).2.1 (by decide)
    (by decide)⟩

/-! ## Revisions -/

/-- No revision of the first hub is above that of the second: its own, and those of its calls. -/
def Later (hub after : CompletionHub) : Prop :=
  hub.revision ≤ after.revision ∧ ∀ (index : Nat) (waiter : CompletionWaiter),
    hub.waiters[index]? = some waiter →
      ∃ next, after.waiters[index]? = some next ∧ waiter.revision ≤ next.revision

theorem Later.refl (hub : CompletionHub) : Later hub hub :=
  ⟨le_rfl, fun _ waiter h => ⟨waiter, h, le_rfl⟩⟩

theorem Later.trans {mid : CompletionHub} (h : Later hub mid) (h' : Later mid after) :
    Later hub after := by
  refine ⟨h.1.trans h'.1, fun index waiter hwaiter => ?_⟩
  obtain ⟨between, hbetween, hle⟩ := h.2 index waiter hwaiter
  obtain ⟨next, hnext, hle'⟩ := h'.2 index between hbetween
  exact ⟨next, hnext, hle.trans hle'⟩

/-- The calls are changed one by one, and none of them gets a lower revision. -/
theorem Later.of_map {change : CompletionWaiter → CompletionWaiter}
    (hrevision : hub.revision ≤ after.revision) (hwaiters : after.waiters = hub.waiters.map change)
    (hchange : ∀ waiter, waiter.revision ≤ (change waiter).revision) : Later hub after := by
  refine ⟨hrevision, fun index waiter hwaiter => ⟨change waiter, ?_, hchange waiter⟩⟩
  rw [hwaiters, List.getElem?_map, hwaiter, Option.map_some]

theorem notify_frame (revision : Nat) (waiter : CompletionWaiter) :
    (notify revision waiter).phase = waiter.phase ∧
      waiter.revision ≤ (notify revision waiter).revision := by
  unfold notify
  split
  · exact ⟨rfl, le_rfl⟩
  · exact ⟨rfl, le_max_left _ _⟩

theorem publish_frame (hub : CompletionHub) (revision : Nat) :
    (hub.publish revision).closed = hub.closed ∧
      (hub.publish revision).published = hub.published ∧
      hub.revision ≤ (hub.publish revision).revision ∧
      ∃ change, (hub.publish revision).waiters = hub.waiters.map change ∧
        ∀ waiter, (change waiter).phase = waiter.phase ∧
          waiter.revision ≤ (change waiter).revision := by
  unfold CompletionHub.publish
  split
  · exact ⟨rfl, rfl, le_rfl, id, (List.map_id _).symm, fun _ => ⟨rfl, le_rfl⟩⟩
  next hnew =>
    rw [not_or, not_le] at hnew
    exact ⟨rfl, rfl, hnew.2.le, notify revision, rfl, notify_frame revision⟩

theorem later_step {event : CompletionEvent} (hstep : hub.step event = some after) :
    Later hub after := by
  cases event with
  | work ended =>
    obtain ⟨-, hstep⟩ := Option.ite_none_left_eq_some.1 hstep
    cases hstep
    exact ⟨le_rfl, (Later.refl hub).2⟩
  | publish =>
    obtain ⟨-, hstep⟩ := Option.ite_none_left_eq_some.1 hstep
    split at hstep <;> cases hstep
    · obtain ⟨-, -, hrevision, change, hwaiters, hchange⟩ := publish_frame
        { hub with published := hub.core, handling := false } hub.core
      exact .of_map hrevision hwaiters fun waiter => (hchange waiter).2
    · exact ⟨le_rfl, (Later.refl hub).2⟩
  | stop =>
    cases hstep
    exact .of_map le_rfl rfl fun _ => le_rfl
  | subscribe =>
    cases hstep
    refine ⟨le_rfl, fun index waiter hwaiter => ⟨waiter, ?_, le_rfl⟩⟩
    exact (List.getElem?_append_left (List.getElem?_eq_some_iff.1 hwaiter).1).trans hwaiter
  | waiter index step =>
    obtain ⟨waiter, hindex, hstep⟩ := Option.bind_eq_some_iff.1 hstep
    obtain ⟨phase, -, hstep⟩ := Option.bind_eq_some_iff.1 hstep
    cases hstep
    refine ⟨le_rfl, fun other before hbefore => ?_⟩
    rw [List.getElem?_set]
    split
    next heq =>
      cases heq
      cases hindex.symm.trans hbefore
      exact ⟨_, if_pos (List.getElem?_eq_some_iff.1 hindex).1, le_rfl⟩
    next => exact ⟨before, hbefore, le_rfl⟩

/-- Over every interleaving: if a task has ended since a call asked, the next publication brings
    its subscription past what it waits on; no revision decreases; and a call that waits goes on
    once the hub is closed. -/
theorem completions_notified (hrun : Interleaving.run step (new start) events = some hub) :
    (∀ (index : Nat) (waiter : CompletionWaiter) (seen asked : Nat) (after : CompletionHub),
      hub.waiters[index]? = some waiter → waiter.phase = .waiting seen asked →
      asked < hub.core → hub.step .publish = some after →
      ∃ next, after.waiters[index]? = some next ∧ next.phase = waiter.phase ∧
        seen < next.revision) ∧
    (∀ (later : List CompletionEvent) (after : CompletionHub),
      Interleaving.run step hub later = some after → Later hub after) ∧
    (hub.closed → ∀ (index : Nat) (waiter : CompletionWaiter) (seen asked : Nat),
      hub.waiters[index]? = some waiter → waiter.phase = .waiting seen asked →
      hub.step (.waiter index (.resume false)) = some
        { hub with waiters := hub.waiters.set index { waiter with phase := .askingLast } }) := by
  have h := ok_of_run hrun
  refine ⟨fun index waiter seen asked after hwaiter hphase hended hpublish => ?_,
    fun later after hlater => ?_, fun hclosed index waiter seen asked hwaiter hphase => ?_⟩
  · have hafter := h.step hpublish
    obtain ⟨hopen, hstep⟩ := Option.ite_none_left_eq_some.1 hpublish
    split at hstep <;> cases hstep
    · obtain ⟨hclosed, hpublished, -, change, hwaiters, hchange⟩ := publish_frame
        { hub with published := hub.core, handling := false } hub.core
      have hnext := congrArg (·[index]?) hwaiters
      rw [List.getElem?_map, hwaiter] at hnext
      refine ⟨change waiter, hnext, (hchange waiter).1, hafter.told ?_
        (List.mem_of_getElem? hnext) ((hchange waiter).1.trans hphase) ?_⟩
      · rw [hclosed]
        exact hopen
      · rw [hpublished]
        exact hended
    next hold =>
      exact ⟨waiter, hwaiter, rfl, hafter.told hopen (List.mem_of_getElem? hwaiter) hphase
        (hended.trans_le (Nat.le_of_not_lt hold))⟩
  · exact Interleaving.run_invariant (fun _ _ _ h hstep => h.trans (later_step hstep)) hlater
      (.refl hub)
  · have hreleased := (h.waiters waiter (List.mem_of_getElem? hwaiter) (by simp [hphase])).released
    simp [step, hwaiter, advance, hphase, hreleased hclosed]

theorem completions_notified_sample : ∃ hub after next,
    Interleaving.run step (new 0) askedTooEarly.dropLast = some hub ∧
      hub.step .publish = some after ∧ after.waiters[0]? = some next ∧ 0 < next.revision := by
  have hrun : Interleaving.run step (new 0) askedTooEarly.dropLast = some
      { core := 1, published := 0, handling := true, waiters := [{ phase := .waiting 0 0 }] } := rfl
  obtain ⟨next, hnext, -, hrevision⟩ :=
    (completions_notified hrun).1 0 _ 0 0 _ rfl rfl (by decide) rfl
  exact ⟨_, _, next, hrun, rfl, hnext, hrevision⟩

end CompletionHub

end MutsukiRuntime
