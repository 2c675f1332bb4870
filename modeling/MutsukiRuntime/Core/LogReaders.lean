/-
  READERS OF THE BOUNDED LOGS.

  A log is changed by its writer (`LogChange`: a record, a new profile, a new
  capacity) and read page by page by a reader that goes on from `next_sequence`
  (`Session`), in any order.

  * A change makes the log a later snapshot (`LogChange.later`), so the rules of
    `Paging` for readers apply: `Session.followed`.
-/
import MutsukiRuntime.Core.Logs
import MutsukiRuntime.Lib.Paging

namespace MutsukiRuntime

open Paging

variable {α : Type} {seq : α → Nat}

/-! ## The log -/

/-- What a writer does.  A record is built with the sequence number it is given. -/
inductive LogChange (seq : α → Nat) where
  | record (build : Nat → α) (numbered : ∀ n, seq (build n) = n)
  | configure (profile : ObservabilityOutletProfile)
  | setCapacity (capacity : Nat)

namespace LogChange

def apply (log : BoundedLog α) : LogChange seq → BoundedLog α
  | record build _ => (log.recordWith build).1
  | configure profile => log.configure profile
  | setCapacity capacity => log.setCapacity capacity

/-- How many records a change is. -/
def records : LogChange seq → Nat
  | record _ _ => 1
  | _ => 0

end LogChange

/-- A log after `recorded` records. -/
structure LogOk (seq : α → Nat) (recorded : Nat) (log : BoundedLog α) : Prop where
  ordered : log.records.Pairwise fun a b => seq a < seq b
  bounded : ∀ x ∈ log.records, seq x ≤ log.nextSequence
  capacity : log.records.length ≤ log.profile.capacity
  counted : log.records.length + log.dropped = recorded
  numbered : log.nextSequence = recorded

theorem logOk_new (seq : α → Nat) (profile : ObservabilityOutletProfile) :
    LogOk seq 0 (BoundedLog.new profile) where
  ordered := List.Pairwise.nil
  bounded _ h := by cases h
  capacity := Nat.zero_le _
  counted := rfl
  numbered := rfl

/-- The log as its readers see it. -/
def BoundedLog.snapshot (log : BoundedLog α) : Snapshot α := ⟨log.records, log.nextSequence⟩

variable {recorded : Nat} {log : BoundedLog α}

theorem LogOk.snapshot_ok (h : LogOk seq recorded log) :
    log.snapshot.Ok seq := ⟨h.ordered, h.bounded⟩

theorem satAdd_eq {a b : Nat} (h : a + b ≤ u64Max) : satAdd a b = a + b := min_eq_left h

/-- What the loop of `configure` sheds. -/
theorem shedOne_iterate (count : Nat) (log : BoundedLog α) (hcount : count ≤ log.records.length)
    (hdropped : log.dropped + count ≤ u64Max) :
    (BoundedLog.shedOne^[count] log).records.Sublist log.records ∧
    (BoundedLog.shedOne^[count] log).records.length + count = log.records.length ∧
    (BoundedLog.shedOne^[count] log).dropped = log.dropped + count ∧
    (BoundedLog.shedOne^[count] log).nextSequence = log.nextSequence ∧
    (BoundedLog.shedOne^[count] log).profile = log.profile := by
  induction count generalizing log with
  | zero => exact ⟨List.Sublist.refl _, rfl, rfl, rfl, rfl⟩
  | succ count ih =>
    have hsub : log.shedOne.records.Sublist log.records := by
      unfold BoundedLog.shedOne
      dsimp only
      split
      · exact List.tail_sublist _
      · exact List.dropLast_sublist _
    have hlength : log.shedOne.records.length + 1 = log.records.length := by
      unfold BoundedLog.shedOne
      dsimp only
      split
      · rw [List.length_tail]
        omega
      · rw [List.length_dropLast]
        omega
    have hone : log.shedOne.dropped = log.dropped + 1 := satAdd_eq (by omega)
    obtain ⟨h1, h2, h3, h4, h5⟩ := ih log.shedOne (by omega) (by omega)
    rw [Function.iterate_succ_apply]
    exact ⟨h1.trans hsub, by omega, by omega, h4, h5⟩

/-- A new profile sheds what does not fit, and gives nothing back. -/
theorem LogOk.configure (h : LogOk seq recorded log) (hrecorded : recorded ≤ u64Max)
    (profile : ObservabilityOutletProfile) :
    LogOk seq recorded (log.configure profile) ∧
      log.snapshot.Later seq (log.configure profile).snapshot := by
  have hcounted := h.counted
  have hshed : (log.configure profile).records.Sublist log.records ∧
      (log.configure profile).records.length + (log.records.length - profile.capacity) =
        log.records.length ∧
      (log.configure profile).dropped = log.dropped + (log.records.length - profile.capacity) ∧
      (log.configure profile).nextSequence = log.nextSequence ∧
      (log.configure profile).profile = profile :=
    shedOne_iterate _ { log with profile } (Nat.sub_le _ _) (by
      show log.dropped + (log.records.length - profile.capacity) ≤ u64Max
      omega)
  obtain ⟨hsub, hlength, hdropped, hnext, hprofile⟩ := hshed
  refine ⟨⟨h.ordered.sublist hsub, fun x hx => ?_, ?_, ?_, hnext.trans h.numbered⟩, hnext.ge, ?_⟩
  · rw [hnext]
    exact h.bounded x (hsub.subset hx)
  · rw [hprofile]
    omega
  · omega
  · exact fun x hx _ => hsub.subset hx

/-- A record with the next number, behind what is left of the others. -/
theorem LogOk.keep (h : LogOk seq recorded log) {kept : List α} (hsub : kept.Sublist log.records)
    {record : α} (hrecord : seq record = log.nextSequence + 1) :
    (kept ++ [record]).Pairwise (fun a b => seq a < seq b) ∧
    (∀ x ∈ kept ++ [record], seq x ≤ log.nextSequence + 1) ∧
    ∀ x ∈ kept ++ [record], seq x ≤ log.nextSequence → x ∈ log.records := by
  refine ⟨?_, ?_, ?_⟩
  · rw [List.pairwise_append]
    refine ⟨h.ordered.sublist hsub, List.pairwise_singleton _ _, fun x hx y hy => ?_⟩
    rw [List.mem_singleton.1 hy, hrecord]
    exact Nat.lt_succ_of_le (h.bounded x (hsub.subset hx))
  · intro x hx
    rcases List.mem_append.1 hx with hx | hx
    · exact (h.bounded x (hsub.subset hx)).trans (Nat.le_succ _)
    · rw [List.mem_singleton.1 hx, hrecord]
  · intro x hx hle
    rcases List.mem_append.1 hx with hx | hx
    · exact hsub.subset hx
    · rw [List.mem_singleton.1 hx, hrecord] at hle
      omega

/-- A record is kept with the next number, or counted as dropped. -/
theorem LogOk.recordWith (h : LogOk seq recorded log) (hrecorded : recorded + 1 ≤ u64Max)
    {build : Nat → α} (hbuild : ∀ n, seq (build n) = n) :
    LogOk seq (recorded + 1) (log.recordWith build).1 ∧
      log.snapshot.Later seq (log.recordWith build).1.snapshot := by
  have hcounted := h.counted
  have hcapacity := h.capacity
  have hnumbered : log.nextSequence + 1 = recorded + 1 := congrArg (· + 1) h.numbered
  have hnext : satAdd log.nextSequence 1 = log.nextSequence + 1 := satAdd_eq (by omega)
  have hdropped : satAdd log.dropped 1 = log.dropped + 1 := satAdd_eq (by omega)
  unfold BoundedLog.recordWith
  simp only [hnext]
  split
  next hroom =>
    have henabled : 0 < log.profile.capacity := by
      unfold BoundedLog.willRetainNext BoundedLog.isEnabled at hroom
      simpa using (Bool.and_eq_true_iff.1 hroom).1
    unfold BoundedLog.retain
    split
    next hfull =>
      simp only at hfull
      obtain ⟨hordered, hbounded, hkept⟩ := h.keep (List.tail_sublist _)
        (hbuild (log.nextSequence + 1))
      refine ⟨⟨hordered, hbounded, ?_, ?_, hnumbered⟩, Nat.le_succ _, hkept⟩
      · show (log.records.tail ++ [_]).length ≤ log.profile.capacity
        rw [List.length_append, List.length_tail, List.length_singleton]
        omega
      · show (log.records.tail ++ [_]).length + satAdd log.dropped 1 = recorded + 1
        rw [List.length_append, List.length_tail, List.length_singleton]
        omega
    next hfree =>
      simp only at hfree
      obtain ⟨hordered, hbounded, hkept⟩ := h.keep (List.Sublist.refl _)
        (hbuild (log.nextSequence + 1))
      refine ⟨⟨hordered, hbounded, ?_, ?_, hnumbered⟩, Nat.le_succ _, hkept⟩
      · show (log.records ++ [_]).length ≤ log.profile.capacity
        rw [List.length_append, List.length_singleton]
        omega
      · show (log.records ++ [_]).length + log.dropped = recorded + 1
        rw [List.length_append, List.length_singleton]
        omega
  · refine ⟨⟨h.ordered, fun x hx => (h.bounded x hx).trans (Nat.le_succ _), h.capacity, ?_,
      hnumbered⟩, Nat.le_succ _, fun x hx _ => hx⟩
    show log.records.length + satAdd log.dropped 1 = recorded + 1
    omega

/-- Every change keeps the log in order, and makes a later snapshot of it. -/
theorem LogChange.later (h : LogOk seq recorded log) (change : LogChange seq)
    (hrecorded : recorded + change.records ≤ u64Max) :
    LogOk seq (recorded + change.records) (change.apply log) ∧
      log.snapshot.Later seq (change.apply log).snapshot := by
  cases change with
  | record build numbered => exact h.recordWith hrecorded numbered
  | configure profile => exact h.configure hrecorded profile
  | setCapacity => exact h.configure hrecorded _

/-! ## Readers -/

/-- A page, with the cursor it was asked for and what the log held then. -/
structure TakenPage (α : Type) where
  cursor : Nat
  retained : List α
  page : ObservabilityPage α

/-- The numbers it reports lost: those it passes and does not deliver. -/
def TakenPage.lostSequences (seq : α → Nat) (taken : TakenPage α) : Finset Nat :=
  Finset.Ioc taken.cursor taken.page.nextSequence \ (taken.page.items.map seq).toFinset

/-- A log with one of its readers. -/
structure Session (α : Type) where
  log : BoundedLog α
  cursor : Nat
  taken : List (TakenPage α) := []

inductive SessionStep (seq : α → Nat) where
  | write (change : LogChange seq)
  | read (limit : Nat) (positive : 1 ≤ limit)

/-- How many records a step is. -/
def SessionStep.records : SessionStep seq → Nat
  | write change => change.records
  | read _ _ => 0

namespace Session

def step (s : Session α) : SessionStep seq → Session α
  | .write change => { s with log := change.apply s.log }
  | .read limit _ =>
    let page := s.log.pageAfter s.cursor limit seq
    { s with
      cursor := page.nextSequence
      taken := s.taken ++ [{ cursor := s.cursor, retained := s.log.records, page }] }

def run (steps : List (SessionStep seq)) (s : Session α) : Session α := steps.foldl step s

/-- Everything the reader has been given. -/
def delivered (s : Session α) : List α := s.taken.flatMap (·.page.items)

end Session

theorem pageAfter_eq (seq : α → Nat) (log : BoundedLog α) (cursor : Nat) {limit : Nat}
    (hlimit : 1 ≤ limit) :
    (log.pageAfter cursor limit seq).items = items seq log.snapshot cursor limit ∧
    (log.pageAfter cursor limit seq).nextSequence = next seq log.snapshot cursor limit ∧
    (log.pageAfter cursor limit seq).lost =
      next seq log.snapshot cursor limit - cursor - (items seq log.snapshot cursor limit).length ∧
    (log.pageAfter cursor limit seq).truncated =
      decide (next seq log.snapshot cursor limit < log.nextSequence) := by
  have hne : limit ≠ 0 := by omega
  have hitems : (log.pageAfter cursor limit seq).items = items seq log.snapshot cursor limit := rfl
  have hnext : (log.pageAfter cursor limit seq).nextSequence =
      next seq log.snapshot cursor limit := by
    show (if limit = 0 then cursor else
      ((items seq log.snapshot cursor limit).getLast?.map seq).getD _) = _
    rw [if_neg hne]
    unfold next
    cases (items seq log.snapshot cursor limit).getLast? <;> rfl
  refine ⟨hitems, hnext, ?_, ?_⟩
  · rw [← hnext, ← hitems]
    exact if_neg hne
  · rw [← hnext]
    rfl

/-- The page as the reader keeps it. -/
def TakenPage.reading (taken : TakenPage α) : Reading α :=
  ⟨taken.cursor, taken.page.items, taken.page.nextSequence⟩

theorem lostSequences_eq (seq : α → Nat) (taken : TakenPage α) :
    taken.lostSequences seq = taken.reading.lost seq := rfl

theorem reading_pageAfter (seq : α → Nat) (log : BoundedLog α) (cursor : Nat) {limit : Nat}
    (hlimit : 1 ≤ limit) :
    TakenPage.reading ⟨cursor, log.records, log.pageAfter cursor limit seq⟩ =
      log.snapshot.read seq cursor limit := by
  have ⟨hitems, hnext, _⟩ := pageAfter_eq seq log cursor hlimit
  unfold TakenPage.reading Snapshot.read
  rw [hitems, hnext]

theorem Session.delivered_eq (s : Session α) :
    s.delivered = Paging.delivered (s.taken.map TakenPage.reading) := by
  simp [Session.delivered, Paging.delivered, List.flatMap_map, TakenPage.reading]

/-- A session that started at the cursor `start`, after `recorded` records. -/
structure Session.Follows (seq : α → Nat) (start recorded : Nat) (s : Session α) : Prop where
  log : LogOk seq recorded s.log
  followed : Followed seq start (s.taken.map TakenPage.reading) s.log.snapshot s.cursor
  lost : ∀ taken ∈ s.taken, (taken.lostSequences seq).card = taken.page.lost
  whole : ∀ taken ∈ s.taken, ∀ x ∈ taken.retained, taken.cursor < seq x →
    seq x ≤ taken.page.nextSequence → x ∈ taken.page.items

namespace Session

variable {start recorded : Nat} {s : Session α}

theorem follows_start (seq : α → Nat) (profile : ObservabilityOutletProfile) (start : Nat) :
    Follows seq start 0 { log := .new profile, cursor := start } where
  log := logOk_new seq profile
  followed := followed_nil seq _ start
  lost _ h := by cases h
  whole _ h := by cases h

theorem Follows.step (h : Follows seq start recorded s) (step : SessionStep seq)
    (hrecorded : recorded + step.records ≤ u64Max) :
    Follows seq start (recorded + step.records) (s.step step) := by
  cases step with
  | write change =>
    obtain ⟨hlog, hlater⟩ := change.later h.log hrecorded
    exact ⟨hlog, h.followed.change hlater, h.lost, h.whole⟩
  | read limit positive =>
    have hok := h.log.snapshot_ok
    have ⟨hitems, hnext, hlost, _⟩ := pageAfter_eq seq s.log s.cursor positive
    have hreading := reading_pageAfter seq s.log s.cursor positive
    refine ⟨h.log, ?_, ?_, ?_⟩
    · show Followed seq start ((s.taken ++ [_]).map TakenPage.reading) s.log.snapshot
        (s.log.pageAfter s.cursor limit seq).nextSequence
      rw [List.map_append, List.map_singleton, hreading, hnext]
      exact h.followed.read hok positive
    · intro taken htaken
      rcases List.mem_append.1 htaken with hold | hnew
      · exact h.lost taken hold
      · rw [List.mem_singleton.1 hnew]
        have hcard := hok.length_add_card_lost s.cursor limit
        rw [lostSequences_eq, hreading, hlost]
        omega
    · intro taken htaken
      rcases List.mem_append.1 htaken with hold | hnew
      · exact h.whole taken hold
      · rw [List.mem_singleton.1 hnew]
        intro x hx hcursor hend
        rw [hnext] at hend
        rw [hitems]
        exact mem_items_of_le_next hok positive hx hcursor hend

theorem Follows.run (h : Follows seq start recorded s) (steps : List (SessionStep seq))
    (hrecorded : recorded + (steps.map SessionStep.records).sum ≤ u64Max) :
    Follows seq start (recorded + (steps.map SessionStep.records).sum) (s.run steps) := by
  induction steps generalizing s recorded with
  | nil => exact h
  | cons step steps ih =>
    rw [List.map_cons, List.sum_cons, ← Nat.add_assoc] at hrecorded ⊢
    exact ih (h.step step (by omega)) hrecorded

/-- The steps of a reader on a log that no longer changes. -/
def readSteps (seq : α → Nat) (limits : List { n : Nat // 1 ≤ n }) : List (SessionStep seq) :=
  limits.map fun limit => .read limit.1 limit.2

theorem run_readSteps (seq : α → Nat) (s : Session α) (limits : List { n : Nat // 1 ≤ n }) :
    (s.run (readSteps seq limits)).log = s.log ∧
    (s.run (readSteps seq limits)).cursor =
      endOf seq s.log.snapshot (limits.map (·.1)) s.cursor := by
  induction limits generalizing s with
  | nil => exact ⟨rfl, rfl⟩
  | cons limit limits ih =>
    have ⟨_, hnext, _⟩ := pageAfter_eq seq s.log s.cursor limit.2
    obtain ⟨hlog, hcursor⟩ := ih (s.step (.read limit.1 limit.2 : SessionStep seq))
    refine ⟨hlog, hcursor.trans ?_⟩
    show endOf seq s.log.snapshot _ (s.log.pageAfter s.cursor limit.1 seq).nextSequence = _
    rw [hnext]
    rfl

/-- The last page of a reader says whether it has reached the end. -/
theorem truncated_run_readSteps (seq : α → Nat) (s : Session α)
    {limits : List { n : Nat // 1 ≤ n }} (hne : limits ≠ []) :
    ∃ taken, (s.run (readSteps seq limits)).taken.getLast? = some taken ∧ taken.page.truncated =
        decide ((s.run (readSteps seq limits)).cursor < s.log.nextSequence) := by
  rcases List.eq_nil_or_concat limits with hnil | ⟨front, limit, hlimits⟩
  · exact absurd hnil hne
  · rw [List.concat_eq_append] at hlimits
    have hlast : s.run (readSteps seq limits) =
        (s.run (readSteps seq front)).step (.read limit.1 limit.2 : SessionStep seq) := by
      rw [hlimits]
      unfold readSteps run
      rw [List.map_append, List.foldl_append]
      rfl
    have hlog := (run_readSteps seq s front).1
    generalize s.run (readSteps seq front) = middle at hlast hlog
    have ⟨_, hnext, _, htruncated⟩ := pageAfter_eq seq middle.log middle.cursor limit.2
    rw [hlast, ← hlog]
    refine ⟨⟨middle.cursor, middle.log.records, middle.log.pageAfter middle.cursor limit.1 seq⟩,
      List.getLast?_concat, ?_⟩
    show (middle.log.pageAfter middle.cursor limit.1 seq).truncated =
      decide ((middle.log.pageAfter middle.cursor limit.1 seq).nextSequence < _)
    rw [htruncated, hnext]

/-- What a reader can rely on, however its pages and the changes of the log are interleaved. -/
structure Reliable (seq : α → Nat) (start : Nat) (s : Session α) : Prop where
  increasing : s.delivered.Pairwise fun a b => seq a < seq b
  whole : ∀ taken ∈ s.taken, ∀ x ∈ taken.retained, taken.cursor < seq x →
    seq x ≤ taken.page.nextSequence → x ∈ taken.page.items
  counted : start + s.delivered.length + (s.taken.map (·.page.lost)).sum = s.cursor
  lost : ∀ taken ∈ s.taken, (taken.lostSequences seq).card = taken.page.lost
  never : s.taken.Pairwise fun earlier later => ∀ n ∈ earlier.lostSequences seq,
    ∀ x ∈ later.page.items, seq x ≠ n

theorem Follows.reliable (h : Follows seq start recorded s) : Reliable seq start s where
  increasing := by
    rw [delivered_eq]
    exact h.followed.ordered
  whole := h.whole
  counted := by
    have hcounted := h.followed.counted
    rw [delivered_eq, ← hcounted, List.map_map]
    congr 2
    exact List.map_congr_left fun taken htaken => (h.lost taken htaken).symm
  lost := h.lost
  never := List.pairwise_map.1 h.followed.never

/-- The log after fewer than 2^64 records: its numbers increase, it keeps to its capacity, and
    every record is retained or counted.  Whatever the order of changes and pages, the reader
    gets each number at most once and in order, nothing it could get is skipped, and the cursor
    moves over what is delivered or reported lost.  Once the log stops changing, more pages than
    it has records, with any limits, reach the end, and then everything retained is delivered. -/
theorem log_readers_reliable (profile : ObservabilityOutletProfile) (start : Nat)
    (steps : List (SessionStep seq)) (hcount : (steps.map SessionStep.records).sum < 2 ^ 64) :
    let s := Session.run steps { log := .new profile, cursor := start }
    LogOk seq (steps.map SessionStep.records).sum s.log ∧ Reliable seq start s ∧
    ∀ limits : List { n : Nat // 1 ≤ n }, s.log.records.length < limits.length →
      (∃ taken, (s.run (readSteps seq limits)).taken.getLast? = some taken ∧
        taken.page.truncated = false) ∧
      ∀ x ∈ s.log.records, start < seq x → x ∈ (s.run (readSteps seq limits)).delivered := by
  intro s
  have hbound : (steps.map SessionStep.records).sum ≤ u64Max := by
    unfold u64Max
    omega
  have hfollows : Follows seq start (steps.map SessionStep.records).sum s := by
    have hrun := (follows_start seq profile start).run steps (by omega)
    rwa [Nat.zero_add] at hrun
  refine ⟨hfollows.log, hfollows.reliable, fun limits hmany => ?_⟩
  have hno : ((readSteps seq limits).map SessionStep.records).sum = 0 := by
    unfold readSteps
    rw [List.map_map]
    exact List.sum_eq_zero fun n hn => by
      obtain ⟨limit, -, rfl⟩ := List.mem_map.1 hn
      rfl
  have hdrained := hfollows.run (readSteps seq limits) (by omega)
  obtain ⟨hlog, hcursor⟩ := run_readSteps seq s limits
  -- every page that is not the last leaves less to read
  have hend : s.log.nextSequence ≤ (s.run (readSteps seq limits)).cursor := by
    rw [hcursor]
    refine last_le_endOf hfollows.log.snapshot_ok ?_
    rw [List.length_map]
    exact (List.length_filter_le _ _).trans_lt hmany
  constructor
  · have hne : limits ≠ [] := by
      intro hnil
      rw [hnil] at hmany
      exact absurd hmany (Nat.not_lt_zero _)
    obtain ⟨taken, hlast, htruncated⟩ := truncated_run_readSteps seq s hne
    refine ⟨taken, hlast, htruncated.trans ?_⟩
    exact decide_eq_false (by omega)
  · intro x hx hstart
    rw [delivered_eq]
    refine hdrained.followed.complete x ?_ hstart ((hfollows.log.bounded x hx).trans hend)
    rw [hlog]
    exact hx

/-- Three records into a log of two, a page of one, and three more pages. -/
theorem log_readers_reliable_sample :
    let steps : List (SessionStep (id : Nat → Nat)) :=
      [.write (.record id fun _ => rfl), .write (.record id fun _ => rfl), .read 1 (by decide),
        .write (.record id fun _ => rfl), .write (.setCapacity 1)]
    let s := Session.run steps { log := .new ⟨2, .dropOldest⟩, cursor := 0 }
    s.delivered = [1] ∧ s.log.records = [3] ∧
      3 ∈ (s.run (readSteps id [⟨1, by decide⟩, ⟨1, by decide⟩])).delivered := by
  intro steps s
  refine ⟨by decide +kernel, by decide +kernel, ?_⟩
  exact ((log_readers_reliable ⟨2, .dropOldest⟩ 0 steps (by decide)).2.2
    [⟨1, by decide⟩, ⟨1, by decide⟩] (by decide +kernel)).2 3 (by decide +kernel) (by decide)

end Session

end MutsukiRuntime
