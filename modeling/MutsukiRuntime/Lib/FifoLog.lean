/-
  A LOG THAT LOSES ENTRIES ONLY AT THE FRONT.  New entries go to the back; what is shed
  moves from `retained` to `dropped`, oldest first.

  * `accepted` is all that was ever appended; the retained entries are its suffix
    (`retained_suffix`), and what is shed adds up with what stays (`accepted_shed`).
-/
import Mathlib.Tactic

structure FifoLog (α : Type) where
  dropped : List α
  retained : List α

namespace FifoLog

open List

variable {α : Type}

def empty : FifoLog α := ⟨[], []⟩

def accepted (log : FifoLog α) : List α := log.dropped ++ log.retained

def append (log : FifoLog α) (entry : α) : FifoLog α :=
  { log with retained := log.retained ++ [entry] }

def shedFrom (test : List α → Bool) (dropped : List α) : List α → FifoLog α
  | [] => ⟨dropped, []⟩
  | entry :: rest =>
    if test (entry :: rest) then shedFrom test (dropped ++ [entry]) rest
    else ⟨dropped, entry :: rest⟩

/-- Drop the front while the test holds of what is retained. -/
def shed (test : List α → Bool) (log : FifoLog α) : FifoLog α :=
  shedFrom test log.dropped log.retained

/-- A test on the front entry. -/
def frontTest (test : α → Bool) (entries : List α) : Bool := entries.head?.any test

theorem accepted_append (log : FifoLog α) (entry : α) :
    (log.append entry).accepted = log.accepted ++ [entry] :=
  (append_assoc _ _ _).symm

theorem accepted_shedFrom (test : List α → Bool) (dropped retained : List α) :
    (shedFrom test dropped retained).accepted = dropped ++ retained := by
  induction retained generalizing dropped with
  | nil => rfl
  | cons entry rest ih =>
    rw [shedFrom]
    split
    · rw [ih, append_assoc]
      rfl
    · rfl

@[simp] theorem accepted_shed (test : List α → Bool) (log : FifoLog α) :
    (log.shed test).accepted = log.accepted :=
  accepted_shedFrom test log.dropped log.retained

theorem retained_suffix (log : FifoLog α) : log.retained <:+ log.accepted := suffix_append _ _

theorem shedFrom_suffix (test : List α → Bool) (dropped retained : List α) :
    (shedFrom test dropped retained).retained <:+ retained := by
  induction retained generalizing dropped with
  | nil => exact suffix_rfl
  | cons entry rest ih =>
    rw [shedFrom]
    split
    · exact (ih _).trans (suffix_cons _ _)
    · exact suffix_rfl

theorem shed_suffix (test : List α → Bool) (log : FifoLog α) :
    (log.shed test).retained <:+ log.retained :=
  shedFrom_suffix test log.dropped log.retained

variable {test : List α → Bool} {log : FifoLog α}

theorem shed_of_fails (h : test log.retained = false) : log.shed test = log := by
  obtain ⟨dropped, retained⟩ := log
  cases retained with
  | nil => rfl
  | cons => simp [shed, shedFrom, h]

/-- Shedding stops where the test fails; a test that fails on the empty log fails in the end. -/
theorem shed_stops (hempty : test [] = false) (log : FifoLog α) :
    test (log.shed test).retained = false := by
  have hstops : ∀ dropped retained, test (shedFrom test dropped retained).retained = false := by
    intro dropped retained
    induction retained generalizing dropped with
    | nil => exact hempty
    | cons entry rest ih =>
      rw [shedFrom]
      split
      · exact ih _
      · next hfails => exact Bool.eq_false_of_not_eq_true hfails
  exact hstops _ _

/-- The last entry stays where the test fails on it alone. -/
theorem last_shed {entry : α} (hlast : [entry] <:+ log.retained) (hfails : test [entry] = false) :
    [entry] <:+ (log.shed test).retained := by
  obtain ⟨dropped, retained⟩ := log
  rw [shed]
  induction retained generalizing dropped with
  | nil => exact hlast
  | cons first rest ih =>
    rw [shedFrom]
    split
    next hpasses =>
      rcases suffix_cons_iff.1 hlast with heq | hrest
      · rw [← heq, hfails] at hpasses
        cases hpasses
      · exact ih _ hrest
    next => exact hlast

/-- With a test that passes on every entry older than one it passes on, exactly the entries
    that fail it stay. -/
theorem mem_shedFront {test : α → Bool}
    (holder : log.retained.Pairwise fun a b => test b = true → test a = true) (entry : α) :
    entry ∈ (log.shed (frontTest test)).retained ↔ entry ∈ log.retained ∧ test entry = false := by
  have hmem : ∀ dropped retained : List α,
      retained.Pairwise (fun a b => test b = true → test a = true) →
      (entry ∈ (shedFrom (frontTest test) dropped retained).retained ↔
        entry ∈ retained ∧ test entry = false) := by
    intro dropped retained
    induction retained generalizing dropped with
    | nil => simp [shedFrom]
    | cons first rest ih =>
      intro hpairwise
      obtain ⟨hfirst, hrest⟩ := pairwise_cons.1 hpairwise
      rw [shedFrom]
      split
      next hpasses =>
        have hpasses : test first = true := hpasses
        rw [ih _ hrest, mem_cons]
        constructor
        · exact fun h => ⟨.inr h.1, h.2⟩
        · rintro ⟨rfl | hentry, hfails⟩
          · rw [hpasses] at hfails
            cases hfails
          · exact ⟨hentry, hfails⟩
      next hfails =>
        -- nothing behind the front passes either
        have hfails : test first = false := Bool.eq_false_of_not_eq_true hfails
        refine ⟨fun h => ⟨h, ?_⟩, fun h => h.1⟩
        rcases mem_cons.1 h with rfl | hentry
        · exact hfails
        · refine Bool.eq_false_of_not_eq_true fun hpasses => ?_
          rw [hfirst entry hentry hpasses] at hfails
          cases hfails
  exact hmem _ _ holder

end FifoLog
