/-
  INTERLEAVINGS of threads: a step function that an event drives, where `none` says the
  event cannot happen in that state, and the ledger of one-shot tokens.

  A token is numbered when it is made and sits in one place at a time: a shared table, or
  the hands of one thread.  Threads pass tokens on, drop them or use them.  `Ledger` is
  what keeps every token used at most once, whatever the order of the steps.
-/
import Mathlib.Tactic

namespace MutsukiRuntime.Interleaving

open List Option

section Runs

variable {σ ε : Type*} {step : σ → ε → Option σ} {s t : σ}

/-- The state after the events, if each of them could happen. -/
def run (step : σ → ε → Option σ) (s : σ) : List ε → Option σ
  | [] => some s
  | event :: events => (step s event).bind fun next => run step next events

theorem run_cons {event : ε} {events : List ε} (h : run step s (event :: events) = some t) :
    ∃ next, step s event = some next ∧ run step next events = some t :=
  bind_eq_some_iff.1 h

theorem run_append (first second : List ε) :
    run step s (first ++ second) = (run step s first).bind fun mid => run step mid second := by
  induction first generalizing s with
  | nil => rfl
  | cons event first ih =>
    rw [cons_append, run, run, bind_assoc]
    exact congrArg _ (funext fun next => ih)

/-- What every step preserves, of the state and the events behind it, holds at the end of every run.
    -/
theorem run_history {P : List ε → σ → Prop}
    (hstep : ∀ past s t event, P past s → step s event = some t → P (past ++ [event]) t)
    (past : List ε) {events : List ε} (hrun : run step s events = some t) (hs : P past s) :
    P (past ++ events) t := by
  induction events generalizing past s with
  | nil =>
    obtain rfl : s = t := some.inj hrun
    rw [append_nil]
    exact hs
  | cons event events ih =>
    obtain ⟨next, hnext, hrest⟩ := run_cons hrun
    rw [append_cons]
    exact ih (past ++ [event]) hrest (hstep past s next event hs hnext)

theorem run_invariant {P : σ → Prop}
    (hstep : ∀ s t event, P s → step s event = some t → P t) {events : List ε}
    (hrun : run step s events = some t) (hs : P s) : P t :=
  run_history (P := fun _ => P) (fun _ => hstep) [] hrun hs

end Runs

variable {ι : Type*} {holds after : ι → List Nat} {used : List Nat} {next : Nat}

/-- Tokens below `next` have been made, `holds i` are those at place `i` and `used` those already
    used, in order. -/
structure Ledger (holds : ι → List Nat) (used : List Nat) (next : Nat) : Prop where
  nodup : ∀ i, (holds i).Nodup
  apart : ∀ i j, i ≠ j → (holds i).Disjoint (holds j)
  unused : ∀ i, (holds i).Disjoint used
  once : used.Nodup
  held_made : ∀ i, ∀ c ∈ holds i, c < next
  used_made : ∀ c ∈ used, c < next

namespace Ledger

theorem empty (next : Nat) : Ledger (fun _ : ι => []) [] next where
  nodup _ := nodup_nil
  apart _ _ _ := disjoint_nil_left _
  unused _ := disjoint_nil_left _
  once := nodup_nil
  held_made _ _ h := absurd h not_mem_nil
  used_made _ h := absurd h not_mem_nil

/-- A new token appears at a place that held none. -/
theorem mint (h : Ledger holds used next) (i : ι) (hbefore : holds i = [])
    (hnew : after i = [next]) (hothers : ∀ j, j ≠ i → after j = holds j) :
    Ledger after used (next + 1) := by
  -- no place holds the new number and no use has it
  have hfresh : ∀ j, next ∉ holds j := fun j hmem => (h.held_made j next hmem).false
  have hcases : ∀ j, (j = i ∧ after j = [next]) ∨ (j ≠ i ∧ after j = holds j) := by
    intro j
    by_cases hj : j = i
    · exact .inl ⟨hj, hj ▸ hnew⟩
    · exact .inr ⟨hj, hothers j hj⟩
  refine ⟨fun j => ?_, fun j k hjk => ?_, fun j => ?_, h.once, fun j c hc => ?_,
    fun c hc => (h.used_made c hc).trans (Nat.lt_succ_self _)⟩
  · obtain ⟨_, hj⟩ | ⟨_, hj⟩ := hcases j
    · rw [hj]
      exact nodup_singleton next
    · rw [hj]
      exact h.nodup j
  · obtain ⟨rfl, hj⟩ | ⟨_, hj⟩ := hcases j
    · rw [hj, hothers k (Ne.symm hjk)]
      exact singleton_disjoint.2 (hfresh k)
    · obtain ⟨rfl, hk⟩ | ⟨_, hk⟩ := hcases k
      · rw [hj, hk]
        exact disjoint_singleton.2 (hfresh j)
      · rw [hj, hk]
        exact h.apart j k hjk
  · obtain ⟨_, hj⟩ | ⟨_, hj⟩ := hcases j
    · rw [hj]
      exact singleton_disjoint.2 fun hmem => (h.used_made next hmem).false
    · rw [hj]
      exact h.unused j
  · obtain ⟨_, hj⟩ | ⟨_, hj⟩ := hcases j
    · rw [hj, mem_singleton] at hc
      omega
    · rw [hj] at hc
      exact (h.held_made j c hc).trans (Nat.lt_succ_self _)

/-- The tokens of each place that are not dropped go to one `target`. -/
theorem relocate (h : Ledger holds used next) (target : ι → ι) (hnodup : ∀ i, (after i).Nodup)
    (hfrom : ∀ i, ∀ c ∈ after i, ∃ j, target j = i ∧ c ∈ holds j) : Ledger after used next := by
  refine ⟨hnodup, fun i j hij c hi hj => ?_, fun i c hc => ?_, h.once, fun i c hc => ?_,
    h.used_made⟩
  · obtain ⟨k, rfl, hk⟩ := hfrom i c hi
    obtain ⟨l, rfl, hl⟩ := hfrom j c hj
    exact h.apart k l (fun e => hij (e ▸ rfl)) hk hl
  · obtain ⟨j, -, hj⟩ := hfrom i c hc
    exact h.unused j hj
  · obtain ⟨j, -, hj⟩ := hfrom i c hc
    exact h.held_made j c hj

/-- Tokens are dropped. -/
theorem drop (h : Ledger holds used next) (hsub : ∀ i, List.Sublist (after i) (holds i)) :
    Ledger after used next :=
  h.relocate id (fun i => (h.nodup i).sublist (hsub i)) fun i _ hc => ⟨i, rfl, (hsub i).subset hc⟩

open Classical in
/-- The tokens of the places in `source` are gathered at a place that held none. -/
theorem gather (h : Ledger holds used next) (source : ι → Prop) (i : ι)
    (hnodup : (after i).Nodup) (hfrom : ∀ c ∈ after i, ∃ j, source j ∧ c ∈ holds j)
    (hemptied : ∀ j, source j → j ≠ i → after j = [])
    (hothers : ∀ j, ¬ source j → j ≠ i → after j = holds j) : Ledger after used next := by
  have hsub : ∀ j, j ≠ i → List.Sublist (after j) (holds j) := by
    intro j hj
    by_cases hs : source j
    · rw [hemptied j hs hj]
      exact nil_sublist _
    · rw [hothers j hs hj]
  refine h.relocate (fun j => if source j then i else j) (fun j => ?_) fun j c hc => ?_
  · by_cases hj : j = i
    · exact hj ▸ hnodup
    · exact (h.nodup j).sublist (hsub j hj)
  · by_cases hj : j = i
    · subst hj
      obtain ⟨k, hk, hck⟩ := hfrom c hc
      exact ⟨k, if_pos hk, hck⟩
    · have hs : ¬ source j := fun hs => by simp [hemptied j hs hj] at hc
      exact ⟨j, if_neg hs, (hsub j hj).subset hc⟩

/-- The first token of a place is used. -/
theorem use (h : Ledger holds used next) (i : ι) {c : Nat} (hbefore : holds i = c :: after i)
    (hothers : ∀ j, j ≠ i → after j = holds j) : Ledger after (used ++ [c]) next := by
  have hsub : ∀ j, List.Sublist (after j) (holds j) := by
    intro j
    by_cases hj : j = i
    · rw [hj, hbefore]
      exact sublist_cons_self c _
    · rw [hothers j hj]
  have hc : c ∈ holds i := by simp [hbefore]
  have hkept := h.drop hsub
  -- the place itself held it once, the others not at all
  have hgone : ∀ j, c ∉ after j := by
    intro j hmem
    by_cases hj : j = i
    · subst hj
      have hnodup := h.nodup j
      rw [hbefore] at hnodup
      exact (nodup_cons.1 hnodup).1 hmem
    · rw [hothers j hj] at hmem
      exact h.apart j i hj hmem hc
  refine ⟨hkept.nodup, hkept.apart, fun j => ?_, ?_, hkept.held_made, fun d hd => ?_⟩
  · exact disjoint_append_right.2 ⟨hkept.unused j, disjoint_singleton.2 (hgone j)⟩
  · refine h.once.append (nodup_singleton c) (disjoint_singleton.2 fun hused => ?_)
    exact h.unused i hc hused
  · obtain hold | hnew := mem_append.1 hd
    · exact h.used_made d hold
    · rw [mem_singleton.1 hnew]
      exact h.held_made i c hc

end Ledger

end MutsukiRuntime.Interleaving
