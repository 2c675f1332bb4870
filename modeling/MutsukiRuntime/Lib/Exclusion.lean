/-
  GRANTS AND THEIR HOLDERS.  Grants are handed out and given back; `held` is what a
  table records of them, `outstanding` what has been handed out and not given back.

  * One rule per kind of edit: a grant (`grant`), a grant given back (`drop`,
    `dropAll`), and an edit of the table that keeps what is recorded (`congr`).

  An edit of the table that forgets a recorded grant meets none of these rules.
-/
import Mathlib.Tactic

namespace Exclusion

variable {α : Type} {compatible : α → α → Prop} {held held' : α → Prop} {outstanding : List α}

/-- The table knows every outstanding grant, and the grants it knows are compatible. -/
structure Covered (compatible : α → α → Prop) (held : α → Prop) (outstanding : List α) :
    Prop where
  nodup : outstanding.Nodup
  known : ∀ a ∈ outstanding, held a
  exclusive : ∀ a b, held a → held b → a ≠ b → compatible a b

theorem Covered.pairwise (h : Covered compatible held outstanding) :
    outstanding.Pairwise compatible :=
  List.Pairwise.imp_of_mem
    (fun ha hb hne => h.exclusive _ _ (h.known _ ha) (h.known _ hb) hne) h.nodup

theorem covered_nil (hnone : ∀ a, ¬ held a) : Covered compatible held [] where
  nodup := List.nodup_nil
  known _ h := by cases h
  exclusive a _ ha := (hnone a ha).elim

section Changes

variable (h : Covered compatible held outstanding)

include h

theorem Covered.congr (hsame : ∀ a, held' a ↔ held a) :
    Covered compatible held' outstanding where
  nodup := h.nodup
  known a ha := (hsame a).2 (h.known a ha)
  exclusive a b ha hb := h.exclusive a b ((hsame a).1 ha) ((hsame b).1 hb)

theorem Covered.grant {granted : α} (hnew : ¬ held granted)
    (hheld : ∀ a, held' a ↔ a = granted ∨ held a)
    (hcompatible : ∀ a, held a → compatible a granted ∧ compatible granted a) :
    Covered compatible held' (granted :: outstanding) where
  nodup := List.nodup_cons.2 ⟨fun hmem => hnew (h.known _ hmem), h.nodup⟩
  known a ha := by
    rw [hheld a]
    exact (List.mem_cons.1 ha).imp id (h.known a)
  exclusive a b ha hb hne := by
    rcases (hheld a).1 ha with rfl | ha
    · have hb : held b := ((hheld b).1 hb).resolve_left (Ne.symm hne)
      exact (hcompatible b hb).2
    · rcases (hheld b).1 hb with rfl | hb
      · exact (hcompatible a ha).1
      · exact h.exclusive a b ha hb hne

theorem Covered.dropAll [DecidableEq α] {given : List α}
    (hheld : ∀ a, held' a ↔ held a ∧ a ∉ given) :
    Covered compatible held' (outstanding.filter (· ∉ given)) where
  nodup := h.nodup.filter _
  known a ha := by
    have hmem := List.mem_filter.1 ha
    exact (hheld a).2 ⟨h.known a hmem.1, of_decide_eq_true hmem.2⟩
  exclusive a b ha hb := h.exclusive a b ((hheld a).1 ha).1 ((hheld b).1 hb).1

theorem Covered.drop [DecidableEq α] {given : α} (hheld : ∀ a, held' a ↔ held a ∧ a ≠ given) :
    Covered compatible held' (outstanding.erase given) := by
  have hall : ∀ a, held' a ↔ held a ∧ a ∉ [given] := by simpa using hheld
  simpa [h.nodup.erase_eq_filter, bne, beq_eq_decide] using h.dropAll hall

end Changes

end Exclusion
