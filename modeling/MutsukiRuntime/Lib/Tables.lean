/-
  TABLES FILLED FROM A LIST: every element is inserted under its key, later ones over
  earlier ones.

  * `getElem?_fill`: a key holds the value of the last element that has it.
  * `getElem?_fill_eq_none`, `getElem?_fill_of_mem`: what follows
    without knowing which element comes last.
-/
import MutsukiRuntime.Lib.Buckets

namespace Tables

open Std List Option

variable {α κ β : Type} {cmp : κ → κ → Ordering} [TransCmp cmp] [LawfulEqCmp cmp]

def fill (key : α → κ) (value : α → β) (items : List α) (m : ExtTreeMap κ β cmp) :
    ExtTreeMap κ β cmp :=
  items.foldl (fun m x => m.insert (key x) (value x)) m

variable [DecidableEq κ] {key : α → κ} {value : α → β} {items : List α} {m : ExtTreeMap κ β cmp}

theorem getElem?_fill (key : α → κ) (value : α → β) (items : List α) (m : ExtTreeMap κ β cmp)
    (k : κ) :
    (fill key value items m)[k]? =
      ((items.reverse.find? fun x => decide (key x = k)).map value).or m[k]? := by
  induction items using List.reverseRecOn with
  | nil => rfl
  | append_singleton items last ih =>
    rw [fill, foldl_concat, Buckets.getElem?_insert_ite, reverse_concat, find?_cons]
    by_cases hlast : key last = k
    · simp [hlast]
    · rw [if_neg hlast, decide_eq_false hlast]
      exact ih

theorem getElem?_fill_eq_none {k : κ} :
    (fill key value items m)[k]? = none ↔ m[k]? = none ∧ ∀ x ∈ items, key x ≠ k := by
  rw [getElem?_fill, or_eq_none_iff, map_eq_none_iff, find?_eq_none, and_comm]
  simp only [mem_reverse, decide_eq_true_eq]

/-- The element the search for a key ends at. -/
theorem of_find?_reverse {k : κ} {x : α}
    (h : items.reverse.find? (fun x => decide (key x = k)) = some x) : x ∈ items ∧ key x = k := by
  refine ⟨mem_reverse.1 (mem_of_find?_eq_some h), ?_⟩
  simpa using find?_some h

/-- Where all elements of a key have one value, the key holds it. -/
theorem getElem?_fill_of_mem {x : α} (hx : x ∈ items)
    (hsame : ∀ y ∈ items, key y = key x → value y = value x) :
    (fill key value items m)[key x]? = some (value x) := by
  cases h : (fill key value items m)[key x]? with
  | none => exact absurd rfl ((getElem?_fill_eq_none.1 h).2 x hx)
  | some v =>
    rw [getElem?_fill, or_eq_some_iff] at h
    rcases h with h | h
    · obtain ⟨y, hfind, hvalue⟩ := map_eq_some_iff.1 h
      obtain ⟨hmem, hkey⟩ := of_find?_reverse hfind
      rw [← hvalue, hsame y hmem hkey]
    · have hnone := find?_eq_none.1 (map_eq_none_iff.1 h.1) x (mem_reverse.2 hx)
      exact absurd (decide_eq_true rfl) hnone

end Tables
