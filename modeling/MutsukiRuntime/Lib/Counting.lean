/-
  COUNTING: the elements of a list that satisfy a test, counted by a key.
-/
import MutsukiRuntime.Lib.Buckets

namespace Counting

open Std List

variable {α κ : Type}

theorem countP_and_or_of_disjoint (xs : List α) (p q r : α → Bool)
    (hdisjoint : ∀ x, q x = true → r x = false) :
    (xs.countP fun x => p x && q x) + (xs.countP fun x => p x && r x) =
      xs.countP fun x => p x && (q x || r x) := by
  induction xs with
  | nil => rfl
  | cons x xs ih =>
    rw [countP_cons, countP_cons, countP_cons, ← ih]
    have hx := hdisjoint x
    cases p x <;> cases hq : q x <;> cases hr : r x <;> simp_all <;> omega

/-- The counts of distinct keys add up to the count of all of them. -/
theorem sum_countP_key [DecidableEq κ] (xs : List α) (p : α → Bool) (key : α → κ) {keys : List κ}
    (hnd : keys.Nodup) :
    (keys.map fun k => xs.countP fun x => p x && decide (key x = k)).sum =
      xs.countP fun x => p x && decide (key x ∈ keys) := by
  induction keys with
  | nil => simp
  | cons k keys ih =>
    have hdisjoint : ∀ x, decide (key x = k) = true → decide (key x ∈ keys) = false := by
      intro x hx
      rw [decide_eq_true_eq] at hx
      rw [hx]
      exact decide_eq_false (nodup_cons.1 hnd).1
    rw [map_cons, sum_cons, ih (nodup_cons.1 hnd).2, countP_and_or_of_disjoint xs p _ _ hdisjoint]
    simp only [mem_cons, Bool.decide_or]

/-- A map that stores under each key its count holds, over its keys that satisfy `q`, the count
    of the elements with such a key. -/
theorem sum_toList_countP [DecidableEq κ] {cmp : κ → κ → Ordering} [TransCmp cmp]
    [LawfulEqCmp cmp] {counts : ExtTreeMap κ Nat cmp} {xs : List α} {p : α → Bool} {key : α → κ}
    (hcounts : ∀ k, counts.getD k 0 = xs.countP fun x => p x && decide (key x = k))
    (q : κ → Bool) :
    ((counts.toList.filter fun e => q e.1).map (·.2)).sum =
      xs.countP fun x => p x && q (key x) := by
  have hstored : ∀ e ∈ counts.toList.filter fun e => q e.1,
      e.2 = xs.countP fun x => p x && decide (key x = e.1) := by
    intro e he
    have hget := (ExtTreeMap.mem_toList_iff_getElem?_eq_some).1 (mem_filter.1 he).1
    rw [← hcounts e.1, ExtTreeMap.getD_eq_getD_getElem?, hget]
    rfl
  have hkeys : ((counts.toList.filter fun e => q e.1).map (·.1)).Nodup := by
    rw [nodup_iff_pairwise_ne, pairwise_map]
    refine (counts.distinct_keys_toList.filter _).imp fun hne heq => hne ?_
    rw [heq]
    exact ReflCmp.compare_self
  have hsum := sum_countP_key xs p key hkeys
  rw [map_map] at hsum
  rw [map_congr_left hstored]
  refine hsum.trans (countP_congr fun x hx => ?_)
  simp only [Bool.and_eq_true, decide_eq_true_eq, mem_map, mem_filter]
  refine and_congr_right fun hp => ⟨?_, fun hq => ?_⟩
  · rintro ⟨e, ⟨-, hq⟩, he⟩
    exact he ▸ hq
  · -- an element that is counted has its key stored
    have hcounted : counts.getD (key x) 0 ≠ 0 := by
      rw [hcounts (key x)]
      exact (countP_pos_iff.2 ⟨x, hx, by simp [hp]⟩).ne'
    rw [ExtTreeMap.getD_eq_getD_getElem?] at hcounted
    cases hget : counts[key x]? with
    | none => simp [hget] at hcounted
    | some n =>
      exact ⟨(key x, n), ⟨ExtTreeMap.mem_toList_iff_getElem?_eq_some.2 hget, hq⟩, rfl⟩

end Counting
