/-
  POSITIONS IN BLOCKS.  A list of blocks laid end to end: block `j` of `l` has `size l[j]`
  places, and starts where the blocks before it end.

  * `getElem?_flatMap_of_at`, `getElem?_owners`: reading the places, and the blocks they
    belong to.
-/
import Mathlib.Tactic

namespace Offsets

open List

variable {α β : Type} {size : α → Nat}

/-- The start of a block. -/
def offset (size : α → Nat) (l : List α) (j : Nat) : Nat := ((l.take j).map size).sum

/-- Place `k` is the `i`-th of block `j`. -/
def At (size : α → Nat) (l : List α) (k j i : Nat) : Prop :=
  ∃ a, l[j]? = some a ∧ i < size a ∧ k = offset size l j + i

@[simp] theorem offset_zero (l : List α) : offset size l 0 = 0 := rfl

@[simp] theorem offset_cons_succ (a : α) (l : List α) (j : Nat) :
    offset size (a :: l) (j + 1) = size a + offset size l j := by
  simp [offset]

theorem not_at_nil (k j i : Nat) : ¬ At size [] k j i := by
  rintro ⟨a, ha, -⟩
  simp at ha

theorem at_cons_zero (a : α) (l : List α) (k i : Nat) :
    At size (a :: l) k 0 i ↔ i < size a ∧ k = i := by
  simp [At]

theorem at_cons_succ (a : α) (l : List α) (k j i : Nat) :
    At size (a :: l) k (j + 1) i ↔ size a ≤ k ∧ At size l (k - size a) j i := by
  simp only [At, getElem?_cons_succ, offset_cons_succ]
  constructor
  · rintro ⟨b, hb, hi, rfl⟩
    exact ⟨by omega, b, hb, hi, by omega⟩
  · rintro ⟨hk, b, hb, hi, he⟩
    exact ⟨b, hb, hi, by omega⟩

/-- Every place belongs to a block. -/
theorem exists_at {l : List α} {k : Nat} (hk : k < (l.map size).sum) : ∃ j i, At size l k j i := by
  induction l generalizing k with
  | nil => simp at hk
  | cons a l ih =>
    by_cases hfirst : k < size a
    · exact ⟨0, k, (at_cons_zero a l k k).2 ⟨hfirst, rfl⟩⟩
    · have hrest : k - size a < (l.map size).sum := by
        simp only [map_cons, sum_cons] at hk
        omega
      obtain ⟨j, i, h⟩ := ih hrest
      exact ⟨j + 1, i, (at_cons_succ a l k j i).2 ⟨by omega, h⟩⟩

/-- A place belongs to one block only. -/
theorem At.unique {l : List α} {k j i j' i' : Nat} (h : At size l k j i)
    (h' : At size l k j' i') : j = j' ∧ i = i' := by
  induction l generalizing k j j' with
  | nil => exact absurd h (not_at_nil k j i)
  | cons a l ih =>
    cases j with
    | zero =>
      obtain ⟨hi, rfl⟩ := (at_cons_zero a l k i).1 h
      cases j' with
      | zero => exact ⟨rfl, ((at_cons_zero a l k i').1 h').2⟩
      | succ j' =>
        obtain ⟨hk, -⟩ := (at_cons_succ a l k j' i').1 h'
        omega
    | succ j =>
      obtain ⟨hk, h⟩ := (at_cons_succ a l k j i).1 h
      cases j' with
      | zero =>
        obtain ⟨hi, rfl⟩ := (at_cons_zero a l k i').1 h'
        omega
      | succ j' =>
        obtain ⟨-, h'⟩ := (at_cons_succ a l k j' i').1 h'
        obtain ⟨rfl, rfl⟩ := ih h h'
        exact ⟨rfl, rfl⟩

/-- What stands at a place. -/
theorem getElem?_flatMap_of_at {f : α → List β} {l : List α} {k j i : Nat} {a : α}
    (h : At (fun a => (f a).length) l k j i) (ha : l[j]? = some a) :
    (l.flatMap f)[k]? = (f a)[i]? := by
  induction l generalizing k j with
  | nil => simp at ha
  | cons b l ih =>
    rw [flatMap_cons]
    cases j with
    | zero =>
      obtain ⟨hi, rfl⟩ := (at_cons_zero b l k i).1 h
      cases ha
      exact getElem?_append_left hi
    | succ j =>
      obtain ⟨hk, h⟩ := (at_cons_succ b l k j i).1 h
      rw [getElem?_append_right hk]
      exact ih h ha

/-- The blocks that the places belong to, in order. -/
def owners (size : α → Nat) (l : List α) : List Nat :=
  (l.mapIdx fun index a => List.replicate (size a) index).flatten

theorem getElem?_owners_from (l : List α) (start k j : Nat) :
    ((l.mapIdx fun index a => List.replicate (size a) (start + index)).flatten)[k]? =
        some (start + j) ↔ ∃ i, At size l k j i := by
  induction l generalizing start k j with
  | nil => simp [not_at_nil]
  | cons a l ih =>
    have hshift : (l.mapIdx fun index a => List.replicate (size a) (start + (index + 1))) =
        l.mapIdx fun index a => List.replicate (size a) (start + 1 + index) := by
      simp only [Nat.add_assoc, Nat.add_comm 1]
    rw [mapIdx_cons, flatten_cons, hshift]
    by_cases hfirst : k < size a
    · rw [getElem?_append_left (by simpa using hfirst)]
      rw [getElem?_replicate, if_pos hfirst]
      cases j with
      | zero => simp [at_cons_zero, hfirst]
      | succ j =>
        have hnot : ¬ size a ≤ k := by omega
        simp [at_cons_succ, hnot]
    · have hle : size a ≤ k := by omega
      rw [getElem?_append_right (by simpa using hle), length_replicate]
      cases j with
      | zero =>
        have hnone : ∀ i, ¬ At size (a :: l) k 0 i := by
          intro i h
          obtain ⟨hi, rfl⟩ := (at_cons_zero a l k i).1 h
          omega
        simp only [hnone, exists_false, iff_false]
        intro hsome
        obtain ⟨block, hblock, hmem⟩ := mem_flatten.1 (mem_of_getElem? hsome)
        obtain ⟨n, hn, rfl⟩ := mem_mapIdx.1 hblock
        have := eq_of_mem_replicate hmem
        omega
      | succ j =>
        have hstart : start + (j + 1) = start + 1 + j := by omega
        rw [hstart, ih (start + 1) (k - size a) j]
        simp [at_cons_succ, hle]

theorem getElem?_owners (l : List α) (k j : Nat) :
    (owners size l)[k]? = some j ↔ ∃ i, At size l k j i := by
  have h := @getElem?_owners_from α size l 0 k j
  simpa only [owners, Nat.zero_add] using h

end Offsets
