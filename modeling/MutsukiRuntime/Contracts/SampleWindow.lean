/-
  SAMPLE WINDOWS: the ring of the last samples an execution profile keeps.

  `record` writes at `next` and moves it round, so that after a whole turn the slots no
  longer stand in the order of recording.  `recorded` reads the ring from its oldest slot
  on; a step appends the sample and drops what no longer fits (`recorded_record`), and so
  after any run it is the end of the list of samples (`recorded_recordAll`).  A quantile
  sorts the filled slots, and sorting does not see the order they stand in.
-/
import Mathlib.Algebra.Order.Floor.Div
import Mathlib.Data.List.Rotate
import Mathlib.Data.List.Sort
import Mathlib.Tactic

namespace MutsukiRuntime

open List

/-- `EXECUTION_PROFILE_WINDOW_CAPACITY`. -/
def windowCapacity : Nat := 32

/-- The samples are `u64` and only ever compared. -/
structure FixedSampleWindow where
  samples : List Nat
  next : Nat
  len : Nat
  length_samples : samples.length = windowCapacity
  next_lt : next < windowCapacity
  len_le : len ≤ windowCapacity
  -- until the first turn is over the slots are filled from the left
  filling : len < windowCapacity → next = len

namespace FixedSampleWindow

/-- `Default`. -/
def empty : FixedSampleWindow where
  samples := replicate windowCapacity 0
  next := 0
  len := 0
  length_samples := length_replicate
  next_lt := by decide
  len_le := by decide
  filling := fun _ => rfl

def record (window : FixedSampleWindow) (sample : Nat) : FixedSampleWindow where
  samples := window.samples.set window.next sample
  next := (window.next + 1) % windowCapacity
  -- `saturating_add` on a `u8`
  len := min (min (window.len + 1) 255) windowCapacity
  length_samples := by rw [length_set, window.length_samples]
  next_lt := Nat.mod_lt _ (by decide)
  len_le := Nat.min_le_right _ _
  filling := by
    intro h
    unfold windowCapacity at h ⊢
    have hnext := window.filling (by unfold windowCapacity; omega)
    omega

def isEmpty (window : FixedSampleWindow) : Bool := window.len == 0

/-- `quantile`; the index is in bounds (`quantile_eq`), so that only an empty window has none. -/
def quantile (window : FixedSampleWindow) (percentile : Nat) : Option Nat :=
  if window.isEmpty then none
  else
    let sorted := (window.samples.take window.len).insertionSort (· ≤ ·) ++
      replicate (windowCapacity - window.len) 0
    let rank := (min percentile 100 * (window.len - 1) + 99) / 100
    sorted[rank]?

/-- The window after a run of samples. -/
def recordAll (samples : List Nat) : FixedSampleWindow := samples.foldl record empty

/-- The samples in the window, oldest first. -/
def recorded (window : FixedSampleWindow) : List Nat :=
  (window.samples.rotate window.next).drop (windowCapacity - window.len)

variable (window : FixedSampleWindow)

theorem length_recorded : window.recorded.length = window.len := by
  have hlen := window.len_le
  unfold recorded
  rw [length_drop, length_rotate, window.length_samples]
  omega

/-- Writing the oldest slot of a ring and moving on puts the sample last. -/
theorem rotate_set {α : Type} (slots : List α) {i : Nat} (hi : i < slots.length) (sample : α) :
    (slots.set i sample).rotate (i + 1) = (slots.rotate i).tail ++ [sample] := by
  have hlength : i + 1 ≤ (slots.set i sample).length := by rw [length_set]; omega
  have hdrop : (slots.set i sample).drop (i + 1) = slots.drop (i + 1) :=
    drop_set_of_lt (Nat.lt_succ_self i)
  have htake : (slots.set i sample).take (i + 1) = slots.take i ++ [sample] := by
    rw [take_set, take_succ_eq_append_getElem hi, set_append_right _ _ (by simp)]
    simp [hi.le]
  rw [rotate_eq_drop_append_take hlength, rotate_eq_drop_append_take hi.le, hdrop, htake,
    drop_eq_getElem_cons hi, cons_append, tail_cons, append_assoc]

/-- A step appends the sample; a full window drops its oldest one. -/
theorem recorded_record (sample : Nat) : (window.record sample).recorded =
    (window.recorded ++ [sample]).drop (window.len + 1 - windowCapacity) := by
  have hlength := window.length_samples
  have hnext : window.next < window.samples.length := by rw [hlength]; exact window.next_lt
  have hmod : (window.record sample).next =
      (window.next + 1) % (window.samples.set window.next sample).length := by
    rw [length_set, hlength]; rfl
  have hring : (window.record sample).samples.rotate (window.record sample).next =
      (window.samples.rotate window.next).tail ++ [sample] := by
    rw [hmod]
    exact (rotate_mod _ _).trans (rotate_set _ hnext sample)
  have hsize : (window.samples.rotate window.next).length = windowCapacity := by
    rw [length_rotate, hlength]
  have hle := window.len_le
  have hlen : (window.record sample).len = min (min (window.len + 1) 255) windowCapacity := rfl
  unfold recorded
  rw [hring, hlen]
  generalize window.samples.rotate window.next = ring at hsize ⊢
  unfold windowCapacity at hsize hle ⊢
  rw [drop_append_of_le_length (by simp; omega), ← drop_one, drop_drop]
  rcases Nat.lt_or_ge window.len 32 with hroom | hfull
  · rw [show window.len + 1 - 32 = 0 by omega, drop_zero]
    congr 2
    omega
  · rw [show window.len + 1 - 32 = 1 by omega, drop_append_of_le_length (by simp; omega), drop_drop]
    congr 2
    omega

theorem recorded_recordAll (samples : List Nat) :
    (recordAll samples).recorded = samples.drop (samples.length - windowCapacity) := by
  induction samples using reverseRecOn with
  | nil => rfl
  | append_singleton samples sample ih =>
    have hstep : recordAll (samples ++ [sample]) = (recordAll samples).record sample :=
      foldl_concat ..
    have hlen := (recordAll samples).length_recorded
    rw [ih, length_drop] at hlen
    rw [hstep, recorded_record, ih, ← hlen, ← drop_append_of_le_length (Nat.sub_le _ _), drop_drop,
      length_append, length_singleton]
    congr 1
    omega

/-- The filled slots hold the recorded samples, in another order. -/
theorem recorded_perm : window.recorded.Perm (window.samples.take window.len) := by
  have hlength := window.length_samples
  unfold recorded
  rcases Nat.lt_or_ge window.len windowCapacity with hroom | hfull
  · -- the ring turned to `next` starts with the slots not yet written
    have hunwritten : (window.samples.drop window.len).length = windowCapacity - window.len := by
      rw [length_drop, hlength]
    rw [window.filling hroom, rotate_eq_drop_append_take (by omega), ← hunwritten, drop_left]
  · rw [Nat.sub_eq_zero_of_le hfull, drop_zero, take_of_length_le (by omega)]
    exact rotate_perm _ _

/-- The k-th smallest entry of a list, counted from 0. -/
def kthSmallest (samples : List Nat) (k : Nat) : Option Nat := (samples.insertionSort (· ≤ ·))[k]?

theorem kthSmallest_perm {samples samples' : List Nat} (h : samples.Perm samples') (k : Nat) :
    kthSmallest samples k = kthSmallest samples' k := by
  have hperm : (samples.insertionSort (· ≤ ·)).Perm (samples'.insertionSort (· ≤ ·)) :=
    ((perm_insertionSort _ _).trans h).trans (perm_insertionSort _ _).symm
  unfold kthSmallest
  rw [hperm.eq_of_sortedLE sortedLE_insertionSort sortedLE_insertionSort]

theorem kthSmallest_mono (samples : List Nat) {j k low high : Nat} (hjk : j ≤ k)
    (hlow : kthSmallest samples j = some low) (hhigh : kthSmallest samples k = some high) :
    low ≤ high := by
  obtain ⟨hj, rfl⟩ := List.getElem?_eq_some_iff.1 hlow
  obtain ⟨hk, rfl⟩ := List.getElem?_eq_some_iff.1 hhigh
  exact sortedLE_insertionSort.getElem_le_getElem_of_le hjk

/-- The rank of a percentile among `len` samples. -/
def rank (percentile len : Nat) : Nat := percentile * (len - 1) ⌈/⌉ 100

theorem rank_le {percentile : Nat} (h : percentile ≤ 100) (len : Nat) :
    rank percentile len ≤ len - 1 :=
  (ceilDiv_le_iff_le_mul (by decide)).2 (Nat.mul_le_mul_right _ h)

theorem rank_mono {percentile percentile' : Nat} (h : percentile ≤ percentile') (len : Nat) :
    rank percentile len ≤ rank percentile' len :=
  (gc_mul_ceilDiv (by decide)).monotone_l (Nat.mul_le_mul_right _ h)

theorem quantile_eq (percentile : Nat) : window.quantile percentile =
    kthSmallest window.recorded (rank (min percentile 100) window.len) := by
  have hrank := rank_le (Nat.min_le_right percentile 100) window.len
  have hlen : ((window.samples.take window.len).insertionSort (· ≤ ·)).length = window.len := by
    rw [length_insertionSort, ← window.recorded_perm.length_eq, window.length_recorded]
  rw [kthSmallest_perm window.recorded_perm]
  unfold quantile isEmpty kthSmallest
  split
  · next hnone =>
    have hzero : window.len = 0 := by simpa using hnone
    simp [hzero]
  · next hsome =>
    have hpos : window.len ≠ 0 := by simpa using hsome
    exact getElem?_append_left (by rw [hlen]; show rank _ _ < _; omega)

theorem quantile_isSome (percentile : Nat) (h : window.len ≠ 0) :
    (window.quantile percentile).isSome = true := by
  have hrank := rank_le (Nat.min_le_right percentile 100) window.len
  rw [quantile_eq, kthSmallest, isSome_getElem?, length_insertionSort, length_recorded]
  omega

/-- After any run the window holds the last samples, as many as fit.  A quantile is the sample
    of its rank among them, and grows with the percentile. -/
theorem window_quantiles (samples : List Nat) (percentile : Nat) (hp : percentile ≤ 100) :
    (recordAll samples).len = min samples.length 32 ∧
    let window := recordAll samples
    let last := samples.drop (samples.length - windowCapacity)
    window.recorded = last ∧
    (window.samples.take window.len).Perm last ∧
    window.quantile percentile = kthSmallest last (percentile * (window.len - 1) ⌈/⌉ 100) ∧
    (samples ≠ [] → (window.quantile percentile).isSome = true) ∧
    ∀ percentile', percentile ≤ percentile' → ∀ low high, window.quantile percentile = some low →
      window.quantile percentile' = some high → low ≤ high := by
  have hrecorded := recorded_recordAll samples
  have hlen : (recordAll samples).len = min samples.length 32 := by
    rw [← length_recorded, hrecorded, length_drop]
    unfold windowCapacity
    omega
  refine ⟨hlen, hrecorded, ?_, ?_, fun hne => quantile_isSome _ percentile ?_, ?_⟩
  · rw [← hrecorded]
    exact (recordAll samples).recorded_perm.symm
  · rw [quantile_eq, hrecorded, Nat.min_eq_left hp]
    rfl
  · have hpos := length_pos_iff.2 hne
    omega
  · intro percentile' hle low high hlow hhigh
    rw [quantile_eq] at hlow hhigh
    exact kthSmallest_mono _ (rank_mono (by omega) _) hlow hhigh

theorem window_quantiles_median :
    (recordAll [30, 10, 20]).quantile 50 = kthSmallest [30, 10, 20] 1 ∧
      kthSmallest [30, 10, 20] 1 = some 20 :=
  ⟨(window_quantiles [30, 10, 20] 50 (by decide)).2.2.2.1, by decide +kernel⟩

end FixedSampleWindow

end MutsukiRuntime
