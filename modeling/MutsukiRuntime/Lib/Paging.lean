/-
  READING A NUMBERED LOG PAGE BY PAGE.

  A log gives every record the next number and may lose any of them; what it holds at
  some time is a `Snapshot`.  A reader asks for the records after its cursor, at most
  `limit` of them, and goes on from where the page ends.

  * `Followed`: what a reader knows after any number of pages of a log that changes
    in between.  A page keeps it (`Followed.read`), and so does every change after
    which the log holds no record that it had lost (`Followed.change`).
-/
import Mathlib.Order.Interval.Finset.Nat
import Mathlib.Tactic

namespace Paging

open List

variable {α : Type}

/-! ## One page -/

/-- What a log holds, and the last number it has given. -/
structure Snapshot (α : Type) where
  records : List α
  last : Nat

/-- The numbers increase, up to the last one given. -/
structure Snapshot.Ok (seq : α → Nat) (s : Snapshot α) : Prop where
  ordered : s.records.Pairwise fun a b => seq a < seq b
  bounded : ∀ x ∈ s.records, seq x ≤ s.last

section Page

variable (seq : α → Nat) (s : Snapshot α) (cursor limit : Nat)

/-- The records after the cursor. -/
def pending : List α := s.records.filter (cursor < seq ·)

/-- The records of a page. -/
def items : List α := (pending seq s cursor).take limit

/-- Where the page ends: at its last record, or else at the end of the log. -/
def next : Nat :=
  match (items seq s cursor limit).getLast? with
  | some x => seq x
  | none => max cursor s.last

end Page

variable {seq : α → Nat} {s t : Snapshot α} {cursor limit : Nat} {x : α}

theorem mem_pending : x ∈ pending seq s cursor ↔ x ∈ s.records ∧ cursor < seq x := by
  simp [pending]

theorem mem_items (h : x ∈ items seq s cursor limit) : x ∈ s.records ∧ cursor < seq x :=
  mem_pending.1 (mem_of_mem_take h)

theorem Snapshot.Ok.items_ordered (h : s.Ok seq) :
    (items seq s cursor limit).Pairwise fun a b => seq a < seq b :=
  h.ordered.sublist ((take_sublist _ _).trans filter_sublist)

/-- The two kinds of page. -/
theorem next_cases (seq : α → Nat) (s : Snapshot α) (cursor limit : Nat) :
    (items seq s cursor limit = [] ∧ next seq s cursor limit = max cursor s.last) ∨
    ∃ front x, items seq s cursor limit = front ++ [x] ∧ next seq s cursor limit = seq x := by
  rcases eq_nil_or_concat (items seq s cursor limit) with hnil | ⟨front, x, hitems⟩
  · left
    simp [next, hnil]
  · right
    refine ⟨front, x, by simpa using hitems, ?_⟩
    simp [next, hitems]

theorem cursor_le_next : cursor ≤ next seq s cursor limit := by
  rcases next_cases seq s cursor limit with ⟨-, hnext⟩ | ⟨front, x, hitems, hnext⟩
  · rw [hnext]
    exact le_max_left _ _
  · have hx : x ∈ items seq s cursor limit := by
      rw [hitems]
      simp
    rw [hnext]
    exact (mem_items hx).2.le

theorem next_le (h : s.Ok seq) : next seq s cursor limit ≤ max cursor s.last := by
  rcases next_cases seq s cursor limit with ⟨-, hnext⟩ | ⟨front, x, hitems, hnext⟩
  · exact hnext.le
  · have hx : x ∈ items seq s cursor limit := by
      rw [hitems]
      simp
    rw [hnext]
    exact (h.bounded x (mem_items hx).1).trans (le_max_right _ _)

/-- A page ends at its last record. -/
theorem le_next (h : s.Ok seq) (hx : x ∈ items seq s cursor limit) :
    seq x ≤ next seq s cursor limit := by
  rcases next_cases seq s cursor limit with ⟨hnil, -⟩ | ⟨front, y, hitems, hnext⟩
  · rw [hnil] at hx
    cases hx
  · have hordered : (items seq s cursor limit).Pairwise fun a b => seq a < seq b := h.items_ordered
    rw [hitems, pairwise_append] at hordered
    rw [hitems, mem_append, mem_singleton] at hx
    rw [hnext]
    rcases hx with hx | rfl
    · exact (hordered.2.2 x hx y (by simp)).le
    · exact le_rfl

/-- No record that is held is skipped. -/
theorem mem_items_of_le_next (h : s.Ok seq) (hlimit : 1 ≤ limit) (hx : x ∈ s.records)
    (hcursor : cursor < seq x) (hnext : seq x ≤ next seq s cursor limit) :
    x ∈ items seq s cursor limit := by
  have hpending : x ∈ pending seq s cursor := mem_pending.2 ⟨hx, hcursor⟩
  have hsplit : items seq s cursor limit ++ (pending seq s cursor).drop limit =
      pending seq s cursor := take_append_drop _ _
  rw [← hsplit, mem_append] at hpending
  rcases hpending with hin | hlater
  · exact hin
  -- a record after the page is after its last record
  · exfalso
    rcases next_cases seq s cursor limit with ⟨hnil, -⟩ | ⟨front, y, hitems, hlast⟩
    · have hempty : pending seq s cursor = [] := by
        rcases take_eq_nil_iff.1 hnil with hzero | hempty
        · omega
        · exact hempty
      rw [hempty] at hlater
      simp at hlater
    · have hordered : (pending seq s cursor).Pairwise fun a b => seq a < seq b :=
        h.ordered.sublist filter_sublist
      rw [← hsplit, pairwise_append] at hordered
      have hless := hordered.2.2 y (by rw [hitems]; simp) x hlater
      rw [hlast] at hnext
      omega

/-! ## Pages of a log that changes -/

/-- One page, as its reader keeps it. -/
structure Reading (α : Type) where
  cursor : Nat
  items : List α
  next : Nat

/-- The numbers the page has passed without delivering them. -/
def Reading.lost (seq : α → Nat) (r : Reading α) : Finset Nat :=
  Finset.Ioc r.cursor r.next \ (r.items.map seq).toFinset

/-- The page of a snapshot. -/
def Snapshot.read (seq : α → Nat) (s : Snapshot α) (cursor limit : Nat) : Reading α where
  cursor
  items := items seq s cursor limit
  next := Paging.next seq s cursor limit

theorem Snapshot.Ok.length_add_card_lost (h : s.Ok seq) (cursor limit : Nat) :
    (items seq s cursor limit).length + ((s.read seq cursor limit).lost seq).card =
      next seq s cursor limit - cursor := by
  have hnodup : ((items seq s cursor limit).map seq).Nodup := by
    refine pairwise_map.2 (h.items_ordered.imp ?_)
    exact fun hlt => hlt.ne
  have hsub : ((items seq s cursor limit).map seq).toFinset ⊆
      Finset.Ioc cursor (next seq s cursor limit) := by
    intro n hn
    obtain ⟨x, hx, rfl⟩ := mem_map.1 (mem_toFinset.1 hn)
    exact Finset.mem_Ioc.2 ⟨(mem_items hx).2, le_next h hx⟩
  have hcard := Finset.card_sdiff_add_card_eq_card hsub
  rw [toFinset_card_of_nodup hnodup, length_map, Nat.card_Ioc] at hcard
  show _ + (Finset.Ioc cursor (next seq s cursor limit) \ _).card = _
  rw [Nat.add_comm]
  exact hcard

/-- Everything a reader has been given. -/
def delivered (readings : List (Reading α)) : List α := readings.flatMap (·.items)

theorem delivered_concat (readings : List (Reading α)) (r : Reading α) :
    delivered (readings ++ [r]) = delivered readings ++ r.items := by
  simp [delivered]

/-- `t` is a later state of the log: it has not got back any record that `s` had lost. -/
structure Snapshot.Later (seq : α → Nat) (s t : Snapshot α) : Prop where
  last_le : s.last ≤ t.last
  kept : ∀ x ∈ t.records, seq x ≤ s.last → x ∈ s.records

/-- A reader has followed the log from `start` to `cursor`. -/
structure Followed (seq : α → Nat) (start : Nat) (readings : List (Reading α)) (s : Snapshot α)
    (cursor : Nat) : Prop where
  ordered : (delivered readings).Pairwise fun a b => seq a < seq b
  passed : ∀ r ∈ readings, r.next ≤ cursor
  le_cursor : ∀ x ∈ delivered readings, seq x ≤ cursor
  counted : start + (delivered readings).length +
    (readings.map fun r => (r.lost seq).card).sum = cursor
  never : readings.Pairwise fun r r' => ∀ n ∈ r.lost seq, ∀ x ∈ r'.items, seq x ≠ n
  within : cursor ≤ max start s.last
  complete : ∀ x ∈ s.records, start < seq x → seq x ≤ cursor → x ∈ delivered readings

variable {start : Nat} {readings : List (Reading α)}

theorem followed_nil (seq : α → Nat) (s : Snapshot α) (start : Nat) :
    Followed seq start [] s start where
  ordered := List.Pairwise.nil
  passed _ h := by cases h
  le_cursor _ h := by cases h
  counted := by simp [delivered]
  never := List.Pairwise.nil
  within := le_max_left _ _
  complete _ _ hlt hle := by omega

/-- The next page. -/
theorem Followed.read (h : Followed seq start readings s cursor) (hok : s.Ok seq)
    (hlimit : 1 ≤ limit) :
    Followed seq start (readings ++ [s.read seq cursor limit]) s (next seq s cursor limit) := by
  have hle : cursor ≤ next seq s cursor limit := cursor_le_next
  refine ⟨?_, ?_, ?_, ?_, ?_, ?_, ?_⟩
  · rw [delivered_concat, pairwise_append]
    refine ⟨h.ordered, hok.items_ordered, fun x hx y hy => ?_⟩
    have hx' := h.le_cursor x hx
    have hy' := (mem_items hy).2
    omega
  · exact forall_mem_append.2 ⟨fun r hr => (h.passed r hr).trans hle,
      forall_mem_singleton.2 le_rfl⟩
  · intro x hx
    rw [delivered_concat, mem_append] at hx
    rcases hx with hx | hx
    · exact (h.le_cursor x hx).trans hle
    · exact le_next hok hx
  · have hpage := hok.length_add_card_lost cursor limit
    have hbefore := h.counted
    rw [delivered_concat, length_append, map_append, sum_append]
    simp only [map_cons, map_nil, sum_singleton]
    show start + (_ + (items seq s cursor limit).length) + _ = _
    omega
  · rw [pairwise_append]
    refine ⟨h.never, pairwise_singleton _ _, fun r hr r' hr' n hn x hx => ?_⟩
    rw [mem_singleton.1 hr'] at hx
    have hlost : n ≤ r.next := (Finset.mem_Ioc.1 (Finset.mem_sdiff.1 hn).1).2
    have hend := h.passed r hr
    have hx' := (mem_items hx).2
    omega
  · exact (next_le hok).trans (max_le h.within (le_max_right _ _))
  · intro x hx hstart hend
    rw [delivered_concat, mem_append]
    by_cases hold : seq x ≤ cursor
    · exact .inl (h.complete x hx hstart hold)
    · exact .inr (mem_items_of_le_next hok hlimit hx (by omega) hend)

/-- A change of the log. -/
theorem Followed.change (h : Followed seq start readings s cursor) (hlater : s.Later seq t) :
    Followed seq start readings t cursor := by
  have hwithin := h.within
  have hlast := hlater.last_le
  refine { h with within := by omega, complete := fun x hx hstart hend => ?_ }
  exact h.complete x (hlater.kept x hx (by omega)) hstart hend

/-! ## A log that no longer changes -/

/-- Where they end. -/
def endOf (seq : α → Nat) (s : Snapshot α) : List Nat → Nat → Nat
  | [], cursor => cursor
  | limit :: limits, cursor => endOf seq s limits (next seq s cursor limit)

theorem cursor_le_endOf (limits : List Nat) (cursor : Nat) :
    cursor ≤ endOf seq s limits cursor := by
  induction limits generalizing cursor with
  | nil => exact le_rfl
  | cons limit limits ih => exact cursor_le_next.trans (ih _)

/-- A page that is not empty leaves less to read. -/
theorem length_pending_next (hitems : items seq s cursor limit ≠ []) (hok : s.Ok seq) :
    (pending seq s (next seq s cursor limit)).length < (pending seq s cursor).length := by
  have hle : cursor ≤ next seq s cursor limit := cursor_le_next
  have hpending : pending seq s (next seq s cursor limit) =
      (pending seq s cursor).filter (next seq s cursor limit < seq ·) := by
    unfold pending
    rw [filter_filter]
    refine filter_congr fun x _ => ?_
    by_cases hx : next seq s cursor limit < seq x
    · simp [hx, hle.trans_lt hx]
    · simp [hx]
  obtain ⟨x, hx⟩ := exists_mem_of_ne_nil _ hitems
  rw [hpending, length_filter_lt_length_iff_exists]
  exact ⟨x, mem_of_mem_take hx, by simpa using le_next hok hx⟩

/-- More pages than there is to read reach the end of the log. -/
theorem last_le_endOf (hok : s.Ok seq) {limits : List Nat}
    (hmany : (pending seq s cursor).length < limits.length) :
    s.last ≤ endOf seq s limits cursor := by
  induction limits generalizing cursor with
  | nil => simp at hmany
  | cons limit limits ih =>
    by_cases hitems : items seq s cursor limit = []
    · have hnext : next seq s cursor limit = max cursor s.last := by
        simp [next, hitems]
      have hend : next seq s cursor limit ≤ endOf seq s limits (next seq s cursor limit) :=
        cursor_le_endOf limits _
      show s.last ≤ endOf seq s limits (next seq s cursor limit)
      omega
    · refine ih ?_
      have hless := length_pending_next hitems hok
      rw [length_cons] at hmany
      omega

end Paging
