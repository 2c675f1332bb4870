/-
  K-WAY MERGE: visiting the due keys of several sorted queues in order, driven by
  a heap that holds the head of each queue.

  * `merge` seeds the heap and runs `mergeLoop`; `visit` may stop the loop.

  The fuel of `mergeLoop` is the number of keys, and every iteration uses one.
-/
import Mathlib.Tactic

namespace KMerge

open Std List

variable {κ β : Type}

/-! ## The key order -/

section Order

variable [Ord κ]

abbrev le (a b : κ) : Prop := (compare a b).isLE = true

variable [TransOrd κ]

theorem le_trans' {a b c : κ} (h : le a b) (h' : le b c) : le a c := TransCmp.isLE_trans h h'

theorem le_refl' (a : κ) : le a a := by
  simp [le]

theorem le_total' (a b : κ) : le a b ∨ le b a := by
  unfold le
  cases h : compare a b with
  | lt | eq => exact .inl rfl
  | gt =>
    rw [OrientedCmp.gt_iff_lt] at h
    rw [h]
    exact .inr rfl

end Order

/-! ## The merge -/

section Merge

variable [Ord κ] [DecidableEq κ]

/-- An entry of the heap: a key and the queue it came from. -/
structure HeapEntry (κ : Type) where
  key : κ
  index : Nat
  deriving DecidableEq

/-- The order of the pairs `(key, index)`. -/
def HeapEntry.before (a b : HeapEntry κ) : Bool :=
  match compare a.key b.key with
  | .lt => true
  | .eq => decide (a.index ≤ b.index)
  | .gt => false

/-- A least entry of a non-empty heap. -/
def heapLeast : HeapEntry κ → List (HeapEntry κ) → HeapEntry κ
  | e, [] => e
  | e, x :: xs => heapLeast (if e.before x then e else x) xs

/-- Pops a least entry. -/
def heapPop : List (HeapEntry κ) → Option (HeapEntry κ × List (HeapEntry κ))
  | [] => none
  | e :: heap => some (heapLeast e heap, (e :: heap).erase (heapLeast e heap))

/-- Takes the next key of a queue and pushes it onto the heap if it is due. -/
def pushNext (due : κ → Bool) (index : Nat) (queues : List (List κ)) (heap : List (HeapEntry κ)) :
    List (List κ) × List (HeapEntry κ) :=
  match queues[index]? with
  | some (key :: rest) =>
    (queues.set index rest, if due key then ⟨key, index⟩ :: heap else heap)
  | _ => (queues, heap)

/-- Seeds the heap with the head of every queue. -/
def seedHeap (due : κ → Bool) (queues : List (List κ)) : List (List κ) × List (HeapEntry κ) :=
  (List.range queues.length).foldl (fun s index => pushNext due index s.1 s.2) (queues, [])

/-- Pops until the heap is empty or `visit` says stop. -/
def mergeLoop (due : κ → Bool) (visit : β → κ → β × Bool) :
    Nat → List (List κ) → List (HeapEntry κ) → β → β
  | 0, _, _, acc => acc
  | fuel + 1, queues, heap, acc =>
    match heapPop heap with
    | none => acc
    | some (entry, heap) =>
      let visited := visit acc entry.key
      if visited.2 then
        let next := pushNext due entry.index queues heap
        mergeLoop due visit fuel next.1 next.2 visited.1
      else visited.1

def merge (due : κ → Bool) (visit : β → κ → β × Bool) (queues : List (List κ)) (acc : β) : β :=
  let seeded := seedHeap due queues
  mergeLoop due visit (queues.map List.length).sum seeded.1 seeded.2 acc

/-- Visits a list in order until `visit` says stop. -/
def visitAll (visit : β → κ → β × Bool) : List κ → β → β
  | [], acc => acc
  | key :: keys, acc =>
    let visited := visit acc key
    if visited.2 then visitAll visit keys visited.1 else visited.1

/-- The rest of a queue up to its first key that is not due. -/
def dueRest (due : κ → Bool) (queues : List (List κ)) (index : Nat) : List κ :=
  (queues.getD index []).takeWhile due

/-- The keys still to be visited: those on the heap, each with the rest of its queue. -/
def pending (due : κ → Bool) (queues : List (List κ)) (heap : List (HeapEntry κ)) : List κ :=
  heap.flatMap fun e => e.key :: dueRest due queues e.index

/-- Each entry of the heap stands for its own sorted queue. -/
structure Front (queues : List (List κ)) (heap : List (HeapEntry κ)) : Prop where
  nodup : (heap.map (·.index)).Nodup
  sorted : ∀ e ∈ heap, (e.key :: queues.getD e.index []).Pairwise le

end Merge

variable {heap heap' : List (HeapEntry κ)} {queues : List (List κ)} {queue keys : List κ}
  {due due' : κ → Bool} {visit : β → κ → β × Bool} {e : HeapEntry κ} {index : Nat}

/-! ## Queues and visits -/

theorem pushNext_other {j : Nat} (hj : j ≠ index) :
    (pushNext due index queues heap).1.getD j [] = queues.getD j [] := by
  unfold pushNext
  split
  · simp [List.getD, getElem?_set_ne hj.symm]
  · rfl

theorem pushNext_index
    (he : e ∈ (pushNext due index queues heap).2) : e ∈ heap ∨ e.index = index := by
  unfold pushNext at he
  split at he
  · split at he
    · rcases mem_cons.1 he with rfl | he
      · exact .inr rfl
      · exact .inl he
    · exact .inl he
  · exact .inl he

/-- Taking the next key keeps what holds of all keys. -/
theorem pushNext_all {P : κ → Prop} (due : κ → Bool) (hq : ∀ queue ∈ queues, ∀ k ∈ queue, P k)
    (hh : ∀ e ∈ heap, P e.key) (index : Nat) :
    (∀ queue ∈ (pushNext due index queues heap).1, ∀ k ∈ queue, P k) ∧
      ∀ e ∈ (pushNext due index queues heap).2, P e.key := by
  unfold pushNext
  cases hi : queues[index]? with
  | none => exact ⟨hq, hh⟩
  | some queue =>
    have hqueue := hq queue (mem_of_getElem? hi)
    cases queue with
    | nil => exact ⟨hq, hh⟩
    | cons key rest =>
      constructor
      · intro queue hmem k hk
        rcases mem_or_eq_of_mem_set hmem with hmem | rfl
        · exact hq queue hmem k hk
        · exact hqueue k (by simp [hk])
      · intro e he
        dsimp only at he
        split at he
        · rcases mem_cons.1 he with rfl | he
          · exact hqueue key (by simp)
          · exact hh e he
        · exact hh e he

theorem takeWhile_congr
    (h : ∀ key ∈ queue, due' key = due key) : queue.takeWhile due' = queue.takeWhile due := by
  induction queue with
  | nil => rfl
  | cons key queue ih =>
    rw [takeWhile_cons, takeWhile_cons, h key (by simp),
      ih fun key' hkey => h key' (by simp [hkey])]

theorem visitAll_map {ρ : Type} (key : ρ → κ) (records : List ρ) (acc : β) :
    visitAll visit (records.map key) acc =
      visitAll (fun acc r => visit acc (key r)) records acc := by
  induction records generalizing acc with
  | nil => rfl
  | cons r records ih =>
    rw [map_cons, visitAll, visitAll]
    split
    · exact ih _
    · rfl

/-- Keys that `visit` ignores may be dropped. -/
theorem visitAll_filter {p : κ → Bool} {visit' : β → κ → β × Bool}
    (hskip : ∀ acc, ∀ key ∈ keys, p key = false → visit acc key = (acc, true))
    (hsame : ∀ acc, ∀ key ∈ keys, p key = true → visit acc key = visit' acc key) (acc : β) :
    visitAll visit keys acc = visitAll visit' (keys.filter p) acc := by
  induction keys generalizing acc with
  | nil => rfl
  | cons key keys ih =>
    have ih' := ih (fun acc k hk => hskip acc k (by simp [hk]))
      (fun acc k hk => hsame acc k (by simp [hk]))
    cases hp : p key with
    | true =>
      rw [filter_cons_of_pos hp, visitAll, visitAll, hsame acc key (by simp) hp]
      split
      · exact ih' _
      · rfl
    | false =>
      rw [filter_cons_of_neg (by simp [hp]), visitAll, hskip acc key (by simp) hp]
      exact ih' acc

/-! ## The heap -/

section Sorted

variable [Ord κ]

theorem heapLeast_mem (e : HeapEntry κ) (heap : List (HeapEntry κ)) :
    heapLeast e heap ∈ e :: heap := by
  induction heap generalizing e with
  | nil => simp [heapLeast]
  | cons y heap ih =>
    rw [heapLeast]
    rcases mem_cons.1 (ih (if e.before y then e else y)) with h | h
    · rw [h]
      split <;> simp
    · simp [h]

theorem Front.perm (h : Front queues heap) (hp : heap.Perm heap') : Front queues heap' :=
  ⟨(hp.map _).nodup_iff.1 h.nodup, fun e he => h.sorted e (hp.mem_iff.2 he)⟩

theorem Front.tail (h : Front queues (e :: heap)) :
    Front queues heap ∧ e.index ∉ heap.map (·.index) ∧ (queues.getD e.index []).Pairwise le := by
  have hnd := nodup_cons.1 h.nodup
  exact ⟨⟨hnd.2, fun x hx => h.sorted x (by simp [hx])⟩, hnd.1,
    (pairwise_cons.1 (h.sorted e (by simp))).2⟩

/-- Pushing the next key of a queue that is not on the heap moves its due keys to the front. -/
theorem pushNext_spec (due : κ → Bool) (h : Front queues heap)
    (hindex : index ∉ heap.map (·.index)) (hsorted : (queues.getD index []).Pairwise le) :
    Front (pushNext due index queues heap).1 (pushNext due index queues heap).2 ∧
    (pending due (pushNext due index queues heap).1 (pushNext due index queues heap).2).Perm
      (dueRest due queues index ++ pending due queues heap) := by
  have hne : ∀ e ∈ heap, e.index ≠ index := by
    rintro e he rfl
    exact hindex (mem_map.2 ⟨e, he, rfl⟩)
  unfold pushNext
  cases hq : queues[index]? with
  | none =>
    have hrest : dueRest due queues index = [] := by simp [dueRest, List.getD, hq]
    exact ⟨h, by rw [hrest, nil_append]⟩
  | some queue =>
    have hget : queues.getD index [] = queue := by simp [List.getD, hq]
    cases queue with
    | nil =>
      have hrest : dueRest due queues index = [] := by rw [dueRest, hget]; rfl
      exact ⟨h, by rw [hrest, nil_append]⟩
    | cons key rest =>
      have hlt : index < queues.length := (List.getElem?_eq_some_iff.1 hq).1
      -- the other queues are untouched
      have hother : ∀ e ∈ heap, (queues.set index rest).getD e.index [] =
          queues.getD e.index [] := by
        intro e he
        simp [List.getD, getElem?_set_ne (hne e he).symm]
      have hself : (queues.set index rest).getD index [] = rest := by
        simp [List.getD, hlt]
      have hfront : Front (queues.set index rest) heap :=
        ⟨h.nodup, fun e he => by rw [hother e he]; exact h.sorted e he⟩
      have hpending : pending due (queues.set index rest) heap = pending due queues heap := by
        unfold pending dueRest
        apply flatMap_congr
        intro e he
        rw [hother e he]
      cases hd : due key with
      | false =>
        simp only [hd, Bool.false_eq_true, if_false]
        refine ⟨hfront, ?_⟩
        rw [hpending, dueRest, hget, takeWhile_cons_of_neg (by simp [hd]), nil_append]
      | true =>
        simp only [hd, if_true]
        refine ⟨⟨?_, ?_⟩, ?_⟩
        · rw [map_cons, nodup_cons]
          exact ⟨hindex, h.nodup⟩
        · intro e he
          rcases mem_cons.1 he with rfl | he
          · rw [hself, ← hget]
            exact hsorted
          · exact hfront.sorted e he
        · have hcons : pending due (queues.set index rest) (⟨key, index⟩ :: heap) =
              (key :: dueRest due (queues.set index rest) index) ++
                pending due (queues.set index rest) heap := by
            simp [pending]
          rw [hcons, hpending, dueRest, hself, dueRest, hget, takeWhile_cons_of_pos hd]

/-- After seeding, the due keys of all queues are still to be visited. -/
theorem seedHeap_spec (due : κ → Bool) (hsorted : ∀ queue ∈ queues, queue.Pairwise le) :
    Front (seedHeap due queues).1 (seedHeap due queues).2 ∧
    (pending due (seedHeap due queues).1 (seedHeap due queues).2).Perm
      (queues.flatMap (·.takeWhile due)) := by
  have hget : ∀ j, (queues.getD j []).Pairwise le := by
    intro j
    rw [List.getD]
    cases hq : queues[j]? with
    | none => exact List.Pairwise.nil
    | some queue => exact hsorted queue (mem_of_getElem? hq)
  -- the first `k` queues are seeded, the others untouched
  have hprefix : ∀ k, k ≤ queues.length →
      let s := (List.range k).foldl (fun s index => pushNext due index s.1 s.2) (queues, [])
      Front s.1 s.2 ∧ (∀ e ∈ s.2, e.index < k) ∧
      (∀ j, k ≤ j → s.1.getD j [] = queues.getD j []) ∧
      (pending due s.1 s.2).Perm ((queues.take k).flatMap (·.takeWhile due)) := by
    intro k hk
    induction k with
    | zero => exact ⟨⟨nodup_nil, by simp⟩, by simp, fun _ _ => rfl, by simp [pending]⟩
    | succ k ih =>
      obtain ⟨hfront, hlt, hrest, hperm⟩ := ih (by omega)
      rw [range_succ, foldl_append, foldl_cons, foldl_nil]
      generalize (List.range k).foldl (fun s index => pushNext due index s.1 s.2)
        (queues, []) = s at hfront hlt hrest hperm ⊢
      have hindex : k ∉ s.2.map (·.index) := by
        intro hmem
        obtain ⟨e, he, hek⟩ := mem_map.1 hmem
        have := hlt e he
        omega
      have hk' : (s.1.getD k []).Pairwise le := by
        rw [hrest k (Nat.le_refl k)]
        exact hget k
      obtain ⟨hfront', hperm'⟩ := pushNext_spec due hfront hindex hk'
      refine ⟨hfront', ?_, ?_, ?_⟩
      · intro e he
        rcases pushNext_index he with he | he
        · have := hlt e he
          omega
        · omega
      · intro j hj
        rw [pushNext_other (by omega), hrest j (by omega)]
      · refine hperm'.trans ?_
        have htake : queues.take (k + 1) = queues.take k ++ [queues.getD k []] := by
          rw [take_add_one, List.getD]
          have hlt : k < queues.length := by omega
          simp [getElem?_eq_getElem hlt]
        rw [htake, flatMap_append, dueRest, hrest k (Nat.le_refl k)]
        refine perm_append_comm.trans ?_
        simpa using hperm.append_right _
  obtain ⟨hfront, -, -, hperm⟩ := hprefix queues.length (Nat.le_refl _)
  rw [take_length] at hperm
  exact ⟨hfront, hperm⟩

theorem mem_pending (h : Front queues heap) {y : κ} (hy : y ∈ pending due queues heap) :
    ∃ e ∈ heap, y = e.key ∨ le e.key y := by
  obtain ⟨e, he, hmem⟩ := mem_flatMap.1 hy
  refine ⟨e, he, ?_⟩
  rcases mem_cons.1 hmem with hmem | hmem
  · exact .inl hmem
  · exact .inr ((pairwise_cons.1 (h.sorted e he)).1 y (takeWhile_sublist _ |>.mem hmem))

/-- In a sorted queue the due keys come first, if an earlier key is due whenever a later is. -/
theorem takeWhile_eq_filter (hdown : ∀ a b : κ, le a b → due b = true → due a = true)
    (hsorted : queue.Pairwise le) : queue.takeWhile due = queue.filter due := by
  induction queue with
  | nil => rfl
  | cons x queue ih =>
    obtain ⟨hx, hq⟩ := pairwise_cons.1 hsorted
    cases hd : due x with
    | true => rw [takeWhile_cons_of_pos hd, filter_cons_of_pos hd, ih hq]
    | false =>
      rw [takeWhile_cons_of_neg (by simp [hd]), filter_cons_of_neg (by simp [hd])]
      symm
      apply filter_eq_nil_iff.2
      intro y hy hdy
      rw [hdown x y (hx y hy) hdy] at hd
      cases hd

variable [TransOrd κ]

theorem HeapEntry.le_of_before {a b : HeapEntry κ} :
    le (if a.before b then a else b).key a.key ∧ le (if a.before b then a else b).key b.key := by
  unfold HeapEntry.before
  cases h : compare a.key b.key with
  | lt => exact ⟨le_refl' _, by simp [le, h]⟩
  | eq =>
    have h' : compare b.key a.key = .eq := OrientedCmp.eq_symm h
    by_cases hi : a.index ≤ b.index
    · simp [hi, le, h]
    · simp [hi, le, h']
  | gt =>
    have h' : compare b.key a.key = .lt := OrientedCmp.gt_iff_lt.1 h
    exact ⟨by simp [le, h'], le_refl' _⟩

theorem heapLeast_le (e : HeapEntry κ) (heap : List (HeapEntry κ)) :
    ∀ x ∈ e :: heap, le (heapLeast e heap).key x.key := by
  induction heap generalizing e with
  | nil => simpa [heapLeast] using le_refl' e.key
  | cons y heap ih =>
    have hle := ih (if e.before y then e else y)
    have hhead := hle (if e.before y then e else y) (by simp)
    obtain ⟨h1, h2⟩ := HeapEntry.le_of_before (a := e) (b := y)
    intro x hx
    rw [heapLeast]
    rcases mem_cons.1 hx with rfl | hx
    · exact le_trans' hhead h1
    · rcases mem_cons.1 hx with rfl | hx
      · exact le_trans' hhead h2
      · exact hle x (by simp [hx])

end Sorted

/-! ## The loop -/

section Loop

variable [Ord κ] [DecidableEq κ]

/-- What every visit of a queued key keeps, the merge keeps. -/
theorem merge_invariant (P : κ → Prop) (I : β → Prop) (hq : ∀ queue ∈ queues, ∀ k ∈ queue, P k)
    (hvisit : ∀ acc k, P k → I acc → I (visit acc k).1) (acc : β) (h : I acc) :
    I (merge due visit queues acc) := by
  have hloop : ∀ fuel queues heap acc, (∀ queue ∈ queues, ∀ k ∈ queue, P k) →
      (∀ e ∈ heap, P e.key) → I acc → I (mergeLoop due visit fuel queues heap acc) := by
    intro fuel
    induction fuel with
    | zero => exact fun _ _ _ _ _ h => h
    | succ fuel ih =>
      intro queues heap acc hq hh h
      rw [mergeLoop]
      cases hpop : heapPop heap with
      | none => exact h
      | some p =>
        obtain ⟨e, heap'⟩ := p
        have hmem : e ∈ heap ∧ ∀ x ∈ heap', x ∈ heap := by
          cases heap with
          | nil => cases hpop
          | cons y heap =>
            simp only [heapPop, Option.some.injEq, Prod.mk.injEq] at hpop
            obtain ⟨rfl, rfl⟩ := hpop
            exact ⟨heapLeast_mem y heap, fun x hx => mem_of_mem_erase hx⟩
        have hv := hvisit acc e.key (hh e hmem.1) h
        dsimp only
        split
        · obtain ⟨hq', hh'⟩ := pushNext_all due hq (fun x hx => hh x (hmem.2 x hx)) e.index
          exact ih _ _ _ hq' hh' hv
        · exact hv
  have hseed : ∀ (indices : List Nat) (s : List (List κ) × List (HeapEntry κ)),
      (∀ queue ∈ s.1, ∀ k ∈ queue, P k) → (∀ e ∈ s.2, P e.key) →
      (∀ queue ∈ (indices.foldl (fun s index => pushNext due index s.1 s.2) s).1,
        ∀ k ∈ queue, P k) ∧
      ∀ e ∈ (indices.foldl (fun s index => pushNext due index s.1 s.2) s).2, P e.key := by
    intro indices
    induction indices with
    | nil => exact fun s hq hh => ⟨hq, hh⟩
    | cons i indices ih =>
      intro s hq hh
      obtain ⟨hq', hh'⟩ := pushNext_all due hq hh i
      exact ih _ hq' hh'
  obtain ⟨hq', hh'⟩ := hseed (List.range queues.length) (queues, []) hq (by simp)
  exact hloop _ _ _ _ hq' hh' h

variable [TransOrd κ]

/-- `heapPop` takes a least entry and leaves the others. -/
theorem heapPop_some (h : heapPop heap = some (e, heap')) :
    heap.Perm (e :: heap') ∧ ∀ x ∈ heap, le e.key x.key := by
  cases heap with
  | nil => cases h
  | cons x heap =>
    simp only [heapPop, Option.some.injEq, Prod.mk.injEq] at h
    obtain ⟨rfl, rfl⟩ := h
    exact ⟨perm_cons_erase (heapLeast_mem x heap), heapLeast_le x heap⟩

variable [LawfulEqOrd κ]

/-- The loop visits what is pending in order. -/
theorem mergeLoop_eq_visitAll (hkeys : keys.Pairwise le) {fuel : Nat}
    (hfuel : keys.length ≤ fuel) (h : Front queues heap)
    (hperm : keys.Perm (pending due queues heap)) (acc : β) :
    mergeLoop due visit fuel queues heap acc = visitAll visit keys acc := by
  induction keys generalizing fuel queues heap acc with
  | nil =>
    have hheap : heap = [] := by
      cases heap with
      | nil => rfl
      | cons e heap => simp [pending] at hperm
    subst hheap
    cases fuel <;> rfl
  | cons x keys ih =>
    cases fuel with
    | zero => simp at hfuel
    | succ fuel =>
      cases hpop : heapPop heap with
      | none =>
        cases heap with
        | nil => simp [pending] at hperm
        | cons e heap => simp [heapPop] at hpop
      | some p =>
        obtain ⟨e, heap'⟩ := p
        obtain ⟨hheap, hle⟩ := heapPop_some hpop
        obtain ⟨htail, hindex, hrest⟩ := (h.perm hheap).tail
        have hpend : (pending due queues heap).Perm
            (e.key :: (dueRest due queues e.index ++ pending due queues heap')) :=
          hheap.flatMap_right _
        -- the popped key is least, and so is the head of the sorted list
        have hxe : le e.key x := by
          obtain ⟨e', he', hx⟩ := mem_pending h (hperm.mem_iff.1 (mem_cons_self))
          rcases hx with rfl | hx
          · exact hle e' he'
          · exact le_trans' (hle e' he') hx
        have hex : le x e.key := by
          have hmem : e.key ∈ x :: keys := by
            rw [hperm.mem_iff, hpend.mem_iff]
            exact mem_cons_self
          rcases mem_cons.1 hmem with he | hmem
          · rw [he]
            exact le_refl' x
          · exact (pairwise_cons.1 hkeys).1 e.key hmem
        have hkey : e.key = x := LawfulEqOrd.eq_of_compare (OrientedCmp.isLE_antisymm hxe hex)
        have hperm' : keys.Perm (dueRest due queues e.index ++ pending due queues heap') := by
          have := hperm.trans hpend
          rw [hkey] at this
          exact this.cons_inv
        obtain ⟨hfront', hpush⟩ := pushNext_spec due htail hindex hrest
        rw [mergeLoop, hpop, visitAll]
        simp only [hkey]
        split
        · exact ih (pairwise_cons.1 hkeys).2 (by simpa using hfuel) hfront'
            (hperm'.trans hpush.symm) _
        · rfl

/-- Merging sorted queues visits their due keys in order. -/
theorem merge_eq_visitAll (hsorted : ∀ queue ∈ queues, queue.Pairwise le)
    (hkeys : keys.Pairwise le) (hperm : keys.Perm (queues.flatMap (·.takeWhile due))) (acc : β) :
    merge due visit queues acc = visitAll visit keys acc := by
  obtain ⟨hfront, hpending⟩ := seedHeap_spec due hsorted
  refine mergeLoop_eq_visitAll hkeys ?_ hfront (hperm.trans hpending.symm) acc
  rw [hperm.length_eq, length_flatMap]
  refine sum_le_sum ?_
  intro queue _
  exact (takeWhile_sublist _).length_le

/-- Only what is due among the keys of the queues matters. -/
theorem merge_congr (hsorted : ∀ queue ∈ queues, queue.Pairwise le)
    (hdue : ∀ queue ∈ queues, ∀ key ∈ queue, due' key = due key) (acc : β) :
    merge due' visit queues acc = merge due visit queues acc := by
  have htake : queues.flatMap (·.takeWhile due') = queues.flatMap (·.takeWhile due) :=
    flatMap_congr fun queue hqueue => takeWhile_congr (hdue queue hqueue)
  -- both visit the due keys in order
  have hperm := mergeSort_perm (queues.flatMap (·.takeWhile due)) fun a b => (compare a b).isLE
  have hkeys : ((queues.flatMap (·.takeWhile due)).mergeSort fun a b =>
      (compare a b).isLE).Pairwise le := by
    refine @pairwise_mergeSort κ (fun a b => (compare a b).isLE) (fun a b c h h' => ?_)
      (fun a b => ?_) _
    · exact le_trans' h h'
    · rw [Bool.or_eq_true]
      exact le_total' a b
  rw [merge_eq_visitAll hsorted hkeys hperm, merge_eq_visitAll hsorted hkeys (htake ▸ hperm)]

end Loop

end KMerge
