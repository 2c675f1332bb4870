/-
  SEQUENCES OF FALLIBLE STEPS in `Except`: what is known when a whole loop succeeds.

  * `forM_eq_ok`, `forall₂_of_mapM`: every step has succeeded.
  * `exists_of_mem_left`, `exists_of_mem_right`: the step of an element, in either direction.
  * `foldlM_invariant`: a relation between the elements done and the value so far, kept
    by every step that succeeds, holds of the whole list in the end.
  * `scan_eq_none`: a search for an element that is bad or repeats a key finds none.
-/
import MutsukiRuntime.Lib.Prog

namespace Checks

open Prog List Option

variable {ε α β : Type}

variable {x : Except ε α} {b : β} {xs : List α} {ys : List β} {R : α → β → Prop}

theorem exists_eq_ok (h : x.isOk = true) : ∃ a, x = .ok a := by
  cases x with
  | error e => cases h
  | ok a => exact ⟨a, rfl⟩

theorem exists_ok_of_any {p : α → Bool} (h : x.toOption.any p = true) :
    ∃ a, x = .ok a ∧ p a = true := by
  cases x with
  | error e => cases h
  | ok a => exact ⟨a, rfl, h⟩

/-- A program that returns, by evaluating it. -/
theorem exists_run_ok {σ : Type} {m : Prog σ ε α} {s : σ}
    (h : (m.run s).1.value?.isSome = true) : ∃ a s', m.run s = (.ok a, s') := by
  obtain ⟨a, ha⟩ := isSome_iff_exists.1 h
  exact ⟨a, (m.run s).2, Prod.ext (Outcome.value?_eq_some.1 ha) rfl⟩

/-- A program that fails, by evaluating it. -/
theorem exists_run_err {σ : Type} {m : Prog σ ε α} {s : σ}
    (h : (m.run s).1.error?.isSome = true) : ∃ e, m.run s = (.err e, (m.run s).2) := by
  obtain ⟨e, he⟩ := isSome_iff_exists.1 h
  exact ⟨e, Prod.ext (Outcome.error?_eq_some.1 he) rfl⟩

theorem forM_eq_ok {f : α → Except ε Unit} : xs.forM f = .ok () ↔ ∀ x ∈ xs, f x = .ok () := by
  induction xs with
  | nil => simp [pure, Except.pure]
  | cons x xs ih =>
    rw [List.forM, except_bind_eq_ok, forall_mem_cons, ← ih]
    constructor
    · rintro ⟨⟨⟩, hx, hxs⟩
      exact ⟨hx, hxs⟩
    · exact fun h => ⟨(), h⟩

theorem forall₂_of_mapM {f : α → Except ε β} (h : xs.mapM f = .ok ys) :
    List.Forall₂ (fun x y => f x = .ok y) xs ys := by
  induction xs generalizing ys with
  | nil =>
    cases h
    exact .nil
  | cons x xs ih =>
    rw [mapM_cons] at h
    obtain ⟨y, hx, h⟩ := except_bind_eq_ok.1 h
    obtain ⟨rest, hrest, h⟩ := except_bind_eq_ok.1 h
    cases h
    exact .cons hx (ih hrest)

theorem foldlM_invariant {f : β → α → Except ε β} (I : List α → β → Prop)
    (hstep : ∀ done a b b', I done b → f b a = .ok b' → I (done ++ [a]) b') {done : List α}
    {b' : β} (h : I done b) (hrun : xs.foldlM f b = .ok b') : I (done ++ xs) b' := by
  induction xs generalizing done b with
  | nil =>
    cases hrun
    rwa [append_nil]
  | cons a xs ih =>
    rw [foldlM_cons] at hrun
    obtain ⟨next, hnext, hrun⟩ := except_bind_eq_ok.1 hrun
    rw [append_cons]
    exact ih (hstep done a b next h hnext) hrun

theorem exists_of_mem_left (h : List.Forall₂ R xs ys) {x : α} (hx : x ∈ xs) : ∃ y ∈ ys, R x y := by
  induction h with
  | nil => cases hx
  | @cons first image rest images hfirst _ ih =>
    rcases mem_cons.1 hx with rfl | hx
    · exact ⟨image, mem_cons_self, hfirst⟩
    · obtain ⟨y, hy, hR⟩ := ih hx
      exact ⟨y, mem_cons_of_mem _ hy, hR⟩

theorem exists_of_mem_right (h : List.Forall₂ R xs ys) {y : β} (hy : y ∈ ys) : ∃ x ∈ xs, R x y :=
  exists_of_mem_left h.flip hy

/-- A search that ends at the first element that is bad, or whose key it has seen, finds none
    exactly if all elements are good and have keys of their own. -/
theorem scan_eq_none {κ : Type} (key : α → κ) (good : α → Prop) {f : List κ → List α → Option β}
    (hnil : ∀ seen, f seen [] = none)
    (hcons : ∀ seen x xs, f seen (x :: xs) = none ↔
      (key x ∉ seen ∧ good x) ∧ f (key x :: seen) xs = none) {seen : List κ} :
    f seen xs = none ↔ (∀ x ∈ xs, key x ∉ seen ∧ good x) ∧ (xs.map key).Nodup := by
  induction xs generalizing seen with
  | nil => simp [hnil]
  | cons x xs ih =>
    rw [hcons, ih, forall_mem_cons, map_cons, nodup_cons]
    constructor
    · rintro ⟨hx, hall, hnd⟩
      refine ⟨⟨hx, fun y hy => ?_⟩, fun hmem => ?_, hnd⟩
      · exact ⟨fun hmem => (hall y hy).1 (mem_cons_of_mem _ hmem), (hall y hy).2⟩
      · obtain ⟨y, hy, heq⟩ := mem_map.1 hmem
        exact (hall y hy).1 (mem_cons.2 (.inl heq))
    · rintro ⟨⟨hx, hall⟩, hnot, hnd⟩
      refine ⟨hx, fun y hy => ⟨fun hmem => ?_, (hall y hy).2⟩, hnd⟩
      rcases mem_cons.1 hmem with heq | hmem
      · exact hnot (heq ▸ mem_map_of_mem hy)
      · exact (hall y hy).1 hmem

end Checks
