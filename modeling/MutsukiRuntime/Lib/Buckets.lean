/-
  BUCKETED MAPS.  A map from keys to buckets that never keeps an empty bucket:
  the `entry(k).or_default()` idiom adds to a bucket, the
  `get_mut(k)` / `remove(k)`-if-empty idiom takes from it.

  * `toList` of a map up to order, under insertion and removal of one entry
    (`toList_perm_of_getElem?`, `toList_insert_perm`), for sums over a map.
-/
import Mathlib.Tactic

namespace Buckets

open Std List Option

/-- A type of buckets: one value holds nothing, and emptiness is tested. -/
class Bucket (β : Type*) where
  empty : β
  isEmpty : β → Bool
  isEmpty_iff : ∀ b, isEmpty b = true ↔ b = empty

instance {α : Type*} {cmp : α → α → Ordering} [TransCmp cmp] : Bucket (ExtTreeSet α cmp) where
  empty := ∅
  isEmpty s := s.isEmpty
  isEmpty_iff _ := ExtTreeSet.isEmpty_iff

instance {α β : Type*} {cmp : α → α → Ordering} [TransCmp cmp] :
    Bucket (ExtTreeMap α β cmp) where
  empty := ∅
  isEmpty m := m.isEmpty
  isEmpty_iff _ := ExtTreeMap.isEmpty_iff

instance : Bucket Nat where
  empty := 0
  isEmpty n := n == 0
  isEmpty_iff n := by simp

instance {α : Type*} : Bucket (List α) where
  empty := []
  isEmpty l := l.isEmpty
  isEmpty_iff l := by simp

section Map

variable {κ β : Type*} {cmp : κ → κ → Ordering} [TransCmp cmp] [LawfulEqCmp cmp]

theorem getElem?_insert_ite [DecidableEq κ] (m : ExtTreeMap κ β cmp) (k a : κ) (v : β) :
    (m.insert k v)[a]? = if k = a then some v else m[a]? := by
  simp [ExtTreeMap.getElem?_insert]

theorem getElem?_erase_ite [DecidableEq κ] (m : ExtTreeMap κ β cmp) (k a : κ) :
    (m.erase k)[a]? = if k = a then none else m[a]? := by
  simp [ExtTreeMap.getElem?_erase]

/-- A map read as a function, after an insertion. -/
theorem getElem?_insert_update [DecidableEq κ] (m : ExtTreeMap κ β cmp) (k : κ) (v : β) :
    (fun a => (m.insert k v)[a]?) = Function.update (fun a => m[a]?) k (some v) := by
  funext a
  rw [getElem?_insert_ite, Function.update_apply]
  simp only [eq_comm]

/-- What holds of every entry and of a new one holds of every entry after the insertion. -/
theorem forall_insert {P : κ → β → Prop} {m : ExtTreeMap κ β cmp} {k : κ} {v : β}
    (hm : ∀ (a : κ) b, m[a]? = some b → P a b) (hk : P k v) (a : κ) (b : β)
    (h : (m.insert k v)[a]? = some b) : P a b := by
  classical
  rw [getElem?_insert_ite] at h
  split at h
  next he =>
    cases h
    exact he ▸ hk
  · exact hm a b h

/-- Overwriting a key with the value it already has changes nothing. -/
theorem insert_eq_self (m : ExtTreeMap κ β cmp) (k : κ) (v : β) (h : m[k]? = some v) :
    m.insert k v = m := by
  classical
  apply ExtTreeMap.ext_getElem?
  intro a
  rw [getElem?_insert_ite]
  split
  · rename_i hka; rw [← hka, h]
  · rfl

omit [LawfulEqCmp cmp] in
theorem mem_iff_exists (m : ExtTreeMap κ β cmp) (k : κ) : k ∈ m ↔ ∃ v, m[k]? = some v := by
  rw [ExtTreeMap.mem_iff_isSome_getElem?, isSome_iff_exists]

theorem nodup_toList (m : ExtTreeMap κ β cmp) : m.toList.Nodup := by
  have h := m.distinct_keys_toList
  refine h.imp ?_
  intro a b hab heq
  subst heq
  exact hab ReflCmp.compare_self

omit [LawfulEqCmp cmp] in
theorem nodup_set_toList (t : ExtTreeSet κ cmp) : t.toList.Nodup := by
  refine t.distinct_toList.imp ?_
  intro a b hab heq
  subst heq
  exact hab ReflCmp.compare_self

theorem toList_perm_of_getElem? (m : ExtTreeMap κ β cmp) (k : κ) (v : β) (h : m[k]? = some v) :
    m.toList.Perm ((k, v) :: (m.erase k).toList) := by
  classical
  have hfresh : (k, v) ∉ (m.erase k).toList := by
    simp [ExtTreeMap.mem_toList_iff_getElem?_eq_some]
  rw [perm_ext_iff_of_nodup (nodup_toList m) (nodup_cons.2 ⟨hfresh, nodup_toList _⟩)]
  rintro ⟨a, b⟩
  simp only [ExtTreeMap.mem_toList_iff_getElem?_eq_some, mem_cons, Prod.mk.injEq,
    getElem?_erase_ite]
  by_cases hka : k = a
  · subst hka; simp [h, eq_comm]
  · simp [hka, Ne.symm hka]

theorem toList_insert_perm (m : ExtTreeMap κ β cmp) (k : κ) (v : β) (h : m[k]? = none) :
    (m.insert k v).toList.Perm ((k, v) :: m.toList) := by
  have hself : (m.insert k v)[k]? = some v := by simp
  have herase : (m.insert k v).erase k = m := by
    classical
    apply ExtTreeMap.ext_getElem?
    intro a
    rw [getElem?_erase_ite, getElem?_insert_ite]
    by_cases hka : k = a
    · subst hka; simp [h]
    · simp [hka]
  have hperm := toList_perm_of_getElem? (m.insert k v) k v hself
  rwa [herase] at hperm

end Map

section Buckets

variable {κ β : Type*} {cmp : κ → κ → Ordering} [TransCmp cmp] [Bucket β]

/-- The bucket of `k`; an absent bucket reads as the empty one. -/
def bucket (m : ExtTreeMap κ β cmp) (k : κ) : β :=
  m.getD k Bucket.empty

/-- `entry(k).or_default()` followed by an in-place edit. -/
def upsert (m : ExtTreeMap κ β cmp) (k : κ) (f : β → β) : ExtTreeMap κ β cmp :=
  m.insert k (f (bucket m k))

/-- `get_mut(k)` followed by an in-place edit; a bucket that becomes empty is dropped. -/
def shrink (m : ExtTreeMap κ β cmp) (k : κ) (f : β → β) : ExtTreeMap κ β cmp :=
  match m[k]? with
  | none => m
  | some b => if Bucket.isEmpty (f b) then m.erase k else m.insert k (f b)

/-- Every stored bucket is non-empty and satisfies `Q`. -/
def Pruned (Q : β → Prop) (m : ExtTreeMap κ β cmp) : Prop :=
  ∀ (k : κ) (b : β), m[k]? = some b → b ≠ Bucket.empty ∧ Q b

theorem bucket_of_some (m : ExtTreeMap κ β cmp) (k : κ) (b : β) (h : m[k]? = some b) :
    bucket m k = b := by
  simp [bucket, ExtTreeMap.getD_eq_getD_getElem?, h]

theorem bucket_of_none (m : ExtTreeMap κ β cmp) (k : κ) (h : m[k]? = none) :
    bucket m k = Bucket.empty := by
  simp [bucket, ExtTreeMap.getD_eq_getD_getElem?, h]

/-- What the stored buckets of some keys hold is what all their buckets hold. -/
theorem flatMap_stored {γ : Type*} (m : ExtTreeMap κ β cmp) (keys : List κ) (f : β → List γ)
    (hf : f Bucket.empty = []) :
    (keys.filterMap (m[·]?)).flatMap f = keys.flatMap fun k => f (bucket m k) := by
  induction keys with
  | nil => rfl
  | cons k keys ih =>
    cases hk : m[k]? with
    | none =>
      rw [filterMap_cons_none hk, flatMap_cons, bucket_of_none m k hk, hf, nil_append, ih]
    | some b =>
      rw [filterMap_cons_some hk, flatMap_cons, flatMap_cons, bucket_of_some m k b hk, ih]

@[simp] theorem bucket_empty (k : κ) : bucket (∅ : ExtTreeMap κ β cmp) k = Bucket.empty :=
  bucket_of_none _ _ (by simp)

variable [LawfulEqCmp cmp]

theorem bucket_erase [DecidableEq κ] (m : ExtTreeMap κ β cmp) (k a : κ) :
    bucket (m.erase k) a = if k = a then Bucket.empty else bucket m a := by
  by_cases h : k = a
  · subst h; simp [bucket]
  · simp [bucket, h, ExtTreeMap.getD_erase]

theorem bucket_upsert [DecidableEq κ] (m : ExtTreeMap κ β cmp) (k a : κ) (f : β → β) :
    bucket (upsert m k f) a = if k = a then f (bucket m k) else bucket m a := by
  unfold upsert
  by_cases h : k = a
  · subst h; simp [bucket]
  · simp [bucket, h, ExtTreeMap.getD_insert]

theorem bucket_shrink [DecidableEq κ] (m : ExtTreeMap κ β cmp) (k a : κ) (f : β → β)
    (hf : f Bucket.empty = Bucket.empty) :
    bucket (shrink m k f) a = if k = a then f (bucket m k) else bucket m a := by
  unfold shrink
  cases hk : m[k]? with
  | none =>
    by_cases h : k = a
    · subst h; simp [bucket_of_none m k hk, hf]
    · simp [h]
  | some b =>
    rw [bucket_of_some m k b hk]
    by_cases hempty : Bucket.isEmpty (f b) = true
    · have hfb := (Bucket.isEmpty_iff (f b)).1 hempty
      simp only [hempty, if_true]
      by_cases h : k = a
      · subst h; simp [hfb, bucket]
      · simp [h, bucket, ExtTreeMap.getD_erase]
    · by_cases h : k = a
      · subst h; simp [hempty, bucket]
      · simp [hempty, h, bucket, ExtTreeMap.getD_insert]

/-- The same idempotent edit at the key of every element of a list. -/
theorem bucket_foldl_shrink [DecidableEq κ] {α : Type*} (key : α → κ) (f : β → β)
    (hf : f Bucket.empty = Bucket.empty) (hff : ∀ b, f (f b) = f b) (xs : List α)
    (m : ExtTreeMap κ β cmp) (k : κ) :
    bucket (xs.foldl (fun m x => shrink m (key x) f) m) k =
      if k ∈ xs.map key then f (bucket m k) else bucket m k := by
  induction xs generalizing m with
  | nil => simp
  | cons x xs ih =>
    rw [foldl_cons, ih, bucket_shrink _ _ _ _ hf]
    by_cases hx : key x = k
    · subst hx
      by_cases hxs : key x ∈ xs.map key <;> simp [hxs, hff]
    · have hne : k ≠ key x := fun he => hx he.symm
      by_cases hxs : k ∈ xs.map key <;> simp [hxs, hx, hne]

namespace Pruned

variable {Q : β → Prop} {m m' : ExtTreeMap κ β cmp}

omit [LawfulEqCmp cmp] in
theorem empty : Pruned Q (∅ : ExtTreeMap κ β cmp) := by
  intro k b h
  simp at h

omit [LawfulEqCmp cmp] in
theorem bucket_of (hm : Pruned Q m) (hQ : Q Bucket.empty) (k : κ) : Q (bucket m k) := by
  cases hk : m[k]? with
  | none => rwa [bucket_of_none m k hk]
  | some b => rw [bucket_of_some m k b hk]; exact (hm k b hk).2

omit [LawfulEqCmp cmp] in
theorem bucket_ne_empty (hm : Pruned Q m) {k : κ} (hk : k ∈ m) : bucket m k ≠ Bucket.empty := by
  have hget : m[k]? = some m[k] := ExtTreeMap.getElem?_eq_some_getElem hk
  rw [bucket_of_some m k _ hget]
  exact (hm k _ hget).1

theorem upsert (hm : Pruned Q m) (k : κ) (f : β → β)
    (hne : f (bucket m k) ≠ Bucket.empty) (hQ : Q (f (bucket m k))) :
    Pruned Q (upsert m k f) := by
  classical
  intro a b h
  unfold Buckets.upsert at h
  rw [getElem?_insert_ite] at h
  split at h
  · cases h; exact ⟨hne, hQ⟩
  · exact hm a b h

theorem shrink (hm : Pruned Q m) (k : κ) (f : β → β) (hQ : ∀ b, Q b → Q (f b)) :
    Pruned Q (shrink m k f) := by
  classical
  unfold Buckets.shrink
  cases hk : m[k]? with
  | none => exact hm
  | some b =>
    by_cases hempty : Bucket.isEmpty (f b) = true
    · simp only [hempty, if_true]
      intro a c h
      rw [getElem?_erase_ite] at h
      split at h
      · cases h
      · exact hm a c h
    · simp only [hempty, Bool.false_eq_true, if_false]
      intro a c h
      rw [getElem?_insert_ite] at h
      split at h
      · cases h
        exact ⟨fun hc => hempty ((Bucket.isEmpty_iff _).2 hc), hQ b (hm k b hk).2⟩
      · exact hm a c h

theorem foldl_shrink {α : Type*} (hm : Pruned Q m) (key : α → κ) (f : β → β)
    (hQ : ∀ b, Q b → Q (f b)) (xs : List α) :
    Pruned Q (xs.foldl (fun m x => Buckets.shrink m (key x) f) m) := by
  induction xs generalizing m with
  | nil => exact hm
  | cons x xs ih => exact ih (hm.shrink (key x) f hQ)

theorem erase (hm : Pruned Q m) (k : κ) : Pruned Q (m.erase k) := by
  classical
  intro a b h
  rw [getElem?_erase_ite] at h
  split at h
  · cases h
  · exact hm a b h

/-- A pruned map is determined by its buckets. -/
theorem ext (hm : Pruned Q m) (hm' : Pruned Q m') (h : ∀ k, bucket m k = bucket m' k) : m = m' := by
  apply ExtTreeMap.ext_getElem?
  intro k
  have hk := h k
  cases h1 : m[k]? with
  | none =>
    rw [bucket_of_none m k h1] at hk
    cases h2 : m'[k]? with
    | none => rfl
    | some b => rw [bucket_of_some m' k b h2] at hk; exact absurd hk.symm (hm' k b h2).1
  | some b =>
    rw [bucket_of_some m k b h1] at hk
    cases h2 : m'[k]? with
    | none => rw [bucket_of_none m' k h2] at hk; exact absurd hk (hm k b h1).1
    | some c => rw [bucket_of_some m' k c h2] at hk; rw [hk]

end Pruned

end Buckets

end Buckets
