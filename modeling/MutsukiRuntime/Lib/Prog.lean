/-
  STATEFUL PROGRAMS THAT FAIL IN PLACE.  A program over a state `σ` returns a
  value, returns an error, or panics; an error keeps the state the program had
  reached, since the calls modelled with it edit shared state and then fail.

  * `Prog`, its monad, `zoom` (run a program on a component of a larger state),
    `attempt` (turn an error into a value; a panic is not caught), and the two
    loops `forEach` and `foldEach` over a list, with `iterations` for its begun turns.
  * `wp m Q E s`: run from `s`, the program ends in a value with `Q`, or in an
    error with `E`, and does not panic.  One equation per construct.
  * `Keeps I m`: `I` is an invariant of `m` whatever its outcome, and `m` does
    not panic where `I` holds.  One rule per construct, loops included.
  * `wlp T m Q E s`: as `wp`, but the program may also panic at a site of `T`, in a
    state that `E` allows.  It is for programs with panics that do happen.
  * `Leads R m`: whatever the outcome, a panic included, the state `m` leaves is
    related by the preorder `R` to the one it started in.  `Same f` is the preorder of
    the programs that leave `f` of the state alone.

  NOT here: divergence.  Every program is a total function of its state.
-/
import Mathlib.Tactic

/-- How a program ends. -/
inductive Outcome (ε α : Type) where
  | ok (value : α)
  | err (error : ε)
  | panic (site : String)
  deriving DecidableEq

/-- The error of a program that has failed. -/
def Outcome.error? {ε α : Type} : Outcome ε α → Option ε
  | .err error => some error
  | _ => none

theorem Outcome.error?_eq_some {ε α : Type} {outcome : Outcome ε α} {error : ε} :
    outcome.error? = some error ↔ outcome = .err error := by
  cases outcome <;> simp [Outcome.error?]

/-- The value of a program that has succeeded. -/
def Outcome.value? {ε α : Type} : Outcome ε α → Option α
  | .ok value => some value
  | _ => none

theorem Outcome.value?_eq_some {ε α : Type} {outcome : Outcome ε α} {value : α} :
    outcome.value? = some value ↔ outcome = .ok value := by
  cases outcome <;> simp [Outcome.value?]

/-- Where a program has panicked. -/
def Outcome.site? {ε α : Type} : Outcome ε α → Option String
  | .panic site => some site
  | _ => none

/-- A program over the state `σ`: its outcome, and the state it leaves. -/
def Prog (σ ε α : Type) : Type := σ → Outcome ε α × σ

namespace Prog

variable {σ τ ε α β : Type}

/-- Runs a program. -/
def run (m : Prog σ ε α) (s : σ) : Outcome ε α × σ := m s

instance : Monad (Prog σ ε) where
  pure a := fun s => (.ok a, s)
  bind m f := fun s =>
    match m s with
    | (.ok a, s') => f a s'
    | (.err e, s') => (.err e, s')
    | (.panic site, s') => (.panic site, s')

/-- The current state. -/
def read : Prog σ ε σ := fun s => (.ok s, s)

/-- Edits the state. -/
def update (f : σ → σ) : Prog σ ε Unit := fun s => (.ok (), f s)

/-- Fails with `e` and keeps the state. -/
def fail (e : ε) : Prog σ ε α := fun s => (.err e, s)

/-- An `expect` or `unwrap` that does not hold. -/
def crash (site : String) : Prog σ ε α := fun s => (.panic site, s)

/-- A result computed without touching the state. -/
def lift : Except ε α → Prog σ ε α
  | .ok a => pure a
  | .error e => fail e

/-- Runs `m` on the component of the state that `get` and `set` select. -/
def zoom (get : σ → τ) (set : τ → σ → σ) (m : Prog τ ε α) : Prog σ ε α := fun s =>
  match m (get s) with
  | (r, t) => (r, set t s)

/-- Turns an error into a value.  A panic unwinds through it. -/
def attempt (m : Prog σ ε α) : Prog σ ε (Except ε α) := fun s =>
  match m s with
  | (.ok a, s') => (.ok (.ok a), s')
  | (.err e, s') => (.ok (.error e), s')
  | (.panic site, s') => (.panic site, s')

/-- A loop over `xs` with an accumulator. -/
def foldEach (xs : List α) (b : β) (f : β → α → Prog σ ε β) : Prog σ ε β :=
  match xs with
  | [] => pure b
  | x :: xs => f b x >>= fun b' => foldEach xs b' f

/-- A loop over `xs`. -/
def forEach (xs : List α) (f : α → Prog σ ε Unit) : Prog σ ε Unit :=
  match xs with
  | [] => pure ()
  | x :: xs => f x >>= fun _ => forEach xs f

/-! ## Equations -/

@[simp] theorem run_pure (a : α) (s : σ) : (pure a : Prog σ ε α).run s = (.ok a, s) := rfl

theorem run_bind (m : Prog σ ε α) (f : α → Prog σ ε β) (s : σ) : (m >>= f).run s =
      match m.run s with
      | (.ok a, s') => (f a).run s'
      | (.err e, s') => (.err e, s')
      | (.panic site, s') => (.panic site, s') := rfl

theorem bind_bind {γ : Type} (m : Prog σ ε α) (f : α → Prog σ ε β) (g : β → Prog σ ε γ) :
    m >>= f >>= g = m >>= fun a => f a >>= g := by
  funext s
  show (m >>= f >>= g).run s = (m >>= fun a => f a >>= g).run s
  rw [run_bind, run_bind, run_bind]
  rcases m.run s with ⟨outcome, s'⟩
  cases outcome <;> rfl

@[simp] theorem run_read (s : σ) : (read : Prog σ ε σ).run s = (.ok s, s) := rfl

@[simp] theorem run_fail (e : ε) (s : σ) : (fail e : Prog σ ε α).run s = (.err e, s) := rfl

@[simp] theorem run_crash (site : String) (s : σ) :
    (crash site : Prog σ ε α).run s = (.panic site, s) := rfl

variable {m : Prog σ ε α} {a : α}

variable {s' : σ} {b : β} {e : ε} {Q' : α → σ → Prop} {E' : ε → σ → Prop}

theorem run_bind_of_ok {s : σ} (h : m.run s = (.ok a, s')) (f : α → Prog σ ε β) :
    (m >>= f).run s = (f a).run s' := by
  rw [run_bind, h]

variable {f : α → Prog σ ε β}

theorem run_bind_eq_ok {s s'' : σ} :
    (m >>= f).run s = (.ok b, s'') ↔
      ∃ a s', m.run s = (.ok a, s') ∧ (f a).run s' = (.ok b, s'') := by
  rw [run_bind]
  cases h : m.run s with
  | mk outcome s' => cases outcome <;> simp

theorem run_bind_of_err {s : σ} (h : m.run s = (.err e, s')) (f : α → Prog σ ε β) :
    (m >>= f).run s = (.err e, s') := by
  rw [run_bind, h]

/-- Dropping the result of a program leaves its state. -/
theorem state_discard (m : Prog σ ε α) (s : σ) :
    ((m >>= fun _ => (pure () : Prog σ ε Unit)).run s).2 = (m.run s).2 := by
  rw [run_bind]
  rcases m.run s with ⟨outcome, s'⟩
  cases outcome <;> rfl

@[simp] theorem run_read_bind (f : σ → Prog σ ε α) (s : σ) : (read >>= f).run s = (f s).run s := rfl

@[simp] theorem run_update_bind (g : σ → σ) (f : Unit → Prog σ ε α) (s : σ) :
    (update g >>= f).run s = (f ()).run (g s) := rfl

variable {x : Except ε α}

theorem run_lift_bind (h : x = .ok a) (f : α → Prog σ ε β) (s : σ) :
    (lift x >>= f).run s = (f a).run s := by
  rw [h]
  rfl

theorem run_lift_eq_ok {s : σ} : (lift x).run s = (.ok a, s') ↔ x = .ok a ∧ s = s' := by
  cases x <;> simp [lift]

/-- A program that starts with a check it has passed. -/
theorem run_lift_bind_eq_ok {s : σ} : (lift x >>= f).run s = (.ok b, s') ↔
    ∃ a, x = .ok a ∧ (f a).run s = (.ok b, s') := by
  simp [run_bind_eq_ok, run_lift_eq_ok]

theorem run_zoom (get : σ → τ) (set : τ → σ → σ) (m : Prog τ ε α) (s : σ) :
    (zoom get set m).run s = ((m.run (get s)).1, set (m.run (get s)).2 s) := rfl

theorem run_attempt (m : Prog σ ε α) (s : σ) : (attempt m).run s =
      match m.run s with
      | (.ok a, s') => (.ok (.ok a), s')
      | (.err e, s') => (.ok (.error e), s')
      | (.panic site, s') => (.panic site, s') := rfl

/-! ## Weakest preconditions -/

/-- From `s` the program does not panic, and ends in `Q` or, with an error, in `E`. -/
def wp (m : Prog σ ε α) (Q : α → σ → Prop) (E : ε → σ → Prop) (s : σ) : Prop :=
  match m.run s with
  | (.ok a, s') => Q a s'
  | (.err e, s') => E e s'
  | (.panic _, _) => False

variable {Q : α → σ → Prop} {E : ε → σ → Prop} {s : σ}

@[simp] theorem wp_pure (a : α) : wp (pure a) Q E s ↔ Q a s := Iff.rfl

@[simp] theorem wp_bind (m : Prog σ ε β) (f : β → Prog σ ε α) :
    wp (m >>= f) Q E s ↔ wp m (fun b => wp (f b) Q E) E s := by
  unfold wp
  rw [run_bind]
  cases m.run s with
  | mk r s' => cases r <;> rfl

@[simp] theorem wp_read (Q : σ → σ → Prop) : wp read Q E s ↔ Q s s := Iff.rfl

@[simp] theorem wp_update (f : σ → σ) (Q : Unit → σ → Prop) :
    wp (update f) Q E s ↔ Q () (f s) := Iff.rfl

@[simp] theorem wp_fail (e : ε) : wp (fail e) Q E s ↔ E e s := Iff.rfl

@[simp] theorem wp_lift_ok (a : α) : wp (lift (.ok a)) Q E s ↔ Q a s := Iff.rfl

@[simp] theorem wp_lift_error (e : ε) : wp (lift (.error e)) Q E s ↔ E e s := Iff.rfl

@[simp] theorem wp_ite (c : Prop) [Decidable c] (m n : Prog σ ε α) :
    wp (if c then m else n) Q E s ↔ (c → wp m Q E s) ∧ (¬ c → wp n Q E s) := by
  by_cases h : c <;> simp [h]

theorem wp_zoom (get : σ → τ) (set : τ → σ → σ) (m : Prog τ ε α) : wp (zoom get set m) Q E s ↔
      wp m (fun a t => Q a (set t s)) (fun e t => E e (set t s)) (get s) := by
  unfold wp
  rw [run_zoom]
  cases h : m.run (get s) with
  | mk r t => cases r <;> simp

theorem wp_attempt (m : Prog σ ε α) (Q : Except ε α → σ → Prop) :
    wp (attempt m) Q E s ↔ wp m (fun a => Q (.ok a)) (fun e => Q (.error e)) s := by
  unfold wp
  rw [run_attempt]
  cases m.run s with
  | mk r s' => cases r <;> rfl

/-- Weaker postconditions; this is how the lemma of a callee is used. -/
theorem wp_mono (h : wp m Q E s) (hQ : ∀ a s', Q a s' → Q' a s') (hE : ∀ e s', E e s' → E' e s') :
    wp m Q' E' s := by
  unfold wp at h ⊢
  split <;> simp_all

/-- The lemma of a callee that cannot fail. -/
theorem wp_total (h : wp m Q (fun _ _ => False) s) (hQ : ∀ a s', Q a s' → Q' a s') : wp m Q' E s :=
  wp_mono h hQ fun _ _ hf => hf.elim

theorem wp_and (h : wp m Q E s) (h' : wp m Q' E' s) :
    wp m (fun a s' => Q a s' ∧ Q' a s') (fun e s' => E e s' ∧ E' e s') s := by
  unfold wp at h h' ⊢
  split <;> simp_all

/-- The state a postcondition is about is the one the program leaves. -/
theorem wp_state (h : wp m Q E s) :
    wp m (fun a s' => Q a s' ∧ s' = (m.run s).2) (fun e s' => E e s' ∧ s' = (m.run s).2) s := by
  unfold wp at h ⊢
  split <;> simp_all

theorem wp_of_run_ok (h : m.run s = (.ok a, s')) : wp m Q E s ↔ Q a s' := by
  unfold wp
  rw [h]

theorem wp_of_run_err (h : m.run s = (.err e, s')) : wp m Q E s ↔ E e s' := by
  unfold wp
  rw [h]

/-- A run that does not panic has returned a value or an error. -/
theorem wp_outcome (h : wp m Q E s) :
    (∃ a s', m.run s = (.ok a, s') ∧ Q a s') ∨ ∃ e s', m.run s = (.err e, s') ∧ E e s' := by
  unfold wp at h
  split at h
  · next a s' hrun => exact .inl ⟨a, s', hrun, h⟩
  · next e s' hrun => exact .inr ⟨e, s', hrun, h⟩
  · exact h.elim

/-- What holds of every error of a program that does not panic. -/
theorem wp_errors_iff (h : wp m (fun _ _ => True) (fun _ _ => True) s) :
    (∀ e s', m.run s = (.err e, s') → E e s') ↔ wp m (fun _ _ => True) E s := by
  constructor
  · intro herrors
    rcases wp_outcome h with ⟨a, s', hrun, -⟩ | ⟨e, s', hrun, -⟩
    · exact (wp_of_run_ok hrun).2 trivial
    · exact (wp_of_run_err hrun).2 (herrors e s' hrun)
  · intro hwp e s' hrun
    exact (wp_of_run_err hrun).1 hwp

/-- What `wp` says of a run that has returned a value. -/
theorem wp_elim_ok (h : wp m Q E s) (hr : (m.run s).1 = .ok a) : Q a (m.run s).2 := by
  unfold wp at h
  split at h <;> simp_all

/-- What `wp` says of the state a run leaves, whatever its outcome. -/
theorem wp_run {P : σ → Prop} (h : wp m (fun _ => P) (fun _ => P) s) : P (m.run s).2 := by
  unfold wp at h
  split at h <;> simp_all

variable {xs : List β}

/-- The loop rule: `I` is indexed by the part of the list still to come. -/
theorem wp_foldEach {b : α} {f : α → β → Prog σ ε α} (I : List β → α → σ → Prop) (h : I xs b s)
    (hstep : ∀ x xs' b s, I (x :: xs') b s → wp (f b x) (I xs') E s) :
    wp (foldEach xs b f) (I []) E s := by
  induction xs generalizing b s with
  | nil => exact h
  | cons x xs ih =>
    rw [foldEach, wp_bind]
    exact wp_mono (hstep x xs b s h) (fun b' s' hI => ih hI) (fun _ _ he => he)

theorem wp_forEach {f : β → Prog σ ε Unit} (I : List β → σ → Prop) (h : I xs s)
    (hstep : ∀ x xs' s, I (x :: xs') s → wp (f x) (fun _ => I xs') E s) :
    wp (forEach xs f) (fun _ => I []) E s := by
  induction xs generalizing s with
  | nil => exact h
  | cons x xs ih =>
    rw [forEach, wp_bind]
    exact wp_mono (hstep x xs s h) (fun _ s' hI => ih hI) (fun _ _ he => he)

/-- The iterations of a loop that are begun, each with what it begins with. -/
def iterations (xs : List β) (b : α) (f : α → β → Prog σ ε α) (s : σ) : List (β × α × σ) :=
  match xs with
  | [] => []
  | x :: xs => (x, b, s) ::
      match (f b x).run s with
      | (.ok b', s') => iterations xs b' f s'
      | _ => []

/-! ## Panics that happen -/

/-- As `wp`, but the program may also panic at a site of `T`, in a state that `E` allows whatever
    the error. -/
def wlp (T : String → Prop) (m : Prog σ ε α) (Q : α → σ → Prop) (E : ε → σ → Prop) (s : σ) :
    Prop :=
  match m.run s with
  | (.ok a, s') => Q a s'
  | (.err e, s') => E e s'
  | (.panic site, s') => T site ∧ ∀ e, E e s'

variable {T T' : String → Prop}

theorem wlp_of_wp (h : wp m Q E s) : wlp T m Q E s := by
  unfold wp at h
  unfold wlp
  split <;> simp_all

theorem wlp_bind (m : Prog σ ε β) (f : β → Prog σ ε α) :
    wlp T (m >>= f) Q E s ↔ wlp T m (fun b => wlp T (f b) Q E) E s := by
  unfold wlp
  rw [run_bind]
  cases m.run s with
  | mk r s' => cases r <;> rfl

@[simp] theorem wlp_update (f : σ → σ) (Q : Unit → σ → Prop) :
    wlp T (update f) Q E s ↔ Q () (f s) := Iff.rfl

@[simp] theorem wlp_read (Q : σ → σ → Prop) : wlp T read Q E s ↔ Q s s := Iff.rfl

theorem wlp_lift {x : Except ε α} (hok : ∀ a, x = .ok a → Q a s) (herr : ∀ e, E e s) :
    wlp T (lift x) Q E s := by
  cases x with
  | error e => exact herr e
  | ok a => exact hok a rfl

theorem wlp_mono (h : wlp T m Q E s) (hT : ∀ site, T site → T' site)
    (hQ : ∀ a s', Q a s' → Q' a s') (hE : ∀ e s', E e s' → E' e s') : wlp T' m Q' E' s := by
  unfold wlp at h ⊢
  split <;> simp_all

theorem wlp_foldEach {b : α} {f : α → β → Prog σ ε α} (I : List β → α → σ → Prop) (h : I xs b s)
    (hstep : ∀ x xs' b s, I (x :: xs') b s → wlp T (f b x) (I xs') E s) :
    wlp T (foldEach xs b f) (I []) E s := by
  induction xs generalizing b s with
  | nil => exact h
  | cons x xs ih =>
    rw [foldEach, wlp_bind]
    exact wlp_mono (hstep x xs b s h) (fun _ ht => ht) (fun b' s' hI => ih hI) (fun _ _ he => he)

/-- The state a program leaves, whatever its outcome. -/
theorem wlp_run [Nonempty ε] {P : σ → Prop} (h : wlp T m (fun _ => P) (fun _ => P) s) :
    P (m.run s).2 := by
  unfold wlp at h
  split at h <;> simp_all

theorem wlp_of_run_err {e : ε} {s' : σ} (herr : m.run s = (.err e, s')) :
    wlp T m Q E s ↔ E e s' := by
  unfold wlp
  rw [herr]

theorem wlp_of_run_ok {a : α} {s' : σ} (hok : m.run s = (.ok a, s')) :
    wlp T m Q E s ↔ Q a s' := by
  unfold wlp
  rw [hok]

/-- The loop rule for the iterations that are begun, also if one of them does not return. -/
theorem iterations_invariant {b : α} {f : α → β → Prog σ ε α} (I : List β → α → σ → Prop)
    (h : I xs b s) (hstep : ∀ x xs' b s, I (x :: xs') b s →
      wlp (fun _ => True) (f b x) (I xs') (fun _ _ => True) s) :
    ∀ it ∈ iterations xs b f s, ∃ rest, I (it.1 :: rest) it.2.1 it.2.2 := by
  induction xs generalizing b s with
  | nil => exact fun it hit => absurd hit List.not_mem_nil
  | cons x xs ih =>
    intro it hit
    rw [iterations, List.mem_cons] at hit
    obtain rfl | hlater := hit
    · exact ⟨xs, h⟩
    · split at hlater
      next b' s' hrun => exact ih ((wlp_of_run_ok hrun).1 (hstep x xs b s h)) it hlater
      · exact absurd hlater List.not_mem_nil

/-- The sites at which a program panics are among those it may panic at. -/
theorem wlp_site {site : String} (h : wlp T m Q E s) (hsite : (m.run s).1 = .panic site) :
    T site := by
  unfold wlp at h
  split at h <;> simp_all

/-- The checks a program lifts: a sequence that succeeds. -/
theorem except_bind_eq_ok {f : α → Except ε β} :
    x >>= f = .ok b ↔ ∃ a, x = .ok a ∧ f a = .ok b := by
  cases x with
  | error e =>
    constructor
    · intro h
      cases h
    · rintro ⟨_, h, _⟩
      cases h
  | ok a =>
    constructor
    · intro h
      exact ⟨a, rfl, h⟩
    · rintro ⟨_, he, h⟩
      cases he
      exact h

theorem except_bind_eq_error {f : α → Except ε β} :
    x >>= f = .error e ↔ x = .error e ∨ ∃ a, x = .ok a ∧ f a = .error e := by
  cases x with
  | error | ok => simp [bind, Except.bind]

/-- A check that has been passed. -/
theorem except_check_eq_ok {c : Prop} [Decidable c] :
    (if c then .error e else x) = .ok a ↔ ¬ c ∧ x = .ok a := by
  by_cases h : c <;> simp [h]

theorem except_mapError_eq_ok {ε' : Type*} {f : ε → ε'} : x.mapError f = .ok a ↔ x = .ok a := by
  cases x <;> simp [Except.mapError]

theorem except_mapError_eq_error {ε' : Type*} {f : ε → ε'} {e : ε'} :
    x.mapError f = .error e ↔ ∃ d, x = .error d ∧ f d = e := by
  cases x <;> simp [Except.mapError]

/-! ## Invariants -/

/-- `I` survives `m` whatever its outcome, and `m` does not panic under `I`. -/
def Keeps (I : σ → Prop) (m : Prog σ ε α) : Prop :=
  ∀ s, I s → wp m (fun _ => I) (fun _ => I) s

namespace Keeps

variable {I : σ → Prop}

theorem state (h : Keeps I m) (hs : I s) : I (m.run s).2 := wp_run (h s hs)

/-- A program that restores the state when it fails. -/
theorem of_restore (h : ∀ s, I s → wp m (fun _ => I) (fun _ s' => s' = s) s) : Keeps I m :=
  fun s hs => wp_mono (h s hs) (fun _ _ h' => h') (fun _ _ he => he ▸ hs)

/-- A program that cannot fail. -/
theorem of_total (h : ∀ s, I s → wp m (fun _ => I) (fun _ _ => False) s) : Keeps I m :=
  fun s hs => wp_total (h s hs) fun _ _ h' => h'

theorem pure (a : α) : Keeps I (pure a : Prog σ ε α) := fun _ h => h

theorem fail (e : ε) : Keeps I (fail e : Prog σ ε α) := fun _ h => h

theorem read : Keeps I (read : Prog σ ε σ) := fun _ h => h

theorem update {f : σ → σ} (h : ∀ s, I s → I (f s)) : Keeps I (update f : Prog σ ε Unit) := h

theorem lift (r : Except ε α) : Keeps I (lift r : Prog σ ε α) := by
  intro s h
  cases r <;> exact h

theorem bind (hm : Keeps I m) (hf : ∀ a, Keeps I (f a)) : Keeps I (m >>= f) := by
  intro s h
  rw [wp_bind]
  exact wp_mono (hm s h) (fun a s' h' => hf a s' h') (fun _ _ h' => h')

/-- A program that keeps `I`, then one whose result matters. -/
theorem followed {Q : β → σ → Prop} (hm : Keeps I m) (hs : I s)
    (hf : ∀ a s, I s → wp (f a) Q (fun _ => I) s) :
    wp (m >>= f) Q (fun _ => I) s := by
  rw [wp_bind]
  exact wp_mono (hm s hs) (fun a s' hs' => hf a s' hs') (fun _ _ h => h)

/-- After `read` the rest of the program may use what `I` says of the state read. -/
theorem read_bind {f : σ → Prog σ ε α} (h : ∀ s, I s → wp (f s) (fun _ => I) (fun _ => I) s) :
    Keeps I (Prog.read >>= f) := h

theorem ite {c : Prop} [Decidable c] {n : Prog σ ε α} (hm : Keeps I m) (hn : Keeps I n) :
    Keeps I (if c then m else n) := by
  split <;> assumption

theorem attempt (hm : Keeps I m) : Keeps I (attempt m) := by
  intro s h
  rw [wp_attempt]
  exact hm s h

theorem foldEach {b : α} {f : α → β → Prog σ ε α} (hf : ∀ b x, x ∈ xs → Keeps I (f b x)) :
    Keeps I (foldEach xs b f) := by
  induction xs generalizing b with
  | nil => exact pure b
  | cons x xs ih =>
    exact bind (hf b x (by simp)) (fun b' => ih (fun b y hy => hf b y (by simp [hy])))

theorem forEach {f : β → Prog σ ε Unit} (hf : ∀ x ∈ xs, Keeps I (f x)) :
    Keeps I (forEach xs f) := by
  induction xs with
  | nil => exact pure ()
  | cons x xs ih =>
    exact bind (hf x (by simp)) (fun _ => ih (fun y hy => hf y (by simp [hy])))

end Keeps

/-! ## Frames -/

/-- Whatever its outcome, `m` leaves a state that is related to the one it started in. -/
def Leads (R : σ → σ → Prop) (m : Prog σ ε α) : Prop := ∀ s, R s (m.run s).2

/-- `f` of the state is as it was. -/
def Same (f : σ → τ) (s s' : σ) : Prop := f s' = f s

instance (f : σ → τ) : IsPreorder σ (Same f) where
  refl _ := rfl
  trans _ _ _ h h' := h'.trans h

/-- `I` of the state holds on if it held. -/
def Still (I : σ → Prop) (s s' : σ) : Prop := I s → I s'

instance (I : σ → Prop) : IsPreorder σ (Still I) where
  refl _ h := h
  trans _ _ _ h h' hs := h' (h hs)

namespace Leads

variable {R : σ → σ → Prop}

theorem update {f : σ → σ} (h : ∀ s, R s (f s)) : Leads R (update f : Prog σ ε Unit) := h

/-- After `read` the rest of the program may use the state read. -/
theorem read_bind {f : σ → Prog σ ε α} (h : ∀ s, R s ((f s).run s).2) :
    Leads R (Prog.read >>= f) := h

theorem ite {c : Prop} [Decidable c] {n : Prog σ ε α} (hm : Leads R m) (hn : Leads R n) :
    Leads R (if c then m else n) := by
  split <;> assumption

theorem attempt (hm : Leads R m) : Leads R (attempt m) := by
  intro s
  have hs := hm s
  rw [run_attempt]
  cases hrun : m.run s with
  | mk r s' =>
    rw [hrun] at hs
    cases r <;> exact hs

theorem zoom {get : σ → τ} {set : τ → σ → σ} {m : Prog τ ε α} {S : τ → τ → Prop}
    (hm : Leads S m) (hset : ∀ s t, S (get s) t → R s (set t s)) :
    Leads R (zoom get set m) := by
  intro s
  rw [run_zoom]
  exact hset s _ (hm (get s))

variable [IsPreorder σ R]

theorem pure (a : α) : Leads R (pure a : Prog σ ε α) := fun s => refl_of R s

theorem fail (e : ε) : Leads R (fail e : Prog σ ε α) := fun s => refl_of R s

theorem crash (site : String) : Leads R (crash site : Prog σ ε α) := fun s => refl_of R s

theorem read : Leads R (read : Prog σ ε σ) := fun s => refl_of R s

theorem lift (r : Except ε α) : Leads R (lift r : Prog σ ε α) := by
  cases r with
  | ok a => exact pure a
  | error e => exact fail e

theorem bind (hm : Leads R m) (hf : ∀ a, Leads R (f a)) : Leads R (m >>= f) := by
  intro s
  have hs := hm s
  rw [run_bind]
  cases hrun : m.run s with
  | mk r s' =>
    rw [hrun] at hs
    cases r with
    | ok a => exact trans_of R hs (hf a s')
    | err e => exact hs
    | panic site => exact hs

theorem foldEach {b : α} {f : α → β → Prog σ ε α} (hf : ∀ b x, x ∈ xs → Leads R (f b x)) :
    Leads R (foldEach xs b f) := by
  induction xs generalizing b with
  | nil => exact pure b
  | cons x xs ih =>
    exact bind (hf b x (by simp)) fun b' => ih fun b y hy => hf b y (by simp [hy])

theorem forEach {f : β → Prog σ ε Unit} (hf : ∀ x ∈ xs, Leads R (f x)) :
    Leads R (forEach xs f) := by
  induction xs with
  | nil => exact pure ()
  | cons x xs ih => exact bind (hf x (by simp)) fun _ => ih fun y hy => hf y (by simp [hy])

end Leads

/-- A frame holds beside what else is known of a run. -/
theorem wp_leads {R : σ → σ → Prop} (h : wp m Q E s) (hm : Leads R m) :
    wp m (fun a s' => Q a s' ∧ R s s') (fun e s' => E e s' ∧ R s s') s :=
  wp_mono (wp_state h) (fun _ _ hs => ⟨hs.1, hs.2 ▸ hm s⟩) (fun _ _ hs => ⟨hs.1, hs.2 ▸ hm s⟩)

/-! ## Fuel -/

/-- `m'` does what `m` does wherever `m` does not panic: `m` may have run out of fuel. -/
def Extends (m m' : Prog σ ε α) : Prop :=
  ∀ s, (∃ site, (m.run s).1 = .panic site) ∨ m'.run s = m.run s

namespace Extends

theorem refl (m : Prog σ ε α) : Extends m m := fun _ => .inr rfl

theorem crash (site : String) (m : Prog σ ε α) : Extends (crash site) m := fun _ => .inl ⟨site, rfl⟩

variable {m' : Prog σ ε α}

theorem bind {f' : α → Prog σ ε β} (hm : Extends m m') (hf : ∀ a, Extends (f a) (f' a)) :
    Extends (m >>= f) (m' >>= f') := by
  intro s
  rw [run_bind, run_bind]
  rcases hm s with ⟨site, hpanic⟩ | he
  · left
    obtain ⟨outcome, s', hrun⟩ : ∃ outcome s', m.run s = (outcome, s') := ⟨_, _, rfl⟩
    rw [hrun] at hpanic ⊢
    cases hpanic
    exact ⟨site, rfl⟩
  · rw [he]
    obtain ⟨outcome, s', hrun⟩ : ∃ outcome s', m.run s = (outcome, s') := ⟨_, _, rfl⟩
    rw [hrun]
    cases outcome with
    | ok a => exact hf a s'
    | err | panic => exact .inr rfl

theorem ite {c : Prop} [Decidable c] {n n' : Prog σ ε α} (hm : Extends m m') (hn : Extends n n') :
    Extends (if c then m else n) (if c then m' else n') := by
  split
  · exact hm
  · exact hn

theorem forEach {f f' : β → Prog σ ε Unit} (hf : ∀ x, Extends (f x) (f' x)) :
    Extends (forEach xs f) (forEach xs f') := by
  induction xs with
  | nil => exact refl _
  | cons x xs ih => exact bind (hf x) fun _ => ih

/-- More fuel changes nothing where there was enough. -/
theorem run_eq (h : Extends m m') (hwp : wp m Q E s) : m'.run s = m.run s := by
  rcases h s with ⟨site, hpanic⟩ | he
  · rcases wp_outcome hwp with ⟨a, s', hrun, -⟩ | ⟨e, s', hrun, -⟩
    · rw [hrun] at hpanic
      cases hpanic
    · rw [hrun] at hpanic
      cases hpanic
  · exact he

end Extends

end Prog
