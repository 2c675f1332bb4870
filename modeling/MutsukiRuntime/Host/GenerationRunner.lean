/-
  RUNNERS OF A RELOAD (`bootstrapper.rs`): a reload wraps every runner in a
  `GenerationRunner`, which reports the new plugin generation and forwards the batch, cancel
  and dispose calls.  The other methods of the trait `Runner` keep their defaults.

  A runner is modelled by its calls on a state of its own; handles for termination and
  management are known by their identity.  `wrapping_transparent_iff` says for which runners
  nobody can tell the wrapper from what it wraps.
-/
import MutsukiRuntime.Contracts.Runner

namespace MutsukiRuntime

open List

inductive RunnerIsolation (θ : Type) where
  | cooperative
  | hardProcess (handle : θ)
  deriving DecidableEq

/-- An implementation of the trait `Runner` over its state. -/
structure RunnerImpl (σ θ η : Type) where
  descriptor : RunnerDescriptor
  runBatch : σ → RunnerContext → WorkBatch → RuntimeResult CompletionBatch × σ
  cancel : σ → String → RuntimeResult Unit × σ
  dispose : σ → RuntimeResult Unit × σ
  isolation : σ → RunnerIsolation θ
  managementHandle : σ → Option η
  recoverAfterHardTermination : σ → RuntimeResult Unit × σ

variable {σ θ η : Type}

def hardRecoveryUnsupported (descriptor : RunnerDescriptor) : RuntimeError :=
  runtimeError errRuntimeHostFailed "runtime.runner"
    s!"runner.{descriptor.runnerId}.hard_recovery_unsupported"

/-- `GenerationRunner::new` with its `impl Runner`. -/
def generationRunner (inner : RunnerImpl σ θ η) (generation : Nat) : RunnerImpl σ θ η :=
  let descriptor := { inner.descriptor with pluginGeneration := generation }
  { descriptor
    runBatch := inner.runBatch
    cancel := inner.cancel
    dispose := inner.dispose
    -- not implemented by the wrapper: the defaults of the trait
    isolation := fun _ => .cooperative
    managementHandle := fun _ => none
    recoverAfterHardTermination := fun s => (.error (hardRecoveryUnsupported descriptor), s) }

/-! ## What callers see -/

inductive RunnerCall where
  | runBatch (ctx : RunnerContext) (batch : WorkBatch)
  | cancel (invocationId : String)
  | dispose
  | isolation
  | managementHandle
  | recoverAfterHardTermination

inductive RunnerAnswer (θ η : Type) where
  | completed (result : RuntimeResult CompletionBatch)
  | done (result : RuntimeResult Unit)
  | isolation (isolation : RunnerIsolation θ)
  | managementHandle (handle : Option η)

namespace RunnerImpl

def answer (runner : RunnerImpl σ θ η) (s : σ) : RunnerCall → RunnerAnswer θ η × σ
  | .runBatch ctx batch => (runner.runBatch s ctx batch).map .completed id
  | .cancel invocationId => (runner.cancel s invocationId).map .done id
  | .dispose => (runner.dispose s).map .done id
  | .isolation => (.isolation (runner.isolation s), s)
  | .managementHandle => (.managementHandle (runner.managementHandle s), s)
  | .recoverAfterHardTermination => (runner.recoverAfterHardTermination s).map .done id

def answers (runner : RunnerImpl σ θ η) (s : σ) : List RunnerCall → List (RunnerAnswer θ η)
  | [] => []
  | call :: calls => (runner.answer s call).1 :: runner.answers (runner.answer s call).2 calls

def after (runner : RunnerImpl σ θ η) (s : σ) (calls : List RunnerCall) : σ :=
  calls.foldl (fun s call => (runner.answer s call).2) s

theorem answers_append (runner : RunnerImpl σ θ η) (s : σ) (calls later : List RunnerCall) :
    runner.answers s (calls ++ later) =
      runner.answers s calls ++ runner.answers (runner.after s calls) later := by
  induction calls generalizing s with
  | nil => rfl
  | cons call calls ih => exact congrArg _ (ih _)

/-- From this state on the runner is cooperative, has no management handle and cannot be
    recovered, and a failed recovery changes no later answer. -/
def Plain (runner : RunnerImpl σ θ η) (s : σ) : Prop :=
  ∀ calls, let reached := runner.after s calls
    runner.isolation reached = .cooperative ∧ runner.managementHandle reached = none ∧
      (runner.recoverAfterHardTermination reached).1 =
        .error (hardRecoveryUnsupported runner.descriptor) ∧
      ∀ later, runner.answers (runner.recoverAfterHardTermination reached).2 later =
        runner.answers reached later

variable {runner : RunnerImpl σ θ η} {s t : σ} {generation : Nat}

theorem Plain.answer (h : runner.Plain s) (call : RunnerCall) :
    runner.Plain (runner.answer s call).2 :=
  fun calls => h (call :: calls)

/-- The wrapper in a state with the answers of `t` answers as the runner does in `t`. -/
theorem Plain.answers_wrapped (h : runner.Plain t) (hsame : runner.answers s = runner.answers t)
    (calls : List RunnerCall) :
    (generationRunner runner generation).answers s calls = runner.answers t calls := by
  induction calls generalizing s t with
  | nil => rfl
  | cons call calls ih =>
    obtain ⟨hisolation, hhandle, hrecovery, hunchanged⟩ := h []
    -- one call of the runner itself, in either state
    have hhead : (runner.answer s call).1 = (runner.answer t call).1 :=
      (cons.inj (congrFun hsame [call])).1
    have htail : runner.answers (runner.answer s call).2 =
        runner.answers (runner.answer t call).2 :=
      funext fun later => (cons.inj (congrFun hsame (call :: later))).2
    cases call with
    | runBatch ctx batch => exact congrArg₂ _ hhead (ih (h.answer (.runBatch ctx batch)) htail)
    | cancel invocationId => exact congrArg₂ _ hhead (ih (h.answer (.cancel invocationId)) htail)
    | dispose => exact congrArg₂ _ hhead (ih (h.answer .dispose) htail)
    | isolation => exact congrArg₂ _ (congrArg _ hisolation.symm) (ih h hsame)
    | managementHandle => exact congrArg₂ _ (congrArg _ hhandle.symm) (ih h hsame)
    | recoverAfterHardTermination =>
      refine congrArg₂ _ (congrArg _ hrecovery.symm) (ih (h.answer _) ?_)
      exact hsame.trans (funext hunchanged).symm

/-- A wrapped runner reports the new generation and nothing else that is new, and answers every
    sequence of calls as the runner does, exactly if the runner is plain. -/
theorem wrapping_transparent_iff (runner : RunnerImpl σ θ η) (s : σ) (generation : Nat) :
    ((generationRunner runner generation).descriptor =
        { runner.descriptor with pluginGeneration := generation } ∧
      ∀ calls, (generationRunner runner generation).answers s calls = runner.answers s calls) ↔
    runner.Plain s := by
  constructor
  · rintro ⟨-, hsame⟩ calls reached
    have hlater : ∀ later, (generationRunner runner generation).answers
        ((generationRunner runner generation).after s calls) later =
          runner.answers reached later := by
      intro later
      have happend := hsame (calls ++ later)
      rw [answers_append, answers_append, hsame calls] at happend
      exact append_cancel_left happend
    have hrecovery := hlater [.recoverAfterHardTermination]
    refine ⟨?_, ?_, ?_, fun later => ?_⟩
    · exact (RunnerAnswer.isolation.inj (cons.inj (hlater [.isolation])).1).symm
    · exact (RunnerAnswer.managementHandle.inj (cons.inj (hlater [.managementHandle])).1).symm
    · exact (RunnerAnswer.done.inj (cons.inj hrecovery).1).symm
    · have hafter := (cons.inj (hlater (.recoverAfterHardTermination :: later))).2
      exact hafter.symm.trans (hlater later)
  · exact fun hplain => ⟨rfl, hplain.answers_wrapped rfl⟩

end RunnerImpl

/-- A runner behind a process boundary that can be killed and recreated. -/
def processRunner : RunnerImpl Unit Unit Unit where
  descriptor :=
    { runnerId := "r", pluginId := "p", pluginGeneration := 1, acceptedProtocolIds := []
      purity := .pure, executionClass := .cpu }
  runBatch _ _ batch := (.ok ⟨batch.batchId, batch.tickId, []⟩, ())
  cancel _ _ := (.ok (), ())
  dispose _ := (.ok (), ())
  isolation _ := .hardProcess ()
  managementHandle _ := some ()
  recoverAfterHardTermination _ := (.ok (), ())

/-- After a reload the runner is cooperative, without management and not recoverable. -/
theorem wrapped_process_runner :
    let wrapped := generationRunner processRunner 2
    wrapped.isolation () = .cooperative ∧ wrapped.managementHandle () = none ∧
      (wrapped.recoverAfterHardTermination ()).1.isOk = false ∧
      processRunner.isolation () = .hardProcess () ∧
      processRunner.managementHandle () = some () ∧
      (processRunner.recoverAfterHardTermination ()).1.isOk = true :=
  ⟨rfl, rfl, rfl, rfl, rfl, rfl⟩

end MutsukiRuntime
