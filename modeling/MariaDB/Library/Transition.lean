import Mathlib

/-!
# Runs of a transition system

A system is a partial step function over states and actions. A run takes a list of
actions one after the other. `Always` restricts the steps of a run by a condition on
the action and the state before it, and an invariant of the restricted steps holds
after every restricted run.
-/
namespace MariaDB.Library

variable {σ α : Type*}

/-- Take the actions one after the other; `none` if one of them is not enabled. -/
def run (step : σ → α → Option σ) : σ → List α → Option σ
  | s, [] => some s
  | s, a :: as => (step s a).bind (run step · as)

def Always (step : σ → α → Option σ) (cond : σ → α → Prop) : σ → List α → Prop
  | _, [] => True
  | s, a :: as => cond s a ∧ ∀ s', step s a = some s' → Always step cond s' as

variable {step : σ → α → Option σ} {cond : σ → α → Prop}

instance decidableAlways [∀ s, DecidablePred (cond s)] :
    ∀ (s : σ) (as : List α), Decidable (Always step cond s as)
  | _, [] => .isTrue trivial
  | s, a :: as =>
    match h : step s a with
    | none => decidable_of_iff (cond s a) (by simp [Always, h])
    | some s' =>
      have := decidableAlways s' as
      decidable_of_iff (cond s a ∧ Always step cond s' as) (by simp [Always, h])

lemma always_true (s : σ) (as : List α) : Always step (fun _ _ => True) s as := by
  induction as generalizing s with
  | nil => trivial
  | cons a as ih => exact ⟨trivial, fun s' _ => ih s'⟩

lemma run_invariant {I : σ → Prop} (hstep : ∀ s a s', I s → cond s a → step s a = some s' → I s')
    {s s' : σ} {as : List α} (hinit : I s) (halways : Always step cond s as)
    (hrun : run step s as = some s') : I s' := by
  induction as generalizing s with
  | nil =>
    cases hrun
    exact hinit
  | cons a as ih =>
    obtain ⟨s₁, h₁, hrun⟩ := Option.bind_eq_some_iff.mp hrun
    exact ih (hstep s a s₁ hinit halways.1 h₁) (halways.2 s₁ h₁) hrun

/-- An invariant of all steps is an invariant of all runs. -/
lemma run_induction {I : σ → Prop} (hstep : ∀ s a s', I s → step s a = some s' → I s')
    {s s' : σ} {as : List α} (hinit : I s) (hrun : run step s as = some s') : I s' :=
  run_invariant (fun s a s' hs _ h => hstep s a s' hs h) hinit (always_true s as) hrun

lemma run_append (s : σ) (as bs : List α) :
    run step s (as ++ bs) = (run step s as).bind (run step · bs) := by
  induction as generalizing s with
  | nil => rfl
  | cons a as ih =>
    simp only [List.cons_append, run, Option.bind_assoc]
    congr 1
    funext s'
    exact ih s'

lemma run_append_cons (hrun₁ : run step s as = some s₁)
    (hrun : run step s (as ++ a :: bs) = some s') :
    ∃ s₂, step s₁ a = some s₂ ∧ run step s₂ bs = some s' := by
  rw [run_append, hrun₁] at hrun
  exact Option.bind_eq_some_iff.mp hrun

end MariaDB.Library
