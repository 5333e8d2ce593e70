import Mathlib

/-!
# Guarded runs of a labelled transition system

A system is a partial step function on states and labels: a label that is not enabled in a state
has no successor.  A *guard* is a predicate on the state before a step and the label of the step.
A guarded run is a run all of whose steps meet the guard, so a guard expresses both the environment
a system runs in and a condition under which one of its properties holds.

The main rule is `GuardedRun.invariant`: what every guarded step preserves holds at the end of every
guarded run.  `exists_guardedRun` turns the execution of an explicit list of labels into a guarded
run, which is how concrete runs are exhibited.
-/

/-- A labelled transition system: `step s l` is the state after the label `l`, or `none` where the
label is not enabled in `s`. -/
structure Lts (σ : Type*) (ℓ : Type*) where
  step : σ → ℓ → Option σ

namespace Lts

variable {σ ℓ : Type*} (M : Lts σ ℓ)

/-- One step whose label meets the guard in the state before the step. -/
def GuardedStep (ok : σ → ℓ → Prop) (s t : σ) : Prop :=
  ∃ l, ok s l ∧ M.step s l = some t

/-- A finite run whose steps all meet the guard. -/
def GuardedRun (ok : σ → ℓ → Prop) : σ → σ → Prop :=
  Relation.ReflTransGen (M.GuardedStep ok)

/-- Execute a list of labels, as long as each one passes a check in the state before it. -/
def execChecked (check : σ → ℓ → Bool) : σ → List ℓ → Option σ
  | s, [] => some s
  | s, l :: ls => if check s l then (M.step s l).bind fun t => execChecked check t ls else none

variable {M} {ok ok' : σ → ℓ → Prop} {s t : σ}

/-- **Invariant rule.**  What every guarded step preserves is preserved by every guarded run. -/
theorem GuardedRun.invariant {I : σ → Prop}
    (hstep : ∀ s l t, I s → ok s l → M.step s l = some t → I t)
    (hrun : M.GuardedRun ok s t) (hs : I s) : I t := by
  induction hrun with
  | refl => exact hs
  | tail _ hlast ih =>
    obtain ⟨l, hok, hl⟩ := hlast
    exact hstep _ l _ ih hok hl

/-- **Exact conditions.**  Let `I` be an invariant of a system in its environment.  If, from a state
with a property, the condition on a step is exactly that the property holds after it, then the runs
whose steps meet the condition are exactly the runs that have the property throughout. -/
theorem guardedRun_iff_in_env {I Q : σ → Prop} {env : σ → ℓ → Prop} (hinit : I s)
    (hinv : ∀ s l t, I s → env s l → M.step s l = some t → I t) (hs : Q s)
    (hstep : ∀ s l t, I s → Q s → env s l → M.step s l = some t → (Q t ↔ ok s l)) :
    M.GuardedRun (fun s l => env s l ∧ ok s l) s t ↔
      M.GuardedRun (fun s l => env s l ∧ ∀ t, M.step s l = some t → Q t) s t ∧ Q t := by
  constructor
  · intro hrun
    have hall : I t ∧ M.GuardedRun (fun s l => env s l ∧ ∀ t, M.step s l = some t → Q t) s t ∧
        Q t := by
      induction hrun with
      | refl => exact ⟨hinit, Relation.ReflTransGen.refl, hs⟩
      | tail _ hlast ih =>
        obtain ⟨l, ⟨henv, hok⟩, hl⟩ := hlast
        obtain ⟨hI, hbefore, hQ⟩ := ih
        have hafter : ∀ t, M.step _ l = some t → Q t := fun t ht =>
          (hstep _ l t hI hQ henv ht).mpr hok
        exact ⟨hinv _ l _ hI henv hl, hbefore.tail ⟨l, ⟨henv, hafter⟩, hl⟩, hafter _ hl⟩
    exact hall.2
  · rintro ⟨hrun, -⟩
    have hall : I t ∧ M.GuardedRun (fun s l => env s l ∧ ok s l) s t ∧ Q t := by
      induction hrun with
      | refl => exact ⟨hinit, Relation.ReflTransGen.refl, hs⟩
      | tail _ hlast ih =>
        obtain ⟨l, ⟨henv, hafter⟩, hl⟩ := hlast
        obtain ⟨hI, hbefore, hQ⟩ := ih
        have hok := (hstep _ l _ hI hQ henv hl).mp (hafter _ hl)
        exact ⟨hinv _ l _ hI henv hl, hbefore.tail ⟨l, ⟨henv, hok⟩, hl⟩, hafter _ hl⟩
    exact hall.2.1

/-- Exact conditions, in any environment. -/
theorem guardedRun_iff_of_invariant {I Q : σ → Prop} (hinit : I s)
    (hinv : ∀ s l t, I s → M.step s l = some t → I t) (hs : Q s)
    (hstep : ∀ s l t, I s → Q s → M.step s l = some t → (Q t ↔ ok s l)) :
    M.GuardedRun ok s t ↔
      M.GuardedRun (fun s l => ∀ t, M.step s l = some t → Q t) s t ∧ Q t := by
  have h : M.GuardedRun (fun s l => True ∧ ok s l) s t ↔
      M.GuardedRun (fun s l => True ∧ ∀ t, M.step s l = some t → Q t) s t ∧ Q t :=
    guardedRun_iff_in_env hinit (fun s l t hI _ => hinv s l t hI) hs
      fun s l t hI hQ _ => hstep s l t hI hQ
  simpa only [true_and] using h

/-- Exact conditions, where no invariant is needed. -/
theorem guardedRun_iff {Q : σ → Prop} (hs : Q s)
    (hstep : ∀ s l t, Q s → M.step s l = some t → (Q t ↔ ok s l)) :
    M.GuardedRun ok s t ↔
      M.GuardedRun (fun s l => ∀ t, M.step s l = some t → Q t) s t ∧ Q t :=
  guardedRun_iff_of_invariant (I := fun _ => True) trivial (fun _ _ _ _ _ => trivial) hs
    fun s l t _ => hstep s l t

/-- An execution whose checks imply the guard is a guarded run. -/
theorem guardedRun_of_execChecked {check : σ → ℓ → Bool} {ls : List ℓ}
    (hok : ∀ s, ∀ l ∈ ls, check s l = true → ok s l) (hexec : M.execChecked check s ls = some t) :
    M.GuardedRun ok s t := by
  induction ls generalizing s with
  | nil =>
    have hst : s = t := by simpa [execChecked] using hexec
    subst hst
    exact Relation.ReflTransGen.refl
  | cons l ls ih =>
    rw [execChecked] at hexec
    split_ifs at hexec with hcheck
    rw [Option.bind_eq_some_iff] at hexec
    obtain ⟨u, hu, hexec⟩ := hexec
    have hrest := ih (fun s l' hl' => hok s l' (List.mem_cons_of_mem l hl')) hexec
    exact Relation.ReflTransGen.head ⟨l, hok s l List.mem_cons_self hcheck, hu⟩ hrest

/-- What an execution shows exists. -/
theorem exists_guardedRun (M : Lts σ ℓ) (ok : σ → ℓ → Prop) (check : σ → ℓ → Bool) (s : σ)
    (ls : List ℓ) (p : σ → Bool)
    (hok : ∀ s, ∀ l ∈ ls, check s l = true → ok s l)
    (hexec : (M.execChecked check s ls).any p = true) :
    ∃ t, M.GuardedRun ok s t ∧ p t = true := by
  rw [Option.any_eq_true] at hexec
  obtain ⟨t, ht, hp⟩ := hexec
  exact ⟨t, guardedRun_of_execChecked hok ht, hp⟩

end Lts
