import Mathlib

/-!
# Stores whose entries do not disturb each other

A store keeps an entry for every key.  An event concerns some of the keys, and is answered.  It is
*local* if it leaves the entries of the keys that it does not concern alone, and if the entry of a key
that it does concern determines what becomes of that entry, and what the answer is (`Keyed.Local`).

Then the entries do not disturb each other: a run over interleaved events does to the entry of a key
what the run over the events of that key alone does, with the same answers (`Local.run_filter`); and
it fails exactly if the run over the events of some key alone fails (`Local.run_ok_iff`).
-/

/-- A store with entries `ν` for keys `κ`, and what an event `ε` does to it: it is answered with a
`ρ`, or it fails with an `α`. -/
structure Keyed (σ κ ν ε ρ α : Type*) where
  step : σ → ε → Except α (ρ × σ)
  entry : σ → κ → ν
  concerns : κ → ε → Bool

namespace Keyed

variable {σ κ ν ε ρ α : Type*} (K : Keyed σ κ ν ε ρ α)

/-- One event after the other, each with its answer. -/
def run : σ → List ε → Except α (List (ε × ρ) × σ)
  | s, [] => .ok ([], s)
  | s, e :: es =>
      match K.step s e with
      | .error failure => .error failure
      | .ok (answer, t) =>
          match run t es with
          | .error failure => .error failure
          | .ok (answers, u) => .ok ((e, answer) :: answers, u)

/-- The events of a key. -/
def eventsOf (k : κ) (es : List ε) : List ε :=
  es.filter (K.concerns k)

/-- The answers to the events of a key. -/
def answersOf (k : κ) (answers : List (ε × ρ)) : List (ε × ρ) :=
  answers.filter fun answer => K.concerns k answer.1

/-- Every event concerns the entries of its keys only. -/
structure Local : Prop where
  /-- The other entries stay. -/
  frame : ∀ {s t : σ} {e : ε} {answer : ρ} {k : κ}, K.step s e = .ok (answer, t) →
    K.concerns k e = false → K.entry t k = K.entry s k
  /-- The entry of one of its keys determines the answer, and what becomes of the entry. -/
  determined : ∀ {s s' t : σ} {e : ε} {answer : ρ} {k : κ}, K.step s e = .ok (answer, t) →
    K.concerns k e = true → K.entry s' k = K.entry s k →
    ∃ t', K.step s' e = .ok (answer, t') ∧ K.entry t' k = K.entry t k
  /-- An event without keys does not fail. -/
  free : ∀ (s : σ) (e : ε), (∀ k, K.concerns k e = false) → ∃ answer t, K.step s e = .ok (answer, t)

variable {K} {s s' t u : σ} {e : ε} {es : List ε} {answer : ρ} {answers : List (ε × ρ)} {k : κ}

/-- A run without a failure starts with a step that does not fail. -/
theorem run_cons (h : K.run s (e :: es) = .ok (answers, u)) :
    ∃ answer t rest, K.step s e = .ok (answer, t) ∧ K.run t es = .ok (rest, u) ∧
      answers = (e, answer) :: rest := by
  rw [run] at h
  cases hstep : K.step s e with
  | error failure =>
    rw [hstep] at h
    cases h
  | ok stepped =>
    obtain ⟨answer, t⟩ := stepped
    rw [hstep] at h
    dsimp only at h
    cases hrun : K.run t es with
    | error failure =>
      rw [hrun] at h
      cases h
    | ok rest =>
      obtain ⟨rest, u'⟩ := rest
      rw [hrun] at h
      cases h
      exact ⟨answer, t, rest, rfl, hrun, rfl⟩

theorem run_cons_of_step (hstep : K.step s e = .ok (answer, t)) (hrun : K.run t es = .ok (answers, u)) :
    K.run s (e :: es) = .ok ((e, answer) :: answers, u) := by
  simp only [run, hstep, hrun]

/-- **Entries do not disturb each other.**  The run over the events of a key alone, from any store with
the same entry, gives the same answers and leaves the same entry behind. -/
theorem Local.run_filter (h : K.Local) (hrun : K.run s es = .ok (answers, t))
    (hentry : K.entry s' k = K.entry s k) :
    ∃ t', K.run s' (K.eventsOf k es) = .ok (K.answersOf k answers, t') ∧
      K.entry t' k = K.entry t k := by
  induction es generalizing s s' answers with
  | nil =>
    cases hrun
    exact ⟨s', rfl, hentry⟩
  | cons e es ih =>
    obtain ⟨answer, u, rest, hstep, hrest, rfl⟩ := run_cons hrun
    cases hk : K.concerns k e with
    | true =>
      obtain ⟨u', hstep', hentry'⟩ := h.determined hstep hk hentry
      obtain ⟨t', hrest', ht'⟩ := ih hrest hentry'
      refine ⟨t', ?_, ht'⟩
      simp only [eventsOf, answersOf, List.filter_cons, hk, if_true]
      exact run_cons_of_step hstep' hrest'
    | false =>
      have hentry' : K.entry s' k = K.entry u k := hentry.trans (h.frame hstep hk).symm
      obtain ⟨t', hrest', ht'⟩ := ih hrest hentry'
      refine ⟨t', ?_, ht'⟩
      simpa only [eventsOf, answersOf, List.filter_cons, hk, Bool.false_eq_true, if_false]
        using hrest'

/-- **Failures.**  A run does not fail exactly if, for every key, the run over its events alone does
not fail. -/
theorem Local.run_ok_iff (h : K.Local) (s : σ) (es : List ε) :
    (∃ answers t, K.run s es = .ok (answers, t)) ↔
      ∀ k, ∃ answers t, K.run s (K.eventsOf k es) = .ok (answers, t) := by
  constructor
  · rintro ⟨answers, t, hrun⟩ k
    obtain ⟨t', hrun', -⟩ := h.run_filter hrun (rfl : K.entry s k = K.entry s k)
    exact ⟨_, t', hrun'⟩
  · -- each key runs its events on a store of its own
    suffices hgen : ∀ (es : List ε) (s : σ) (own : κ → σ), (∀ k, K.entry (own k) k = K.entry s k) →
        (∀ k, ∃ answers t, K.run (own k) (K.eventsOf k es) = .ok (answers, t)) →
        ∃ answers t, K.run s es = .ok (answers, t) from hgen es s (fun _ => s) fun _ => rfl
    intro es
    induction es with
    | nil => exact fun s _ _ _ => ⟨[], s, rfl⟩
    | cons e es ih =>
      intro s own hown hall
      have hhead : ∀ k, K.concerns k e = true → ∃ answer u answers t,
          K.step (own k) e = .ok (answer, u) ∧ K.run u (K.eventsOf k es) = .ok (answers, t) := by
        intro k hk
        obtain ⟨answers, t, hrun⟩ := hall k
        rw [eventsOf, List.filter_cons, if_pos hk] at hrun
        obtain ⟨answer, u, rest, hstep, hrest, -⟩ := run_cons hrun
        exact ⟨answer, u, rest, t, hstep, hrest⟩
      -- the store takes the step, since one of the keys does
      obtain ⟨answer, u, hstep⟩ : ∃ answer u, K.step s e = .ok (answer, u) := by
        by_cases hkeys : ∀ k, K.concerns k e = false
        · exact h.free s e hkeys
        · push Not at hkeys
          obtain ⟨k, hk⟩ := hkeys
          have hk' : K.concerns k e = true := by simpa using hk
          obtain ⟨answer, u, -, -, hstep, -⟩ := hhead k hk'
          obtain ⟨u', hstep', -⟩ := h.determined hstep hk' (hown k).symm
          exact ⟨answer, u', hstep'⟩
      -- and so does the store of each key that is concerned
      have hnext : ∀ k, ∃ v, K.entry v k = K.entry u k ∧
          ∃ answers t, K.run v (K.eventsOf k es) = .ok (answers, t) := by
        intro k
        cases hk : K.concerns k e with
        | true =>
          obtain ⟨answer', v, answers, t, hstep', hrest⟩ := hhead k hk
          obtain ⟨v', hstep'', hentry⟩ := h.determined hstep hk (hown k)
          rw [hstep'] at hstep''
          cases hstep''
          exact ⟨v, hentry, answers, t, hrest⟩
        | false =>
          refine ⟨own k, (hown k).trans (h.frame hstep hk).symm, ?_⟩
          have hrun := hall k
          rw [eventsOf, List.filter_cons, hk, if_neg Bool.false_ne_true] at hrun
          exact hrun
      choose own' hentry hrest using hnext
      obtain ⟨answers, t, hrun⟩ := ih u own' hentry hrest
      exact ⟨_, t, run_cons_of_step hstep hrun⟩

end Keyed
