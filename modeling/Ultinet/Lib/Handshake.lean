import Mathlib

/-!
# A handshake whose requests and refusals are handled at most once

An initiator makes requests, a new one only when the last one was refused.  A responder serves each
request at most once, and grants or refuses it; when it grants one it takes the initiator as a
member.  The initiator handles each refusal at most once, and grants any number of times.  Messages
may be handled in any order, late, or never; so what matters is only how many of each kind there were.

`established_member`: an initiator whose request was granted is a member, as long as it does not close
what it established.  The reason is a count: an initiator that waits has handled one refusal less than
it made requests, so when there is a grant then every request was served, and nothing can be served
that would get in the way.
-/

namespace Handshake

/-- Where the initiator is. -/
inductive Phase
  | idle
  | waiting
  | established
  | closed
  deriving DecidableEq

/-- The initiator, the responder and how many messages of each kind there were. -/
structure State where
  phase : Phase
  /-- Whether the responder takes the initiator as a member. -/
  member : Bool
  /-- The requests made. -/
  requests : ℕ
  /-- The requests served. -/
  served : ℕ
  /-- The requests granted. -/
  grants : ℕ
  /-- The requests refused. -/
  refusals : ℕ
  /-- The refusals the initiator handled. -/
  refused : ℕ

/-- Nothing happened yet. -/
def init : State where
  phase := .idle
  member := false
  requests := 0
  served := 0
  grants := 0
  refusals := 0
  refused := 0

/-- What can happen. -/
inductive Step : State → State → Prop
  | request (s : State) (hphase : s.phase = .idle) :
      Step s { s with phase := .waiting, requests := s.requests + 1 }
  | grant (s : State) (hserved : s.served < s.requests) :
      Step s { s with member := true, served := s.served + 1, grants := s.grants + 1 }
  | refuse (s : State) (hserved : s.served < s.requests) (hmember : s.member = false) :
      Step s { s with served := s.served + 1, refusals := s.refusals + 1 }
  | handleGrant (s : State) (hgrants : 0 < s.grants) :
      Step s { s with phase := if s.phase = .waiting then .established else s.phase }
  | handleRefusal (s : State) (hrefused : s.refused < s.refusals) :
      Step s { s with
        phase := if s.phase = .waiting then .idle else s.phase
        refused := s.refused + 1 }
  | close (s : State) (hphase : s.phase = .established) : Step s { s with phase := .closed }
  | leave (s : State) (hphase : s.phase = .closed) : Step s { s with member := false }

/-- The states of all runs. -/
def Reachable (s : State) : Prop :=
  Relation.ReflTransGen Step init s

/-- How the counts relate in a phase. -/
def State.Balanced (s : State) : Phase → Prop
  | .idle => s.refused = s.requests
  | .waiting => s.refused + 1 = s.requests ∧ (0 < s.grants → s.member = true)
  | .established => s.refused + 1 = s.requests ∧ 0 < s.grants ∧ s.member = true
  | .closed => s.refused + 1 = s.requests ∧ 0 < s.grants

/-- Nothing is handled that was not sent, only who was granted something is a member, and the counts
relate as they do in the phase. -/
structure Inv (s : State) : Prop where
  refused_le : s.refused ≤ s.refusals
  answers_le : s.grants + s.refusals ≤ s.served
  served_le : s.served ≤ s.requests
  member : s.member = true → 0 < s.grants
  balanced : s.Balanced s.phase

namespace Inv

variable {s t : State}

/-- While a request is left to be served or a refusal is left to be handled, the initiator waits. -/
theorem phase_eq_waiting (h : Inv s)
    (hleft : s.served < s.requests ∨ s.refused < s.refusals) : s.phase = .waiting := by
  obtain ⟨hrefused, hanswers, hserved, -, hbalanced⟩ := h
  cases hphase : s.phase with
  | waiting => rfl
  | idle =>
    rw [hphase] at hbalanced
    unfold State.Balanced at hbalanced
    omega
  | established =>
    rw [hphase] at hbalanced
    obtain ⟨hall, hgrants, -⟩ := hbalanced
    omega
  | closed =>
    rw [hphase] at hbalanced
    obtain ⟨hall, hgrants⟩ := hbalanced
    omega

/-- As long as a request is left to be served, none was granted. -/
theorem grants_eq_zero (h : Inv s) (hserved : s.served < s.requests) : s.grants = 0 := by
  have hbalanced := h.balanced
  rw [h.phase_eq_waiting (Or.inl hserved)] at hbalanced
  obtain ⟨hwaits, -⟩ := hbalanced
  have hrefused := h.refused_le
  have hanswers := h.answers_le
  omega

/-- As long as a request is left to be served, the initiator is no member. -/
theorem member_eq_false (h : Inv s) (hserved : s.served < s.requests) : s.member = false := by
  by_contra hmember
  have hgrants := h.member (by simpa using hmember)
  rw [h.grants_eq_zero hserved] at hgrants
  exact absurd hgrants (lt_irrefl 0)

theorem init : Inv init := by
  constructor <;> simp [Handshake.init, State.Balanced]

/-- **Step lemma.** -/
theorem step (h : Inv s) (hstep : Step s t) : Inv t := by
  have hbalanced := h.balanced
  obtain ⟨hrefused_le, hanswers, hserved_le, hmember, -⟩ := id h
  cases hstep with
  | request hphase =>
    rw [hphase] at hbalanced
    unfold State.Balanced at hbalanced
    refine ⟨hrefused_le, hanswers, hserved_le.trans (Nat.le_succ _), hmember, ?_, ?_⟩
    · simp only [hbalanced]
    · -- every request was refused, so none was granted
      intro hgrants
      dsimp only at hgrants
      omega
  | grant hserved =>
    have hphase := h.phase_eq_waiting (Or.inl hserved)
    rw [hphase] at hbalanced
    refine ⟨hrefused_le, ?_, hserved, fun _ => Nat.succ_pos _, ?_⟩
    · dsimp only
      omega
    · simp only [hphase]
      exact ⟨hbalanced.1, fun _ => rfl⟩
  | refuse hserved hnone =>
    have hphase := h.phase_eq_waiting (Or.inl hserved)
    rw [hphase] at hbalanced
    refine ⟨hrefused_le.trans (Nat.le_succ _), ?_, hserved, hmember, ?_⟩
    · dsimp only
      omega
    · simp only [hphase]
      exact hbalanced
  | handleGrant hgrants =>
    refine ⟨hrefused_le, hanswers, hserved_le, hmember, ?_⟩
    by_cases hphase : s.phase = .waiting
    · rw [hphase] at hbalanced
      obtain ⟨hwaits, hgranted⟩ := hbalanced
      simp only [if_pos hphase]
      exact ⟨hwaits, hgrants, hgranted hgrants⟩
    · simp only [if_neg hphase]
      exact hbalanced
  | handleRefusal hrefused =>
    have hphase := h.phase_eq_waiting (Or.inr hrefused)
    rw [hphase] at hbalanced
    refine ⟨hrefused, hanswers, hserved_le, hmember, ?_⟩
    simp only [if_pos hphase]
    exact hbalanced.1
  | close hphase =>
    rw [hphase] at hbalanced
    exact ⟨hrefused_le, hanswers, hserved_le, hmember, hbalanced.1, hbalanced.2.1⟩
  | leave hphase =>
    rw [hphase] at hbalanced
    refine ⟨hrefused_le, hanswers, hserved_le, (fun hfalse => by cases hfalse), ?_⟩
    simp only [hphase]
    exact hbalanced

end Inv

/-- **Run lemma.** -/
theorem Reachable.inv {s : State} (h : Reachable s) : Inv s := by
  induction h with
  | refl => exact Inv.init
  | tail _ hstep ih => exact ih.step hstep

/-- **What is established is known to the responder.** -/
theorem established_member {s : State} (h : Reachable s) (hphase : s.phase = .established) :
    s.member = true := by
  have hbalanced := h.inv.balanced
  rw [hphase] at hbalanced
  exact hbalanced.2.2

end Handshake
