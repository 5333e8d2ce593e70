import Mathlib

/-!
# Sessions with one peer at a time

The traces of a participant that requests a session from a peer, is granted or refused it, uses it,
and loses it again, by closing it, because the peer fails or because everything is cut off.

`Lawful` states the law of such traces in terms of what came before an event.  `Phase.next` is an
automaton that reads a trace event by event, and `lawful_iff` says that it accepts exactly the lawful
traces.  So to show that a program is lawful it is enough to keep a phase beside its state, and
whether a concrete trace is lawful can be evaluated.
-/

namespace Session

variable {α : Type*}

/-- What can happen, as far as the session is concerned. -/
inductive Event (α : Type*)
  /-- A session is requested from a peer, which gives up the one before it. -/
  | request (peer : α)
  | grant
  | refuse
  /-- Something that needs a session. -/
  | use
  /-- Something that needs a session and ends it. -/
  | close
  /-- A peer fails, which ends a session with it. -/
  | fail (peer : α)
  /-- The session ends, whoever it is with. -/
  | cut
  deriving DecidableEq

namespace Event

/-- A session is granted or refused. -/
def IsAnswer : Event α → Bool
  | grant | refuse => true
  | _ => false

/-- A session is requested. -/
def IsRequest : Event α → Bool
  | request _ => true
  | _ => false

/-- Something that is only allowed in a session. -/
def NeedsSession : Event α → Bool
  | use | close => true
  | _ => false

/-- A session with the peer, requested or granted, is still the same afterwards. -/
def Keeps (peer : α) : Event α → Prop
  | use => True
  | fail peer' => peer' ≠ peer
  | _ => False

end Event

/-! ## The law -/

/-- **The law of sessions.**  An answer is one to a request: since the last request no other answer
was given and the session did not end.  And what needs a session comes after the grant that answered
the last request, since when the session did not end. -/
structure Lawful (trace : List (Event α)) : Prop where
  answered : ∀ before e after, trace = before ++ e :: after → e.IsAnswer = true →
    ∃ earlier peer since, before = earlier ++ .request peer :: since ∧
      ∀ e ∈ since, e.Keeps peer
  granted : ∀ before e after, trace = before ++ e :: after → e.NeedsSession = true →
    ∃ earlier peer pending since,
      before = earlier ++ .request peer :: (pending ++ .grant :: since) ∧
      ∀ e ∈ pending ++ since, e.Keeps peer

/-! ## The automaton -/

/-- How far a session is. -/
inductive Phase (α : Type*)
  | idle
  | requested (peer : α)
  | opened (peer : α)
  deriving DecidableEq

namespace Phase

/-- The peer of a session. -/
def peer? : Phase α → Option α
  | idle => none
  | requested peer | opened peer => some peer

/-- How many answers are outstanding. -/
def outstanding : Phase α → ℕ
  | requested _ => 1
  | _ => 0

variable [DecidableEq α]

/-- The phase after an event, unless the event is not allowed. -/
def next : Phase α → Event α → Option (Phase α)
  | _, .request peer => some (.requested peer)
  | requested peer, .grant => some (.opened peer)
  | requested _, .refuse => some .idle
  | opened peer, .use => some (.opened peer)
  | opened _, .close => some .idle
  | phase, .fail peer => some (if phase.peer? = some peer then .idle else phase)
  | _, .cut => some .idle
  | _, .grant | _, .refuse | _, .use | _, .close => none

/-- The phase after a trace that is allowed. -/
def after (trace : List (Event α)) : Option (Phase α) :=
  trace.foldlM next idle

@[simp] theorem after_nil : after ([] : List (Event α)) = some idle := rfl

/-- The phase after one more event. -/
theorem after_concat (trace : List (Event α)) (e : Event α) :
    after (trace ++ [e]) = (after trace).bind fun phase => phase.next e := by
  simp [after, List.foldlM_append]

/-- The phase after more events. -/
theorem after_append (trace trace' : List (Event α)) :
    after (trace ++ trace') = (after trace).bind fun phase => trace'.foldlM next phase := by
  simp [after, List.foldlM_append]

/-- The phase is idle or its peer fails, or the phase stays the same. -/
theorem next_fail (phase : Phase α) (peer : α) :
    phase.next (.fail peer) = some (if phase.peer? = some peer then .idle else phase) := by
  cases phase <;> rfl

/-- Other peers may fail. -/
theorem next_fail_of_ne {phase : Phase α} {peer : α} (h : phase.peer? ≠ some peer) :
    phase.next (.fail peer) = some phase := by
  rw [next_fail, if_neg h]

/-- A session that was requested is still requested after what keeps it, if that is allowed. -/
theorem next_requested_of_keeps {peer : α} {e : Event α} (h : e.Keeps peer) {phase : Phase α}
    (hnext : (requested peer).next e = some phase) : phase = requested peer := by
  cases e with
  | use => cases hnext
  | fail peer' =>
    have hne : (requested peer).peer? ≠ some peer' := fun heq => h (Option.some.inj heq).symm
    rw [next_fail_of_ne hne] at hnext
    exact (Option.some.inj hnext).symm
  | _ => exact h.elim

/-- A session that was granted is still there after what keeps it. -/
theorem next_opened_of_keeps {peer : α} {e : Event α} (h : e.Keeps peer) :
    (opened peer).next e = some (opened peer) := by
  cases e with
  | use => rfl
  | fail peer' => exact next_fail_of_ne fun heq => h (Option.some.inj heq).symm
  | _ => exact h.elim

/-- What neither answers nor needs a session is allowed in every phase. -/
theorem exists_next {e : Event α} (hanswer : e.IsAnswer = false) (hneeds : e.NeedsSession = false)
    (phase : Phase α) : ∃ phase', phase.next e = some phase' := by
  cases e with
  | request peer => exact ⟨.requested peer, by cases phase <;> rfl⟩
  | fail peer => exact ⟨_, next_fail phase peer⟩
  | cut => exact ⟨.idle, by cases phase <;> rfl⟩
  | grant => cases hanswer
  | refuse => cases hanswer
  | use => cases hneeds
  | close => cases hneeds

/-- The same for several events. -/
theorem exists_foldlM_next {events : List (Event α)}
    (h : ∀ e ∈ events, e.IsAnswer = false ∧ e.NeedsSession = false) (phase : Phase α) :
    ∃ phase', events.foldlM next phase = some phase' := by
  induction events generalizing phase with
  | nil => exact ⟨phase, rfl⟩
  | cons e events ih =>
    obtain ⟨hanswer, hneeds⟩ := h e List.mem_cons_self
    obtain ⟨phase', hnext⟩ := exists_next hanswer hneeds phase
    obtain ⟨phase'', hrest⟩ := ih (fun e' he => h e' (List.mem_cons_of_mem e he)) phase'
    refine ⟨phase'', ?_⟩
    rw [List.foldlM_cons, hnext]
    exact hrest

/-- Any number of other peers may fail. -/
theorem foldlM_fail {phase : Phase α} {peers : List α}
    (h : ∀ peer ∈ peers, phase.peer? ≠ some peer) :
    (peers.map Event.fail).foldlM next phase = some phase := by
  induction peers with
  | nil => rfl
  | cons peer peers ih =>
    rw [List.map_cons, List.foldlM_cons, next_fail_of_ne (h peer List.mem_cons_self)]
    exact ih fun peer' hmem => h peer' (List.mem_cons_of_mem peer hmem)

/-! ### What a phase says about the trace -/

/-- A session is requested if and only if there was a request, and nothing but what keeps the
session since. -/
theorem exists_of_after_requested {trace : List (Event α)} {peer : α}
    (h : after trace = some (requested peer)) :
    ∃ earlier since, trace = earlier ++ .request peer :: since ∧ ∀ e ∈ since, e.Keeps peer := by
  induction trace using List.reverseRecOn with
  | nil => cases h
  | append_singleton trace e ih =>
    rw [after_concat, Option.bind_eq_some_iff] at h
    obtain ⟨phase, hphase, hnext⟩ := h
    cases e with
    | request peer' =>
      have heq : requested peer' = requested peer := Option.some.inj hnext
      cases heq
      exact ⟨trace, [], rfl, fun e he => nomatch he⟩
    | fail peer' =>
      rw [next_fail] at hnext
      split_ifs at hnext with hpeer
      · cases hnext
      · -- another peer fails
        obtain rfl : phase = requested peer := Option.some.inj hnext
        obtain ⟨earlier, since, rfl, hkeeps⟩ := ih hphase
        refine ⟨earlier, since ++ [.fail peer'], by simp, fun e he => ?_⟩
        rcases List.mem_append.mp he with he | he
        · exact hkeeps e he
        · rw [List.mem_singleton.mp he]
          rintro rfl
          exact hpeer rfl
    | _ => cases phase <;> cases hnext

/-- A session is open if there was a grant after a request, and nothing but what keeps the session
since. -/
theorem exists_of_after_opened {trace : List (Event α)} {peer : α}
    (h : after trace = some (opened peer)) :
    ∃ earlier pending since, trace = earlier ++ .request peer :: (pending ++ .grant :: since) ∧
      ∀ e ∈ pending ++ since, e.Keeps peer := by
  induction trace using List.reverseRecOn with
  | nil => cases h
  | append_singleton trace e ih =>
    rw [after_concat, Option.bind_eq_some_iff] at h
    obtain ⟨phase, hphase, hnext⟩ := h
    -- an event that keeps the session
    have hkept : phase = opened peer → e.Keeps peer →
        ∃ earlier pending since,
          trace ++ [e] = earlier ++ .request peer :: (pending ++ .grant :: since) ∧
          ∀ e ∈ pending ++ since, e.Keeps peer := by
      rintro rfl hkeep
      obtain ⟨earlier, pending, since, rfl, hkeeps⟩ := ih hphase
      refine ⟨earlier, pending, since ++ [e], by simp, fun e' he => ?_⟩
      rw [← List.append_assoc, List.mem_append, List.mem_singleton] at he
      rcases he with he | rfl
      · exact hkeeps e' he
      · exact hkeep
    cases e with
    | grant =>
      cases phase with
      | requested peer' =>
        have heq : opened peer' = opened peer := Option.some.inj hnext
        cases heq
        obtain ⟨earlier, since, rfl, hkeeps⟩ := exists_of_after_requested hphase
        exact ⟨earlier, since, [], by simp, by simpa using hkeeps⟩
      | _ => cases hnext
    | use =>
      cases phase with
      | opened peer' =>
        have heq : opened peer' = opened peer := Option.some.inj hnext
        exact hkept heq trivial
      | _ => cases hnext
    | fail peer' =>
      rw [next_fail] at hnext
      split_ifs at hnext with hpeer
      · cases hnext
      · -- another peer fails
        obtain rfl : phase = opened peer := Option.some.inj hnext
        refine hkept rfl ?_
        rintro rfl
        exact hpeer rfl
    | _ => cases phase <;> cases hnext

/-- After a request and what keeps the session, the session is requested. -/
theorem after_eq_requested {earlier since : List (Event α)} {peer : α}
    (hkeeps : ∀ e ∈ since, e.Keeps peer) {phase : Phase α}
    (h : after (earlier ++ .request peer :: since) = some phase) : phase = requested peer := by
  induction since using List.reverseRecOn generalizing phase with
  | nil =>
    rw [after_concat, Option.bind_eq_some_iff] at h
    obtain ⟨phase', -, hnext⟩ := h
    exact (Option.some.inj hnext).symm
  | append_singleton since e ih =>
    rw [show earlier ++ Event.request peer :: (since ++ [e]) =
      (earlier ++ .request peer :: since) ++ [e] by simp, after_concat,
      Option.bind_eq_some_iff] at h
    obtain ⟨phase', hphase', hnext⟩ := h
    have hbefore := ih (fun e' he => hkeeps e' (List.mem_append_left _ he)) hphase'
    subst hbefore
    exact next_requested_of_keeps (hkeeps e (List.mem_append_right _ (List.mem_singleton_self e)))
      hnext

/-- After a grant of the session that was requested and what keeps it, the session is open. -/
theorem after_eq_opened {earlier pending since : List (Event α)} {peer : α}
    (hkeeps : ∀ e ∈ pending ++ since, e.Keeps peer) {phase : Phase α}
    (h : after (earlier ++ .request peer :: (pending ++ .grant :: since)) = some phase) :
    phase = opened peer := by
  induction since using List.reverseRecOn generalizing phase with
  | nil =>
    rw [List.append_nil] at hkeeps
    rw [show earlier ++ Event.request peer :: (pending ++ [.grant]) =
      (earlier ++ .request peer :: pending) ++ [.grant] by simp, after_concat,
      Option.bind_eq_some_iff] at h
    obtain ⟨phase', hphase', hnext⟩ := h
    have hbefore := after_eq_requested hkeeps hphase'
    subst hbefore
    exact (Option.some.inj hnext).symm
  | append_singleton since e ih =>
    rw [show earlier ++ Event.request peer :: (pending ++ .grant :: (since ++ [e])) =
      (earlier ++ .request peer :: (pending ++ .grant :: since)) ++ [e] by simp, after_concat,
      Option.bind_eq_some_iff] at h
    obtain ⟨phase', hphase', hnext⟩ := h
    rw [← List.append_assoc] at hkeeps
    have hbefore := ih (fun e' he => hkeeps e' (List.mem_append_left _ he)) hphase'
    subst hbefore
    rw [next_opened_of_keeps (hkeeps e (List.mem_append_right _ (List.mem_singleton_self e)))]
      at hnext
    exact (Option.some.inj hnext).symm

/-- The part of an allowed trace before some event is allowed, and then the event is. -/
theorem exists_next_of_after {before after' : List (Event α)} {e : Event α}
    (h : (after (before ++ e :: after')).isSome = true) :
    ∃ phase phase', after before = some phase ∧ phase.next e = some phase' := by
  obtain ⟨last, hlast⟩ := Option.isSome_iff_exists.mp h
  rw [after_append, Option.bind_eq_some_iff] at hlast
  obtain ⟨phase, hphase, hrest⟩ := hlast
  rw [List.foldlM_cons, Option.bind_eq_bind, Option.bind_eq_some_iff] at hrest
  obtain ⟨phase', hnext, -⟩ := hrest
  exact ⟨phase, phase', hphase, hnext⟩

end Phase

/-! ## The automaton accepts the lawful traces -/

section Automaton

variable [DecidableEq α] {trace : List (Event α)}

omit [DecidableEq α] in
/-- The beginning of a lawful trace is lawful. -/
theorem Lawful.of_concat {e : Event α} (h : Lawful (trace ++ [e])) : Lawful trace := by
  constructor
  · intro before e' after htrace
    exact h.answered before e' (after ++ [e]) (by rw [htrace]; simp)
  · intro before e' after htrace
    exact h.granted before e' (after ++ [e]) (by rw [htrace]; simp)

/-- **The automaton accepts exactly the lawful traces.** -/
theorem lawful_iff : Lawful trace ↔ (Phase.after trace).isSome = true := by
  constructor
  · intro h
    induction trace using List.reverseRecOn with
    | nil => rfl
    | append_singleton trace e ih =>
      obtain ⟨phase, hphase⟩ := Option.isSome_iff_exists.mp (ih h.of_concat)
      rw [Phase.after_concat, hphase, Option.bind_some]
      -- an answer finds the session requested
      have hanswer : e.IsAnswer = true → ∃ peer, phase = .requested peer := by
        intro he
        obtain ⟨earlier, peer, since, rfl, hkeeps⟩ := h.answered trace e [] rfl he
        exact ⟨peer, Phase.after_eq_requested hkeeps hphase⟩
      -- what needs a session finds it open
      have hopened : e.NeedsSession = true → ∃ peer, phase = .opened peer := by
        intro he
        obtain ⟨earlier, peer, pending, since, rfl, hkeeps⟩ := h.granted trace e [] rfl he
        exact ⟨peer, Phase.after_eq_opened hkeeps hphase⟩
      cases e with
      | request peer => cases phase <;> rfl
      | grant =>
        obtain ⟨peer, rfl⟩ := hanswer rfl
        rfl
      | refuse =>
        obtain ⟨peer, rfl⟩ := hanswer rfl
        rfl
      | use =>
        obtain ⟨peer, rfl⟩ := hopened rfl
        rfl
      | close =>
        obtain ⟨peer, rfl⟩ := hopened rfl
        rfl
      | fail peer =>
        rw [Phase.next_fail]
        rfl
      | cut => cases phase <;> rfl
  · intro h
    constructor
    · rintro before e after rfl he
      obtain ⟨phase, phase', hphase, hnext⟩ := Phase.exists_next_of_after h
      have hrequested : ∃ peer, phase = .requested peer := by
        cases e with
        | grant => cases phase <;> first | cases hnext; done | exact ⟨_, rfl⟩
        | refuse => cases phase <;> first | cases hnext; done | exact ⟨_, rfl⟩
        | _ => cases he
      obtain ⟨peer, rfl⟩ := hrequested
      obtain ⟨earlier, since, htrace, hkeeps⟩ := Phase.exists_of_after_requested hphase
      exact ⟨earlier, peer, since, htrace, hkeeps⟩
    · rintro before e after rfl he
      obtain ⟨phase, phase', hphase, hnext⟩ := Phase.exists_next_of_after h
      have hopened : ∃ peer, phase = .opened peer := by
        cases e with
        | use => cases phase <;> first | cases hnext; done | exact ⟨_, rfl⟩
        | close => cases phase <;> first | cases hnext; done | exact ⟨_, rfl⟩
        | _ => cases he
      obtain ⟨peer, rfl⟩ := hopened
      obtain ⟨earlier, pending, since, htrace, hkeeps⟩ := Phase.exists_of_after_opened hphase
      exact ⟨earlier, peer, pending, since, htrace, hkeeps⟩

/-- An answer uses up the one that is outstanding, and only a request makes one outstanding. -/
theorem Phase.outstanding_next {phase phase' : Phase α} {e : Event α}
    (hrequest : ¬e.IsRequest = true) (h : phase.next e = some phase') :
    phase'.outstanding + (if e.IsAnswer = true then 1 else 0) ≤ phase.outstanding := by
  cases e with
  | request peer => exact absurd rfl hrequest
  | fail peer =>
    have hanswer : ¬(Event.fail peer).IsAnswer = true := Bool.false_ne_true
    rw [Phase.next_fail] at h
    rw [if_neg hanswer]
    cases h
    split_ifs
    · exact Nat.zero_le _
    · exact Nat.le_refl _
  | _ =>
    cases phase <;> cases h
    all_goals simp [Phase.outstanding, Event.IsAnswer]

/-- At most one answer is given where there is no request. -/
theorem Phase.countP_isAnswer_le {phase phase' : Phase α} {events : List (Event α)}
    (hrequest : ∀ e ∈ events, ¬e.IsRequest = true)
    (h : events.foldlM Phase.next phase = some phase') :
    events.countP Event.IsAnswer ≤ phase.outstanding := by
  induction events generalizing phase with
  | nil => exact Nat.zero_le _
  | cons e events ih =>
    rw [List.foldlM_cons, Option.bind_eq_bind, Option.bind_eq_some_iff] at h
    obtain ⟨phase'', hnext, hrest⟩ := h
    have hhead := Phase.outstanding_next (hrequest e List.mem_cons_self) hnext
    have htail := ih (fun e' he => hrequest e' (List.mem_cons_of_mem e he)) hrest
    rw [List.countP_cons]
    exact (Nat.add_le_add_right htail _).trans hhead

/-- **Between two requests there is at most one answer.** -/
theorem Lawful.countP_isAnswer_le_one {before between after : List (Event α)}
    (h : Lawful (before ++ (between ++ after))) (hrequest : ∀ e ∈ between, ¬e.IsRequest = true) :
    between.countP Event.IsAnswer ≤ 1 := by
  obtain ⟨last, hlast⟩ := Option.isSome_iff_exists.mp (lawful_iff.mp h)
  rw [Phase.after_append, Option.bind_eq_some_iff] at hlast
  obtain ⟨phase, -, hrest⟩ := hlast
  rw [List.foldlM_append, Option.bind_eq_bind, Option.bind_eq_some_iff] at hrest
  obtain ⟨phase', hbetween, -⟩ := hrest
  refine (Phase.countP_isAnswer_le hrequest hbetween).trans ?_
  cases phase with
  | requested peer => exact Nat.le_refl 1
  | _ => exact Nat.zero_le 1

end Automaton

end Session
