import Mathlib

/-!
# Heartbeats: counting unanswered probes

A monitor sends probes to a peer, one at a time, and gives the peer up when too many of them in a row
are not answered.  It keeps three things only: the probe that was sent last, whether it was answered,
and a count.

The log of a monitor is everything it tried, newest first; an attempt that was blocked is `none`.  A
monitor is a function of its log (`Monitor.ofLog`), which commutes with every operation, so the count
of the monitor is the number of the probes at the front of the log that were not answered.
`Monitor.givesUp_iff` says when a monitor gives up in terms of its log only.
-/

namespace Heartbeat

variable {α : Type*}

/-! ## The log -/

/-- A probe that was sent. -/
structure Probe (α : Type*) where
  token : α
  time : ℕ
  answered : Bool

/-- Everything that was tried, newest first. -/
abbrev Log (α : Type*) := List (Option (Probe α))

/-- The probes that were sent, newest first. -/
def sent (log : Log α) : List (Probe α) :=
  log.reduceOption

/-- How many of the most recent probes were not answered. -/
def missesInARow (probes : List (Probe α)) : ℕ :=
  (probes.takeWhile fun probe => !probe.answered).length

section Log

variable {log : Log α} {probe : Probe α} {probes : List (Probe α)} {n : ℕ}

@[simp] theorem sent_nil : sent ([] : Log α) = [] := rfl

@[simp] theorem sent_some : sent (some probe :: log) = probe :: sent log :=
  List.reduceOption_cons_of_some probe log

@[simp] theorem sent_none : sent (none :: log) = sent log :=
  List.reduceOption_cons_of_none log

@[simp] theorem missesInARow_nil : missesInARow ([] : List (Probe α)) = 0 := rfl

/-- An answer ends a row of misses. -/
theorem missesInARow_answered (h : probe.answered = true) :
    missesInARow (probe :: probes) = 0 := by
  simp [missesInARow, h]

/-- A probe without an answer is one more miss. -/
theorem missesInARow_unanswered (h : probe.answered = false) :
    missesInARow (probe :: probes) = missesInARow probes + 1 := by
  simp [missesInARow, h]

/-- At least `n` probes in a row are unanswered if the `n` most recent ones are. -/
theorem le_missesInARow_iff :
    n ≤ missesInARow probes ↔
      n ≤ probes.length ∧ ∀ probe ∈ probes.take n, probe.answered = false := by
  induction probes generalizing n with
  | nil => simp
  | cons probe probes ih =>
    cases n with
    | zero => simp
    | succ n =>
      rw [List.length_cons, List.take_succ_cons, List.forall_mem_cons, Nat.succ_le_succ_iff]
      cases hanswered : probe.answered with
      | true => simp [missesInARow_answered hanswered]
      | false =>
        rw [missesInARow_unanswered hanswered, Nat.succ_le_succ_iff, ih]
        simp

end Log

/-! ## The monitor -/

/-- What a monitor keeps. -/
structure Monitor (α : Type*) where
  /-- The probe that was sent last, and when, unless it was blocked. -/
  active : Option (α × ℕ)
  /-- The probe was answered. -/
  answered : Bool
  /-- How many probes in a row were not answered, without the active one. -/
  missed : ℕ

namespace Monitor

variable (monitor : Monitor α)

/-- It is time to send the next probe. -/
def Due (delay now : ℕ) : Prop :=
  ∀ active, monitor.active = some active → delay ≤ now - active.2

/-- The active probe was not answered. -/
def misses : Bool :=
  monitor.active.isSome && !monitor.answered

/-- How many probes in a row were not answered, with the active one. -/
def missedNow : ℕ :=
  if monitor.misses then monitor.missed + 1 else monitor.missed

/-- Too many probes in a row were not answered. -/
def GivesUp (max : ℕ) : Prop :=
  monitor.misses = true ∧ max < monitor.missedNow

/-- The next probe is blocked. -/
def blocked : Monitor α where
  active := none
  answered := false
  missed := monitor.missedNow

/-- The next probe is sent. -/
def probed (token : α) (now : ℕ) : Monitor α :=
  { monitor.blocked with active := some (token, now) }

/-- The active probe is answered. -/
def answer : Monitor α :=
  { monitor with answered := true, missed := 0 }

/-- The monitor after everything in the log. -/
def ofLog : Log α → Monitor α
  | some probe :: log =>
      { active := some (probe.token, probe.time)
        answered := probe.answered
        missed := if probe.answered then 0 else missesInARow (sent log) }
  | log => { active := none, answered := false, missed := missesInARow (sent log) }

section OfLog

variable {log : Log α} {probe : Probe α}

/-- After a probe that was not sent there is no active probe. -/
theorem ofLog_none :
    ofLog (none :: log) =
      { active := none, answered := false, missed := missesInARow (sent log) } := rfl

/-- After a probe that was sent it is the active one. -/
theorem ofLog_some :
    ofLog (some probe :: log) =
      { active := some (probe.token, probe.time)
        answered := probe.answered
        missed := if probe.answered then 0 else missesInARow (sent log) } := rfl

/-- **The count is the number of probes in a row that were not answered.** -/
theorem missedNow_ofLog (log : Log α) : (ofLog log).missedNow = missesInARow (sent log) := by
  cases log with
  | nil => rfl
  | cons attempt log =>
    cases attempt with
    | none => simp [ofLog_none, missedNow, misses]
    | some probe =>
      cases hanswered : probe.answered with
      | true => simp [ofLog_some, missedNow, misses, hanswered, missesInARow_answered]
      | false => simp [ofLog_some, missedNow, misses, hanswered, missesInARow_unanswered]

/-- A probe is due but cannot be sent. -/
theorem blocked_ofLog (log : Log α) : (ofLog log).blocked = ofLog (none :: log) := by
  rw [ofLog_none, blocked, missedNow_ofLog]

/-- A probe is sent. -/
theorem probed_ofLog (log : Log α) (token : α) (now : ℕ) :
    (ofLog log).probed token now = ofLog (some ⟨token, now, false⟩ :: log) := by
  rw [ofLog_some, probed, blocked, missedNow_ofLog]
  rfl

/-- The active probe is answered. -/
theorem answer_ofLog (log : Log α) (probe : Probe α) :
    (ofLog (some probe :: log)).answer = ofLog (some { probe with answered := true } :: log) := rfl

/-- An active probe is at the front of the log. -/
theorem active_ofLog {active : α × ℕ} (h : (ofLog log).active = some active) :
    ∃ probe rest, log = some probe :: rest ∧ (probe.token, probe.time) = active := by
  cases log with
  | nil => cases h
  | cons attempt rest =>
    cases attempt with
    | none => cases h
    | some probe => exact ⟨probe, rest, rfl, Option.some.inj h⟩

/-- Without an active probe, or when it was answered, nothing is missed any more. -/
theorem misses_ofLog :
    (ofLog log).misses = true ↔
      ∃ probe rest, log = some probe :: rest ∧ probe.answered = false := by
  constructor
  · intro h
    cases log with
    | nil => cases h
    | cons attempt rest =>
      cases attempt with
      | none => cases h
      | some probe =>
        refine ⟨probe, rest, rfl, ?_⟩
        simpa [ofLog_some, misses] using h
  · rintro ⟨probe, rest, rfl, hanswered⟩
    simp [ofLog_some, misses, hanswered]

end OfLog

/-! ## When a monitor gives up -/

/-- What holds of the log of a monitor that waits before it sends the next probe, and gives up when it
has to. -/
structure Sound (delay : ℕ) (max : Option ℕ) (now : ℕ) (log : Log α) : Prop where
  waited : ∀ probe ∈ sent log.tail, delay ≤ now - probe.time
  kept : ∀ m, max = some m → missesInARow (sent log.tail) ≤ m

namespace Sound

variable {delay now now' : ℕ} {max : Option ℕ} {log : Log α} {probe : Probe α}

/-- Nothing happened yet. -/
theorem nil : Sound delay max now ([] : Log α) := by
  constructor
  · intro probe hmem
    cases hmem
  · intro m _
    exact Nat.zero_le m

/-- Time goes on. -/
theorem later (h : Sound delay max now log) (hle : now ≤ now') : Sound delay max now' log := by
  refine ⟨fun probe hmem => ?_, h.kept⟩
  have hwaited := h.waited probe hmem
  omega

/-- An answer keeps the log sound. -/
theorem answer (h : Sound delay max now (some probe :: log)) :
    Sound delay max now (some { probe with answered := true } :: log) :=
  ⟨h.waited, h.kept⟩

/-- The monitor waited, and did not give up. -/
theorem attempt (h : Sound delay max now log) (hdue : (ofLog log).Due delay now)
    (hkept : ∀ m, max = some m → ¬(ofLog log).GivesUp m) (attempt : Option (Probe α)) :
    Sound delay max now (attempt :: log) := by
  constructor
  · rw [List.tail_cons]
    cases log with
    | nil => exact fun probe hmem => absurd hmem List.not_mem_nil
    | cons front log =>
      cases front with
      | none => exact h.waited
      | some active =>
        rw [sent_some, List.forall_mem_cons]
        exact ⟨hdue _ rfl, h.waited⟩
  · intro m hm
    rw [List.tail_cons]
    by_cases hmisses : (ofLog log).misses = true
    · -- the probe that is missed now is the last one that may be
      rw [← missedNow_ofLog]
      exact Nat.le_of_not_lt fun hlt => hkept m hm ⟨hmisses, hlt⟩
    · cases log with
      | nil => exact Nat.zero_le m
      | cons front log =>
        cases front with
        | none => exact h.kept m hm
        | some active =>
          have hanswered : active.answered = true := by
            simpa [ofLog_some, misses] using hmisses
          rw [sent_some, missesInARow_answered hanswered]
          exact Nat.zero_le m

end Sound

/-- **When a monitor gives up**: exactly when each of the last probes that were sent, one more than it
may miss, was not answered and is old enough. -/
theorem givesUp_iff {delay now m : ℕ} {log : Log α} (h : Sound delay (some m) now log) :
    (ofLog log).Due delay now ∧ (ofLog log).GivesUp m ↔
      m + 1 ≤ (sent log).length ∧
        ∀ probe ∈ (sent log).take (m + 1), probe.answered = false ∧ delay ≤ now - probe.time := by
  have hcount : m < (ofLog log).missedNow ↔
      m + 1 ≤ (sent log).length ∧ ∀ probe ∈ (sent log).take (m + 1), probe.answered = false := by
    rw [missedNow_ofLog, ← le_missesInARow_iff]
    exact Nat.lt_iff_add_one_le
  constructor
  · rintro ⟨hdue, hmisses, hlt⟩
    obtain ⟨hlength, hanswered⟩ := hcount.mp hlt
    refine ⟨hlength, fun probe hmem => ⟨hanswered probe hmem, ?_⟩⟩
    obtain ⟨active, rest, rfl, -⟩ := misses_ofLog.mp hmisses
    rw [sent_some] at hmem
    rcases List.mem_cons.mp (List.mem_of_mem_take hmem) with rfl | hrest
    · exact hdue _ rfl
    · exact h.waited probe hrest
  · rintro ⟨hlength, hall⟩
    have hlt := hcount.mpr ⟨hlength, fun probe hmem => (hall probe hmem).1⟩
    -- the most recent attempt was sent, since one probe more than those behind it is missed
    cases log with
    | nil => cases hlength
    | cons front log =>
      cases front with
      | none =>
        rw [missedNow_ofLog, sent_none] at hlt
        exact absurd (h.kept m rfl) (Nat.not_le_of_lt hlt)
      | some active =>
        rw [sent_some, List.take_succ_cons, List.forall_mem_cons] at hall
        obtain ⟨⟨hanswered, hwaited⟩, -⟩ := hall
        refine ⟨?_, misses_ofLog.mpr ⟨active, log, rfl, hanswered⟩, hlt⟩
        intro active' hactive
        cases hactive
        exact hwaited

end Monitor

end Heartbeat
