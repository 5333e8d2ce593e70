import Ultinet.Net.VersionQueries

/-!
# When a client asks a server for its version again

A client is followed together with a log of all the version queries it ever tried to send to one server:
when, what the socket answered, and whether an update tried again (`QueriedRun`).

What the listener of the server remembers is the time of the last query that was sent, but only if
the query that created the listener, or refreshed it last, was sent (`Tracks`).  If that one was
blocked then nothing is remembered, and an update never asks (`QueriedRun.retried_iff`).
-/

namespace Ultinet

variable {P : Packets}

/-! ## The log of the version queries -/

/-- A version query to a server that was tried. -/
structure VersionQuery where
  time : ℕ
  answer : SendAnswer
  /-- An update tried to ask again. -/
  retry : Bool

namespace VersionQuery

/-- The socket accepted the query. -/
def IsSent (q : VersionQuery) : Bool :=
  decide (q.answer = .sent)

/-- The query created the listener of the server or refreshed it.  One that fails does neither. -/
def IsFirst (q : VersionQuery) : Bool :=
  match q.answer with
  | .sent | .wouldBlock => !q.retry
  | .failed _ => false

/-- When a version query was last sent. -/
def lastSent (queries : List VersionQuery) : Option ℕ :=
  (queries.find? IsSent).map time

/-- The version query with which the listener was created, or last refreshed, was sent. -/
def FirstSent (queries : List VersionQuery) : Bool :=
  (queries.find? IsFirst).any IsSent

/-- The queries that were tried in a call, the last one first. -/
def ofAnswers (time : ℕ) (retry : Bool) (answers : List SendAnswer) : List VersionQuery :=
  (answers.map fun answer => { time, answer, retry }).reverse

section Log

variable (queries : List VersionQuery) (now : ℕ) (retry : Bool) (error : IoError)

@[simp] theorem lastSent_sent :
    lastSent (⟨now, .sent, retry⟩ :: queries) = some now := rfl

@[simp] theorem lastSent_wouldBlock :
    lastSent (⟨now, .wouldBlock, retry⟩ :: queries) = lastSent queries := rfl

@[simp] theorem lastSent_failed :
    lastSent (⟨now, .failed error, retry⟩ :: queries) = lastSent queries := rfl

@[simp] theorem firstSent_sent : FirstSent (⟨now, .sent, false⟩ :: queries) = true := rfl

@[simp] theorem firstSent_wouldBlock :
    FirstSent (⟨now, .wouldBlock, false⟩ :: queries) = false := rfl

@[simp] theorem firstSent_failed :
    FirstSent (⟨now, .failed error, retry⟩ :: queries) = FirstSent queries := rfl

@[simp] theorem firstSent_retry (answer : SendAnswer) :
    FirstSent (⟨now, answer, true⟩ :: queries) = FirstSent queries := by
  cases answer <;> rfl

end Log

end VersionQuery

open VersionQuery

/-! ## What a listener remembers -/

/-- What a listener that waits for a version remembers, by the log: the last query that was sent, if
the first one was. -/
structure Remembers (queries : List VersionQuery) (last : Option ℕ) : Prop where
  lastSent : ∀ time, last = some time → lastSent queries = some time
  firstSent : last.isSome = FirstSent queries

/-- A listener is created or refreshed, or stays. -/
theorem Remembers.opens {queries : List VersionQuery} {now : ℕ} {before : Option ℕ → Prop}
    {answers : List SendAnswer} {last : Option ℕ} (h : Opens now before answers last)
    (hbefore : ∀ last, before last → Remembers queries last) :
    Remembers (ofAnswers now false answers ++ queries) last := by
  cases h with
  | kept hlast => exact hbefore last hlast
  | failed hlast error =>
    obtain ⟨hsent, hfirst⟩ := hbefore last hlast
    exact ⟨hsent, hfirst⟩
  | sent => exact ⟨fun _ => id, rfl⟩
  | blocked => exact ⟨by simp, rfl⟩

/-- An update asks again, or does not. -/
theorem Remembers.retried {queries : List VersionQuery} {resendDelay now : ℕ}
    {answers : List SendAnswer} {last last' : Option ℕ} (h : Remembers queries last)
    (hretried : Retried resendDelay now last answers last') :
    Remembers (ofAnswers now true answers ++ queries) last' := by
  cases hretried with
  | early => exact h
  | sent hdue =>
    obtain ⟨it, rfl, -⟩ := hdue
    exact ⟨fun _ => id, h.firstSent⟩
  | blocked => exact ⟨h.lastSent, h.firstSent⟩

/-- A query is due in an update after the last one was sent long enough ago, if the first one was
sent, and only then. -/
theorem Remembers.queryDue_iff {queries : List VersionQuery} {resendDelay now : ℕ} {last : Option ℕ}
    (h : Remembers queries last)
    (hdue : ∀ time, VersionQuery.lastSent queries = some time → resendDelay ≤ elapsed now time) :
    QueryDue resendDelay now last ↔ FirstSent queries = true := by
  rw [← h.firstSent]
  constructor
  · rintro ⟨it, rfl, -⟩
    rfl
  · intro hsome
    obtain ⟨it, rfl⟩ := Option.isSome_iff_exists.mp hsome
    exact ⟨it, rfl, hdue it (h.lastSent it rfl)⟩

/-! ## Runs -/

section Leaves

variable [Rkyv P]

/-- The environment that an operation leaves behind, if it uses the socket. -/
def ClientRun.leaves (r : ClientRun P) : ClientOp P → Option Env
  | .listen serverAddr env => some (r.client.listen serverAddr env.start).2.2
  | .query serverAddr query env =>
      (r.client.query serverAddr query env.start).toOption.map fun result => result.2.2
  | .connect peer connect env =>
      (r.client.connect peer connect env.start).toOption.map fun result => result.2.2
  | .disconnect disconnect env =>
      (r.client.disconnect disconnect env.start).toOption.map fun result => result.2.2
  | .send packet env => (r.client.send packet env.start).toOption.map fun result => result.2.2
  | .forget _ | .forgetAll => none
  | .refreshAll env => some (r.client.refreshAll env.start).2.2
  | .update handler incoming env =>
      (r.client.update handler incoming env.start).toOption.map ClientUpdate.env

end Leaves

/-- Whether an operation asks again. -/
def ClientOp.IsRetry : ClientOp P → Bool
  | .update _ _ _ => true
  | _ => false

/-- A client in a run, and the version queries to a server, the last one first. -/
structure QueriedRun (P : Packets) where
  run : ClientRun P
  queries : List VersionQuery

namespace QueriedRun

/-- The beginning. -/
def init (config : ClientConfig) : QueriedRun P where
  run := .init config
  queries := []

/-- The version queries of a call. -/
def observe (addr : SocketAddr) (retry : Bool) : Option Env → List VersionQuery
  | none => []
  | some env => ofAnswers env.now retry (answersTo addr env.answer [] env.attempts)

section Step

variable [Rkyv P] (addr : SocketAddr)

/-- One operation. -/
def step (q : QueriedRun P) (op : ClientOp P) : Option (QueriedRun P) := do
  let run ← q.run.step op
  return { run, queries := observe addr op.IsRetry (q.run.leaves op) ++ q.queries }

/-- The transition system of a client whose version queries to a server are followed. -/
def system (P : Packets) [Rkyv P] (addr : SocketAddr) : Lts (QueriedRun P) (ClientOp P) where
  step := step addr

end Step

/-- What holds of a client and the log: servers have one listener at most, and it remembers. -/
structure Tracks (addr : SocketAddr) (q : QueriedRun P) : Prop where
  nodup : q.run.client.addrs.Nodup
  remembers : ∀ last, Pending q.run.client.listeners addr last → Remembers q.queries last

theorem observe_eq {addr : SocketAddr} {retry : Bool} {env env' : Env} {answers : List SendAnswer}
    (h : env.start.Asks addr env' answers) :
    observe addr retry (some env') = ofAnswers env.now retry answers := by
  dsimp only [observe]
  rw [h.answersTo_eq rfl, h.now, Env.start_now]

/-- A call that creates or refreshes listeners, or leaves those that wait alone. -/
theorem Tracks.opening {addr : SocketAddr} {q : QueriedRun P} {run : ClientRun P} {env env' : Env}
    (hq : q.Tracks addr) (hnodup : run.client.addrs.Nodup)
    (h : Opening addr env.start q.run.client.listeners env' run.client.listeners) :
    Tracks addr ⟨run, observe addr false (some env') ++ q.queries⟩ := by
  obtain ⟨answers, hasks, hopens⟩ := h
  refine ⟨hnodup, fun last hpending => ?_⟩
  rw [observe_eq hasks]
  exact .opens (hopens last hpending) hq.remembers

section Run

variable [Rkyv P] {addr : SocketAddr} {config : ClientConfig} {q q' : QueriedRun P}
  {op : ClientOp P}

/-- **Step lemma.**  Every operation keeps what holds of the log. -/
theorem Tracks.step (hq : q.Tracks addr) (h : step addr q op = some q') : q'.Tracks addr := by
  unfold QueriedRun.step at h
  rw [Option.bind_eq_bind, Option.bind_eq_some_iff] at h
  obtain ⟨run, hstep, heq⟩ := h
  cases heq
  have hnodup := ClientRun.addrs_nodup_step hq.nodup hstep
  cases op with
  | listen serverAddr env =>
    cases hstep
    exact hq.opening hnodup (q.run.client.listen_opening addr serverAddr env.start)
  | query serverAddr query env =>
    obtain ⟨⟨result, client, env'⟩, hquery, hr⟩ := exists_of_bind_toOption hstep
    cases hr
    have hleaves : q.run.leaves (.query serverAddr query env) = some env' :=
      map_toOption_of_eq_ok hquery
    rw [hleaves]
    exact hq.opening hnodup (Client.query_opening hq.nodup hquery)
  | connect peer connect env =>
    obtain ⟨⟨result, client, env'⟩, hconnect, hr⟩ := exists_of_bind_toOption hstep
    cases hr
    have hleaves : q.run.leaves (.connect peer connect env) = some env' :=
      map_toOption_of_eq_ok hconnect
    rw [hleaves]
    exact hq.opening hnodup (Client.connect_opening hq.nodup hconnect)
  | disconnect disconnect env =>
    obtain ⟨⟨result, client, env'⟩, hdisconnect, hr⟩ := exists_of_bind_toOption hstep
    cases hr
    have hleaves : q.run.leaves (.disconnect disconnect env) = some env' :=
      map_toOption_of_eq_ok hdisconnect
    rw [hleaves]
    exact hq.opening hnodup (Client.sendConnected_opening hq.nodup hdisconnect)
  | send packet env =>
    obtain ⟨⟨result, client, env'⟩, hsend, hr⟩ := exists_of_bind_toOption hstep
    cases hr
    have hleaves : q.run.leaves (.send packet env) = some env' :=
      map_toOption_of_eq_ok hsend
    rw [hleaves]
    exact hq.opening hnodup (Client.sendConnected_opening hq.nodup hsend)
  | forget serverAddr =>
    cases hstep
    exact ⟨hnodup, fun last hpending => hq.remembers last (Client.forget_pending hpending)⟩
  | forgetAll =>
    obtain ⟨client, hforget, hr⟩ := exists_of_bind_toOption hstep
    cases hr
    exact ⟨hnodup, fun last hpending =>
      hq.remembers last (Client.forgetAll_pending hforget hpending)⟩
  | refreshAll env =>
    cases hstep
    exact hq.opening hnodup (Client.refreshListeners_opening _ env.start hq.nodup)
  | update handler incoming env =>
    obtain ⟨u, hupdate, rfl⟩ := ClientRun.step_update hstep
    refine ⟨hnodup, fun last' hpending' => ?_⟩
    obtain ⟨last, hpending⟩ := Client.update_pending hupdate hpending'
    obtain ⟨answers, hasks, -, hretried⟩ := Client.update_retries hq.nodup hpending hupdate
    have hleaves : q.run.leaves (.update handler incoming env) = some u.env :=
      map_toOption_of_eq_ok hupdate
    have hobserve : observe addr true (some u.env) = ofAnswers env.now true answers :=
      observe_eq hasks
    have hremembers := (hq.remembers last hpending).retried (hretried last' hpending')
    rw [Env.start_now, ← hobserve, ← hleaves] at hremembers
    exact hremembers

/-- What holds of the log holds in every run. -/
theorem tracks {ok : QueriedRun P → ClientOp P → Prop}
    (hrun : (system P addr).GuardedRun ok (init config) q) : q.Tracks addr := by
  refine hrun.invariant (I := fun q => q.Tracks addr) (fun _ _ _ hq _ hstep => hq.step hstep) ?_
  refine ⟨List.nodup_nil, fun last hpending => ?_⟩
  obtain ⟨l, hl, -⟩ := hpending
  cases hl

/-- **A pending version query is retried exactly if the first one was sent.**  Let a listener wait for
the version of its server, in any run, and let the last version query that was sent to the server, if
any, be old enough.  Then an update tries to send a version query to the server if and only if the
query with which the listener was created, or last refreshed, was sent.  This holds of its first pass,
and of the whole update, whatever arrives. -/
theorem retried_iff {l : ServerListener P} {last : Option ℕ} {env : Env}
    (hrun : (system P addr).GuardedRun (fun _ _ => True) (init config) q)
    (hl : l ∈ q.run.client.listeners) (haddr : l.serverAddr = addr)
    (hpending : l.state = .pendingVersion last)
    (hdue : ∀ time, lastSent q.queries = some time →
      q.run.client.config.connection.resendDelay ≤ elapsed env.now time) :
    ((addr, []) ∈ (ClientUpdate.updateListeners
        { client := q.run.client, env := env.start, events := [] }).env.attempts ↔
      FirstSent q.queries = true) ∧
    ∀ handler incoming u, q.run.client.update handler incoming env.start = .ok u →
      ((addr, []) ∈ u.env.attempts ↔ FirstSent q.queries = true) := by
  have hq := tracks hrun
  have hwaits : Pending q.run.client.listeners addr last := ⟨l, hl, haddr, hpending⟩
  have hexact := (hq.remembers last hwaits).queryDue_iff hdue
  constructor
  · obtain ⟨answers, hasks, hanswers, -⟩ := ClientUpdate.updateListeners_retries
      (u := { client := q.run.client, env := env.start, events := [] }) hq.nodup hwaits
    exact (hasks.mem_attempts rfl).trans (hanswers.trans hexact)
  · intro handler incoming u hupdate
    obtain ⟨answers, hasks, hanswers, -⟩ := Client.update_retries hq.nodup hwaits hupdate
    exact (hasks.mem_attempts rfl).trans (hanswers.trans hexact)

end Run

/-- The version of the server is pending, and its last query was sent at a given time. -/
def checkPending {P : Packets} (last : Option ℕ) (l : ServerListener P) : Bool :=
  match l.state with
  | .pendingVersion lastVersionQuery => decide (lastVersionQuery = last)
  | .incompatible _ | .compatible _ _ => false

theorem checkPending_sound {P : Packets} {last : Option ℕ} {l : ServerListener P}
    (h : checkPending last l = true) : l.state = .pendingVersion last := by
  unfold checkPending at h
  split at h
  · rename_i hstate
    rw [hstate, of_decide_eq_true h]
  · cases h
  · cases h

/-- A query that was sent when the listener was created is retried a second later. -/
theorem retried_iff_sent :
    ∃ q : QueriedRun DefaultPackets,
      (system DefaultPackets 5).GuardedRun (fun _ _ => True) (init .default) q ∧
      (5, []) ∈ (ClientUpdate.updateListeners
        { client := q.run.client, env := (Env.accepting 1000).start, events := [] }).env.attempts := by
  obtain ⟨q, hrun, hq⟩ := Lts.exists_guardedRun (system DefaultPackets 5) (fun _ _ => True)
    (fun _ _ => true) (init .default) [.listen 5 (.accepting 0)]
    (fun q => decide (lastSent q.queries = some 0) && FirstSent q.queries &&
      decide (q.run.client.config.connection.resendDelay = 1000) &&
      (q.run.client.position 5).any fun found => checkPending (some 0) found.2)
    (fun _ _ _ _ => trivial) (by decide +kernel)
  simp only [Bool.and_eq_true, decide_eq_true_eq, Option.any_eq_true] at hq
  obtain ⟨⟨⟨hlast, hfirst⟩, hdelay⟩, ⟨index, l⟩, hposition, hstate⟩ := hq
  obtain ⟨hget, haddr⟩ := Client.position_eq_some hposition
  have hpending : l.state = .pendingVersion (some 0) := checkPending_sound hstate
  refine ⟨q, hrun, (retried_iff hrun (List.mem_of_getElem? hget) haddr hpending ?_).1.mpr hfirst⟩
  intro time htime
  rw [hlast] at htime
  cases htime
  rw [hdelay]
  exact le_rfl

/-- A query that is blocked when the listener is created is not retried, however much later. -/
theorem not_retried :
    ∃ q : QueriedRun DefaultPackets,
      (system DefaultPackets 5).GuardedRun (fun _ _ => True) (init .default) q ∧
      (∃ l ∈ q.run.client.listeners, l.serverAddr = 5 ∧ l.state = .pendingVersion none) ∧
      lastSent q.queries = none ∧
      ∃ u, q.run.client.update (.default _) {} (Env.accepting 100000).start = .ok u ∧
        (5, []) ∉ u.env.attempts := by
  obtain ⟨q, hrun, hq⟩ := Lts.exists_guardedRun (system DefaultPackets 5) (fun _ _ => True)
    (fun _ _ => true) (init .default) [.listen 5 (.blocked 0)]
    (fun q => decide (lastSent q.queries = none) &&
      ((q.run.client.position 5).any fun found => checkPending none found.2) &&
      (q.run.client.update (.default _) {} (Env.accepting 100000).start).toOption.any
        fun u : ClientUpdate DefaultPackets => decide ((5, []) ∉ u.env.attempts))
    (fun _ _ _ _ => trivial) (by decide +kernel)
  simp only [Bool.and_eq_true, decide_eq_true_eq, Option.any_eq_true] at hq
  obtain ⟨⟨hlast, ⟨index, l⟩, hposition, hstate⟩, u, hu, hnot⟩ := hq
  obtain ⟨hget, haddr⟩ := Client.position_eq_some hposition
  refine ⟨q, hrun, ⟨l, List.mem_of_getElem? hget, haddr, checkPending_sound hstate⟩, hlast, u, ?_,
    hnot⟩
  · generalize q.run.client.update (.default _) {} (Env.accepting 100000).start = result at hu ⊢
    cases result with
    | error abort => cases hu
    | ok v =>
      cases hu
      rfl

end QueriedRun

end Ultinet
