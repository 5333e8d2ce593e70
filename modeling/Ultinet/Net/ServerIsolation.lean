import Ultinet.Net.OtherClients

/-!
# Peers of a server do not disturb each other

Whatever other peers send, and whatever the caller does for them, a peer keeps its place: what the
server keeps for it stays the same, it is sent nothing and the handler is told nothing about it
(`ServerRun.isolated`).  Only its own datagrams, the calls that name it and the passes over all clients
make a difference.

A call starts with nothing sent and nothing told.  To speak about several calls, a server is logged
together with what it sent and what its handler was told in the calls before (`ServerLog`).
-/

namespace Ultinet

variable {P : Packets} {u u' u'' : ServerUpdate P} {other : SocketAddr}

/-! ## What is left alone -/

/-- What the server keeps for an address is the same, and in the current call nothing more is sent to it
and the handler is told nothing more about it. -/
structure ServerUpdate.Untouched (other : SocketAddr) (u u' : ServerUpdate P) : Prop where
  entry : u.server.SameEntry other u'.server
  sent : ∃ new, u'.env.sent = u.env.sent ++ new ∧ ∀ datagram ∈ new, datagram.1 ≠ other
  told : ∃ new, u'.events = u.events ++ new ∧ ∀ e ∈ new, e.addr? ≠ some other

/-- Nothing is sent to an address. -/
theorem Env.Tells.sent_elsewhere {env env' : Env} (h : env.Tells other (fun _ => False) env') :
    ∃ new, env'.sent = env.sent ++ new ∧ ∀ datagram ∈ new, datagram.1 ≠ other := by
  obtain ⟨new, hsent, hnew⟩ := h.sent
  exact ⟨new, hsent, fun datagram hmem haddr => hnew datagram hmem haddr⟩

/-! ## One step -/

section Receive

variable [Rkyv P] {handler : ServerHandler P} {addr : SocketAddr} {buf : Bytes}

/-- What the handler is told about the sender of a packet that ends a connection. -/
theorem EndsConnection.about {buffers : PacketBuffers} {env : Env} {packet : ClientConnectionPacket P}
    {new : List (ServerEvent P)} (h : EndsConnection handler u addr buffers env packet new) :
    ∀ e ∈ new, e.addr? = some addr := by
  intro e he
  cases h with
  | connect connect =>
    simp only [List.mem_cons, List.not_mem_nil, or_false] at he
    rcases he with rfl | rfl <;> rfl
  | disconnect disconnect =>
    simp only [List.mem_cons, List.not_mem_nil, or_false] at he
    rcases he with rfl | rfl <;> rfl
  | query query error =>
    simp only [List.mem_cons, List.not_mem_nil, or_false] at he
    rcases he with rfl | rfl | rfl <;> rfl

/-- The handler is told about the sender of a datagram only. -/
theorem ServerUpdate.Handled.about (h : u.Handled handler addr buf u') :
    ∃ new, u'.events = u.events ++ new ∧ ∀ e ∈ new, e.addr? = some addr ∨ e.addr? = none := by
  cases h with
  | version new hbuf hnew hevents hserver =>
    refine ⟨new, hevents, fun e he => ?_⟩
    rcases hnew e he with rfl | ⟨error, rfl⟩
    · exact Or.inr rfl
    · exact Or.inl rfl
  | versionAnswered hbuf hsend hlistener hclient hevents hserver =>
    refine ⟨_, hevents, fun e he => ?_⟩
    rw [List.mem_singleton.mp he]
    exact Or.inr rfl
  | unknown hbuf hlistener hclient hevents hserver =>
    refine ⟨_, hevents, fun e he => ?_⟩
    rw [List.mem_singleton.mp he]
    exact Or.inl rfl
  | client index client client' new hbuf hfind haddr hevolves hnew hevents hserver =>
    exact ⟨new, hevents, fun e he => Or.inl (hnew e he).1⟩
  | disconnected index client client' new packet buffers env hbuf hfind haddr hcompletes hends
      hevolves hevents hserver =>
    exact ⟨new, hevents, fun e he => Or.inl (hends.about e he)⟩
  | listener buffers buffers' new hbuf hclient hget hevolves hnew hevents hlisteners hclients
      hconfig =>
    exact ⟨new, hevents, fun e he => Or.inl (hnew e he).1⟩
  | accepted buffers buffers' buffers'' connect accept env env' packetId hbuf hclient hget hcompletes
      haccept hsend hevents hlisteners hclients hconfig =>
    refine ⟨_, hevents, fun e he => Or.inl ?_⟩
    simp only [List.mem_cons, List.not_mem_nil, or_false] at he
    rcases he with rfl | rfl <;> rfl

end Receive

namespace ServerRun

open Server

variable [Rkyv P] {l : ServerStep P}

/-- A step that is not about an address: a datagram of another one, a call that names another one, an
error of the socket, or the start of a call, at any time. -/
def Elsewhere (other : SocketAddr) : ServerStep P → Prop
  | .datagram _ addr _ | .send addr _ | .unlisten addr => addr ≠ other
  | .call _ | .recvError _ => True
  | .updateBuffers | .sendPings | .unlistenAll => False

/-- **Step lemma**, within a call. -/
theorem step_untouched (hs : u.server.UniqueAddrs) (hl : Elsewhere other l)
    (hcall : ∀ env, l ≠ .call env) (h : step u l = some u') : u.Untouched other u' := by
  have hs' := step_uniqueAddrs hs h
  cases l with
  | datagram handler addr buf =>
    rw [step, toOption_eq_some] at h
    have hhandled := ServerUpdate.handled h
    obtain ⟨new, hevents, habout⟩ := hhandled.about
    refine ⟨hhandled.sameEntry hs' fun heq => hl heq.symm,
      (ServerUpdate.handleDatagram_tells hl h).sent_elsewhere, new, hevents, fun e he => ?_⟩
    rcases habout e he with haddr | haddr <;> rw [haddr]
    · exact fun heq => hl (Option.some.inj heq)
    · exact fun heq => by cases heq
  | send addr packet =>
    simp only [step, Option.bind_eq_bind, Option.bind_eq_some_iff] at h
    obtain ⟨⟨result, s', env'⟩, hsend, heq⟩ := h
    cases heq
    rw [toOption_eq_some] at hsend
    obtain ⟨hentry, htells⟩ := send_other hs' hl hsend
    exact ⟨hentry, htells.sent_elsewhere, [], by simp⟩
  | unlisten addr =>
    cases h
    refine ⟨?_, ⟨[], by simp⟩, ⟨[], by simp⟩⟩
    dsimp only
    unfold Server.unlisten
    split_ifs
    · refine ⟨?_, rfl⟩
      rw [SortedMap.get?_erase, if_neg fun heq => hl heq.symm]
    · exact ⟨rfl, rfl⟩
    · exact ⟨rfl, rfl⟩
  | recvError error =>
    cases h
    refine ⟨⟨rfl, rfl⟩, ⟨[], by simp [ServerUpdate.tell]⟩, [.error (.recv error)], rfl, fun e he => ?_⟩
    rw [List.mem_singleton.mp he]
    exact fun heq => by cases heq
  | call env => exact absurd rfl (hcall env)
  | updateBuffers => cases hl
  | sendPings => cases hl
  | unlistenAll => cases hl

end ServerRun

/-! ## Calls after each other -/

/-- A server, with what it sent and what its handler was told in the calls before the current one. -/
structure ServerLog (P : Packets) where
  update : ServerUpdate P
  sentBefore : List (SocketAddr × Bytes)
  toldBefore : List (ServerEvent P)

namespace ServerLog

open Server

/-- The log starts in the current call. -/
def start (u : ServerUpdate P) : ServerLog P where
  update := u
  sentBefore := []
  toldBefore := []

/-- All that was sent. -/
def sent (log : ServerLog P) : List (SocketAddr × Bytes) :=
  log.sentBefore ++ log.update.env.sent

/-- All that the handler was told. -/
def told (log : ServerLog P) : List (ServerEvent P) :=
  log.toldBefore ++ log.update.events

/-- What the server keeps for an address is the same, nothing more was sent to it and the handler was
told nothing more about it. -/
structure Untouched (other : SocketAddr) (log log' : ServerLog P) : Prop where
  entry : log.update.server.SameEntry other log'.update.server
  sent : ∃ new, log'.sent = log.sent ++ new ∧ ∀ datagram ∈ new, datagram.1 ≠ other
  told : ∃ new, log'.told = log.told ++ new ∧ ∀ e ∈ new, e.addr? ≠ some other

variable {log log' log'' : ServerLog P}

/-- An address is left alone by no step at all. -/
theorem Untouched.refl (log : ServerLog P) : log.Untouched other log :=
  ⟨⟨rfl, rfl⟩, ⟨[], by simp⟩, ⟨[], by simp⟩⟩

/-- An address is left alone by two runs after each other. -/
theorem Untouched.trans (h : log.Untouched other log') (h' : log'.Untouched other log'') :
    log.Untouched other log'' := by
  obtain ⟨sent, hsent, hnew⟩ := h.sent
  obtain ⟨sent', hsent', hnew'⟩ := h'.sent
  obtain ⟨told, htold, habout⟩ := h.told
  obtain ⟨told', htold', habout'⟩ := h'.told
  refine ⟨⟨h'.entry.1.trans h.entry.1, h'.entry.2.trans h.entry.2⟩,
    ⟨sent ++ sent', by rw [hsent', hsent, List.append_assoc], fun datagram hmem => ?_⟩,
    ⟨told ++ told', by rw [htold', htold, List.append_assoc], fun e he => ?_⟩⟩
  · rcases List.mem_append.mp hmem with hmem | hmem
    · exact hnew datagram hmem
    · exact hnew' datagram hmem
  · rcases List.mem_append.mp he with he | he
    · exact habout e he
    · exact habout' e he

/-- The next call starts: what the last one sent and told is put aside. -/
def nextCall (log : ServerLog P) (update : ServerUpdate P) : ServerLog P where
  update
  sentBefore := log.sent
  toldBefore := log.told

/-- The start of a call leaves every address alone. -/
theorem nextCall_untouched (log : ServerLog P) (env : Env) :
    log.Untouched other
      (log.nextCall { log.update with env := env.start, events := [] }) where
  entry := ⟨rfl, rfl⟩
  sent := ⟨[], rfl, by simp⟩
  told := ⟨[], rfl, by simp⟩

/-- What leaves an address alone in the current call leaves it alone in the log. -/
theorem Untouched.of_update (h : log.update.Untouched other u') :
    log.Untouched other { log with update := u' } := by
  obtain ⟨sent, hsent, hnew⟩ := h.sent
  obtain ⟨told, htold, habout⟩ := h.told
  refine ⟨h.entry, ⟨sent, ?_, hnew⟩, ⟨told, ?_, habout⟩⟩
  · simp only [ServerLog.sent, hsent, List.append_assoc]
  · simp only [ServerLog.told, htold, List.append_assoc]

variable [Rkyv P] {l : ServerStep P}

/-- One step of the server, with its log. -/
def step (log : ServerLog P) (l : ServerStep P) : Option (ServerLog P) := do
  let update ← ServerRun.step log.update l
  match l with
  | .call _ => return log.nextCall update
  | _ => return { log with update }

/-- The runs of a server with its log. -/
def system (P : Packets) [Rkyv P] : Lts (ServerLog P) (ServerStep P) where
  step := step

/-- A step is the start of a call, or a step of the server within its call. -/
theorem step_cases (h : log.step l = some log') :
    (∃ env, l = .call env ∧
      log' = log.nextCall { log.update with env := env.start, events := [] }) ∨
    ((∀ env, l ≠ .call env) ∧
      ∃ u, ServerRun.step log.update l = some u ∧ log' = { log with update := u }) := by
  obtain ⟨u, hu, hlog⟩ := Option.bind_eq_some_iff.mp h
  cases l with
  | call env =>
    cases hu
    cases hlog
    exact Or.inl ⟨env, rfl, rfl⟩
  | _ =>
    cases hlog
    refine Or.inr ⟨?_, u, hu, rfl⟩
    rintro env ⟨⟩

/-- **Step lemma.** -/
theorem step_untouched (hs : log.update.server.UniqueAddrs) (hl : ServerRun.Elsewhere other l)
    (h : log.step l = some log') :
    log.Untouched other log' ∧ log'.update.server.UniqueAddrs := by
  rcases step_cases h with ⟨env, rfl, rfl⟩ | ⟨hcall, u, hu, rfl⟩
  · exact ⟨log.nextCall_untouched env, hs⟩
  · exact ⟨.of_update (ServerRun.step_untouched hs hl hcall hu), ServerRun.step_uniqueAddrs hs hu⟩

end ServerLog

/-! ## Runs -/

namespace ServerRun

open Server

variable [Rkyv P]

/-- **Isolation.**  In every run, as long as no datagram of a peer arrives, no call names it and no
pass over the clients is made, the server keeps the same for it, sends nothing to it and tells the
handler nothing about it, over any number of calls. -/
theorem isolated (other : SocketAddr) {config : ServerConfig} {env : Env}
    (hrun : Run (init config env) u) {log : ServerLog P}
    (h : (ServerLog.system P).GuardedRun (fun _ l => Elsewhere other l) (.start u) log) :
    (ServerLog.start u).Untouched other log := by
  have hinvariant : (ServerLog.start u).Untouched other log ∧ log.update.server.UniqueAddrs := by
    refine h.invariant (I := fun log : ServerLog P =>
      (ServerLog.start u).Untouched other log ∧ log.update.server.UniqueAddrs) ?_
      ⟨.refl _, hrun.uniqueAddrs (uniqueAddrs_host config)⟩
    rintro log l log' ⟨huntouched, hs⟩ hl hstep
    obtain ⟨hstepped, hs'⟩ := ServerLog.step_untouched hs hl hstep
    exact ⟨huntouched.trans hstepped, hs'⟩
  exact hinvariant.1

/-- The steps of another peer over two calls: it asks for the version, and connects ten seconds later. -/
def otherPeer : List (ServerStep DefaultPackets) :=
  [.datagram .default 6 [], .call (.accepting 10000),
    .datagram .default 6 (partDatagram true (.replicate 9) 0 [1])]

/-- For instance, a peer asks for the version, and nothing changes for it when another one connects. -/
theorem isolated_two : ∃ (u : ServerUpdate DefaultPackets) (log : ServerLog DefaultPackets),
    Run (init .default (.accepting 0)) u ∧
      (ServerLog.system DefaultPackets).GuardedRun (fun _ l => Elsewhere 5 l) (.start u) log ∧
      log.sent.map Prod.fst = [5, 6, 6, 6] ∧ log.update.server.status 5 = .listener ∧
      log.update.server.status 6 = .client ∧ (ServerLog.start u).Untouched 5 log := by
  let u : ServerUpdate DefaultPackets :=
    ServerUpdate.handleVersionRequest .default (init .default (.accepting 0)) 5
  have hrun : Run (init .default (.accepting 0)) u := .single (l := .datagram .default 5 []) rfl
  obtain ⟨log, hlog, hchecked⟩ := Lts.exists_guardedRun (ServerLog.system DefaultPackets)
    (fun _ l => Elsewhere 5 l) (fun _ _ => true) (.start u) otherPeer
    (fun log => decide (log.sent.map Prod.fst = [5, 6, 6, 6] ∧
      log.update.server.status 5 = .listener ∧ log.update.server.status 6 = .client))
    (fun _ l hl _ => by
      simp only [otherPeer, List.mem_cons, List.not_mem_nil, or_false] at hl
      rcases hl with rfl | rfl | rfl <;> simp [Elsewhere])
    (by decide +kernel)
  obtain ⟨hsent, hlistener, hclient⟩ := of_decide_eq_true hchecked
  exact ⟨u, log, hrun, hlog, hsent, hlistener, hclient, isolated 5 hrun hlog⟩

end ServerRun

end Ultinet
