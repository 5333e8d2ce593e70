import Ultinet.Net.Pings

/-!
# When a server times out a client

A server is watched together with a log of the pings it tried to send to one address since the client
there connected (`Watched`): which of them the socket accepted and when, and whether the pong of a ping
arrived while it was the active one.  The log only looks at the datagrams that are sent and received.

What the server keeps about the pings of the client is a function of the log (`Tracked.monitor`), so a
client is timed out exactly when the log says so (`Watched.timeout_iff`).
-/

namespace Ultinet

open Heartbeat
open ServerUpdate (pingDatagram)

variable {P : Packets}

/-! ## The log of the pings -/

/-- A server, and the pings to an address. -/
structure Watched (P : Packets) where
  update : ServerUpdate P
  pings : Log Bytes

/-- The pass that pings tries to send a ping to the address. -/
def observePings (addr : SocketAddr) (env env' : Env) (pings : Log Bytes) : Log Bytes :=
  match triedTo addr env env', sentTo addr env env' with
  | [], _ => pings
  | _ :: _, [] => none :: pings
  | _ :: _, ping :: _ => some { token := ping, time := env.now, answered := false } :: pings

/-- A datagram arrives from the address.  It answers the active ping if it is the same datagram. -/
def observePong (buf : Bytes) : Log Bytes → Log Bytes
  | some ping :: pings =>
      (if ping.token = buf then some { ping with answered := true } else some ping) :: pings
  | pings => pings

/-- What a step that keeps the client means for the log. -/
def observeStep (addr : SocketAddr) (env env' : Env) (pings : Log Bytes) :
    ServerStep P → Log Bytes
  | .sendPings => observePings addr env env' pings
  | .datagram _ sender buf => if sender = addr then observePong (recv buf) pings else pings
  | _ => pings

/-- What a step means for the log.  Without a client the log is empty. -/
def observe (addr : SocketAddr) (u : ServerUpdate P) (l : ServerStep P) (u' : ServerUpdate P)
    (pings : Log Bytes) : Log Bytes :=
  if (u.server.connected addr).isSome ∧ (u'.server.connected addr).isSome then
    observeStep addr u.env u'.env pings l
  else []

namespace Watched

/-- The beginning. -/
def init (config : ServerConfig) (env : Env) : Watched P where
  update := ServerRun.init config env
  pings := []

/-- The clock is monotonic. -/
def Monotonic (w : Watched P) (l : ServerStep P) : Prop :=
  ∀ env, l = .call env → w.update.env.now ≤ env.now

section Step

variable [Rkyv P] (addr : SocketAddr)

/-- One step of the server. -/
def step (w : Watched P) (l : ServerStep P) : Option (Watched P) := do
  let update ← ServerRun.step w.update l
  return { update, pings := observe addr w.update l update w.pings }

/-- The transition system of a server whose pings to an address are watched. -/
def system (P : Packets) [Rkyv P] (addr : SocketAddr) : Lts (Watched P) (ServerStep P) where
  step := step addr

end Step

/-! ## The server keeps a function of the log -/

/-- What holds of a server and its log. -/
structure Tracked (addr : SocketAddr) (config : ServerConfig) (w : Watched P) : Prop where
  unique : w.update.server.UniqueAddrs
  config_eq : w.update.server.config = config
  /-- What the server keeps about the pings of the client is what the log says. -/
  monitor : ∀ client, w.update.server.connected addr = some client → client.monitor = .ofLog w.pings
  sound : Monitor.Sound config.pingDelay config.maxMissedPongs w.update.env.now w.pings

end Watched

/-- A datagram that is not the pong of the active ping, or is its pong once more. -/
theorem observePong_of_ne {buf : Bytes} {pings : Log Bytes}
    (h : ∀ ping rest, pings = some ping :: rest → ping.token = buf → ping.answered = true) :
    observePong buf pings = pings := by
  unfold observePong
  split
  · rename_i ping rest
    split_ifs with htoken
    · have hanswered := h ping rest rfl htoken
      rw [← hanswered]
    · rfl
  · rfl

/-- **What a visit that keeps the client means for the log.** -/
theorem PingVisit.observePings_eq {config : ServerConfig} {client client' : ClientConnection}
    {addr : SocketAddr} {env₀ env env' env₁ : Env} {new : List (ServerEvent P)}
    (h : PingVisit config client env new env' (some client')) (haddr : client.clientAddr = addr)
    (hbefore : env₀.Tries addr env [] []) (hafter : env'.Tries addr env₁ [] [])
    (pings : Log Bytes) :
    (observePings addr env₀ env₁ pings = pings ∧ client'.monitor = client.monitor) ∨
    (client.monitor.Due config.pingDelay env₀.now ∧ ¬client.TimesOut config ∧
      ((observePings addr env₀ env₁ pings = none :: pings ∧
          client'.monitor = client.monitor.blocked) ∨
        ∃ token, observePings addr env₀ env₁ pings = some ⟨token, env₀.now, false⟩ :: pings ∧
          client'.monitor = client.monitor.probed token env₀.now)) := by
  have hsentAmong : SentAmong addr [pingDatagram env.newUuid.1]
      [(client.clientAddr, pingDatagram env.newUuid.1)] := by
    simp [SentAmong, haddr]
  have hnone : SentAmong addr [] [] := rfl
  have hnow : env.now = env₀.now := hbefore.now
  cases h with
  | early hearly =>
    have htries := hbefore.trans hafter
    refine Or.inl ⟨?_, rfl⟩
    unfold observePings
    rw [htries.triedTo_eq]
    rfl
  | sent hdue hkept =>
    have htries := (hbefore.trans (.record env hsentAmong hsentAmong)).trans hafter
    rw [hnow] at hdue
    refine Or.inr ⟨hdue, hkept, Or.inr ⟨pingDatagram env.newUuid.1, ?_, ?_⟩⟩
    · unfold observePings
      rw [htries.triedTo_eq, htries.sentTo_eq]
      rfl
    · rw [client.monitor_pinged, hnow]
  | blocked hdue hkept =>
    have htries := (hbefore.trans (.record env hsentAmong hnone)).trans hafter
    rw [hnow] at hdue
    refine Or.inr ⟨hdue, hkept, Or.inl ⟨?_, client.monitor_unpinged⟩⟩
    unfold observePings
    rw [htries.triedTo_eq, htries.sentTo_eq]
    rfl

/-- A client is timed out when it was due and missed too many pings. -/
theorem PingVisit.tells_timeout_iff {config : ServerConfig} {client : ClientConnection} {env env' : Env}
    {new : List (ServerEvent P)} {entry : Option ClientConnection}
    (h : PingVisit config client env new env' entry) :
    .error (.timeout client.clientAddr) ∈ new ↔
      client.monitor.Due config.pingDelay env.now ∧ client.TimesOut config := by
  have hquiet : ¬client.TimesOut config → .error (.timeout client.clientAddr) ∉ new →
      (.error (.timeout client.clientAddr) ∈ new ↔
        client.monitor.Due config.pingDelay env.now ∧ client.TimesOut config) :=
    fun hkept hnot => ⟨fun hmem => absurd hmem hnot, fun hboth => absurd hboth.2 hkept⟩
  cases h with
  | early hearly =>
    exact ⟨fun hmem => absurd hmem List.not_mem_nil, fun hboth => absurd hboth.1 hearly⟩
  | timeout hdue htimesOut => exact ⟨fun _ => ⟨hdue, htimesOut⟩, fun _ => List.mem_singleton_self _⟩
  | sent hdue hkept => exact hquiet hkept (by simp)
  | blocked hdue hkept => exact hquiet hkept List.not_mem_nil
  | failed hdue hkept error => exact hquiet hkept (by simp)

/-- The slot of a client that is timed out is free. -/
theorem PingVisit.entry_eq_none {config : ServerConfig} {client : ClientConnection} {env env' : Env}
    {new : List (ServerEvent P)} {entry : Option ClientConnection}
    (h : PingVisit config client env new env' entry)
    (htimeout : .error (.timeout client.clientAddr) ∈ new) : entry = none := by
  have htimesOut := (h.tells_timeout_iff.mp htimeout).2
  cases h with
  | early hearly => cases htimeout
  | timeout | failed => rfl
  | sent _ hkept => exact absurd htimesOut hkept
  | blocked _ hkept => exact absurd htimesOut hkept

/-- At most one attempt is added to the log, and it was not answered yet. -/
theorem observePings_cases (addr : SocketAddr) (env env' : Env) (pings : Log Bytes) :
    observePings addr env env' pings = pings ∨ observePings addr env env' pings = none :: pings ∨
      sentTo addr env env' ≠ [] ∧
        ∃ token, observePings addr env env' pings = some ⟨token, env.now, false⟩ :: pings := by
  unfold observePings
  split
  · exact Or.inl rfl
  · exact Or.inr (Or.inl rfl)
  · rename_i ping rest htried hsent
    rw [hsent]
    exact Or.inr (Or.inr ⟨List.cons_ne_nil _ _, ping, rfl⟩)

namespace Watched

open Server

section Run

variable [Rkyv P] {addr : SocketAddr} {config : ServerConfig} {w w' : Watched P} {l : ServerStep P}

/-- **Every step keeps what holds of the log.** -/
theorem Tracked.step (hw : w.Tracked addr config) (hclock : w.Monotonic l)
    (h : step addr w l = some w') : w'.Tracked addr config := by
  unfold Watched.step at h
  rw [Option.bind_eq_bind, Option.bind_eq_some_iff] at h
  obtain ⟨u', hstep, heq⟩ := h
  cases heq
  have hnow : w.update.env.now ≤ u'.env.now := by
    rcases ServerRun.step_now hstep with ⟨env, hl, hnow⟩ | hnow
    · rw [hnow]
      exact hclock env hl
    · rw [hnow]
  have hunique := ServerRun.step_uniqueAddrs hw.unique hstep
  have hconfig := (ServerRun.step_config hstep).trans hw.config_eq
  -- the log of an address that is not connected afterwards, or was not before, is empty
  have hempty : ¬((w.update.server.connected addr).isSome ∧ (u'.server.connected addr).isSome) →
      (∀ client, u'.server.connected addr = some client → client.monitor = .ofLog []) →
      Tracked addr config ⟨u', observe addr w.update l u' w.pings⟩ := by
    intro hnot hmonitor
    have hlog : observe addr w.update l u' w.pings = [] := if_neg hnot
    rw [hlog]
    exact ⟨hunique, hconfig, hmonitor, .nil⟩
  have hlost : u'.server.connected addr = none →
      Tracked addr config ⟨u', observe addr w.update l u' w.pings⟩ := by
    intro hnone
    refine hempty (fun hboth => ?_) fun client hclient => ?_
    · rw [hnone] at hboth
      exact nomatch hboth.2
    · rw [hnone] at hclient
      cases hclient
  have hboth : ∀ client client', w.update.server.connected addr = some client →
      u'.server.connected addr = some client' →
      (w.update.server.connected addr).isSome ∧ (u'.server.connected addr).isSome := by
    intro client client' hclient hclient'
    rw [hclient, hclient']
    exact ⟨rfl, rfl⟩
  have hpingStep : PingStep addr w.update l u' := ServerRun.step_pingStep hw.unique hstep
  cases hpingStep with
  | @pong handler buf client hl hclient hpong hclient' =>
    have hlog : observe addr w.update l u' w.pings = observePong (recv buf) w.pings := by
      subst hl
      exact (if_pos (hboth _ _ hclient hclient')).trans (if_pos rfl)
    obtain ⟨time, hactive⟩ := hpong
    rw [hw.monitor client hclient] at hactive
    obtain ⟨ping, rest, hpings, htoken⟩ := Monitor.active_ofLog hactive
    have hanswered : observePong (recv buf) w.pings =
        some { ping with answered := true } :: rest := by
      rw [hpings]
      exact congrArg (· :: rest) (if_pos (Prod.ext_iff.mp htoken).1)
    have hsound := hw.sound
    rw [hpings] at hsound
    rw [hlog, hanswered]
    refine ⟨hunique, hconfig, fun client'' hclient'' => ?_, (hsound.answer).later hnow⟩
    rw [hclient'] at hclient''
    cases hclient''
    rw [client.monitor_ponged, hw.monitor client hclient, hpings, Monitor.answer_ofLog]
  | @pings client env env' new entry hl hclient hbefore hvisit hafter hclient' hevents =>
    cases entry with
    | none => exact hlost hclient'
    | some client' =>
      have hlog : observe addr w.update l u' w.pings =
          observePings addr w.update.env u'.env w.pings := by
        subst hl
        exact if_pos (hboth _ _ hclient hclient')
      obtain ⟨-, -, -, haddr⟩ := connected_eq_some hclient
      have hmonitor := hw.monitor client hclient
      rw [hw.config_eq] at hvisit
      have hlast : ∀ client'', u'.server.connected addr = some client'' → client'' = client' := by
        intro client'' hclient''
        rw [hclient'] at hclient''
        exact (Option.some.inj hclient'').symm
      rw [hlog]
      rcases hvisit.observePings_eq haddr hbefore hafter w.pings with
        ⟨hpings, hmonitor'⟩ | ⟨hdue, hkept, hattempt⟩
      · rw [hpings]
        refine ⟨hunique, hconfig, fun client'' hclient'' => ?_, hw.sound.later hnow⟩
        rw [hlast client'' hclient'', hmonitor', hmonitor]
      · rw [hmonitor] at hdue
        have hkept' : ∀ m, config.maxMissedPongs = some m → ¬(Monitor.ofLog w.pings).GivesUp m :=
          fun m hm hgives => hkept ⟨m, hm, hmonitor ▸ hgives⟩
        rcases hattempt with ⟨hpings, hmonitor'⟩ | ⟨token, hpings, hmonitor'⟩
        · rw [hpings]
          refine ⟨hunique, hconfig, fun client'' hclient'' => ?_,
            (hw.sound.attempt hdue hkept' none).later hnow⟩
          rw [hlast client'' hclient'', hmonitor', hmonitor, Monitor.blocked_ofLog]
        · rw [hpings]
          refine ⟨hunique, hconfig, fun client'' hclient'' => ?_,
            (hw.sound.attempt hdue hkept' _).later hnow⟩
          rw [hlast client'' hclient'', hmonitor', hmonitor, Monitor.probed_ofLog]
  | other hpings hpong hkept =>
    generalize hbefore : w.update.server.connected addr = entry at hkept
    generalize hafter : u'.server.connected addr = entry' at hkept
    cases hkept with
    | lost => exact hlost hafter
    | accepted _ buffers =>
      refine hempty (fun hboth => ?_) fun client hclient => ?_
      · rw [hbefore] at hboth
        exact nomatch hboth.1
      · rw [hafter] at hclient
        cases hclient
        exact ClientConnection.monitor_new addr buffers
    | @kept client client' hsame =>
      have hmonitor := hw.monitor client hbefore
      have hlog : observe addr w.update l u' w.pings = w.pings := by
        refine (if_pos (hboth _ _ hbefore hafter)).trans ?_
        cases l with
        | sendPings => exact absurd rfl (hpings client hbefore)
        | datagram handler sender buf =>
          rw [observeStep]
          split_ifs with hsender
          · subst hsender
            refine observePong_of_ne fun ping rest hfront htoken => ?_
            refine absurd ?_ (hpong handler buf client rfl hbefore)
            refine ⟨ping.time, ?_⟩
            rw [hmonitor, hfront, ← htoken]
            rfl
          · rfl
        | call | updateBuffers | recvError | send | unlisten | unlistenAll => rfl
      rw [hlog]
      refine ⟨hunique, hconfig, fun client'' hclient'' => ?_, hw.sound.later hnow⟩
      rw [hafter] at hclient''
      cases hclient''
      rw [hsame.monitor_eq, hmonitor]

/-- What holds of the log holds in every run. -/
theorem tracked {env : Env}
    (hrun : (system P addr).GuardedRun Monotonic (init config env) w) : w.Tracked addr config := by
  refine hrun.invariant (I := fun v => v.Tracked addr config)
    (fun _ _ _ hv hclock hstep => hv.step hclock hstep) ⟨uniqueAddrs_host config, rfl, ?_, .nil⟩
  intro client hclient
  cases hclient

/-- A step of a watched server that keeps the client. -/
theorem step_observe {client client' : ClientConnection} (h : step addr w l = some w')
    (hclient : w.update.server.connected addr = some client)
    (hclient' : w'.update.server.connected addr = some client') :
    w'.pings = observeStep addr w.update.env w'.update.env w.pings l := by
  unfold Watched.step at h
  rw [Option.bind_eq_bind, Option.bind_eq_some_iff] at h
  obtain ⟨u', hstep, heq⟩ := h
  cases heq
  have hclient'' : u'.server.connected addr = some client' := hclient'
  have hboth : (w.update.server.connected addr).isSome ∧ (u'.server.connected addr).isSome := by
    rw [hclient, hclient'']
    exact ⟨rfl, rfl⟩
  exact if_pos hboth

/-- **Ping timeouts are exact.**  In every run a pass that pings times out a connected client if and
only if each of the last pings that were sent to it, one more than it may miss, was not answered while
it was the active one, and was sent long enough ago; its slot is free then.  The count of the server is
the number of the most recent pings that were not answered.  It is not changed by a datagram of the
client that is not the pong of the active ping, or is its pong once more; nor by a ping that could not
be sent, in this pass or the next one. -/
theorem timeout_iff {env : Env} {m : ℕ} {client : ClientConnection}
    (hrun : (system P addr).GuardedRun Monotonic (init config env) w)
    (hm : config.maxMissedPongs = some m)
    (hclient : w.update.server.connected addr = some client) :
    (.error (.timeout addr) ∈ w.update.sendPings.events.drop w.update.events.length ↔
      m + 1 ≤ (sent w.pings).length ∧ ∀ ping ∈ (sent w.pings).take (m + 1),
        ping.answered = false ∧ config.pingDelay ≤ elapsed w.update.env.now ping.time) ∧
    (.error (.timeout addr) ∈ w.update.sendPings.events.drop w.update.events.length →
      w.update.sendPings.server.connected addr = none) ∧
    client.monitor.missedNow = missesInARow (sent w.pings) ∧
    ∀ l w' client', step addr w l = some w' → w.Monotonic l →
      w'.update.server.connected addr = some client' →
      (∀ handler buf, l = .datagram handler addr buf →
        (∀ ping rest, w.pings = some ping :: rest → ping.token = recv buf → ping.answered = true) →
          client'.missedPongs = client.missedPongs ∧
            client'.monitor.missedNow = client.monitor.missedNow) ∧
      (l = .sendPings → sentTo addr w.update.env w'.update.env = [] →
        client'.monitor.missedNow = client.monitor.missedNow) ∧
      (l = .sendPings → ∀ rest, w.pings = none :: rest →
        client'.missedPongs = client.missedPongs) := by
  have hw := tracked hrun
  have hmonitor := hw.monitor client hclient
  have hcount : client.monitor.missedNow = missesInARow (sent w.pings) := by
    rw [hmonitor, Monitor.missedNow_ofLog]
  obtain ⟨i, -, hget, haddr⟩ := connected_eq_some hclient
  obtain ⟨env', env'', new, entry, hbefore, hvisit, hafter, hentry, hevents⟩ :=
    ServerUpdate.sendPings_visit hw.unique hget
  rw [haddr] at hbefore hevents
  have htold := hevents (.error (.timeout addr)) rfl
  have hsound : Monitor.Sound config.pingDelay (some m) w.update.env.now w.pings := hm ▸ hw.sound
  have htimesOut : client.TimesOut config ↔ (Monitor.ofLog w.pings).GivesUp m := by
    rw [← hmonitor]
    constructor
    · rintro ⟨m', hm', hgives⟩
      rw [hm] at hm'
      cases hm'
      exact hgives
    · exact fun hgives => ⟨m, hm, hgives⟩
  refine ⟨?_, fun htimeout => ?_, hcount, fun l w' client' hstep hclock hclient' => ?_⟩
  · have hexact := hvisit.tells_timeout_iff
    rw [haddr, hw.config_eq, htimesOut, hmonitor, hbefore.now] at hexact
    rw [htold, hexact]
    exact Monitor.givesUp_iff hsound
  · have hgone := hvisit.entry_eq_none (haddr.symm ▸ htold.mp htimeout)
    have hs' := ServerRun.step_uniqueAddrs hw.unique (l := .sendPings) rfl
    obtain ⟨told, -, hslots, -⟩ := w.update.sendPings_spec
    rw [connected_eq_none, findClient_eq_none]
    intro j d hj hd
    obtain ⟨c, hget', haddr', -⟩ := hslots.kept j d hj
    have hij : j = i :=
      hw.unique.slots j i c client hget' hget ((haddr'.symm.trans hd).trans haddr.symm)
    subst hij
    rw [hentry, hgone] at hj
    cases hj
  · have hw' := hw.step hclock hstep
    have hmonitor' := hw'.monitor client' hclient'
    have hobserve := step_observe hstep hclient hclient'
    refine ⟨?_, ?_, ?_⟩
    · rintro handler buf rfl hstale
      have hsame : client'.monitor = client.monitor := by
        rw [hmonitor', hmonitor, hobserve, observeStep, if_pos rfl, observePong_of_ne hstale]
      exact ⟨congrArg Monitor.missed hsame, congrArg Monitor.missedNow hsame⟩
    · rintro rfl hnotSent
      rw [hcount, hmonitor', Monitor.missedNow_ofLog, hobserve, observeStep]
      rcases observePings_cases addr w.update.env w'.update.env w.pings with
        hpings | hpings | ⟨hsent, -⟩
      · rw [hpings]
      · rw [hpings, sent_none]
      · exact absurd hnotSent hsent
    · rintro rfl rest hblocked
      have hmissed : client.missedPongs = missesInARow (sent rest) := by
        rw [hblocked] at hmonitor
        exact congrArg Monitor.missed hmonitor
      have hmissed' : client'.missedPongs = (Monitor.ofLog w'.pings).missed :=
        congrArg Monitor.missed hmonitor'
      rw [hmissed, hmissed', hobserve, observeStep]
      rcases observePings_cases addr w.update.env w'.update.env w.pings with
        hpings | hpings | ⟨-, token, hpings⟩ <;> rw [hpings, hblocked] <;> rfl

end Run

/-- The clock of a call does not run backwards. -/
def checkMonotonic (w : Watched P) : ServerStep P → Bool
  | .call env => decide (w.update.env.now ≤ env.now)
  | _ => true

theorem checkMonotonic_sound {w : Watched P} {l : ServerStep P} (h : checkMonotonic w l = true) :
    w.Monotonic l := by
  rintro env rfl
  exact of_decide_eq_true h

/-- A client connects and answers the first ping but none of the next four; one more cannot be sent. -/
theorem timeout_iff_four_pings :
    ∃ w : Watched DefaultPackets,
      (system DefaultPackets 5).GuardedRun Monotonic (init .default (.accepting 0)) w ∧
      .error (.timeout 5) ∈ w.update.sendPings.events.drop w.update.events.length := by
  obtain ⟨w, hrun, hw⟩ := Lts.exists_guardedRun (system DefaultPackets 5) Monotonic
    checkMonotonic (init .default (.accepting 0))
    [.datagram .default 5 [], .datagram .default 5 (partDatagram true (.replicate 9) 0 [1]),
      .sendPings, .datagram .default 5 (pingDatagram (.replicate 7)), .call (.accepting 2500),
      .sendPings, .call (.accepting 5000), .sendPings, .call (.accepting 7500), .sendPings,
      .call (.blocked 10000), .sendPings, .call (.accepting 10001), .sendPings,
      .call (.accepting 12501)]
    (fun w => (w.update.server.connected 5).isSome && decide (4 ≤ (sent w.pings).length) &&
      ((sent w.pings).take 4).all fun ping => !ping.answered &&
        decide (2500 ≤ elapsed w.update.env.now ping.time))
    (fun w l _ hcheck => checkMonotonic_sound hcheck) (by decide +kernel)
  rw [Bool.and_eq_true, Bool.and_eq_true, List.all_eq_true] at hw
  obtain ⟨⟨hconnected, hlength⟩, hall⟩ := hw
  obtain ⟨client, hclient⟩ := Option.isSome_iff_exists.mp hconnected
  refine ⟨w, hrun, (timeout_iff hrun (rfl : ServerConfig.default.maxMissedPongs = some 3)
    hclient).1.mpr ⟨of_decide_eq_true hlength, fun ping hping => ?_⟩⟩
  have hping' := hall ping hping
  rw [Bool.and_eq_true] at hping'
  exact ⟨by simpa using hping'.1, of_decide_eq_true hping'.2⟩

end Watched

end Ultinet
