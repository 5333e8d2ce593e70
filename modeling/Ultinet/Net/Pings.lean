import Ultinet.Lib.Heartbeat
import Ultinet.Net.OtherClients
import Ultinet.Net.ServerCallbacks
import Ultinet.Net.ServerResend

/-!
# Pings and pongs

What the server keeps about the pings of a connected client is a monitor (`ClientConnection.monitor`).
It is changed by two kinds of steps only: the pass that pings the clients (`PingVisit` lists what it can
do to one of them, `sendPings_visit` finds the visit of a client in the pass over all of them) and the
pongs of the client itself (`handlePong_server`).  `PingStep` lists everything a step can do.
-/

namespace Ultinet

open Heartbeat
open ServerUpdate (pingDatagram)

variable {P : Packets}

/-! ## What is tried for one address -/

/-- The datagrams to an address that were tried since an earlier moment of a call. -/
def triedTo (addr : SocketAddr) (earlier env : Env) : List Bytes :=
  ((env.attempts.drop earlier.attempts.length).filter fun datagram =>
    decide (datagram.1 = addr)).map Prod.snd

/-- Of the datagrams that are sent, some are sent to an address. -/
def SentAmong (addr : SocketAddr) (bufs : List Bytes) (new : List (SocketAddr × Bytes)) : Prop :=
  (new.filter fun datagram => decide (datagram.1 = addr)).map Prod.snd = bufs

/-- Some datagrams to an address were tried, and some of them were sent. -/
structure Env.Tries (addr : SocketAddr) (env env' : Env) (tried sent : List Bytes) : Prop where
  now : env'.now = env.now
  tried : ∃ new, env'.attempts = env.attempts ++ new ∧ SentAmong addr tried new
  sent : ∃ new, env'.sent = env.sent ++ new ∧ SentAmong addr sent new

/-- Of what is sent after each other, what goes to the address comes after each other too. -/
theorem SentAmong.append {addr : SocketAddr} {bufs bufs' : List Bytes}
    {new new' : List (SocketAddr × Bytes)} (h : SentAmong addr bufs new)
    (h' : SentAmong addr bufs' new') : SentAmong addr (bufs ++ bufs') (new ++ new') := by
  unfold SentAmong at *
  rw [List.filter_append, List.map_append, h, h']

namespace Env.Tries

variable {addr : SocketAddr} {env env' env'' : Env} {tried tried' sent sent' : List Bytes}

/-- Nothing is tried. -/
theorem refl (env : Env) : Tries addr env env [] [] :=
  ⟨rfl, ⟨[], (List.append_nil _).symm, rfl⟩, ⟨[], (List.append_nil _).symm, rfl⟩⟩

/-- What is tried after each other. -/
theorem trans (h : Tries addr env env' tried sent) (h' : Tries addr env' env'' tried' sent') :
    Tries addr env env'' (tried ++ tried') (sent ++ sent') := by
  obtain ⟨new, hattempts, hnew⟩ := h.tried
  obtain ⟨new', hattempts', hnew'⟩ := h'.tried
  obtain ⟨sents, hsents, hsent⟩ := h.sent
  obtain ⟨sents', hsents', hsent'⟩ := h'.sent
  refine ⟨h'.now.trans h.now, ⟨new ++ new', ?_, hnew.append hnew'⟩,
    ⟨sents ++ sents', ?_, hsent.append hsent'⟩⟩
  · rw [hattempts', hattempts, List.append_assoc]
  · rw [hsents', hsents, List.append_assoc]

/-- A datagram with a fresh id. -/
theorem record {attempts sents : List (SocketAddr × Bytes)} (env : Env)
    (htried : SentAmong addr tried attempts) (hsent : SentAmong addr sent sents) :
    Tries addr env (env.newUuid.2.record attempts sents) tried sent :=
  ⟨rfl, ⟨attempts, rfl, htried⟩, ⟨sents, rfl, hsent⟩⟩

/-- What was tried can be read from the environments. -/
theorem triedTo_eq (h : Tries addr env env' tried sent) : triedTo addr env env' = tried := by
  obtain ⟨new, hattempts, hnew⟩ := h.tried
  unfold triedTo
  rw [hattempts, List.drop_left]
  exact hnew

/-- What was sent can be read from the environments. -/
theorem sentTo_eq (h : Tries addr env env' tried sent) : sentTo addr env env' = sent := by
  obtain ⟨new, hsent, hnew⟩ := h.sent
  unfold sentTo
  rw [hsent, List.drop_left]
  exact hnew

end Env.Tries

/-! ## The visit of one client -/

namespace ClientConnection

/-- What the server keeps about the pings of a client: a ping is known by its datagram. -/
def monitor (client : ClientConnection) : Monitor Bytes where
  active := client.activePing.map fun activePing =>
    (pingDatagram activePing.pingId, activePing.ping)
  answered := client.lastPong.isSome
  missed := client.missedPongs

/-- The client missed too many pings. -/
def TimesOut (client : ClientConnection) (config : ServerConfig) : Prop :=
  ∃ m, config.maxMissedPongs = some m ∧ client.monitor.GivesUp m

/-- The client when it is to be pinged again. -/
def unpinged (client : ClientConnection) : ClientConnection :=
  { client with activePing := none, lastPong := none, missedPongs := client.monitor.missedNow }

/-- A new client was not pinged yet. -/
theorem monitor_new (clientAddr : SocketAddr) (buffers : PacketBuffers) :
    (ClientConnection.new clientAddr buffers).monitor = .ofLog [] := rfl

/-- A ping that would block is forgotten. -/
theorem monitor_unpinged (client : ClientConnection) :
    client.unpinged.monitor = client.monitor.blocked := rfl

/-- A ping is a probe, whose token is the id of the ping. -/
theorem monitor_pinged (client : ClientConnection) (pingId : Uuid) (now : ℕ) :
    ({ client.unpinged with activePing := some { pingId, ping := now } } : ClientConnection).monitor =
      client.monitor.probed (pingDatagram pingId) now := rfl

end ClientConnection

/-- **Everything the pass that pings can do to a client**: what the handler is told, the environment
afterwards, and what becomes of the slot. -/
inductive PingVisit (config : ServerConfig) (client : ClientConnection) (env : Env) :
    List (ServerEvent P) → Env → Option ClientConnection → Prop
  | early (hearly : ¬client.monitor.Due config.pingDelay env.now) :
      PingVisit config client env [] env (some client)
  | timeout (hdue : client.monitor.Due config.pingDelay env.now) (htimesOut : client.TimesOut config) :
      PingVisit config client env [.error (.timeout client.clientAddr)] env none
  | sent (hdue : client.monitor.Due config.pingDelay env.now) (hkept : ¬client.TimesOut config) :
      PingVisit config client env [.ping client.clientAddr]
        (env.newUuid.2.record [(client.clientAddr, pingDatagram env.newUuid.1)]
          [(client.clientAddr, pingDatagram env.newUuid.1)])
        (some { client.unpinged with activePing := some { pingId := env.newUuid.1, ping := env.now } })
  | blocked (hdue : client.monitor.Due config.pingDelay env.now) (hkept : ¬client.TimesOut config) :
      PingVisit config client env []
        (env.newUuid.2.record [(client.clientAddr, pingDatagram env.newUuid.1)] [])
        (some client.unpinged)
  | failed (hdue : client.monitor.Due config.pingDelay env.now) (hkept : ¬client.TimesOut config)
      (error : IoError) :
      PingVisit config client env [.error (.send client.clientAddr error)]
        (env.newUuid.2.record [(client.clientAddr, pingDatagram env.newUuid.1)] []) none

namespace ServerUpdate

open Server

/-- The pass visits a client: it is left alone, pinged, or dropped. -/
theorem sendPing_visit (config : ServerConfig) (env : Env) (events : List (ServerEvent P))
    (client : ClientConnection) :
    ∃ new, (sendPing config (env, events) (some client)).1.2 = events ++ new ∧
      PingVisit config client env new (sendPing config (env, events) (some client)).1.1
        (sendPing config (env, events) (some client)).2 := by
  have hdueIff : (client.activePing.all fun activePing =>
      decide (config.pingDelay ≤ elapsed env.now activePing.ping)) = true ↔
      client.monitor.Due config.pingDelay env.now := by
    unfold ClientConnection.monitor Monitor.Due elapsed
    cases client.activePing with
    | none => simp
    | some activePing => simp
  unfold sendPing
  dsimp only
  split
  · rename_i hearly
    refine ⟨[], (List.append_nil _).symm, .early fun hdue => ?_⟩
    rw [hdueIff.mpr hdue] at hearly
    cases hearly
  · rename_i hdue
    rw [Bool.not_eq_true', Bool.not_eq_false] at hdue
    replace hdue := hdueIff.mp hdue
    have hmisses : (client.activePing.isSome && client.lastPong.isNone) = client.monitor.misses := by
      unfold ClientConnection.monitor Monitor.misses
      rw [Option.isSome_map, Option.not_isSome]
    have hmissedNow : (if (client.activePing.isSome && client.lastPong.isNone) = true
        then client.missedPongs + 1 else client.missedPongs) = client.monitor.missedNow := by
      rw [hmisses]
      rfl
    have htimesOutIff : (client.monitor.misses &&
        config.maxMissedPongs.any fun max => decide (max < client.monitor.missedNow)) = true ↔
        client.TimesOut config := by
      rw [Bool.and_eq_true, Option.any_eq_true]
      simp only [decide_eq_true_eq]
      constructor
      · rintro ⟨hmissed, m, hm, hlt⟩
        exact ⟨m, hm, hmissed, hlt⟩
      · rintro ⟨m, hm, hmissed, hlt⟩
        exact ⟨hmissed, m, hm, hlt⟩
    rw [hmissedNow, hmisses]
    split
    · rename_i htimesOut
      exact ⟨_, rfl, .timeout hdue (htimesOutIff.mp htimesOut)⟩
    · rename_i hkept
      have hkept' : ¬client.TimesOut config := mt htimesOutIff.mpr hkept
      rcases env.newUuid.2.send_cases client.clientAddr (pingDatagram env.newUuid.1) with
        ⟨hsend, -⟩ | ⟨hsend, -⟩ | ⟨error, hsend, -⟩
      · rw [hsend]
        exact ⟨_, rfl, .sent hdue hkept'⟩
      · rw [hsend]
        exact ⟨[], (List.append_nil _).symm, .blocked hdue hkept'⟩
      · rw [hsend]
        exact ⟨_, rfl, .failed hdue hkept' error⟩

end ServerUpdate

/-- The visit of another client tries nothing for an address, and tells nothing about it. -/
theorem PingVisit.quiet {config : ServerConfig} {client : ClientConnection} {env env' : Env}
    {new : List (ServerEvent P)} {entry : Option ClientConnection} {addr : SocketAddr}
    (h : PingVisit config client env new env' entry) (hne : client.clientAddr ≠ addr) :
    env.Tries addr env' [] [] ∧ ∀ e ∈ new, e.addr? ≠ some addr := by
  have hother : SentAmong addr [] [(client.clientAddr, pingDatagram env.newUuid.1)] := by
    simp [SentAmong, hne]
  have hnone : SentAmong addr [] [] := rfl
  have hevent : ∀ event : ServerEvent P, event.addr? = some client.clientAddr →
      ∀ e ∈ [event], e.addr? ≠ some addr := by
    intro event hevent e he
    rw [List.mem_singleton.mp he, hevent]
    exact fun heq => hne (Option.some.inj heq)
  cases h with
  | early => exact ⟨.refl env, fun e he => absurd he List.not_mem_nil⟩
  | timeout => exact ⟨.refl env, hevent _ rfl⟩
  | sent => exact ⟨.record env hother hother, hevent _ rfl⟩
  | blocked => exact ⟨.record env hother hnone, fun e he => absurd he List.not_mem_nil⟩
  | failed => exact ⟨.record env hother hnone, hevent _ rfl⟩

namespace ServerUpdate

open Server

/-- **The visit of a client in the pass over all clients.**  Whatever the pass tries for its address,
and tells about it, it does in this visit. -/
theorem sendPings_visit {u : ServerUpdate P} {i : ℕ} {client : ClientConnection}
    (hs : u.server.UniqueAddrs) (hget : u.server.clients[i]? = some (some client)) :
    ∃ env env' new entry, u.env.Tries client.clientAddr env [] [] ∧
      PingVisit u.server.config client env new env' entry ∧
      env'.Tries client.clientAddr u.sendPings.env [] [] ∧
      u.sendPings.server.clients[i]? = some entry ∧
      ∀ e : ServerEvent P, e.addr? = some client.clientAddr →
        (e ∈ u.sendPings.events.drop u.events.length ↔ e ∈ new) := by
  -- the visits of the other clients do not concern the address
  let R : Env × List (ServerEvent P) → Env × List (ServerEvent P) → Prop := fun pass pass' =>
    pass.1.Tries client.clientAddr pass'.1 [] [] ∧
      ∃ new, pass'.2 = pass.2 ++ new ∧ ∀ e ∈ new, e.addr? ≠ some client.clientAddr
  have hrefl : ∀ pass, R pass pass := fun pass =>
    ⟨.refl pass.1, [], (List.append_nil _).symm, fun e he => absurd he List.not_mem_nil⟩
  have htrans : ∀ p q r, R p q → R q r → R p r := by
    rintro p q r ⟨htries, new, hnew, hother⟩ ⟨htries', new', hnew', hother'⟩
    refine ⟨htries.trans htries', new ++ new', by rw [hnew', hnew, List.append_assoc], ?_⟩
    intro e he
    rcases List.mem_append.mp he with he | he
    · exact hother e he
    · exact hother' e he
  have hvisit : ∀ (pass : Env × List (ServerEvent P)) (j : ℕ) (entry : Option ClientConnection),
      j ≠ i → u.server.clients[j]? = some entry →
        R pass (sendPing u.server.config pass entry).1 := by
    rintro ⟨env, events⟩ j entry hne hj
    cases entry with
    | none => exact hrefl (env, events)
    | some other =>
      obtain ⟨new, hnew, hvisited⟩ := sendPing_visit u.server.config env events other
      have hother : other.clientAddr ≠ client.clientAddr := fun haddr =>
        hne (hs.slots j i other client hj hget haddr)
      obtain ⟨htries, habout⟩ := hvisited.quiet hother
      exact ⟨htries, new, hnew, habout⟩
  obtain ⟨⟨env, events⟩, ⟨hbefore, before, hevents, hbeforeAbout⟩, hentry,
      ⟨hafter, after, hevents', hafterAbout⟩⟩ :=
    Vec.getElem?_mapState_of_others hrefl htrans hget hvisit (u.env, u.events)
  obtain ⟨new, hnew, hvisited⟩ := sendPing_visit u.server.config env events client
  refine ⟨env, _, new, _, hbefore, hvisited, hafter, hentry, fun e he => ?_⟩
  have hall : u.sendPings.events = u.events ++ (before ++ (new ++ after)) := by
    have htold : u.sendPings.events =
        (sendPing u.server.config (env, events) (some client)).1.2 ++ after := hevents'
    have hbeforeTold : events = u.events ++ before := hevents
    rw [htold, hnew, hbeforeTold]
    simp only [List.append_assoc]
  rw [hall, List.drop_left, List.mem_append, List.mem_append]
  constructor
  · rintro (hmem | hmem | hmem)
    · exact absurd he (hbeforeAbout e hmem)
    · exact hmem
    · exact absurd he (hafterAbout e hmem)
  · exact fun hmem => Or.inr (Or.inl hmem)

end ServerUpdate

/-! ## Pongs -/

namespace ClientConnection

/-- The pong of the active ping. -/
def IsPong (client : ClientConnection) (buf : Bytes) : Prop :=
  ∃ time, client.monitor.active = some (buf, time)

/-- A pong is the datagram of the active ping. -/
theorem isPong_iff {client : ClientConnection} {buf : Bytes} :
    client.IsPong buf ↔
      ∃ activePing, client.activePing = some activePing ∧ buf = pingDatagram activePing.pingId := by
  unfold IsPong monitor
  simp only [Option.map_eq_some_iff, Prod.mk.injEq]
  constructor
  · rintro ⟨time, activePing, hactive, hbuf, -⟩
    exact ⟨activePing, hactive, hbuf.symm⟩
  · rintro ⟨activePing, hactive, hbuf⟩
    exact ⟨activePing.ping, activePing, hactive, hbuf.symm, rfl⟩

/-- The client after a pong. -/
def ponged (client : ClientConnection) (now : ℕ) : ClientConnection :=
  { client with lastPong := some now, missedPongs := 0 }

/-- A pong answers the probe. -/
theorem monitor_ponged (client : ClientConnection) (now : ℕ) :
    (client.ponged now).monitor = client.monitor.answer := rfl

/-- Everything about the pings of a client is the same. -/
def SamePings (client client' : ClientConnection) : Prop :=
  client' = { client with buffers := client'.buffers }

/-- Two clients with the same pings have the same monitor. -/
theorem SamePings.monitor_eq {client client' : ClientConnection} (h : client.SamePings client') :
    client'.monitor = client.monitor := by
  rw [h]
  rfl

end ClientConnection

namespace ServerUpdate

open Server

variable {u u' : ServerUpdate P}

/-- The byte that starts a ping. -/
theorem isPing_iff {kind : UInt8} :
    PacketKind.tryFrom kind = some .ping ↔ kind = PacketKind.ping.toByte := by
  constructor
  · intro h
    exact (PacketKind.toByte_of_tryFrom h).symm
  · rintro rfl
    exact PacketKind.tryFrom_toByte .ping

/-- **What a pong changes.**  It counts if it carries the id of the active ping. -/
theorem handlePong_server (index : ℕ) (client : ClientConnection) (data : Bytes) :
    (client.IsPong (PacketKind.ping.toByte :: data) ∧
      (u.handlePong index client data).server =
        u.server.setClient index (some (client.ponged u.env.now))) ∨
    (¬client.IsPong (PacketKind.ping.toByte :: data) ∧
      (u.handlePong index client data).server = u.server) := by
  unfold handlePong
  split
  · rename_i hnone
    refine Or.inr ⟨fun hpong => ?_, rfl⟩
    obtain ⟨activePing, hactive, -⟩ := ClientConnection.isPong_iff.mp hpong
    rw [hnone] at hactive
    cases hactive
  · rename_i activePing hactive
    have hisPong : client.IsPong (PacketKind.ping.toByte :: data) ↔
        data = activePing.pingId.bytes := by
      rw [ClientConnection.isPong_iff]
      constructor
      · rintro ⟨activePing', hactive', hdata⟩
        rw [hactive] at hactive'
        cases hactive'
        exact (List.cons.inj hdata).2
      · rintro rfl
        exact ⟨activePing, hactive, rfl⟩
    rw [hisPong]
    split
    · rename_i hmalformed
      refine Or.inr ⟨?_, rfl⟩
      rintro rfl
      rw [Uuid.fromSlice_bytes] at hmalformed
      cases hmalformed
    · rename_i pingId hpingId
      have hbytes : pingId.bytes = data := by
        unfold Uuid.fromSlice at hpingId
        split_ifs at hpingId
        cases hpingId
        rfl
      split_ifs with heq
      · refine Or.inl ⟨?_, rfl⟩
        rw [← hbytes, heq]
      · refine Or.inr ⟨?_, rfl⟩
        rw [← hbytes]
        exact fun hbytes => heq (Uuid.ext hbytes)

end ServerUpdate

/-! ## Everything a step can do to the pings of a client -/

namespace Server

variable {s t : Server} {addr : SocketAddr} {client client' : ClientConnection}

/-- The client that is connected from an address. -/
def connected (s : Server) (addr : SocketAddr) : Option ClientConnection :=
  (s.findClient addr).map Prod.snd

/-- A connected client has a slot. -/
theorem connected_eq_some (h : s.connected addr = some client) :
    ∃ i, s.findClient addr = some (i, client) ∧ s.clients[i]? = some (some client) ∧
      client.clientAddr = addr := by
  unfold connected at h
  rw [Option.map_eq_some_iff] at h
  obtain ⟨⟨i, c⟩, hfind, rfl⟩ := h
  obtain ⟨hget, haddr⟩ := findClient_eq_some hfind
  exact ⟨i, hfind, hget, haddr⟩

/-- A client that is not connected is not found. -/
theorem connected_eq_none : s.connected addr = none ↔ s.findClient addr = none :=
  Option.map_eq_none_iff

/-- If the addresses are distinct then whoever has a slot is the connected client of its address. -/
theorem connected_of_slot (hs : s.UniqueAddrs) {i : ℕ} (hget : s.clients[i]? = some (some client)) :
    s.connected client.clientAddr = some client := by
  unfold connected
  rw [findClient_of_slot hs hget]
  rfl

/-- Who is connected depends on the slots only. -/
theorem connected_congr (h : t.clients = s.clients) : t.connected addr = s.connected addr := by
  unfold connected findClient
  rw [h]

/-- The client is disconnected. -/
theorem connected_disconnectClient {i : ℕ} (hs : s.UniqueAddrs)
    (hget : s.clients[i]? = some (some client)) (haddr : client'.clientAddr = client.clientAddr) :
    (s.disconnectClient i client').connected client.clientAddr = none := by
  have hs' : (s.disconnectClient i client').UniqueAddrs :=
    (Shrinks.disconnectClient hs hget haddr).uniqueAddrs hs
  have hlistener : (s.disconnectClient i client').listeners.get? client.clientAddr =
      some client'.buffers := by
    rw [← haddr]
    exact SortedMap.get?_insert_self _ _ _
  rw [connected_eq_none, findClient_eq_none]
  intro j d hj hd
  have hnone := hs'.listeners j d hj
  rw [hd, hlistener] at hnone
  cases hnone

/-- A client is replaced in its slot. -/
theorem connected_setClient {i : ℕ} (hs : s.UniqueAddrs)
    (hget : s.clients[i]? = some (some client)) (haddr : client'.clientAddr = client.clientAddr) :
    (s.setClient i (some client')).connected client.clientAddr = some client' := by
  have hs' : (s.setClient i (some client')).UniqueAddrs :=
    (Shrinks.setClient hget haddr).uniqueAddrs hs
  have hget' : (s.setClient i (some client')).clients[i]? = some (some client') := by
    rw [getElem?_setClient _ (List.getElem?_eq_some_iff.mp hget).1, if_pos rfl]
  rw [← haddr]
  exact connected_of_slot hs' hget'

end Server

/-- What becomes of a client in a step that leaves the pings alone. -/
inductive PingsKept : Option ClientConnection → Option ClientConnection → Prop
  | lost (entry : Option ClientConnection) : PingsKept entry none
  | kept {client client' : ClientConnection} (hsame : client.SamePings client') :
      PingsKept (some client) (some client')
  | accepted (addr : SocketAddr) (buffers : PacketBuffers) :
      PingsKept none (some (.new addr buffers))

/-- Nothing changes. -/
theorem PingsKept.refl (entry : Option ClientConnection) : PingsKept entry entry := by
  cases entry with
  | none => exact .lost none
  | some client => exact .kept rfl

/-- New buffers change nothing about the pings. -/
theorem PingsKept.setClient {s : Server} {i : ℕ} {client : ClientConnection} (hs : s.UniqueAddrs)
    (hget : s.clients[i]? = some (some client)) (buffers : PacketBuffers) :
    PingsKept (s.connected client.clientAddr)
      ((s.setClient i (some { client with buffers })).connected client.clientAddr) := by
  have hclient' : (s.setClient i (some { client with buffers })).connected client.clientAddr =
      some { client with buffers } := Server.connected_setClient hs hget rfl
  rw [Server.connected_of_slot hs hget, hclient']
  exact .kept rfl

/-- **Everything a step can do to the pings of the client of an address.** -/
inductive PingStep (addr : SocketAddr) (u : ServerUpdate P) (l : ServerStep P)
    (u' : ServerUpdate P) : Prop
  /-- The client answers the active ping. -/
  | pong {handler : ServerHandler P} {buf : Bytes} {client : ClientConnection}
      (hl : l = .datagram handler addr buf) (hclient : u.server.connected addr = some client)
      (hpong : client.IsPong (recv buf))
      (hclient' : u'.server.connected addr = some (client.ponged u.env.now))
  /-- The pass that pings visits the client. -/
  | pings {client : ClientConnection} {env env' : Env} {new : List (ServerEvent P)}
      {entry : Option ClientConnection} (hl : l = .sendPings)
      (hclient : u.server.connected addr = some client)
      (hbefore : u.env.Tries addr env [] [])
      (hvisit : PingVisit u.server.config client env new env' entry)
      (hafter : env'.Tries addr u'.env [] []) (hclient' : u'.server.connected addr = entry)
      (hevents : ∀ e : ServerEvent P, e.addr? = some addr →
        (e ∈ u'.events.drop u.events.length ↔ e ∈ new))
  /-- Everything else. -/
  | other (hpings : ∀ client, u.server.connected addr = some client → l ≠ .sendPings)
      (hpong : ∀ handler buf client, l = .datagram handler addr buf →
        u.server.connected addr = some client → ¬client.IsPong (recv buf))
      (hkept : PingsKept (u.server.connected addr) (u'.server.connected addr))

namespace ServerUpdate

open Server

variable [Rkyv P] {u u' : ServerUpdate P} {handler : ServerHandler P} {addr : SocketAddr}
  {buf : Bytes}

omit [Rkyv P] in
/-- What disconnecting a client does to the server. -/
theorem disconnectClient_server (u : ServerUpdate P) (index : ℕ) (client : ClientConnection) :
    (u.disconnectClient index client).server = u.server.disconnectClient index client := rfl

/-- A packet from a client changes nothing about its pings. -/
theorem handleClientPacket_pings {index : ℕ} {client : ClientConnection}
    {packet : ClientConnectionPacket P}
    (h : u.handleClientPacket handler index client packet = .ok u') :
    u'.server = u.server ∨ ∃ buffers,
      u'.server = u.server.setClient index (some { client with buffers }) ∨
      u'.server = u.server.disconnectClient index { client with buffers } := by
  unfold handleClientPacket at h
  cases packet with
  | query query =>
    dsimp only at h
    cases hsend : (u.tell (.query client.clientAddr query)).sendPacket client.buffers
        client.clientAddr (.status (handler.query u.events client.clientAddr query)) with
    | error abort => simp [hsend, bind, Except.bind] at h
    | ok sent =>
      obtain ⟨result, buffers, v⟩ := sent
      have hv : v.server = u.server := (sendPacket_cases hsend).1
      simp only [hsend, bind, Except.bind, pure, Except.pure] at h
      cases result with
      | error error =>
        cases h
        refine Or.inr ⟨buffers, Or.inr ?_⟩
        rw [disconnectClient_server, hv]
      | ok packetId =>
        cases h
        refine Or.inr ⟨buffers, Or.inl ?_⟩
        rw [setClient_server, hv]
  | connect connect =>
    cases h
    exact Or.inr ⟨client.buffers, Or.inr rfl⟩
  | disconnect disconnect =>
    cases h
    exact Or.inr ⟨client.buffers, Or.inr rfl⟩
  | user packet =>
    cases h
    exact Or.inl rfl

/-- A datagram from a client that is not a pong changes nothing about its pings. -/
theorem handleClient_pings {index : ℕ} {client : ClientConnection} {kind : UInt8} {data : Bytes}
    (hkind : PacketKind.tryFrom kind ≠ some .ping)
    (h : u.handleClient handler index client kind data = .ok u') :
    ∃ buffers, u'.server = u.server.setClient index (some { client with buffers }) ∨
      u'.server = u.server.disconnectClient index { client with buffers } := by
  unfold handleClient at h
  rw [if_neg hkind] at h
  cases hbuffers : u.handleBuffers client.buffers client.clientAddr (kind :: data) with
  | error abort => simp [hbuffers, bind, Except.bind] at h
  | ok handled =>
    obtain ⟨packet, buffers, v⟩ := handled
    have hv : v.server = u.server := (handleBuffers_cases hbuffers).1
    simp only [hbuffers, bind, Except.bind, pure, Except.pure] at h
    cases packet with
    | none =>
      cases h
      refine ⟨buffers, Or.inl ?_⟩
      rw [setClient_server, hv]
    | some packet =>
      rcases handleClientPacket_pings h with hserver | ⟨buffers', hserver | hserver⟩
      · refine ⟨buffers, Or.inl ?_⟩
        rw [hserver, setClient_server, hv]
      · refine ⟨buffers', Or.inl ?_⟩
        rw [hserver, setClient_server, hv, setClient_setClient]
      · refine ⟨buffers', Or.inr ?_⟩
        rw [hserver, setClient_server, hv, disconnectClient_setClient]

end ServerUpdate

/-- The visit of a client keeps its address. -/
theorem PingVisit.clientAddr_eq {config : ServerConfig} {client client' : ClientConnection}
    {env env' : Env} {new : List (ServerEvent P)} (h : PingVisit config client env new env' (some client')) :
    client'.clientAddr = client.clientAddr := by
  cases h <;> rfl

namespace ServerUpdate

open Server

variable [Rkyv P] {u u' : ServerUpdate P} {handler : ServerHandler P} {addr : SocketAddr}
  {buf : Bytes}

/-- A datagram from a connected client. -/
theorem handleDatagram_connected {client : ClientConnection} (hs : u.server.UniqueAddrs)
    (hclient : u.server.connected addr = some client)
    (h : u.handleDatagram handler addr (recv buf) = .ok u') :
    PingStep addr u (.datagram handler addr buf) u' := by
  obtain ⟨i, hfind, hget, rfl⟩ := connected_eq_some hclient
  -- a datagram that is not the pong
  have hother : ¬client.IsPong (recv buf) →
      PingsKept (u.server.connected client.clientAddr) (u'.server.connected client.clientAddr) →
        PingStep client.clientAddr u (.datagram handler client.clientAddr buf) u' := by
    refine fun hpong hkept => .other (fun _ _ => by simp) (fun handler' buf' client' heq hclient' => ?_) hkept
    cases heq
    rw [hclient] at hclient'
    cases hclient'
    exact hpong
  unfold handleDatagram at h
  split at h
  · rename_i hbuf
    cases h
    refine hother (fun hpong => ?_) ?_
    · obtain ⟨activePing, -, hpong⟩ := ClientConnection.isPong_iff.mp hpong
      rw [hbuf] at hpong
      cases hpong
    · rcases handleVersionRequest_cases
        (rfl : u.handleVersionRequest handler client.clientAddr = _) with
        ⟨-, hserver⟩ | ⟨-, -, hnone, -⟩
      · rw [hserver]
        exact .refl _
      · rw [hfind] at hnone
        cases hnone
  · rename_i kind data hbuf
    rw [hfind] at h
    dsimp only at h
    by_cases hkind : PacketKind.tryFrom kind = some .ping
    · have hpingKind := isPing_iff.mp hkind
      subst hpingKind
      unfold handleClient at h
      rw [if_pos hkind] at h
      cases h
      rcases handlePong_server i client data with ⟨hpong, hserver⟩ | ⟨hpong, hserver⟩
      · refine .pong rfl hclient (hbuf ▸ hpong) ?_
        rw [hserver]
        exact connected_setClient hs hget rfl
      · refine hother (hbuf ▸ hpong) ?_
        rw [hserver]
        exact .refl _
    · refine hother (fun hpong => ?_) ?_
      · obtain ⟨activePing, -, hpong⟩ := ClientConnection.isPong_iff.mp hpong
        rw [hbuf] at hpong
        rw [(List.cons.inj hpong).1] at hkind
        exact hkind (PacketKind.tryFrom_toByte .ping)
      · obtain ⟨buffers, hserver | hserver⟩ := handleClient_pings hkind h
        · rw [hserver]
          exact .setClient hs hget buffers
        · have hgone : (u.server.disconnectClient i { client with buffers }).connected
              client.clientAddr = none := connected_disconnectClient hs hget rfl
          rw [hserver, hgone]
          exact .lost _

/-- A datagram from an address that is not connected. -/
theorem handleDatagram_unconnected (hs' : u'.server.UniqueAddrs)
    (hclient : u.server.connected addr = none)
    (h : u.handleDatagram handler addr (recv buf) = .ok u') :
    PingStep addr u (.datagram handler addr buf) u' := by
  refine .other (fun _ _ => by simp) (fun _ _ client _ hclient' => ?_) ?_
  · rw [hclient] at hclient'
    cases hclient'
  · have hsame : u'.server.clients = u.server.clients →
        PingsKept (u.server.connected addr) (u'.server.connected addr) := by
      intro hclients
      rw [connected_congr hclients]
      exact .refl _
    cases ServerUpdate.handled h with
    | version new hbuf hnew hevents hserver =>
      exact hsame (congrArg Server.clients hserver)
    | versionAnswered hbuf hsend hlistener hclient hevents hserver =>
      exact hsame (by rw [hserver])
    | unknown hbuf hlistener hclient hevents hserver =>
      exact hsame (congrArg Server.clients hserver)
    | client index client client' new hbuf hfind =>
      rw [connected_eq_none.mp hclient] at hfind
      cases hfind
    | disconnected index client client' new packet buffers env hbuf hfind =>
      rw [connected_eq_none.mp hclient] at hfind
      cases hfind
    | listener buffers buffers' new hbuf hclient hget hevolves hnew hevents hlisteners hclients =>
      exact hsame hclients
    | accepted buffers buffers' buffers'' connect accept env env' packetId hbuf hnone hget hcompletes
        haccept hsend hevents hlisteners hclients hconfig =>
      obtain ⟨index, -, hslots, -, -⟩ := u.server.addClient_spec (.new addr buffers'')
      have hget' : u'.server.clients[index]? = some (some (.new addr buffers'')) := by
        rw [hclients, hslots, if_pos rfl]
      have hconnected : u'.server.connected addr = some (.new addr buffers'') :=
        connected_of_slot hs' hget'
      rw [hclient, hconnected]
      exact .accepted addr buffers''

omit [Rkyv P] in
/-- The pass that updates the buffers. -/
theorem updateBuffers_pings (hs : u.server.UniqueAddrs) :
    PingsKept (u.server.connected addr) (u.updateBuffers.server.connected addr) := by
  cases hclient' : u.updateBuffers.server.connected addr with
  | none => exact .lost _
  | some client' =>
    obtain ⟨i, -, hget', haddr⟩ := connected_eq_some hclient'
    obtain ⟨new, -, hslots, -⟩ := u.updateBuffers_spec
    obtain ⟨client, hget, hsame, -⟩ := hslots.kept i client' hget'
    have hclient : u.server.connected addr = some client := by
      rw [← haddr, hsame]
      exact connected_of_slot hs hget
    obtain ⟨pass, -, hentry, -⟩ := Vec.getElem?_mapState (R := fun _ _ => True)
      (f := updateClient u.server.config) (fun _ => trivial) (fun _ _ _ _ _ => trivial)
      (fun _ _ _ => trivial)
      { index := 0, firstEmptySlot := 0, env := u.env, events := u.events } hget
    have hkept : (updateClient u.server.config pass (some client)).2 = some client' := by
      have hget'' : (List.take _ _)[i]? = some (some client') := hget'
      rw [List.getElem?_take] at hget''
      split_ifs at hget''
      rw [hentry] at hget''
      exact Option.some.inj hget''
    rw [hclient]
    refine .kept ?_
    unfold updateClient at hkept
    dsimp only at hkept
    split at hkept
    · cases hkept
      exact rfl
    · cases hkept

omit [Rkyv P] in
/-- The pass that pings. -/
theorem sendPings_pingStep (hs : u.server.UniqueAddrs) (hs' : u.sendPings.server.UniqueAddrs) :
    PingStep addr u .sendPings u.sendPings := by
  obtain ⟨told, -, hslots, -⟩ := u.sendPings_spec
  cases hclient : u.server.connected addr with
  | none =>
    have hgone : u.sendPings.server.connected addr = none := by
      rw [connected_eq_none, findClient_eq_none] at hclient ⊢
      intro j d hj hd
      obtain ⟨c, hget, haddr, -⟩ := hslots.kept j d hj
      exact hclient j c hget (haddr.symm.trans hd)
    refine .other (fun client hclient' => ?_) (fun _ _ _ heq => nomatch heq) ?_
    · rw [hclient] at hclient'
      cases hclient'
    · rw [hgone]
      exact .lost _
  | some client =>
    obtain ⟨i, -, hget, rfl⟩ := connected_eq_some hclient
    obtain ⟨env, env', new, entry, hbefore, hvisit, hafter, hentry, hevents⟩ :=
      sendPings_visit hs hget
    refine .pings rfl hclient hbefore hvisit hafter ?_ hevents
    cases entry with
    | some client' =>
      rw [← hvisit.clientAddr_eq]
      exact connected_of_slot hs' hentry
    | none =>
      rw [connected_eq_none, findClient_eq_none]
      intro j d hj hd
      obtain ⟨c, hget', haddr, -⟩ := hslots.kept j d hj
      have hij : j = i := hs.slots j i c client hget' hget (haddr.symm.trans hd)
      subst hij
      rw [hentry] at hj
      cases hj

end ServerUpdate

namespace ServerRun

open Server

variable [Rkyv P] {u u' : ServerUpdate P} {l : ServerStep P} {addr : SocketAddr}

/-- **Every step does one of the listed things to the pings of a client.** -/
theorem step_pingStep (hs : u.server.UniqueAddrs) (h : step u l = some u') :
    PingStep addr u l u' := by
  have hs' := step_uniqueAddrs hs h
  -- a step that is no datagram from the address, and does not ping
  have hother : (∀ handler buf, l ≠ .datagram handler addr buf) → l ≠ .sendPings →
      PingsKept (u.server.connected addr) (u'.server.connected addr) → PingStep addr u l u' :=
    fun hdatagram hpings hkept => .other (fun _ _ => hpings)
      (fun handler buf _ heq => absurd heq (hdatagram handler buf)) hkept
  have hsame : u'.server.clients = u.server.clients →
      PingsKept (u.server.connected addr) (u'.server.connected addr) := by
    intro hclients
    rw [connected_congr hclients]
    exact .refl _
  cases l with
  | call env =>
    cases h
    exact hother (fun _ _ => by simp) (by simp) (.refl _)
  | updateBuffers =>
    cases h
    exact hother (fun _ _ => by simp) (by simp) (ServerUpdate.updateBuffers_pings hs)
  | datagram handler clientAddr buf =>
    rw [step, toOption_eq_some] at h
    by_cases haddr : addr = clientAddr
    · subst haddr
      cases hclient : u.server.connected addr with
      | none => exact ServerUpdate.handleDatagram_unconnected hs' hclient h
      | some client => exact ServerUpdate.handleDatagram_connected hs hclient h
    · refine hother (fun handler' buf' heq => ?_) (by simp) ?_
      · cases heq
        exact haddr rfl
      · have hentry := (ServerUpdate.handled h).sameEntry hs' haddr
        unfold Server.connected
        rw [hentry.2]
        exact .refl _
  | recvError error =>
    cases h
    exact hother (fun _ _ => by simp) (by simp) (.refl _)
  | sendPings =>
    cases h
    exact ServerUpdate.sendPings_pingStep hs hs'
  | send clientAddr packet =>
    refine hother (fun _ _ => by simp) (by simp) ?_
    simp only [step, Option.bind_eq_bind, Option.bind_eq_some_iff] at h
    obtain ⟨⟨result, s', env'⟩, hsend, heq⟩ := h
    cases heq
    rw [toOption_eq_some] at hsend
    by_cases haddr : clientAddr = addr
    · rcases send_shrinks hsend with rfl | ⟨index, client, buffers, hfind, -, rfl⟩
      · exact .refl _
      · obtain ⟨hget, rfl⟩ := findClient_eq_some hfind
        subst haddr
        exact .setClient hs hget buffers
    · obtain ⟨hentry, -⟩ := Server.send_other (H := fun _ => True) hs' haddr hsend
      unfold Server.connected
      rw [hentry.2]
      exact .refl _
  | unlisten clientAddr =>
    cases h
    exact hother (fun _ _ => by simp) (by simp) (hsame (unlisten_clients u.server clientAddr))
  | unlistenAll =>
    cases h
    exact hother (fun _ _ => by simp) (by simp) (.refl _)

/-- No step changes the configuration. -/
theorem step_config (h : step u l = some u') : u'.server.config = u.server.config := by
  cases l with
  | call env =>
    cases h
    rfl
  | updateBuffers =>
    cases h
    obtain ⟨new, -, -, -, hconfig⟩ := u.updateBuffers_spec
    exact hconfig
  | datagram handler clientAddr buf =>
    rw [step, toOption_eq_some] at h
    cases ServerUpdate.handled h with
    | version new hbuf hnew hevents hserver => rw [hserver]
    | versionAnswered hbuf hsend hlistener hclient hevents hserver => rw [hserver]
    | unknown hbuf hlistener hclient hevents hserver => rw [hserver]
    | client index client client' new hbuf hfind haddr hevolves hnew hevents hserver =>
      rw [hserver]
      rfl
    | disconnected index client client' new packet buffers env hbuf hfind haddr hcompletes hends
        hevolves hevents hserver =>
      rw [hserver]
      rfl
    | listener buffers buffers' new hbuf hclient hget hevolves hnew hevents hlisteners hclients
        hconfig => exact hconfig
    | accepted buffers buffers' buffers'' connect accept env env' packetId hbuf hclient hget
        hcompletes haccept hsend hevents hlisteners hclients hconfig => exact hconfig
  | recvError error =>
    cases h
    rfl
  | sendPings =>
    cases h
    rfl
  | send clientAddr packet =>
    simp only [step, Option.bind_eq_bind, Option.bind_eq_some_iff] at h
    obtain ⟨⟨result, s', env'⟩, hsend, heq⟩ := h
    cases heq
    rw [toOption_eq_some] at hsend
    rcases send_shrinks hsend with rfl | ⟨index, client, buffers, -, -, rfl⟩ <;> rfl
  | unlisten clientAddr =>
    cases h
    dsimp only
    unfold Server.unlisten
    split_ifs <;> rfl
  | unlistenAll =>
    cases h
    rfl

/-- Only a new call reads the clock. -/
theorem step_now (h : step u l = some u') :
    (∃ env, l = .call env ∧ u'.env.now = env.now) ∨ u'.env.now = u.env.now := by
  cases l with
  | call env =>
    cases h
    exact Or.inl ⟨env, rfl, rfl⟩
  | updateBuffers =>
    cases h
    exact Or.inr (ServerUpdate.updateBuffers_sendsTo u).now
  | datagram handler clientAddr buf =>
    rw [step, toOption_eq_some] at h
    have htells := ServerUpdate.handleDatagram_tells (H := fun _ => True)
      (Nat.succ_ne_self clientAddr).symm h
    exact Or.inr htells.now
  | recvError error =>
    cases h
    exact Or.inr rfl
  | sendPings =>
    cases h
    exact Or.inr (ServerUpdate.sendPings_sendsTo u).now
  | send clientAddr packet =>
    simp only [step, Option.bind_eq_bind, Option.bind_eq_some_iff] at h
    obtain ⟨⟨result, s', env'⟩, hsend, heq⟩ := h
    cases heq
    rw [toOption_eq_some] at hsend
    refine Or.inr ?_
    dsimp only
    unfold Server.send at hsend
    split at hsend
    · cases hsend
      rfl
    · rename_i index client hfind
      cases hbuffers : client.buffers.send (Rkyv.serializeServer (.user packet))
          u.server.config.connection.backgroundSerializationThreshold clientAddr u.env with
      | error abort => simp [hbuffers, bind, Except.bind] at hsend
      | ok sent =>
        simp only [hbuffers, bind, Except.bind, pure, Except.pure] at hsend
        cases hsend
        exact (PacketBuffers.send_tells (H := fun _ => True)
          (Nat.succ_ne_self clientAddr).symm hbuffers).now
  | unlisten clientAddr =>
    cases h
    exact Or.inr rfl
  | unlistenAll =>
    cases h
    exact Or.inr rfl

end ServerRun

end Ultinet
