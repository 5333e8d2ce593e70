import Ultinet.Net.ClientCallbacks
import Ultinet.Net.VersionQueries

/-!
# When a client gives up on a server

A client is followed together with a log of everything that arrived: from where, and when
(`Logged`).  What the listener of a compatible server remembers is the time of the latest datagram
from it, whatever the datagram was (`Dated`).  So an update times a server out exactly if nothing
arrived from it for longer than the timeout (`Logged.drops_iff_silent`).
-/

namespace Ultinet

variable {P : Packets}

/-! ## The log of what arrived -/

/-- When something last arrived from an address. -/
def lastHeard (log : List (SocketAddr × ℕ)) (addr : SocketAddr) : Option ℕ :=
  (log.find? fun entry => decide (entry.1 = addr)).map Prod.snd

/-- Where the datagrams of a call come from, the last one first. -/
def Incoming.arrivals (incoming : Incoming) (now : ℕ) : List (SocketAddr × ℕ) :=
  (incoming.datagrams.map fun datagram => (datagram.1, now)).reverse

section Log

variable (log : List (SocketAddr × ℕ)) (addr : SocketAddr) (now : ℕ)

@[simp] theorem lastHeard_cons_self : lastHeard ((addr, now) :: log) addr = some now := by
  simp [lastHeard]

theorem lastHeard_cons_of_ne {other : SocketAddr} (h : addr ≠ other) :
    lastHeard ((addr, now) :: log) other = lastHeard log other := by
  simp [lastHeard, h]

end Log

/-- Nothing arrived for longer than the timeout. -/
def Silent (timeout : Option ℕ) (now : ℕ) (last : Option ℕ) : Prop :=
  ∃ limit time, timeout = some limit ∧ last = some time ∧ limit < elapsed now time

/-! ## What a listener remembers -/

namespace ServerListener

/-- When a compatible server last interacted. -/
def lastInteraction (l : ServerListener P) : Option ℕ :=
  match l.state with
  | .compatible _ time => some time
  | .pendingVersion _ | .incompatible _ => none

theorem isSome_lastInteraction (l : ServerListener P) :
    l.lastInteraction.isSome = l.state.isCompatible := by
  unfold lastInteraction ServerState.isCompatible
  cases l.state with
  | pendingVersion _ => rfl
  | compatible _ _ => rfl
  | incompatible _ => rfl

/-- A listener is idle if its server was silent since the time it remembers. -/
theorem idle_iff {timeout : Option ℕ} {now : ℕ} {l : ServerListener P} :
    ClientUpdate.idle timeout now l = true ↔ Silent timeout now l.lastInteraction := by
  unfold ClientUpdate.idle lastInteraction Silent
  cases l.state with
  | pendingVersion _ => simp
  | incompatible _ => simp
  | compatible _ time =>
    cases timeout with
    | none => simp
    | some limit => simp

end ServerListener

/-- What the listeners remember is in the log. -/
def Dated (log : List (SocketAddr × ℕ)) (ls : List (ServerListener P)) : Prop :=
  ∀ l ∈ ls, ∀ time, l.lastInteraction = some time → lastHeard log l.serverAddr = some time

/-- What the listeners remember, they remembered before. -/
def Inherits (ls ls' : List (ServerListener P)) : Prop :=
  ∀ l' ∈ ls', ∀ time, l'.lastInteraction = some time →
    ∃ l ∈ ls, l.serverAddr = l'.serverAddr ∧ l.lastInteraction = some time

namespace Inherits

variable {ls ls' : List (ServerListener P)}

theorem of_subset (h : ls' ⊆ ls) : Inherits ls ls' :=
  fun l hl _ htime => ⟨l, h hl, rfl, htime⟩

/-- A listener that remembers nothing is added. -/
theorem append (ls : List (ServerListener P)) {l : ServerListener P} (hl : l.lastInteraction = none) :
    Inherits ls (ls ++ [l]) := by
  intro l' hl' time htime
  rcases List.mem_append.mp hl' with hold | hnew
  · exact ⟨l', hold, rfl, htime⟩
  · rw [List.mem_singleton.mp hnew, hl] at htime
    cases htime

/-- A listener gets a new state, which remembers the same. -/
theorem setState {l : ServerListener P} (hl : l ∈ ls) {state : ServerState P}
    (htime : ({ l with state } : ServerListener P).lastInteraction = l.lastInteraction) (index : ℕ) :
    Inherits ls (ls.set index { l with state }) := by
  intro l' hl' time htime'
  rcases List.mem_or_eq_of_mem_set hl' with hold | rfl
  · exact ⟨l', hold, rfl, htime'⟩
  · exact ⟨l, hl, rfl, htime.symm.trans htime'⟩

/-- What is remembered stays in the log. -/
theorem dated (h : Inherits ls ls') {log : List (SocketAddr × ℕ)} (hdated : Dated log ls) :
    Dated log ls' := by
  intro l' hl' time htime
  obtain ⟨l, hl, haddr, hbefore⟩ := h l' hl' time htime
  exact haddr ▸ hdated l hl time hbefore

end Inherits

/-! ## Operations other than an update -/

namespace Client

variable {c c' : Client P} {serverAddr : SocketAddr} {env env' : Env}

theorem getOrAddListener_inherits (c : Client P) (serverAddr : SocketAddr) (env : Env) :
    Inherits c.listeners (c.getOrAddListener serverAddr env).2.1.listeners := by
  rcases c.getOrAddListener_cases serverAddr env with
    ⟨found, -, heq⟩ | ⟨-, lastVersionQuery, env', heq⟩ | ⟨-, error, env', heq⟩
  · rw [heq]
    exact .of_subset (List.Subset.refl _)
  · rw [heq]
    exact .append _ rfl
  · rw [heq]
    exact .of_subset (List.Subset.refl _)

theorem listen_inherits (c : Client P) (serverAddr : SocketAddr) (env : Env) :
    Inherits c.listeners (c.listen serverAddr env).2.1.listeners := by
  have h := c.getOrAddListener_inherits serverAddr env
  unfold listen
  split <;> rename_i heq <;> rw [heq] at h <;> exact h

/-- Refreshing makes listeners forget. -/
theorem refreshListeners_inherits (ls : List (ServerListener P)) (env : Env) :
    Inherits ls (refreshListeners ls env).2.1 := by
  induction ls generalizing env with
  | nil => exact .of_subset (List.Subset.refl _)
  | cons l ls ih =>
    have hfirst : (l.refresh env).2.1.lastInteraction = none ∨ (l.refresh env).2.1 = l := by
      unfold ServerListener.refresh
      rcases ServerListener.pendingVersionQuery_cases (P := P) l.serverAddr env with
        ⟨last, sent, hquery, -⟩ | ⟨error, hquery, -⟩
      · rw [hquery]
        exact Or.inl rfl
      · rw [hquery]
        exact Or.inr rfl
    have hhead : ∀ ls', Inherits ls ls' → Inherits (l :: ls) ((l.refresh env).2.1 :: ls') := by
      intro ls' hrest l' hl' time htime
      rcases List.mem_cons.mp hl' with rfl | hmem
      · rcases hfirst with hnone | hsame
        · rw [hnone] at htime
          cases htime
        · rw [hsame] at htime ⊢
          exact ⟨l, List.mem_cons_self, rfl, htime⟩
      · obtain ⟨l₀, hl₀, hbefore⟩ := hrest l' hmem time htime
        exact ⟨l₀, List.mem_cons_of_mem l hl₀, hbefore⟩
    unfold refreshListeners
    rcases hrefresh : l.refresh env with ⟨result, l', env'⟩
    rw [hrefresh] at hhead
    cases result with
    | error error => exact hhead ls (.of_subset (List.Subset.refl _))
    | ok _ => exact hhead _ (ih env')

theorem forget_inherits (c : Client P) (serverAddr : SocketAddr) :
    Inherits c.listeners (c.forget serverAddr).2.listeners := by
  unfold forget
  split
  · exact .of_subset (List.Subset.refl _)
  · split_ifs
    · exact .of_subset (List.Subset.refl _)
    · exact .of_subset (Vec.swapRemove_subperm c.listeners _).subset

theorem forgetAll_inherits (h : c.forgetAll = .ok c') : Inherits c.listeners c'.listeners := by
  unfold forgetAll at h
  split_ifs at h
  · cases h
    exact .of_subset (List.nil_subset _)
  · split at h
    · cases h
    · rename_i l ls hlisteners
      cases h
      rw [hlisteners]
      exact .of_subset (List.cons_subset_cons l (List.nil_subset ls))

section Sending

variable [Rkyv P] {packet : ClientConnectionPacket P}

/-- Sending a packet is no interaction of the server. -/
theorem Sends.inherits {index : ℕ} {l l' : ServerListener P} {sent : IoResult PacketId}
    (h : c.Sends packet env index l sent l' env') :
    Inherits c.listeners (c.listeners.set index l') := by
  obtain ⟨buffers, time, buffers', hstate, -, rfl⟩ := h.send
  refine .setState h.mem ?_ index
  unfold ServerListener.lastInteraction
  rw [hstate]

theorem query_inherits {query : P.Query} {result : Except QueryError PacketId}
    (h : c.query serverAddr query env = .ok (result, c', env')) :
    Inherits c.listeners c'.listeners := by
  cases query_outcome h with
  | refused error => exact c.getOrAddListener_inherits serverAddr env
  | sends hposition hsends => exact hsends.inherits

theorem connect_inherits {peer : IoResult SocketAddr} {connect : P.Connect}
    {result : Except ConnectError PacketId}
    (h : c.connect peer connect env = .ok (result, c', env')) :
    Inherits c.listeners c'.listeners := by
  cases connect_outcome h with
  | notDisconnected peer hstate => exact .of_subset (List.Subset.refl _)
  | noPeer hstate error => exact .of_subset (List.Subset.refl _)
  | refused hstate addr herror => exact c.getOrAddListener_inherits addr env
  | failed hstate hposition hsends => exact hsends.inherits
  | sends hstate hposition hsends => exact hsends.inherits

theorem sendConnected_inherits {state : ClientState} {result : Except SendError PacketId}
    (h : c.sendConnected packet state env = .ok (result, c', env')) :
    Inherits c.listeners c'.listeners := by
  cases sendConnected_outcome h with
  | notConnected hstate => exact .of_subset (List.Subset.refl _)
  | failed hstate hsends =>
    intro l' hl' time htime
    exact hsends.inherits l' ((Vec.swapRemove_subperm (c.listeners.set 0 _) 0).subset hl') time htime
  | sends hstate hsends => exact hsends.inherits

end Sending

end Client

/-! ## An update -/

/-- A listener that is kept in an update remembers the same. -/
theorem ServerListener.update_lastInteraction {l l' : ServerListener P}
    {state state' : Option ClientState} {config : ClientConfig} {env env' : Env}
    {error : Option IoError}
    (h : l.update state config env = (some l', state', error, env')) :
    l'.serverAddr = l.serverAddr ∧ l'.lastInteraction = l.lastInteraction := by
  unfold lastInteraction
  unfold update at h
  split at h
  · rename_i hstate
    split_ifs at h
    · split at h <;> cases h
      rw [hstate]
      exact ⟨rfl, rfl⟩
    · cases h
      exact ⟨rfl, rfl⟩
  · rename_i hstate
    split at h <;> cases h
    rw [hstate]
    exact ⟨rfl, rfl⟩
  · cases h
    exact ⟨rfl, rfl⟩

namespace ClientEvent

/-- The handler is told of a timeout. -/
def IsTimeout : ClientEvent P → Bool
  | .error (.timeout _) => true
  | _ => false

end ClientEvent

/-- Replacing a listener that was found by itself changes nothing. -/
theorem Client.set_of_position {c : Client P} {serverAddr : SocketAddr} {index : ℕ}
    {l : ServerListener P} (h : c.position serverAddr = some (index, l)) :
    c.listeners.set index l = c.listeners := by
  obtain ⟨hget, -⟩ := position_eq_some h
  obtain ⟨hlt, heq⟩ := List.getElem?_eq_some_iff.mp hget
  rw [← heq, List.set_getElem_self]

/-- A datagram from a server arrives at a time: its listener remembers that time, if it remembers
anything, and stays compatible if it was; the other listeners stay. -/
structure Interacts (serverAddr : SocketAddr) (now : ℕ) (ls ls' : List (ServerListener P)) :
    Prop where
  here : ∀ l' ∈ ls', l'.serverAddr = serverAddr → ∀ time, l'.lastInteraction = some time → time = now
  other : ∀ l' ∈ ls', l'.serverAddr ≠ serverAddr → l' ∈ ls
  compatible : ∀ l ∈ ls, l.state.isCompatible = true →
    ∃ l' ∈ ls', l'.serverAddr = l.serverAddr ∧ l'.state.isCompatible = true

namespace Interacts

variable {c : Client P} {serverAddr : SocketAddr} {now index : ℕ} {l : ServerListener P}

/-- The client does not listen to the server. -/
theorem of_notMem (h : serverAddr ∉ c.addrs) :
    Interacts serverAddr now c.listeners c.listeners := by
  refine ⟨fun l hl haddr => ?_, fun l hl _ => hl, fun l hl hcompatible => ⟨l, hl, rfl, hcompatible⟩⟩
  exact absurd (List.mem_map.mpr ⟨l, hl, haddr⟩) h

/-- The listener of the server gets a new state. -/
theorem setState (hnodup : c.addrs.Nodup) (hposition : c.position serverAddr = some (index, l))
    {state : ServerState P}
    (htime : ∀ time, ({ l with state } : ServerListener P).lastInteraction = some time → time = now)
    (hcompatible : l.state.isCompatible = true → state.isCompatible = true) :
    Interacts serverAddr now c.listeners (c.listeners.set index { l with state }) := by
  obtain ⟨hget, haddr⟩ := Client.position_eq_some hposition
  obtain ⟨hlt, -⟩ := List.getElem?_eq_some_iff.mp hget
  refine ⟨fun l' hl' haddr' => ?_, fun l' hl' hne => ?_, fun l' hl' hl'c => ?_⟩
  · obtain ⟨j, hj⟩ := List.getElem?_of_mem hl'
    have hindex : index = j := by
      have hmap : (c.listeners.set index { l with state }).map ServerListener.serverAddr = c.addrs :=
        Client.addrs_set hget rfl
      have haddrs : c.addrs[index]? = c.addrs[j]? := by
        rw [← hmap, List.getElem?_map, List.getElem?_map, hj, List.getElem?_set_self hlt]
        exact congrArg some (haddr.trans haddr'.symm)
      exact (List.getElem?_inj (by simpa [Client.addrs] using hlt) hnodup).mp haddrs
    rw [← hindex, List.getElem?_set_self hlt] at hj
    cases hj
    exact htime
  · rcases List.mem_or_eq_of_mem_set hl' with hold | rfl
    · exact hold
    · exact absurd haddr hne
  · obtain ⟨j, hj⟩ := List.getElem?_of_mem hl'
    by_cases hindex : index = j
    · subst hindex
      rw [hget] at hj
      cases hj
      exact ⟨_, List.mem_of_getElem? (List.getElem?_set_self hlt), rfl, hcompatible hl'c⟩
    · refine ⟨l', List.mem_of_getElem? (i := j) ?_, rfl, hl'c⟩
      rw [List.getElem?_set_ne hindex]
      exact hj

/-- The listener of the server remembers nothing, and stays. -/
theorem of_same (hnodup : c.addrs.Nodup) (hposition : c.position serverAddr = some (index, l))
    (htime : l.lastInteraction = none) :
    Interacts serverAddr now c.listeners c.listeners := by
  have hset : Interacts serverAddr now c.listeners
      (c.listeners.set index { l with state := l.state }) :=
    setState hnodup hposition (fun time h => by rw [htime] at h; cases h) id
  rwa [Client.set_of_position hposition] at hset

/-- The datagram is in the log, and so is what the listeners remember. -/
theorem dated {ls ls' : List (ServerListener P)} (h : Interacts serverAddr now ls ls')
    {log : List (SocketAddr × ℕ)} (hdated : Dated log ls) :
    Dated ((serverAddr, now) :: log) ls' := by
  intro l' hl' time htime
  by_cases haddr : l'.serverAddr = serverAddr
  · rw [haddr, lastHeard_cons_self, h.here l' hl' haddr time htime]
  · rw [lastHeard_cons_of_ne log serverAddr now (Ne.symm haddr)]
    exact hdated l' (h.other l' hl' haddr) time htime

end Interacts

namespace ClientUpdate

variable {u u' u'' : ClientUpdate P}

/-- Time stands still in a call, and what happens before the timeout pass is told to the handler in
order and is no timeout. -/
structure Reports (u u' : ClientUpdate P) : Prop where
  now : u'.env.now = u.env.now
  config : u'.client.config = u.client.config
  told : ∃ new, u'.events = u.events ++ new ∧ ∀ event ∈ new, event.IsTimeout = false

namespace Reports

theorem refl (u : ClientUpdate P) : u.Reports u :=
  ⟨rfl, rfl, [], by simp⟩

theorem trans (h : u.Reports u') (h' : u'.Reports u'') : u.Reports u'' := by
  obtain ⟨new, hevents, hnew⟩ := h.told
  obtain ⟨new', hevents', hnew'⟩ := h'.told
  refine ⟨h'.now.trans h.now, h'.config.trans h.config, new ++ new', ?_, ?_⟩
  · rw [hevents', hevents, List.append_assoc]
  · intro event hmem
    rcases List.mem_append.mp hmem with hfirst | hlast
    · exact hnew event hfirst
    · exact hnew' event hlast

/-- Something is told that is no timeout. -/
theorem tell (u : ClientUpdate P) {event : ClientEvent P} (hevent : event.IsTimeout = false) :
    u.Reports (u.tell event) :=
  ⟨rfl, rfl, [event], rfl, fun event' hmem => by rwa [List.mem_singleton.mp hmem]⟩

/-- The state of the connection changes. -/
theorem setState (u : ClientUpdate P) (state : ClientState) : u.Reports (u.setState state) :=
  ⟨rfl, rfl, [], by simp [ClientUpdate.setState]⟩

/-- A listener is replaced. -/
theorem setListener (u : ClientUpdate P) (index : ℕ) (l : ServerListener P) :
    u.Reports (u.setListener index l) :=
  ⟨rfl, rfl, [], by simp [ClientUpdate.setListener]⟩

/-- The environment changes, but not the time. -/
theorem setEnv (u : ClientUpdate P) {env : Env} (hnow : env.now = u.env.now) :
    u.Reports { u with env } :=
  ⟨hnow, rfl, [], by simp⟩

end Reports

/-! ### The receive loop -/

theorem handleVersion_reports (handler : ClientHandler P) (u : ClientUpdate P) (index : ℕ)
    (listener : ServerListener P) (buf : Bytes) :
    u.Reports (u.handleVersion handler index listener buf) := by
  unfold handleVersion
  split
  · exact .tell u rfl
  · split_ifs
    · split
      · exact .tell u rfl
      · dsimp only
        split
        · exact (Reports.tell u rfl).trans (.setListener _ _ _)
        · exact (Reports.tell u rfl).trans (.setListener _ _ _)
    · exact .tell u rfl

/-- A version is an interaction. -/
theorem handleVersion_dates (handler : ClientHandler P) (buf : Bytes) {serverAddr : SocketAddr}
    {index : ℕ} {l : ServerListener P} (hposition : u.client.position serverAddr = some (index, l))
    (hl : l.lastInteraction = none) :
    ∃ state, (u.handleVersion handler index l buf).client.listeners =
        u.client.listeners.set index { l with state } ∧
      ∀ time, ({ l with state } : ServerListener P).lastInteraction = some time →
        time = u.env.now := by
  have hsame : ∃ state, u.client.listeners = u.client.listeners.set index { l with state } ∧
      ∀ time, ({ l with state } : ServerListener P).lastInteraction = some time →
        time = u.env.now := by
    refine ⟨l.state, (Client.set_of_position hposition).symm, fun time htime => ?_⟩
    rw [hl] at htime
    cases htime
  unfold handleVersion
  split
  · exact hsame
  · split_ifs
    · split
      · exact hsame
      · dsimp only
        split
        · refine ⟨_, rfl, fun time htime => ?_⟩
          cases htime
          rfl
        · refine ⟨_, rfl, fun time htime => ?_⟩
          cases htime
    · exact hsame

theorem handlePing_reports (u : ClientUpdate P) (serverAddr : SocketAddr) (buf : Bytes) :
    u.Reports (u.handlePing serverAddr buf) := by
  have hnow : (u.env.send serverAddr buf).2.now = u.env.now := by
    rcases u.env.send_cases serverAddr buf with ⟨hsend, -⟩ | ⟨hsend, -⟩ | ⟨error, hsend, -⟩ <;>
      rw [hsend] <;> rfl
  have htell : u.Reports (u.tell .ping) := .tell u rfl
  unfold handlePing
  dsimp only
  split <;> rename_i heq <;> rw [tell_env] at heq <;> rw [heq] at hnow
  · exact htell.trans (.setEnv _ hnow)
  · have hfailed := htell.trans (.setEnv _ hnow)
    exact (hfailed.trans (.tell _ rfl)).trans (.setState _ _)

theorem handleInState_reports (u : ClientUpdate P) (serverAddr : SocketAddr)
    (isConnectionListener : Bool) (state : ClientState) {event : ClientEvent P}
    (hevent : event.IsTimeout = false) (next : ClientState) :
    u.Reports (u.handleInState serverAddr isConnectionListener state event next) := by
  unfold handleInState
  split_ifs
  · exact (Reports.tell u hevent).trans (.setState _ _)
  · exact .tell u rfl

theorem handlePacket_reports (u : ClientUpdate P) (serverAddr : SocketAddr)
    (isConnectionListener : Bool) (packet : ServerConnectionPacket P) :
    u.Reports (u.handlePacket serverAddr isConnectionListener packet) := by
  cases packet with
  | status status => exact .tell u rfl
  | accept accept => exact handleInState_reports u _ _ _ rfl _
  | reject reject => exact handleInState_reports u _ _ _ rfl _
  | kick kick => exact handleInState_reports u _ _ _ rfl _
  | user packet => exact handleInState_reports u _ _ _ rfl _

section Receive

variable [Rkyv P] {handler : ClientHandler P}

theorem Resulted.reports {serverAddr : SocketAddr} {isConnectionListener : Bool}
    {result : Except HandlePacketError PacketHandling}
    (h : u.Resulted serverAddr isConnectionListener result u') : u.Reports u' := by
  cases h with
  | error error => exact .tell u rfl
  | rawPacket handling packet => exact .tell u rfl
  | invalid bytes error hcheck => exact (Reports.tell u rfl).trans (.tell _ rfl)
  | valid bytes packet hcheck =>
    exact (Reports.tell u rfl).trans (handlePacket_reports _ serverAddr isConnectionListener packet)

/-- Whatever arrives from a compatible server is an interaction. -/
theorem handleCompatible_dates {isConnectionListener : Bool} {index : ℕ}
    {listener : ServerListener P} {buffers : PacketBuffers} {buf : Bytes}
    (h : u.handleCompatible isConnectionListener index listener buffers buf = .ok u') :
    u.Reports u' ∧ ∃ buffers', u'.client.listeners = u.client.listeners.set index
      { listener with state := .compatible buffers' u.env.now } := by
  have hset := Reports.setListener u index
    { listener with state := .compatible buffers u.env.now }
  unfold handleCompatible at h
  dsimp only at h
  split_ifs at h with hping
  · cases h
    refine ⟨hset.trans (handlePing_reports _ _ _), buffers, ?_⟩
    rw [(handlePing_cases _ listener.serverAddr buf).1]
    rfl
  · obtain ⟨⟨result, buffers', env'⟩, hhandle, hresult⟩ := exists_of_bind_ok h
    have hnow : env'.now = u.env.now := by
      obtain ⟨tried, bufs, rfl, -⟩ := PacketBuffers.handle_acks hhandle
      rfl
    refine ⟨?_, buffers', ?_⟩
    · exact ((hset.trans (.setListener _ _ _)).trans (.setEnv _ hnow)).trans
        (resulted hresult).reports
    · rw [(resulted hresult).cases.1]
      exact List.set_set ..

/-- **What a datagram does to the listeners.** -/
theorem handleDatagram_dates {serverAddr : SocketAddr} {buf : Bytes} (hnodup : u.client.addrs.Nodup)
    (h : u.handleDatagram handler serverAddr buf = .ok u') :
    u.Reports u' ∧ Interacts serverAddr u.env.now u.client.listeners u'.client.listeners := by
  unfold handleDatagram at h
  cases hposition : u.client.position serverAddr with
  | none =>
    rw [hposition] at h
    cases h
    exact ⟨.tell u rfl, .of_notMem (Client.position_eq_none.mp hposition)⟩
  | some found =>
    obtain ⟨index, l⟩ := found
    rw [hposition] at h
    dsimp only at h
    split at h
    · rename_i last hstate
      cases h
      obtain ⟨state, hlisteners, htime⟩ := handleVersion_dates handler buf hposition
        (by unfold ServerListener.lastInteraction; rw [hstate])
      rw [hlisteners]
      refine ⟨handleVersion_reports handler u index l buf, .setState hnodup hposition htime ?_⟩
      intro hcompatible
      rw [hstate] at hcompatible
      cases hcompatible
    · obtain ⟨hreports, buffers', hlisteners⟩ := handleCompatible_dates h
      rw [hlisteners]
      refine ⟨hreports, .setState hnodup hposition ?_ fun _ => rfl⟩
      intro time htime
      cases htime
      rfl
    · rename_i error hstate
      cases h
      refine ⟨.tell u rfl, .of_same hnodup hposition ?_⟩
      unfold ServerListener.lastInteraction
      rw [hstate]

/-- **What the receive loop does to the listeners.**  What they remember is in the log, and the
compatible ones stay so. -/
theorem receive_dates {incoming : Incoming} {log : List (SocketAddr × ℕ)}
    (hreceive : u.receive handler incoming = .ok u') (hnodup : u.client.addrs.Nodup)
    (hdated : Dated log u.client.listeners) :
    u.Reports u' ∧ Dated (incoming.arrivals u.env.now ++ log) u'.client.listeners ∧
      ∀ l ∈ u.client.listeners, l.state.isCompatible = true →
        ∃ l' ∈ u'.client.listeners, l'.serverAddr = l.serverAddr ∧ l'.state.isCompatible = true := by
  obtain ⟨v, hfold, rfl⟩ := receive_eq_ok hreceive
  obtain ⟨hreports, -, hdated', hcompatible⟩ := Vec.foldlM_visited
    (I := fun visited v => u.Reports v ∧ v.client.addrs.Nodup ∧
      Dated ((visited.map fun datagram => (datagram.1, u.env.now)).reverse ++ log)
        v.client.listeners ∧
      ∀ l ∈ u.client.listeners, l.state.isCompatible = true →
        ∃ l' ∈ v.client.listeners, l'.serverAddr = l.serverAddr ∧ l'.state.isCompatible = true)
    ⟨.refl u, hnodup, hdated, fun l hl hcompatible => ⟨l, hl, rfl, hcompatible⟩⟩
    (fun visited datagram v w hv hw => by
      obtain ⟨hreports, hnodup, hdated, hcompatible⟩ := hv
      obtain ⟨hreports', hinteracts⟩ := handleDatagram_dates hnodup hw
      refine ⟨hreports.trans hreports', ?_, ?_, fun l hl hlc => ?_⟩
      · rw [handleDatagram_addrs hw]
        exact hnodup
      · rw [List.map_append, List.reverse_append, ← hreports.now]
        rw [← hreports.now] at hdated
        exact hinteracts.dated hdated
      · obtain ⟨l₁, hl₁, haddr₁, hcompatible₁⟩ := hcompatible l hl hlc
        obtain ⟨l₂, hl₂, haddr₂, hcompatible₂⟩ := hinteracts.compatible l₁ hl₁ hcompatible₁
        exact ⟨l₂, hl₂, haddr₂.trans haddr₁, hcompatible₂⟩)
    hfold
  cases incoming.error with
  | none => exact ⟨hreports, hdated', hcompatible⟩
  | some error => exact ⟨hreports.trans (.tell v rfl), hdated', hcompatible⟩

end Receive

/-! ### The pass over the listeners -/

/-- A pass in progress, as a call in progress. -/
def Pass.during (c : Client P) (pass : Pass P) : ClientUpdate P where
  client := c
  env := pass.env
  events := pass.events

/-- Visiting a listener reports failed sends only. -/
theorem visitListener_reports (config : ClientConfig) (c : Client P) (pass : Pass P)
    (l : ServerListener P) :
    (pass.during c).Reports ((visitListener config pass l).1.during c) := by
  unfold visitListener
  rcases hupdate : l.update (if pass.connected then some pass.state else none) config pass.env
    with ⟨kept, state, error, env⟩
  obtain ⟨tried, bufs, rfl⟩ := ServerListener.update_env hupdate
  refine ⟨rfl, rfl, _, rfl, fun event hmem => ?_⟩
  obtain ⟨error, -, rfl⟩ := List.mem_map.mp hmem
  rfl

/-- A visit keeps the listener, with what it remembers, or reports a failed send. -/
theorem visitListener_keeps (config : ClientConfig) (pass : Pass P) (l : ServerListener P) :
    (∃ l', (visitListener config pass l).2 = some l' ∧ l'.serverAddr = l.serverAddr ∧
        l'.lastInteraction = l.lastInteraction) ∨
      ∃ error, ClientEvent.error (.send l.serverAddr error) ∈ (visitListener config pass l).1.events := by
  unfold visitListener
  rcases l.update_cases (if pass.connected then some pass.state else none) config pass.env with
    ⟨l', env', heq, -⟩ | ⟨error, env', heq, -⟩ | ⟨error, env', heq, -⟩
  · obtain ⟨haddr, htime⟩ := ServerListener.update_lastInteraction heq
    rw [heq]
    exact Or.inl ⟨l', rfl, haddr, htime⟩
  · rw [heq]
    exact Or.inr ⟨error, List.mem_append_right _ List.mem_cons_self⟩
  · rw [heq]
    exact Or.inr ⟨error, List.mem_append_right _ List.mem_cons_self⟩

/-- **What the pass over the listeners does to them.**  They remember the same, and one is dropped only
if a send to its server fails. -/
theorem updateListeners_dates (u : ClientUpdate P) :
    u.Reports u.updateListeners ∧
      Inherits u.client.listeners u.updateListeners.client.listeners ∧
      ∀ l ∈ u.client.listeners, l.state.isCompatible = true →
        (∃ l' ∈ u.updateListeners.client.listeners,
          l'.serverAddr = l.serverAddr ∧ l'.state.isCompatible = true) ∨
        ∃ error, ClientEvent.error (.send l.serverAddr error) ∈ u.updateListeners.events := by
  have hvisit : ∀ pass : Pass P, ∀ l ∈ u.client.listeners, (pass.during u.client).Reports
      ((visitListener u.client.config pass l).1.during u.client) := fun pass l _ =>
    visitListener_reports u.client.config u.client pass l
  refine ⟨?_, fun l' hl' time htime => ?_, fun l hl hcompatible => ?_⟩
  · have hstart : u.Reports (Pass.during u.client
        { connected := u.client.state ≠ .disconnected, state := u.client.state, env := u.env,
          events := u.events }) := .refl u
    have hpass := Vec.retainMut_state
      (I := fun pass : Pass P => u.Reports (pass.during u.client))
      (fun pass l hl hpass => hpass.trans (hvisit pass l hl)) hstart
    exact ⟨hpass.now, rfl, hpass.told⟩
  · obtain ⟨pass, l, hl, hkept⟩ := Vec.exists_of_mem_retainMut hl'
    rcases hupdate : l.update (if pass.connected then some pass.state else none) u.client.config
      pass.env with ⟨kept, state, error, env⟩
    unfold visitListener at hkept
    rw [hupdate] at hkept
    cases hkept
    obtain ⟨haddr, hsame⟩ := ServerListener.update_lastInteraction hupdate
    exact ⟨l, hl, haddr.symm, hsame.symm.trans htime⟩
  · obtain ⟨pass, -, hlast, hkeeps⟩ := Vec.exists_visit_retainMut
      (R := fun pass pass' : Pass P => (pass.during u.client).Reports (pass'.during u.client))
      (fun pass => .refl _) (fun _ _ _ => .trans) hvisit
      { connected := u.client.state ≠ .disconnected, state := u.client.state, env := u.env,
        events := u.events } hl
    rcases visitListener_keeps u.client.config pass l with ⟨l', hkept, haddr, hsame⟩ | ⟨error, hfailed⟩
    · refine Or.inl ⟨l', hkeeps l' hkept, haddr, ?_⟩
      rw [← ServerListener.isSome_lastInteraction, hsame, ServerListener.isSome_lastInteraction]
      exact hcompatible
    · obtain ⟨new, hevents, -⟩ := hlast.told
      refine Or.inr ⟨error, ?_⟩
      have hmem := List.mem_append_left new hfailed
      exact hevents ▸ hmem

end ClientUpdate

/-- The timeout pass tells of the listeners that are idle. -/
theorem ClientUpdate.timeoutConnection_events (u : ClientUpdate P) :
    u.timeoutConnection.events =
      u.events ++ (u.client.listeners.filter (idle u.client.config.timeout u.env.now)).map
        fun l => ClientEvent.error (.timeout l.serverAddr) :=
  timeoutListeners_events _ _ _ _

/-- **What an update remembers and tells.**  What its listeners remember is in the log.  The handler is
told of a timeout of a silent server only, which is dropped.  A server that was compatible either is
silent, and the handler is told, or the client still listens to it, unless a send to it fails. -/
theorem Client.update_dates [Rkyv P] {c : Client P} {handler : ClientHandler P} {incoming : Incoming}
    {env : Env} {u : ClientUpdate P} {log : List (SocketAddr × ℕ)} (hnodup : c.addrs.Nodup)
    (hdated : Dated log c.listeners) (h : c.update handler incoming env = .ok u) :
    Dated (incoming.arrivals env.now ++ log) u.client.listeners ∧
      (∀ addr, ClientEvent.error (.timeout addr) ∈ u.events →
        Silent c.config.timeout env.now (lastHeard (incoming.arrivals env.now ++ log) addr) ∧
          addr ∉ u.client.addrs ∧ u.client.state = .disconnected) ∧
      ∀ l ∈ c.listeners, l.state.isCompatible = true →
        (Silent c.config.timeout env.now
            (lastHeard (incoming.arrivals env.now ++ log) l.serverAddr) ∧
          ClientEvent.error (.timeout l.serverAddr) ∈ u.events) ∨
        (¬Silent c.config.timeout env.now
            (lastHeard (incoming.arrivals env.now ++ log) l.serverAddr) ∧
          l.serverAddr ∈ u.client.addrs) ∨
        ∃ error, ClientEvent.error (.send l.serverAddr error) ∈ u.events := by
  obtain ⟨v, hreceive, rfl⟩ := Client.update_eq_ok h
  obtain ⟨hpass, hinherits, hkeeps⟩ :=
    ClientUpdate.updateListeners_dates { client := c, env, events := [] }
  have hnodup' := hnodup.sublist (ClientUpdate.updateListeners_addrs { client := c, env, events := [] })
  obtain ⟨hloop, hdated', hkeeps'⟩ :=
    ClientUpdate.receive_dates hreceive hnodup' (hinherits.dated hdated)
  have hreports := hpass.trans hloop
  rw [hpass.now] at hdated'
  have hnodup'' : v.client.addrs.Nodup := by
    rw [ClientUpdate.receive_addrs hreceive]
    exact hnodup'
  have hlisteners := v.timeoutConnection_eq.1
  have hstate := v.timeoutConnection_eq.2
  have hevents := v.timeoutConnection_events
  have hnow : v.env.now = env.now := hreports.now
  have hconfig : v.client.config = c.config := hreports.config
  rw [hnow, hconfig] at hlisteners hstate hevents
  -- a listener is idle exactly if its server is silent by the log
  have hidle : ∀ l ∈ v.client.listeners, l.state.isCompatible = true →
      (ClientUpdate.idle c.config.timeout env.now l = true ↔ Silent c.config.timeout env.now
        (lastHeard (incoming.arrivals env.now ++ log) l.serverAddr)) := by
    intro l hl hcompatible
    rw [← ServerListener.isSome_lastInteraction] at hcompatible
    obtain ⟨time, htime⟩ := Option.isSome_iff_exists.mp hcompatible
    rw [ServerListener.idle_iff, htime, hdated' l hl time htime]
  refine ⟨?_, fun addr htold => ?_, fun l hl hcompatible => ?_⟩
  · rw [hlisteners]
    exact (Inherits.of_subset List.filter_sublist.subset).dated hdated'
  · obtain ⟨new, hnew, htimeouts⟩ := hreports.told
    rw [hevents, List.mem_append] at htold
    rcases htold with hbefore | hnow
    · rw [hnew] at hbefore
      cases htimeouts _ hbefore
    · obtain ⟨l, hl, heq⟩ := List.mem_map.mp hnow
      cases heq
      obtain ⟨hmem, hl⟩ := List.mem_filter.mp hl
      have hcompatible : l.state.isCompatible = true := by
        obtain ⟨limit, time, -, htime, -⟩ := ServerListener.idle_iff.mp hl
        rw [← ServerListener.isSome_lastInteraction, htime]
        rfl
      refine ⟨(hidle l hmem hcompatible).mp hl, fun haddr => ?_, ?_⟩
      · obtain ⟨l', hl', haddr'⟩ := List.mem_map.mp haddr
        rw [hlisteners] at hl'
        obtain ⟨hmem', hkept⟩ := List.mem_filter.mp hl'
        rw [List.inj_on_of_nodup_map hnodup'' hmem' hmem haddr', hl] at hkept
        cases hkept
      · rw [hstate, if_pos (List.any_eq_true.mpr ⟨l, hmem, hl⟩)]
  · rcases hkeeps l hl hcompatible with ⟨l₁, hl₁, haddr₁, hcompatible₁⟩ | ⟨error, hfailed⟩
    · obtain ⟨l₂, hl₂, haddr₂, hcompatible₂⟩ := hkeeps' l₁ hl₁ hcompatible₁
      have haddr : l₂.serverAddr = l.serverAddr := haddr₂.trans haddr₁
      have hexact := hidle l₂ hl₂ hcompatible₂
      rw [haddr] at hexact
      by_cases hl₂idle : ClientUpdate.idle c.config.timeout env.now l₂ = true
      · refine Or.inl ⟨hexact.mp hl₂idle, ?_⟩
        rw [hevents, ← haddr]
        exact List.mem_append_right _
          (List.mem_map.mpr ⟨l₂, List.mem_filter.mpr ⟨hl₂, hl₂idle⟩, rfl⟩)
      · refine Or.inr (Or.inl ⟨fun hsilent => hl₂idle (hexact.mpr hsilent), ?_⟩)
        unfold Client.addrs
        rw [hlisteners, ← haddr]
        refine List.mem_map_of_mem (List.mem_filter.mpr ⟨hl₂, ?_⟩)
        simpa using hl₂idle
    · obtain ⟨new, hnew, -⟩ := hloop.told
      refine Or.inr (Or.inr ⟨error, ?_⟩)
      rw [hevents, hnew]
      exact List.mem_append_left _ (List.mem_append_left new hfailed)

/-! ## The connected server falls silent -/

/-- The server of a listener is silent, and nothing arrives from it in a call. -/
def ServerListener.TimesOut (l : ServerListener P) (timeout : Option ℕ) (incoming : Incoming)
    (now : ℕ) : Prop :=
  Silent timeout now l.lastInteraction ∧ ∀ datagram ∈ incoming.datagrams, datagram.1 ≠ l.serverAddr

/-- A log in which each server arrived when its listener remembers. -/
def loggedBy (ls : List (ServerListener P)) : List (SocketAddr × ℕ) :=
  ls.filterMap fun l => l.lastInteraction.map (Prod.mk l.serverAddr)

theorem dated_loggedBy {ls : List (ServerListener P)}
    (hnodup : (ls.map ServerListener.serverAddr).Nodup) : Dated (loggedBy ls) ls := by
  induction ls with
  | nil =>
    intro l hl
    cases hl
  | cons first rest ih =>
    rw [List.map_cons, List.nodup_cons] at hnodup
    obtain ⟨hfirst, hrest⟩ := hnodup
    intro l hl time htime
    unfold loggedBy
    rcases List.mem_cons.mp hl with rfl | hl
    · rw [List.filterMap_cons, htime]
      exact lastHeard_cons_self _ _ _
    · have hne : first.serverAddr ≠ l.serverAddr := fun heq => hfirst (heq ▸ List.mem_map_of_mem hl)
      have hold := ih hrest l hl time htime
      rw [List.filterMap_cons]
      cases first.lastInteraction with
      | none => exact hold
      | some other => exact (lastHeard_cons_of_ne _ _ _ hne).trans hold

/-- What arrives from others does not count. -/
theorem lastHeard_arrivals_of_ne {incoming : Incoming} {addr : SocketAddr} (now : ℕ)
    (log : List (SocketAddr × ℕ)) (hne : ∀ datagram ∈ incoming.datagrams, datagram.1 ≠ addr) :
    lastHeard (incoming.arrivals now ++ log) addr = lastHeard log addr := by
  have hnone : (incoming.arrivals now).find? (fun entry => decide (entry.1 = addr)) = none := by
    rw [List.find?_eq_none]
    intro entry hentry
    obtain ⟨datagram, hdatagram, rfl⟩ := List.mem_map.mp (List.mem_reverse.mp hentry)
    simpa using hne datagram hdatagram
  unfold lastHeard
  rw [List.find?_append, hnone, Option.none_or]

/-- An update leaves no listener behind that is idle. -/
theorem Client.not_idle_of_update [Rkyv P] {c : Client P} {handler : ClientHandler P}
    {incoming : Incoming} {env : Env} {u : ClientUpdate P} (hnodup : c.addrs.Nodup)
    (h : c.update handler incoming env = .ok u) :
    ∀ l ∈ u.client.listeners, ClientUpdate.idle c.config.timeout env.now l = false := by
  obtain ⟨v, hreceive, rfl⟩ := Client.update_eq_ok h
  obtain ⟨hpass, hinherits, -⟩ :=
    ClientUpdate.updateListeners_dates { client := c, env, events := [] }
  have hnodup' := hnodup.sublist (ClientUpdate.updateListeners_addrs { client := c, env, events := [] })
  obtain ⟨hloop, -⟩ :=
    ClientUpdate.receive_dates hreceive hnodup' (hinherits.dated (dated_loggedBy hnodup))
  have hreports := hpass.trans hloop
  have hnow : v.env.now = env.now := hreports.now
  have hconfig : v.client.config = c.config := hreports.config
  intro l hl
  rw [v.timeoutConnection_eq.1, hnow, hconfig] at hl
  simpa using (List.mem_filter.mp hl).2

/-- **An update in which the connected server times out ends the connection.** -/
theorem Client.update_timesOut [Rkyv P] {c : Client P} {handler : ClientHandler P}
    {incoming : Incoming} {env : Env} {u : ClientUpdate P} {l : ServerListener P}
    (hnodup : c.addrs.Nodup) (hfront : c.listeners.head? = some l) (hstate : c.state ≠ .disconnected)
    (htimesOut : l.TimesOut c.config.timeout incoming env.now)
    (h : c.update handler incoming env = .ok u) : u.client.state = .disconnected := by
  obtain ⟨hsilent, hother⟩ := htimesOut
  obtain ⟨limit, time, hlimit, htime, helapsed⟩ := id hsilent
  rcases Client.update_cases hfront hstate h with
    hdisconnected | ⟨l₁, env₁, l', hl₁, hl', hevolves, -⟩ | ⟨error, ⟨it, hpending, -⟩, -⟩
  · exact hdisconnected
  · -- the listener was not heard of, so the pass over the timeouts does not leave it behind
    exfalso
    have hmem : l' ∈ u.client.listeners := List.mem_of_head? hl'
    obtain ⟨haddr₁, htime₁⟩ := ServerListener.update_lastInteraction hl₁
    have hcompatible : l'.state.isCompatible = true := by
      refine hevolves.isCompatible ?_
      rw [← ServerListener.isSome_lastInteraction, htime₁, htime]
      rfl
    rw [← ServerListener.isSome_lastInteraction] at hcompatible
    obtain ⟨time', htime'⟩ := Option.isSome_iff_exists.mp hcompatible
    have hdated := (Client.update_dates hnodup (dated_loggedBy hnodup) h).1 l' hmem time' htime'
    rw [hevolves.serverAddr, haddr₁, lastHeard_arrivals_of_ne env.now _ hother,
      dated_loggedBy hnodup l (List.mem_of_head? hfront) time htime] at hdated
    have hidle := Client.not_idle_of_update hnodup h l' hmem
    rw [ServerListener.idle_iff.mpr ⟨limit, time', hlimit, htime', ?_⟩] at hidle
    · cases hidle
    · cases hdated
      exact helapsed
  · unfold ServerListener.lastInteraction at htime
    rw [hpending] at htime
    cases htime

/-! ## Runs -/

/-- What arrives in an operation, and when. -/
def ClientOp.arrivals : ClientOp P → List (SocketAddr × ℕ)
  | .update _ incoming env => incoming.arrivals env.now
  | _ => []

/-- A client in a run, and everything that arrived, the last first. -/
structure Logged (P : Packets) where
  run : ClientRun P
  log : List (SocketAddr × ℕ)

namespace Logged

/-- The beginning. -/
def init (config : ClientConfig) : Logged P where
  run := .init config
  log := []

variable [Rkyv P] {g g' : Logged P}

/-- One operation. -/
def step (g : Logged P) (op : ClientOp P) : Option (Logged P) := do
  let run ← g.run.step op
  return { run, log := op.arrivals ++ g.log }

/-- The transition system of a client with a log of what arrived. -/
def system (P : Packets) [Rkyv P] : Lts (Logged P) (ClientOp P) where
  step := step

/-- Servers have one listener at most, and what the listeners remember is in the log. -/
structure Expected (g : Logged P) : Prop where
  nodup : g.run.client.addrs.Nodup
  dated : Dated g.log g.run.client.listeners

/-- **Step lemma.** -/
theorem Expected.step {op : ClientOp P} (h : g.Expected) (hstep : g.step op = some g') :
    g'.Expected := by
  obtain ⟨run, hrun, hg⟩ := Option.bind_eq_some_iff.mp hstep
  cases hg
  refine ⟨ClientRun.addrs_nodup_step h.nodup hrun, ?_⟩
  cases op with
  | listen serverAddr env =>
    cases hrun
    exact (g.run.client.listen_inherits serverAddr env.start).dated h.dated
  | query serverAddr query env =>
    obtain ⟨⟨result, client, env'⟩, hquery, hr⟩ := exists_of_bind_toOption hrun
    cases hr
    exact (Client.query_inherits hquery).dated h.dated
  | connect peer connect env =>
    obtain ⟨⟨result, client, env'⟩, hconnect, hr⟩ := exists_of_bind_toOption hrun
    cases hr
    exact (Client.connect_inherits hconnect).dated h.dated
  | disconnect disconnect env =>
    obtain ⟨⟨result, client, env'⟩, hdisconnect, hr⟩ := exists_of_bind_toOption hrun
    cases hr
    exact (Client.sendConnected_inherits hdisconnect).dated h.dated
  | send packet env =>
    obtain ⟨⟨result, client, env'⟩, hsend, hr⟩ := exists_of_bind_toOption hrun
    cases hr
    exact (Client.sendConnected_inherits hsend).dated h.dated
  | forget serverAddr =>
    cases hrun
    exact (g.run.client.forget_inherits serverAddr).dated h.dated
  | forgetAll =>
    obtain ⟨client, hforget, hr⟩ := exists_of_bind_toOption hrun
    cases hr
    exact (Client.forgetAll_inherits hforget).dated h.dated
  | refreshAll env =>
    cases hrun
    exact (Client.refreshListeners_inherits g.run.client.listeners env.start).dated h.dated
  | update handler incoming env =>
    obtain ⟨u, hupdate, rfl⟩ := ClientRun.step_update hrun
    exact (Client.update_dates h.nodup h.dated hupdate).1

theorem expected {config : ClientConfig} {ok : Logged P → ClientOp P → Prop}
    (hrun : (system P).GuardedRun ok (init config) g) : g.Expected := by
  refine hrun.invariant (I := Expected) (fun _ _ _ h _ hstep => h.step hstep) ⟨List.nodup_nil, ?_⟩
  intro l hl
  cases hl

/-- **A server is timed out exactly if it was silent.**  Let a client listen to a compatible server, in
any run, and let no send to the server fail in an update.  Then the handler is told that the server
timed out if and only if nothing arrived from it for longer than the timeout, and the client still
listens to it afterwards otherwise.  In no update is the handler told of a timeout of another server. -/
theorem drops_iff_silent {config : ClientConfig} {ok : Logged P → ClientOp P → Prop}
    (hrun : (system P).GuardedRun ok (init config) g) {handler : ClientHandler P}
    {incoming : Incoming} {env : Env} {u : ClientUpdate P}
    (hupdate : g.run.client.update handler incoming env.start = .ok u) :
    (∀ l ∈ g.run.client.listeners, l.state.isCompatible = true →
      (∀ error, ClientEvent.error (.send l.serverAddr error) ∉ u.events) →
      (ClientEvent.error (.timeout l.serverAddr) ∈ u.events ↔
        Silent g.run.client.config.timeout env.now
          (lastHeard (incoming.arrivals env.now ++ g.log) l.serverAddr)) ∧
      (l.serverAddr ∈ u.client.addrs ↔
        ¬Silent g.run.client.config.timeout env.now
          (lastHeard (incoming.arrivals env.now ++ g.log) l.serverAddr))) ∧
    ∀ addr, ClientEvent.error (.timeout addr) ∈ u.events →
      Silent g.run.client.config.timeout env.now
        (lastHeard (incoming.arrivals env.now ++ g.log) addr) ∧
      u.client.state = .disconnected := by
  have h := expected hrun
  obtain ⟨-, htold, hexact⟩ := Client.update_dates h.nodup h.dated hupdate
  refine ⟨fun l hl hcompatible hsent => ?_, fun addr haddr => ⟨(htold addr haddr).1,
    (htold addr haddr).2.2⟩⟩
  rcases hexact l hl hcompatible with ⟨hsilent, htimeout⟩ | ⟨hheard, hkept⟩ | ⟨error, hfailed⟩
  · exact ⟨iff_of_true htimeout hsilent,
      iff_of_false (htold _ htimeout).2.1 fun hheard => hheard hsilent⟩
  · exact ⟨iff_of_false (fun htimeout => hheard (htold _ htimeout).1) hheard,
      iff_of_true hkept hheard⟩
  · exact absurd hfailed (hsent error)

/-- Something could not be sent. -/
def checkFailedSend : ClientEvent P → Bool
  | .error (.send _ _) => true
  | _ => false

/-- A server answers at once, and then falls silent for ten seconds. -/
theorem drops_iff_silent_late :
    ∃ g, (system DefaultPackets).GuardedRun (fun _ _ => True) (init .default) g ∧
      ∃ u, g.run.client.update (.default _) {} (Env.accepting 10002).start = .ok u ∧
        ClientEvent.error (.timeout 5) ∈ u.events := by
  obtain ⟨g, hrun, hg⟩ := Lts.exists_guardedRun (system DefaultPackets) (fun _ _ => True)
    (fun _ _ => true) (init .default)
    [.listen 5 (.accepting 0),
      .update (.default _) { datagrams := [(5, [PacketKind.version.toByte])] } (.accepting 1)]
    (fun g => decide (g.run.client.config.timeout = some 10000) &&
      decide (lastHeard g.log 5 = some 1) &&
      (g.run.client.position 5).any (fun found => found.2.state.isCompatible) &&
      (g.run.client.update (.default _) {} (Env.accepting 10002).start).toOption.any
        fun u : ClientUpdate DefaultPackets => u.events.all fun event => !checkFailedSend event)
    (fun _ _ _ _ => trivial) (by decide +kernel)
  simp only [Bool.and_eq_true, decide_eq_true_eq, Option.any_eq_true, List.all_eq_true] at hg
  obtain ⟨⟨⟨hconfig, hlast⟩, ⟨index, l⟩, hposition, hcompatible⟩, u, hu, hsent⟩ := hg
  obtain ⟨hget, haddr⟩ := Client.position_eq_some hposition
  have hupdate : g.run.client.update (.default _) {} (Env.accepting 10002).start = .ok u := by
    generalize g.run.client.update (.default _) {} (Env.accepting 10002).start = result at hu ⊢
    cases result with
    | error abort => cases hu
    | ok v =>
      cases hu
      rfl
  have hexact := (drops_iff_silent hrun hupdate).1 l (List.mem_of_getElem? hget) hcompatible
    (fun error hmem => by cases hsent _ hmem)
  rw [haddr] at hexact
  exact ⟨g, hrun, u, hupdate, hexact.1.mpr ⟨10000, 1, hconfig, hlast, by decide⟩⟩

end Logged

end Ultinet
