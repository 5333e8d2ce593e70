import Ultinet.Net.ServerSystem

/-!
# The address book of a server

A server keeps the addresses of its peers in two places, the map of listeners and the slots of the
clients.  `Server.occurrences` counts in how many places an address is; in every run it is in at most
one (`UniqueAddrs`), an occupied slot is never given to another client, a client keeps its slot for as
long as it is connected, and a datagram concerns the address it comes from only.
-/

namespace Ultinet

variable {P : Packets}

namespace Server

variable {s t : Server} {addr : SocketAddr}

/-! ## Where an address occurs -/

/-- In how many places an address is: the map of listeners and the slots of the clients. -/
def occurrences (s : Server) (addr : SocketAddr) : ℕ :=
  (if (s.listeners.get? addr).isSome then 1 else 0) +
    s.clients.countP fun entry => entry.any fun client => decide (client.clientAddr = addr)

/-- No address has two slots, or a slot and a listener. -/
structure UniqueAddrs (s : Server) : Prop where
  slots : ∀ (i j : ℕ) (c d : ClientConnection), s.clients[i]? = some (some c) →
    s.clients[j]? = some (some d) → c.clientAddr = d.clientAddr → i = j
  listeners : ∀ (i : ℕ) (c : ClientConnection), s.clients[i]? = some (some c) →
    s.listeners.get? c.clientAddr = none

/-- No client moves to another slot, and no slot passes from one client to another. -/
structure KeepsSlots (s t : Server) : Prop where
  client : ∀ (i j : ℕ) (c d : ClientConnection), s.clients[i]? = some (some c) →
    t.clients[j]? = some (some d) → c.clientAddr = d.clientAddr → i = j
  slot : ∀ (i : ℕ) (c d : ClientConnection), s.clients[i]? = some (some c) →
    t.clients[i]? = some (some d) → c.clientAddr = d.clientAddr

theorem occurrences_le_one (hs : s.UniqueAddrs) (addr : SocketAddr) : s.occurrences addr ≤ 1 := by
  have hcount : s.clients.countP (fun entry => entry.any fun client =>
      decide (client.clientAddr = addr)) ≤ 1 := by
    refine Vec.countP_le_one fun i j entry entry' hi hj hentry hentry' => ?_
    cases entry with
    | none => cases hentry
    | some c =>
      cases entry' with
      | none => cases hentry'
      | some d =>
        have hc : c.clientAddr = addr := by simpa using hentry
        have hd : d.clientAddr = addr := by simpa using hentry'
        exact hs.slots i j c d hi hj (hc.trans hd.symm)
  unfold occurrences
  split_ifs with hlistener
  · -- a listener has no slot
    have hzero : s.clients.countP (fun entry => entry.any fun client =>
        decide (client.clientAddr = addr)) = 0 := by
      rw [List.countP_eq_zero]
      intro entry hentry hany
      obtain ⟨i, hi⟩ := List.getElem?_of_mem hentry
      cases entry with
      | none => cases hany
      | some c =>
        have hc : c.clientAddr = addr := by simpa using hany
        have hnone := hs.listeners i c hi
        rw [hc] at hnone
        rw [hnone] at hlistener
        cases hlistener
    rw [hzero]
  · simpa using hcount

theorem uniqueAddrs_host (config : ServerConfig) : (host config).UniqueAddrs := by
  constructor
  · intro i j c d hi
    cases hi
  · intro i c hi
    cases hi

theorem KeepsSlots.refl (hs : s.UniqueAddrs) : s.KeepsSlots s := by
  constructor
  · intro i j c d hi hj haddr
    exact hs.slots i j c d hi hj haddr
  · intro i c d hi hi'
    rw [hi] at hi'
    cases hi'
    rfl

/-- The client at a slot is the one that is found. -/
theorem findClient_of_slot (hs : s.UniqueAddrs) {i : ℕ} {c : ClientConnection}
    (hget : s.clients[i]? = some (some c)) : s.findClient c.clientAddr = some (i, c) := by
  unfold findClient
  rw [Vec.position_of_unique (i := i) (a := some c) ?_ hget (by simp)]
  · rfl
  · intro i j entry entry' hi hj hentry hentry'
    cases entry with
    | none => cases hentry
    | some d =>
      cases entry' with
      | none => cases hentry'
      | some d' =>
        have hd : d.clientAddr = c.clientAddr := by simpa using hentry
        have hd' : d'.clientAddr = c.clientAddr := by simpa using hentry'
        exact hs.slots i j d d' hi hj (hd.trans hd'.symm)

/-- What is found for an address depends on the slots with this address only. -/
theorem findClient_congr (ht : t.UniqueAddrs)
    (h : ∀ (i : ℕ) (c : ClientConnection), c.clientAddr = addr →
      (t.clients[i]? = some (some c) ↔ s.clients[i]? = some (some c))) :
    t.findClient addr = s.findClient addr := by
  cases hfind : s.findClient addr with
  | some found =>
    obtain ⟨i, c⟩ := found
    obtain ⟨hget, haddr⟩ := findClient_eq_some hfind
    subst haddr
    exact findClient_of_slot ht ((h i c rfl).mpr hget)
  | none =>
    rw [findClient_eq_none] at hfind ⊢
    intro i c hget haddr
    exact hfind i c ((h i c haddr).mp hget) haddr

/-! ## Changes that add no client -/

/-- Clients may leave their slots, and only addresses that have no slot become listeners. -/
structure Shrinks (s t : Server) : Prop where
  kept : ∀ (i : ℕ) (d : ClientConnection), t.clients[i]? = some (some d) →
    ∃ c, s.clients[i]? = some (some c) ∧ d.clientAddr = c.clientAddr
  listeners : ∀ addr, (t.listeners.get? addr).isSome = true →
    (s.listeners.get? addr).isSome = true ∨ t.findClient addr = none

theorem Shrinks.uniqueAddrs (h : s.Shrinks t) (hs : s.UniqueAddrs) : t.UniqueAddrs := by
  constructor
  · intro i j c d hi hj haddr
    obtain ⟨c', hi', hc⟩ := h.kept i c hi
    obtain ⟨d', hj', hd⟩ := h.kept j d hj
    exact hs.slots i j c' d' hi' hj' (hc.symm.trans (haddr.trans hd))
  · intro i c hi
    by_contra hne
    obtain ⟨c', hi', hc⟩ := h.kept i c hi
    rcases h.listeners c.clientAddr (Option.ne_none_iff_isSome.mp hne) with hbefore | hnone
    · rw [hc, hs.listeners i c' hi'] at hbefore
      cases hbefore
    · exact findClient_eq_none.mp hnone i c hi rfl

theorem Shrinks.keepsSlots (h : s.Shrinks t) (hs : s.UniqueAddrs) : s.KeepsSlots t := by
  constructor
  · intro i j c d hi hj haddr
    obtain ⟨d', hj', hd⟩ := h.kept j d hj
    exact hs.slots i j c d' hi hj' (haddr.trans hd)
  · intro i c d hi hi'
    obtain ⟨c', hc', hd⟩ := h.kept i d hi'
    rw [hi] at hc'
    cases hc'
    exact hd.symm

/-- The slots stay the same. -/
theorem Shrinks.of_clients (hclients : t.clients = s.clients)
    (hlisteners : ∀ addr, (t.listeners.get? addr).isSome = true →
      (s.listeners.get? addr).isSome = true ∨ t.findClient addr = none) : s.Shrinks t := by
  constructor
  · intro i d hi
    rw [hclients] at hi
    exact ⟨d, hi, rfl⟩
  · exact hlisteners

/-- A pass over the slots. -/
theorem Shrinks.of_visitsSlots {new : List (ServerEvent P)}
    (h : VisitsSlots s.clients t.clients new) (hlisteners : t.listeners = s.listeners) :
    s.Shrinks t := by
  constructor
  · intro i d hi
    obtain ⟨c, hget, haddr, -⟩ := h.kept i d hi
    exact ⟨c, hget, haddr⟩
  · intro addr hsome
    rw [hlisteners] at hsome
    exact Or.inl hsome

/-- A client is replaced by one with the same address. -/
theorem Shrinks.setClient {i : ℕ} {c c' : ClientConnection} (hget : s.clients[i]? = some (some c))
    (haddr : c'.clientAddr = c.clientAddr) : s.Shrinks (s.setClient i (some c')) := by
  have hlt := (List.getElem?_eq_some_iff.mp hget).1
  constructor
  · intro j d hj
    rw [getElem?_setClient _ hlt] at hj
    split_ifs at hj with hij
    · cases hj
      exact ⟨c, hij ▸ hget, haddr⟩
    · exact ⟨d, hj, rfl⟩
  · intro addr hsome
    exact Or.inl hsome

/-- A client is disconnected. -/
theorem Shrinks.disconnectClient (hs : s.UniqueAddrs) {i : ℕ} {c c' : ClientConnection}
    (hget : s.clients[i]? = some (some c)) (haddr : c'.clientAddr = c.clientAddr) :
    s.Shrinks (s.disconnectClient i c') := by
  have hlt := (List.getElem?_eq_some_iff.mp hget).1
  have hkept : ∀ (j : ℕ) (d : ClientConnection),
      (s.disconnectClient i c').clients[j]? = some (some d) →
      j ≠ i ∧ s.clients[j]? = some (some d) := by
    intro j d hj
    have hj' : (s.setClient i none).clients[j]? = some (some d) := hj
    rw [getElem?_setClient _ hlt] at hj'
    split_ifs at hj' with hij
    · cases hj'
    · exact ⟨hij, hj'⟩
  constructor
  · intro j d hj
    exact ⟨d, (hkept j d hj).2, rfl⟩
  · intro addr hsome
    have hsome' : ((s.listeners.insert c'.clientAddr c'.buffers).get? addr).isSome = true := hsome
    rw [SortedMap.get?_insert] at hsome'
    split_ifs at hsome' with heq
    · refine Or.inr (findClient_eq_none.mpr fun j d hj hd => ?_)
      obtain ⟨hji, hget'⟩ := hkept j d hj
      exact hji (hs.slots j i d c hget' hget (hd.trans (heq.trans haddr)))
    · exact Or.inl hsome'

/-! ## A client is added -/

/-- A peer that has no slot gets one that was free, and is no longer listened to. -/
structure Adds (addr : SocketAddr) (s t : Server) : Prop where
  absent : s.findClient addr = none
  slots : ∃ (index : ℕ) (client : ClientConnection), client.clientAddr = addr ∧
    (∀ c, s.clients[index]? ≠ some (some c)) ∧
    ∀ i : ℕ, t.clients[i]? = if i = index then some (some client) else s.clients[i]?
  listeners : ∀ a, t.listeners.get? a = if a = addr then none else s.listeners.get? a

theorem Adds.uniqueAddrs (h : s.Adds addr t) (hs : s.UniqueAddrs) : t.UniqueAddrs := by
  obtain ⟨index, client, haddr, -, hslots⟩ := h.slots
  have habsent := findClient_eq_none.mp h.absent
  constructor
  · intro i j c d hi hj heq
    rw [hslots] at hi hj
    split_ifs at hi with hii
    · cases hi
      split_ifs at hj with hjj
      · exact hii.trans hjj.symm
      · exact absurd (heq.symm.trans haddr) (habsent j d hj)
    · split_ifs at hj with hjj
      · cases hj
        exact absurd (heq.trans haddr) (habsent i c hi)
      · exact hs.slots i j c d hi hj heq
  · intro i c hi
    rw [hslots] at hi
    rw [h.listeners]
    split_ifs at hi with hii
    · cases hi
      rw [if_pos haddr]
    · rw [if_neg (habsent i c hi)]
      exact hs.listeners i c hi

theorem Adds.keepsSlots (h : s.Adds addr t) (hs : s.UniqueAddrs) : s.KeepsSlots t := by
  obtain ⟨index, client, haddr, hfree, hslots⟩ := h.slots
  have habsent := findClient_eq_none.mp h.absent
  constructor
  · intro i j c d hi hj heq
    rw [hslots] at hj
    split_ifs at hj with hjj
    · cases hj
      exact absurd (heq.trans haddr) (habsent i c hi)
    · exact hs.slots i j c d hi hj heq
  · intro i c d hi hi'
    rw [hslots] at hi'
    split_ifs at hi' with hii
    · subst hii
      exact absurd hi (hfree c)
    · rw [hi] at hi'
      cases hi'
      rfl

/-! ## What stays of the other addresses -/

/-- What the server keeps for an address is the same. -/
def SameEntry (addr : SocketAddr) (s t : Server) : Prop :=
  t.listeners.get? addr = s.listeners.get? addr ∧ t.findClient addr = s.findClient addr

end Server

/-! ## Runs -/

namespace ServerUpdate

open Server

section Receive

variable [Rkyv P] {handler : ServerHandler P} {u u' : ServerUpdate P} {addr : SocketAddr}
  {buf : Bytes}

/-- A datagram adds no client, or the one it comes from. -/
theorem Handled.shrinks_or_adds (h : u.Handled handler addr buf u')
    (hs : u.server.UniqueAddrs) : u.server.Shrinks u'.server ∨ u.server.Adds addr u'.server := by
  cases h with
  | version new hbuf hnew hevents hserver =>
    rw [hserver]
    exact Or.inl (.of_clients rfl fun a ha => Or.inl ha)
  | versionAnswered hbuf hsend hlistener hclient hevents hserver =>
    rw [hserver]
    refine Or.inl (.of_clients rfl fun a ha => ?_)
    dsimp only at ha
    rw [SortedMap.get?_insert] at ha
    split_ifs at ha with heq
    · rw [heq]
      exact Or.inr hclient
    · exact Or.inl ha
  | unknown hbuf hlistener hclient hevents hserver =>
    rw [hserver]
    exact Or.inl (.of_clients rfl fun a ha => Or.inl ha)
  | client index client client' new hbuf hfind haddr hevolves hnew hevents hserver =>
    obtain ⟨hget, haddr'⟩ := findClient_eq_some hfind
    rw [hserver]
    exact Or.inl (.setClient hget (haddr.trans haddr'.symm))
  | disconnected index client client' new packet buffers env hbuf hfind haddr hcompletes hends
      hevolves hevents hserver =>
    obtain ⟨hget, haddr'⟩ := findClient_eq_some hfind
    rw [hserver]
    exact Or.inl (.disconnectClient hs hget (haddr.trans haddr'.symm))
  | listener buffers buffers' new hbuf hclient hget hevolves hnew hevents hlisteners hclients
      hconfig =>
    refine Or.inl (.of_clients hclients fun a ha => ?_)
    rw [hlisteners] at ha
    split_ifs at ha with heq
    · rw [heq, hget]
      exact Or.inl rfl
    · exact Or.inl ha
  | accepted buffers buffers' buffers'' connect accept env env' packetId hbuf hclient hget hcompletes
      haccept hsend hevents hlisteners hclients hconfig =>
    obtain ⟨index, hfree, hslots, -, -⟩ := u.server.addClient_spec (.new addr buffers'')
    refine Or.inr ⟨hclient, ⟨index, .new addr buffers'', rfl, hfree, fun i => ?_⟩, hlisteners⟩
    rw [hclients]
    exact hslots i

/-- **The frame of a datagram.**  It changes nothing about other addresses. -/
theorem Handled.sameEntry (h : u.Handled handler addr buf u') (hs' : u'.server.UniqueAddrs)
    {a : SocketAddr} (hne : a ≠ addr) : u.server.SameEntry a u'.server := by
  -- a slot of another address stays what it is if only a slot of this address was set
  have hset : ∀ (index : ℕ) (client : ClientConnection) (entry : Option ClientConnection)
      (clients : List (Option ClientConnection)),
      u.server.findClient addr = some (index, client) →
      (∀ c, entry = some c → c.clientAddr = addr) →
      clients = (u.server.setClient index entry).clients →
      ∀ (i : ℕ) (c : ClientConnection), c.clientAddr = a →
        (clients[i]? = some (some c) ↔ u.server.clients[i]? = some (some c)) := by
    intro index client entry clients hfind hentry hclients i c hc
    obtain ⟨hget, haddr⟩ := findClient_eq_some hfind
    rw [hclients, getElem?_setClient _ (List.getElem?_eq_some_iff.mp hget).1]
    split_ifs with hi
    · subst hi
      rw [hget]
      simp only [Option.some.injEq]
      constructor
      · intro heq
        exact absurd (hc.symm.trans (hentry c heq)) hne
      · intro heq
        exact absurd (hc.symm.trans (heq ▸ haddr)) hne
    · rfl
  cases h with
  | version new hbuf hnew hevents hserver =>
    rw [hserver]
    exact ⟨rfl, rfl⟩
  | versionAnswered hbuf hsend hlistener hclient hevents hserver =>
    rw [hserver]
    exact ⟨SortedMap.get?_insert_of_ne hne, rfl⟩
  | unknown hbuf hlistener hclient hevents hserver =>
    rw [hserver]
    exact ⟨rfl, rfl⟩
  | client index client client' new hbuf hfind haddr hevolves hnew hevents hserver =>
    refine ⟨by rw [hserver]; rfl, findClient_congr hs' (hset index client (some client') _ hfind ?_ ?_)⟩
    · intro c hc
      cases hc
      exact haddr
    · rw [hserver]
  | disconnected index client client' new packet buffers env hbuf hfind haddr hcompletes hends
      hevolves hevents hserver =>
    refine ⟨?_, findClient_congr hs' (hset index client none _ hfind (fun c hc => by cases hc) ?_)⟩
    · rw [hserver]
      exact SortedMap.get?_insert_of_ne (haddr ▸ hne)
    · rw [hserver]
      rfl
  | listener buffers buffers' new hbuf hclient hget hevolves hnew hevents hlisteners hclients
      hconfig =>
    refine ⟨by rw [hlisteners, if_neg hne], findClient_congr hs' fun i c _ => ?_⟩
    rw [hclients]
  | accepted buffers buffers' buffers'' connect accept env env' packetId hbuf hclient hget hcompletes
      haccept hsend hevents hlisteners hclients hconfig =>
    refine ⟨by rw [hlisteners, if_neg hne], findClient_congr hs' fun i c hc => ?_⟩
    obtain ⟨index, hfree, hslots, -, -⟩ := u.server.addClient_spec (.new addr buffers'')
    rw [hclients, hslots]
    split_ifs with hi
    · constructor
      · intro heq
        cases heq
        exact absurd hc.symm hne
      · intro heq
        subst hi
        exact absurd heq (hfree c)
    · rfl

end Receive

end ServerUpdate

namespace ServerRun

open Server

variable [Rkyv P] {u u' : ServerUpdate P} {l : ServerStep P}

/-- Sending a packet sets the slot of the client. -/
theorem send_shrinks {clientAddr : SocketAddr} {packet : P.Server} {s s' : Server} {env env' : Env}
    {result : Option (IoResult PacketId)}
    (h : s.send clientAddr packet env = .ok (result, s', env')) :
    s' = s ∨ ∃ index client buffers, s.findClient clientAddr = some (index, client) ∧
      client.buffers.Step clientAddr buffers ∧
      s' = s.setClient index (some { client with buffers }) := by
  unfold Server.send at h
  cases hfind : s.findClient clientAddr with
  | none =>
    rw [hfind] at h
    cases h
    exact Or.inl rfl
  | some found =>
    obtain ⟨index, client⟩ := found
    rw [hfind] at h
    dsimp only at h
    cases hsend : client.buffers.send (Rkyv.serializeServer (.user packet))
        s.config.connection.backgroundSerializationThreshold clientAddr env with
    | error abort => simp [hsend, bind, Except.bind] at h
    | ok sent =>
      obtain ⟨sent, buffers, env''⟩ := sent
      simp only [hsend, bind, Except.bind, pure, Except.pure] at h
      cases h
      exact Or.inr ⟨index, client, buffers, rfl, .send hsend, rfl⟩

/-- Only a datagram adds a client. -/
theorem step_shrinks_or_adds (hs : u.server.UniqueAddrs) (h : step u l = some u') :
    u.server.Shrinks u'.server ∨ ∃ addr, u.server.Adds addr u'.server := by
  have hsame : ∀ v : ServerUpdate P, v.server = u.server → u.server.Shrinks v.server := by
    intro v hv
    rw [hv]
    exact .of_clients rfl fun a ha => Or.inl ha
  cases l with
  | call env =>
    cases h
    exact Or.inl (hsame _ rfl)
  | updateBuffers =>
    cases h
    obtain ⟨new, -, hslots, hlisteners, -⟩ := u.updateBuffers_spec
    exact Or.inl (.of_visitsSlots hslots hlisteners)
  | datagram handler clientAddr buf =>
    rw [step, toOption_eq_some] at h
    rcases (ServerUpdate.handled h).shrinks_or_adds hs with hshrinks | hadds
    · exact Or.inl hshrinks
    · exact Or.inr ⟨clientAddr, hadds⟩
  | recvError error =>
    cases h
    exact Or.inl (hsame _ rfl)
  | sendPings =>
    cases h
    obtain ⟨new, -, hslots, hlisteners, -⟩ := u.sendPings_spec
    exact Or.inl (.of_visitsSlots hslots hlisteners)
  | send clientAddr packet =>
    simp only [step, Option.bind_eq_bind, Option.bind_eq_some_iff] at h
    obtain ⟨⟨result, s', env'⟩, hsend, heq⟩ := h
    cases heq
    rw [toOption_eq_some] at hsend
    rcases send_shrinks hsend with rfl | ⟨index, client, buffers, hfind, -, rfl⟩
    · exact Or.inl (hsame _ rfl)
    · exact Or.inl (.setClient (findClient_eq_some hfind).1 rfl)
  | unlisten clientAddr =>
    cases h
    refine Or.inl ?_
    dsimp only
    unfold Server.unlisten
    split_ifs
    · refine .of_clients rfl fun a ha => Or.inl ?_
      dsimp only at ha
      rw [SortedMap.get?_erase] at ha
      split_ifs at ha with heq
      · cases ha
      · exact ha
    · exact hsame u rfl
    · exact hsame u rfl
  | unlistenAll =>
    cases h
    exact Or.inl (.of_clients rfl fun a ha => by cases ha)

/-- Every step keeps the addresses unique. -/
theorem step_uniqueAddrs (hs : u.server.UniqueAddrs) (h : step u l = some u') :
    u'.server.UniqueAddrs := by
  rcases step_shrinks_or_adds hs h with hshrinks | ⟨addr, hadds⟩
  · exact hshrinks.uniqueAddrs hs
  · exact hadds.uniqueAddrs hs

/-- Every step keeps the slots. -/
theorem step_keepsSlots (hs : u.server.UniqueAddrs) (h : step u l = some u') :
    u.server.KeepsSlots u'.server := by
  rcases step_shrinks_or_adds hs h with hshrinks | ⟨addr, hadds⟩
  · exact hshrinks.keepsSlots hs
  · exact hadds.keepsSlots hs

/-- The addresses are unique in every run. -/
theorem Run.uniqueAddrs (hrun : Run u u') (hs : u.server.UniqueAddrs) : u'.server.UniqueAddrs :=
  Lts.GuardedRun.invariant (M := system P) (I := fun v => v.server.UniqueAddrs)
    (fun _ _ _ hs _ h => step_uniqueAddrs hs h) hrun hs

/-- A client keeps its slot as long as it stays connected. -/
theorem findClient_index {addr : SocketAddr} {i j : ℕ} {c d : ClientConnection}
    (hs : u.server.UniqueAddrs)
    (hrun : (system P).GuardedRun (fun v _ => (v.server.findClient addr).isSome = true) u u')
    (hi : u.server.findClient addr = some (i, c)) (hj : u'.server.findClient addr = some (j, d)) :
    i = j := by
  have hinv := hrun.invariant
    (I := fun v => v.server.UniqueAddrs ∧ ∀ k e, v.server.findClient addr = some (k, e) → i = k)
    (by
      rintro v l w ⟨hv, hslot⟩ hconnected hstep
      refine ⟨step_uniqueAddrs hv hstep, fun k e hk => ?_⟩
      obtain ⟨⟨k', e'⟩, hk'⟩ := Option.isSome_iff_exists.mp hconnected
      obtain ⟨hget, haddr⟩ := findClient_eq_some hk
      obtain ⟨hget', haddr'⟩ := findClient_eq_some hk'
      rw [hslot k' e' hk']
      exact (step_keepsSlots hv hstep).client k' k e' e hget' hget (haddr'.trans haddr.symm))
    ⟨hs, fun k e hk => by
      rw [hi] at hk
      cases hk
      rfl⟩
  exact hinv.2 j d hj

/-- **The address book of a server.**  In every state of every run an address is in at most one
place; as long as a client is connected it keeps its slot, and its slot is not given to another one;
and a datagram changes nothing about any other address. -/
theorem address_book {config : ServerConfig} {env : Env} (hrun : Run (init config env) u) :
    (∀ addr, u.server.occurrences addr ≤ 1) ∧
      (∀ addr i j c d u', (system P).GuardedRun
          (fun v _ => (v.server.findClient addr).isSome = true) u u' →
        u.server.findClient addr = some (i, c) → u'.server.findClient addr = some (j, d) → i = j) ∧
      (∀ l u', step u l = some u' → u.server.KeepsSlots u'.server) ∧
      ∀ handler addr buf u', step u (.datagram handler addr buf) = some u' →
        ∀ a ≠ addr, u.server.SameEntry a u'.server := by
  have hs := hrun.uniqueAddrs (uniqueAddrs_host config)
  refine ⟨occurrences_le_one hs, ?_, ?_, ?_⟩
  · intro addr i j c d u' hrun' hi hj
    exact findClient_index hs hrun' hi hj
  · intro l u' hstep
    exact step_keepsSlots hs hstep
  · intro handler addr buf u' hstep a hne
    have hs' := step_uniqueAddrs hs hstep
    rw [step, toOption_eq_some] at hstep
    exact (ServerUpdate.handled hstep).sameEntry hs' hne

/-- A client asks for the version and connects. -/
theorem address_book_connected :
    ∃ u : ServerUpdate DefaultPackets, Run (init .default (.accepting 0)) u ∧
      (u.server.findClient 5).isSome = true ∧ u.server.occurrences 5 ≤ 1 := by
  obtain ⟨u, hrun, hconnected⟩ := Lts.exists_guardedRun (system DefaultPackets) (fun _ _ => True)
    (fun _ _ => true) (init .default (.accepting 0))
    [.datagram .default 5 [], .datagram .default 5 (partDatagram true (.replicate 9) 0 [1])]
    (fun u => (u.server.findClient 5).isSome) (fun _ _ _ _ => trivial) (by decide +kernel)
  exact ⟨u, hrun, hconnected, (address_book hrun).1 5⟩

end ServerRun

end Ultinet
