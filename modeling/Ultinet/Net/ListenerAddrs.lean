import Ultinet.Net.ClientSystem

/-!
# The addresses a client listens to

The listeners of a client are found by the addresses of their servers, so the source asks that there
are no duplicates among these addresses.  Only `listen`, `query` and `connect` add an address, each
of them at most one that is not there yet (`ClientRun.Adds`); every other operation drops some
addresses, at most.

`step_addrs` says this of one operation, and `addrs_nodup` concludes that in every run the addresses
are distinct.
-/

namespace Ultinet

variable {P : Packets}

namespace Client

/-- The addresses of the servers that the client listens to. -/
def addrs (c : Client P) : List SocketAddr :=
  c.listeners.map ServerListener.serverAddr

/-- The client would add a listener for a server: there is none yet, and the first version query to
the server does not fail. -/
def Adds (c : Client P) (serverAddr : SocketAddr) (env : Env) : Prop :=
  serverAddr ∉ c.addrs ∧ ∀ error, env.answer env.attempts (serverAddr, []) ≠ .failed error

/-- An operation either adds the address of a server or keeps the addresses. -/
def MayAdd (c c' : Client P) (serverAddr : SocketAddr) (env : Env) : Prop :=
  (c.Adds serverAddr env ∧ c'.addrs = c.addrs ++ [serverAddr]) ∨
    (¬c.Adds serverAddr env ∧ c'.addrs = c.addrs)

/-! ## Looking for a listener -/

/-- A listener is found for exactly the addresses that the client listens to. -/
theorem position_eq_none {c : Client P} {serverAddr : SocketAddr} :
    c.position serverAddr = none ↔ serverAddr ∉ c.addrs := by
  unfold position addrs
  rw [Vec.position_eq_none, List.mem_map]
  constructor
  · rintro hnone ⟨l, hl, haddr⟩
    exact hnone l hl (decide_eq_true haddr)
  · intro hnone l hl haddr
    exact hnone ⟨l, hl, of_decide_eq_true haddr⟩

/-- An address that was found is one that the client listens to. -/
theorem mem_addrs_of_position {c : Client P} {serverAddr : SocketAddr}
    {found : ℕ × ServerListener P} (h : c.position serverAddr = some found) :
    serverAddr ∈ c.addrs := by
  by_contra hnone
  rw [position_eq_none.mpr hnone] at h
  cases h

/-- Replacing a listener by one of the same server keeps the addresses. -/
theorem addrs_set {c : Client P} {index : ℕ} {l l' : ServerListener P}
    (hget : c.listeners[index]? = some l) (haddr : l'.serverAddr = l.serverAddr) :
    (c.listeners.set index l').map ServerListener.serverAddr = c.addrs :=
  Vec.map_set_of_key hget haddr

/-- What looking for a listener and adding it does to the addresses. -/
theorem getOrAddListener_mayAdd (c : Client P) (serverAddr : SocketAddr) (env : Env) :
    c.MayAdd (c.getOrAddListener serverAddr env).2.1 serverAddr env := by
  unfold getOrAddListener
  cases hposition : c.position serverAddr with
  | some found =>
    exact Or.inr ⟨fun hadds => hadds.1 (mem_addrs_of_position hposition), rfl⟩
  | none =>
    have hnone : serverAddr ∉ c.addrs := position_eq_none.mp hposition
    unfold ServerListener.new ServerListener.pendingVersionQuery sendVersionQuery
    rcases env.send_cases serverAddr [] with ⟨hsend, hanswer⟩ | ⟨hsend, hanswer⟩ |
      ⟨error, hsend, hanswer⟩
    · rw [hsend]
      refine Or.inl ⟨⟨hnone, fun error => ?_⟩, ?_⟩
      · rw [hanswer]
        intro h
        cases h
      · simp [addrs]
    · rw [hsend]
      refine Or.inl ⟨⟨hnone, fun error => ?_⟩, ?_⟩
      · rw [hanswer]
        intro h
        cases h
      · simp [addrs]
    · rw [hsend]
      exact Or.inr ⟨fun hadds => hadds.2 error hanswer, rfl⟩

/-! ## The operations -/

theorem listen_mayAdd (c : Client P) (serverAddr : SocketAddr) (env : Env) :
    c.MayAdd (c.listen serverAddr env).2.1 serverAddr env := by
  have h := c.getOrAddListener_mayAdd serverAddr env
  unfold listen
  split <;> rename_i heq <;> rw [heq] at h <;> exact h

/-- Forgetting a server drops addresses. -/
theorem forget_addrs (c : Client P) (serverAddr : SocketAddr) :
    (c.forget serverAddr).2.addrs.Subperm c.addrs := by
  unfold forget
  split
  · exact List.Subperm.refl _
  · split_ifs
    · exact List.Subperm.refl _
    · exact Vec.swapRemove_map_subperm ServerListener.serverAddr c.listeners _

/-- Forgetting all servers drops addresses. -/
theorem forgetAll_addrs {c c' : Client P} (h : c.forgetAll = .ok c') :
    c'.addrs.Subperm c.addrs := by
  unfold forgetAll at h
  split_ifs at h
  · cases h
    exact List.nil_subperm
  · split at h
    · cases h
    · rename_i l ls hlisteners
      cases h
      unfold addrs
      rw [hlisteners, List.map_cons, List.map_cons, List.map_nil]
      exact List.singleton_subperm_iff.mpr List.mem_cons_self

/-- Refreshing keeps the addresses. -/
theorem refreshAll_addrs (c : Client P) (env : Env) : (c.refreshAll env).2.1.addrs = c.addrs :=
  refreshListeners_serverAddr c.listeners env

section Sending

variable [Rkyv P]

/-- What a query does to the addresses. -/
theorem query_mayAdd {c c' : Client P} {serverAddr : SocketAddr} {query : P.Query} {env env' : Env}
    {result : Except QueryError PacketId}
    (h : c.query serverAddr query env = .ok (result, c', env')) : c.MayAdd c' serverAddr env := by
  cases query_outcome h with
  | refused error => exact c.getOrAddListener_mayAdd serverAddr env
  | sends hposition hsends =>
    exact Or.inr ⟨fun hadds => hadds.1 (mem_addrs_of_position hposition),
      addrs_set hsends.get hsends.evolves.serverAddr⟩

/-- What connecting does to the addresses. -/
theorem connect_mayAdd {c c' : Client P} {serverAddr : SocketAddr} {connect : P.Connect}
    {env env' : Env} {result : Except ConnectError PacketId} (hstate : c.state = .disconnected)
    (h : c.connect (.ok serverAddr) connect env = .ok (result, c', env')) :
    c.MayAdd c' serverAddr env := by
  cases connect_outcome h with
  | notDisconnected _ hne => exact absurd hstate hne
  | refused => exact c.getOrAddListener_mayAdd serverAddr env
  | failed _ hposition hsends | sends _ hposition hsends =>
    exact Or.inr ⟨fun hadds => hadds.1 (mem_addrs_of_position hposition),
      addrs_set hsends.get hsends.evolves.serverAddr⟩

/-- Connecting while not disconnected, or with a socket that has no peer, does nothing. -/
theorem connect_eq_self {c c' : Client P} {peer : IoResult SocketAddr} {connect : P.Connect}
    {env env' : Env} {result : Except ConnectError PacketId}
    (hnone : c.state = .disconnected → ∃ error, peer = .error error)
    (h : c.connect peer connect env = .ok (result, c', env')) : c' = c := by
  cases connect_outcome h with
  | notDisconnected | noPeer => rfl
  | refused hstate | failed hstate | sends hstate =>
    obtain ⟨error, heq⟩ := hnone hstate
    cases heq

/-- Connecting drops no address. -/
theorem connect_subset {c c' : Client P} {peer : IoResult SocketAddr} {connect : P.Connect}
    {env env' : Env} {result : Except ConnectError PacketId}
    (h : c.connect peer connect env = .ok (result, c', env')) : c.addrs ⊆ c'.addrs := by
  by_cases hstate : c.state = .disconnected
  · cases peer with
    | error error =>
      rw [connect_eq_self (fun _ => ⟨error, rfl⟩) h]
      exact List.Subset.refl _
    | ok serverAddr =>
      rcases connect_mayAdd hstate h with ⟨-, haddrs⟩ | ⟨-, haddrs⟩
      · rw [haddrs]
        exact List.subset_append_left _ _
      · rw [haddrs]
        exact List.Subset.refl _
  · rw [connect_eq_self (fun hd => absurd hd hstate) h]
    exact List.Subset.refl _

/-- Sending to the connected server drops addresses. -/
theorem sendConnected_addrs {c c' : Client P} {packet : ClientConnectionPacket P}
    {state : ClientState} {env env' : Env} {result : Except SendError PacketId}
    (h : c.sendConnected packet state env = .ok (result, c', env')) :
    c'.addrs.Subperm c.addrs := by
  cases sendConnected_outcome h with
  | notConnected => exact List.Subperm.refl _
  | failed _ hsends =>
    rw [← addrs_set hsends.get hsends.evolves.serverAddr]
    exact Vec.swapRemove_map_subperm ServerListener.serverAddr _ 0
  | sends _ hsends =>
    rw [← addrs_set hsends.get hsends.evolves.serverAddr]
    exact List.Subperm.refl _

end Sending

end Client

/-! ## An update -/

namespace ClientUpdate

/-- A listener that is kept stays the one of its server. -/
theorem visitListener_serverAddr {config : ClientConfig} {pass : Pass P} {l l' : ServerListener P}
    (hkept : (visitListener config pass l).2 = some l') : l'.serverAddr = l.serverAddr := by
  unfold visitListener at hkept
  rcases l.update_cases (if pass.connected then some pass.state else none) config pass.env
    with ⟨l'', env', heq, haddr, -⟩ | ⟨error, env', heq, -⟩ | ⟨error, env', heq, -⟩
  · rw [heq] at hkept
    cases hkept
    exact haddr
  · rw [heq] at hkept
    cases hkept
  · rw [heq] at hkept
    cases hkept

/-- The pass over some listeners drops addresses. -/
theorem retainListeners_addrs (config : ClientConfig) (pass : Pass P) (ls : List (ServerListener P)) :
    ((Vec.retainMut (visitListener config) pass ls).2.map ServerListener.serverAddr).Sublist
      (ls.map ServerListener.serverAddr) :=
  Vec.retainMut_map_sublist ServerListener.serverAddr
    (fun _ _ _ => visitListener_serverAddr) pass ls

/-- The pass over the listeners drops addresses. -/
theorem updateListeners_addrs (u : ClientUpdate P) :
    u.updateListeners.client.addrs.Sublist u.client.addrs :=
  retainListeners_addrs u.client.config _ u.client.listeners

/-- The timeout pass drops addresses. -/
theorem timeoutConnection_addrs (u : ClientUpdate P) :
    u.timeoutConnection.client.addrs.Sublist u.client.addrs := by
  unfold Client.addrs
  rw [u.timeoutConnection_eq.1]
  exact List.filter_sublist.map ServerListener.serverAddr

section Receive

variable [Rkyv P] {handler : ClientHandler P}

/-- A datagram keeps the addresses. -/
theorem handleDatagram_addrs {u u' : ClientUpdate P} {serverAddr : SocketAddr} {buf : Bytes}
    (h : u.handleDatagram handler serverAddr buf = .ok u') :
    u'.client.addrs = u.client.addrs := by
  unfold handleDatagram at h
  cases hposition : u.client.position serverAddr with
  | none =>
    rw [hposition] at h
    cases h
    rfl
  | some found =>
    obtain ⟨index, listener⟩ := found
    rw [hposition] at h
    obtain ⟨hget, -⟩ := Client.position_eq_some hposition
    dsimp only at h
    split at h
    · rename_i lastVersionQuery hstate
      cases h
      obtain ⟨-, listener', hevolves, hset⟩ := handleVersion_cases handler buf
        (by rw [hstate]; rfl) hget
      unfold Client.addrs
      rw [hset]
      exact Client.addrs_set hget hevolves.serverAddr
    · rename_i buffers lastInteraction hstate
      obtain ⟨listener', hevolves, -, hset, -⟩ := handleCompatible_cases hstate h
      unfold Client.addrs
      rw [hset]
      exact Client.addrs_set hget hevolves.serverAddr
    · cases h
      rfl

/-- The receive loop keeps the addresses. -/
theorem receive_addrs {u u' : ClientUpdate P} {incoming : Incoming}
    (h : u.receive handler incoming = .ok u') : u'.client.addrs = u.client.addrs := by
  obtain ⟨v, hfold, rfl⟩ := receive_eq_ok h
  rw [client_reported]
  refine Vec.foldlM_rule (R := fun u v : ClientUpdate P => v.client.addrs = u.client.addrs)
    (fun u => rfl) (fun u v w h h' => ?_) (fun u v datagram _ hv => ?_) hfold
  · exact h'.trans h
  · exact handleDatagram_addrs hv

end Receive

end ClientUpdate

/-- An update drops addresses. -/
theorem Client.update_addrs [Rkyv P] {c : Client P} {handler : ClientHandler P}
    {incoming : Incoming} {env : Env} {u : ClientUpdate P}
    (h : c.update handler incoming env = .ok u) : u.client.addrs.Sublist c.addrs := by
  obtain ⟨v, hreceive, rfl⟩ := Client.update_eq_ok h
  have hpass := ClientUpdate.updateListeners_addrs { client := c, env, events := [] }
  rw [← ClientUpdate.receive_addrs hreceive] at hpass
  exact v.timeoutConnection_addrs.trans hpass

/-! ## Runs -/

namespace ClientRun

/-- An operation would add a listener for a server. -/
def Adds (r : ClientRun P) (serverAddr : SocketAddr) : ClientOp P → Prop
  | .listen addr env => addr = serverAddr ∧ r.client.Adds serverAddr env.start
  | .query addr _ env => addr = serverAddr ∧ r.client.Adds serverAddr env.start
  | .connect (.ok addr) _ env =>
      addr = serverAddr ∧ r.client.state = .disconnected ∧ r.client.Adds serverAddr env.start
  | _ => False

variable [Rkyv P] {r r' : ClientRun P} {op : ClientOp P}

/-- **What a step does to the addresses.**  It adds the one that it would add; or there is none, and
it may drop some. -/
theorem step_addrs (h : r.step op = some r') :
    (∃ serverAddr, r.Adds serverAddr op ∧ r'.client.addrs = r.client.addrs ++ [serverAddr]) ∨
      ((∀ serverAddr, ¬r.Adds serverAddr op) ∧ r'.client.addrs.Subperm r.client.addrs) := by
  -- an operation that names one server
  have hmayAdd : ∀ {serverAddr : SocketAddr} {env : Env} {c' : Client P},
      r.client.MayAdd c' serverAddr env →
      (∀ addr, r.Adds addr op ↔ serverAddr = addr ∧ r.client.Adds addr env) →
      (∃ addr, r.Adds addr op ∧ c'.addrs = r.client.addrs ++ [addr]) ∨
        ((∀ addr, ¬r.Adds addr op) ∧ c'.addrs.Subperm r.client.addrs) := by
    intro serverAddr env c' hmay hadds
    rcases hmay with ⟨hadd, haddrs⟩ | ⟨hnone, haddrs⟩
    · exact Or.inl ⟨serverAddr, (hadds serverAddr).mpr ⟨rfl, hadd⟩, haddrs⟩
    · refine Or.inr ⟨fun addr hadd => ?_, haddrs ▸ List.Subperm.refl _⟩
      obtain ⟨rfl, hadd⟩ := (hadds addr).mp hadd
      exact hnone hadd
  cases op with
  | listen serverAddr env =>
    cases h
    exact hmayAdd (r.client.listen_mayAdd serverAddr env.start) fun _ => Iff.rfl
  | query serverAddr query env =>
    obtain ⟨⟨result, client, env'⟩, hquery, hr⟩ := exists_of_bind_toOption h
    cases hr
    exact hmayAdd (Client.query_mayAdd hquery) fun _ => Iff.rfl
  | connect peer connect env =>
    obtain ⟨⟨result, client, env'⟩, hconnect, hr⟩ := exists_of_bind_toOption h
    cases hr
    cases peer with
    | error error =>
      have hself := Client.connect_eq_self (fun _ => ⟨error, rfl⟩) hconnect
      exact Or.inr ⟨fun _ hadds => hadds, hself ▸ List.Subperm.refl _⟩
    | ok serverAddr =>
      by_cases hstate : r.client.state = .disconnected
      · exact hmayAdd (Client.connect_mayAdd hstate hconnect) fun addr =>
          and_congr_right fun haddr => by simp [hstate]
      · have hself := Client.connect_eq_self (fun hd => absurd hd hstate) hconnect
        exact Or.inr ⟨fun _ hadds => hstate hadds.2.1, hself ▸ List.Subperm.refl _⟩
  | disconnect disconnect env =>
    obtain ⟨⟨result, client, env'⟩, hdisconnect, hr⟩ := exists_of_bind_toOption h
    cases hr
    exact Or.inr ⟨fun _ hadds => hadds, Client.sendConnected_addrs hdisconnect⟩
  | send packet env =>
    obtain ⟨⟨result, client, env'⟩, hsend, hr⟩ := exists_of_bind_toOption h
    cases hr
    exact Or.inr ⟨fun _ hadds => hadds, Client.sendConnected_addrs hsend⟩
  | forget serverAddr =>
    cases h
    exact Or.inr ⟨fun _ hadds => hadds, r.client.forget_addrs serverAddr⟩
  | forgetAll =>
    obtain ⟨client, hforget, hr⟩ := exists_of_bind_toOption h
    cases hr
    exact Or.inr ⟨fun _ hadds => hadds, Client.forgetAll_addrs hforget⟩
  | refreshAll env =>
    cases h
    refine Or.inr ⟨fun _ hadds => hadds, ?_⟩
    exact (r.client.refreshAll_addrs env.start) ▸ List.Subperm.refl _
  | update handler incoming env =>
    obtain ⟨u, hupdate, rfl⟩ := step_update h
    exact Or.inr ⟨fun _ hadds => hadds, (Client.update_addrs hupdate).subperm⟩

omit [Rkyv P] in
/-- What would be added is not there yet. -/
theorem Adds.not_mem {serverAddr : SocketAddr} (h : r.Adds serverAddr op) :
    serverAddr ∉ r.client.addrs := by
  unfold Adds at h
  split at h
  · exact h.2.1
  · exact h.2.1
  · exact h.2.2.1
  · exact h.elim

omit [Rkyv P] in
/-- At most one address would be added. -/
theorem Adds.unique {serverAddr serverAddr' : SocketAddr} (h : r.Adds serverAddr op)
    (h' : r.Adds serverAddr' op) : serverAddr' = serverAddr := by
  cases op with
  | listen addr env => exact h'.1.symm.trans h.1
  | query addr query env => exact h'.1.symm.trans h.1
  | connect peer connect env =>
    cases peer with
    | error error => exact h.elim
    | ok addr => exact h'.1.symm.trans h.1
  | _ => exact h.elim

/-- **Step lemma.**  A step keeps the addresses distinct. -/
theorem addrs_nodup_step (hnodup : r.client.addrs.Nodup) (h : r.step op = some r') :
    r'.client.addrs.Nodup := by
  rcases step_addrs h with ⟨serverAddr, hadds, haddrs⟩ | ⟨-, hsubperm⟩
  · rw [haddrs]
    exact List.nodup_append.mpr ⟨hnodup, List.nodup_singleton serverAddr, fun a ha b hb => by
      rintro rfl
      rw [List.mem_singleton] at hb
      exact hadds.not_mem (hb ▸ ha)⟩
  · obtain ⟨addrs, hperm, hsublist⟩ := hsubperm
    exact hperm.nodup_iff.mp (hnodup.sublist hsublist)

/-- **The client has at most one listener for every server**, in every run. -/
theorem addrs_nodup {config : ClientConfig} {ok : ClientRun P → ClientOp P → Prop}
    (hrun : (system P).GuardedRun ok (init config) r) : r.client.addrs.Nodup :=
  hrun.invariant (I := fun r => r.client.addrs.Nodup)
    (fun _ _ _ hnodup _ hstep => addrs_nodup_step hnodup hstep) List.nodup_nil

/-- A client that is asked again to listen to a server, and again after forgetting it. -/
theorem addrs_nodup_again :
    ∃ r : ClientRun DefaultPackets,
      (system DefaultPackets).GuardedRun (fun _ _ => True) (init .default) r ∧
      r.client.addrs = [3, 2, 1] ∧ r.client.addrs.Nodup := by
  obtain ⟨r, hrun, hr⟩ := Lts.exists_guardedRun (system DefaultPackets) (fun _ _ => True)
    (fun _ _ => true) (init .default)
    [.listen 1 (.accepting 0), .listen 2 (.blocked 0), .query 1 () (.accepting 1),
      .listen 3 (.accepting 1), .forget 1, .listen 2 (.accepting 2), .listen 1 (.accepting 3)]
    (fun r => decide (r.client.addrs = [3, 2, 1])) (fun _ _ _ _ => trivial) (by decide +kernel)
  exact ⟨r, hrun, of_decide_eq_true hr, addrs_nodup hrun⟩

end ClientRun

end Ultinet
