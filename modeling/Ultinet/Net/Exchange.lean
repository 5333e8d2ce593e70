import Ultinet.Lib.Handshake
import Ultinet.Net.Client

/-!
# The packets of a client and a server

What a client and a server do with whole packets, whatever datagrams these take: `ClientMove` and
`ServerMove` say how the state of the connection and the slot of the client change with the packets
that are issued and reassembled.

With every `Connect` and every `Reject` reassembled at most once this is a handshake (`Coupled`), so a
client that is connected has a slot (`Coupled.member`).
-/

namespace Ultinet

variable {P : Packets}

/-! ## Kinds of packets -/

/-- A request to be connected. -/
def ClientConnectionPacket.isConnect : ClientConnectionPacket P → Bool
  | .connect _ => true
  | _ => false

/-- The client leaves. -/
def ClientConnectionPacket.isDisconnect : ClientConnectionPacket P → Bool
  | .disconnect _ => true
  | _ => false

/-- The request is granted. -/
def ServerConnectionPacket.isAccept : ServerConnectionPacket P → Bool
  | .accept _ => true
  | _ => false

/-- The request is refused. -/
def ServerConnectionPacket.isReject : ServerConnectionPacket P → Bool
  | .reject _ => true
  | _ => false

/-- The server throws the client out. -/
def ServerConnectionPacket.isKick : ServerConnectionPacket P → Bool
  | .kick _ => true
  | _ => false

/-- A packet as it is sent: its id and its serialized payload. -/
abbrev Issued := PacketId × Bytes

section Kinds

variable (P) [Rkyv P]

/-- A payload is valid, and a packet of some kind. -/
def readsClient (kind : ClientConnectionPacket P → Bool) (packet : Issued) : Bool :=
  match Rkyv.checkClient packet.2 with
  | .ok (.ok p) => kind p
  | _ => false

/-- A payload is valid, and a packet of some kind. -/
def readsServer (kind : ServerConnectionPacket P → Bool) (packet : Issued) : Bool :=
  match Rkyv.checkServer packet.2 with
  | .ok (.ok p) => kind p
  | _ => false

/-- The payload reads as a `Connect`. -/
def connects : Issued → Bool := readsClient P ClientConnectionPacket.isConnect

/-- The payload reads as a `Disconnect`. -/
def disconnects : Issued → Bool := readsClient P ClientConnectionPacket.isDisconnect

/-- The payload reads as an `Accept`. -/
def accepts : Issued → Bool := readsServer P ServerConnectionPacket.isAccept

/-- The payload reads as a `Reject`. -/
def rejects : Issued → Bool := readsServer P ServerConnectionPacket.isReject

/-- The payload reads as a `Kick`. -/
def kicks : Issued → Bool := readsServer P ServerConnectionPacket.isKick

variable {P} {packet : Issued}

/-- A payload reads as one packet only, so it is not of two kinds that exclude each other. -/
theorem readsClient_of_disjoint {kind kind' : ClientConnectionPacket P → Bool}
    (hkinds : ∀ p, kind p = true → kind' p = false) (h : readsClient P kind packet = true) :
    readsClient P kind' packet = false := by
  unfold readsClient at h ⊢
  split at h
  · exact hkinds _ h
  · cases h

/-- The same of what a server sends. -/
theorem readsServer_of_disjoint {kind kind' : ServerConnectionPacket P → Bool}
    (hkinds : ∀ p, kind p = true → kind' p = false) (h : readsServer P kind packet = true) :
    readsServer P kind' packet = false := by
  unfold readsServer at h ⊢
  split at h
  · exact hkinds _ h
  · cases h

/-- A `Connect` is no `Disconnect`. -/
theorem not_disconnects_of_connects (h : connects P packet = true) :
    disconnects P packet = false :=
  readsClient_of_disjoint (by rintro (_ | _ | _ | _) <;> simp [ClientConnectionPacket.isConnect,
    ClientConnectionPacket.isDisconnect]) h

/-- An `Accept` is no `Reject`. -/
theorem not_rejects_of_accepts (h : accepts P packet = true) : rejects P packet = false :=
  readsServer_of_disjoint (by rintro (_ | _ | _ | _ | _) <;> simp [ServerConnectionPacket.isAccept,
    ServerConnectionPacket.isReject]) h

/-- An `Accept` is no `Kick`. -/
theorem not_kicks_of_accepts (h : accepts P packet = true) : kicks P packet = false :=
  readsServer_of_disjoint (by rintro (_ | _ | _ | _ | _) <;> simp [ServerConnectionPacket.isAccept,
    ServerConnectionPacket.isKick]) h

/-- A `Reject` is no `Kick`. -/
theorem not_kicks_of_rejects (h : rejects P packet = true) : kicks P packet = false :=
  readsServer_of_disjoint (by rintro (_ | _ | _ | _ | _) <;> simp [ServerConnectionPacket.isReject,
    ServerConnectionPacket.isKick]) h

end Kinds

/-- What is serialized is valid, and it is what was serialized. -/
class LawfulRkyv (P : Packets) [Rkyv P] : Prop where
  checkServer_serialize : ∀ packet : ServerConnectionPacket P,
    Rkyv.checkServer (Rkyv.serializeServer packet).flatten = .ok (.ok packet)
  checkClient_serialize : ∀ packet : ClientConnectionPacket P,
    Rkyv.checkClient (Rkyv.serializeClient packet).flatten = .ok (.ok packet)

/-- The tag of a packet without content reads as that packet. -/
instance : LawfulRkyv DefaultPackets where
  checkServer_serialize := by rintro (_ | _ | _ | _ | packet) <;> first | rfl | cases packet
  checkClient_serialize := by rintro (_ | _ | _ | packet) <;> first | rfl | cases packet

/-! ## Moves -/

/-- The state of the connection after a packet of the server was reassembled. -/
def ClientState.after (state : ClientState) :
    Exec (Except ValidationError (ServerConnectionPacket P)) → ClientState
  | .ok (.ok (.accept _)) => if state = .connecting then .connected else state
  | .ok (.ok (.reject _)) => if state = .connecting then .disconnected else state
  | .ok (.ok (.kick _)) => if state = .connected then .disconnected else state
  | .ok (.ok (.status _)) | .ok (.ok (.user _)) | .ok (.error _) | .error _ => state

section Moves

variable (P) [Rkyv P]

/-- What a client can do: the state of the connection before, the packet that is reassembled if there
is one, the state after, and the packets that are issued. -/
inductive ClientMove : ClientState → Option Issued → ClientState → List Issued → Prop
  | issue (state : ClientState) (issued : List Issued)
      (hissued : ∀ packet ∈ issued, connects P packet = false ∧ disconnects P packet = false) :
      ClientMove state none state issued
  | connect (packet : Issued) (hpacket : connects P packet = true) :
      ClientMove .disconnected none .connecting [packet]
  | disconnect (packet : Issued) (hpacket : connects P packet = false) :
      ClientMove .connected none .disconnecting [packet]
  | receive (state : ClientState) (packet : Issued) :
      ClientMove state (some packet) (state.after (Rkyv.checkServer packet.2 :
        Exec (Except ValidationError (ServerConnectionPacket P)))) []

/-- No packet of these has to do with the connection. -/
def Unrelated (issued : List Issued) : Prop :=
  ∀ packet ∈ issued, accepts P packet = false ∧ rejects P packet = false ∧ kicks P packet = false

/-- What a server can do: whether the client has a slot, the packet that is reassembled if there is
one, whether the client has a slot afterwards, and the packets that are issued. -/
inductive ServerMove : Bool → Option Issued → Bool → List Issued → Prop
  | issue (member : Bool) (issued : List Issued) (hissued : Unrelated P issued) :
      ServerMove member none member issued
  | answer (member : Bool) (packet : Issued) (issued : List Issued)
      (hpacket : connects P packet = false) (hissued : Unrelated P issued) :
      ServerMove member (some packet) member issued
  | leave (packet : Issued)
      (hpacket : connects P packet = true ∨ disconnects P packet = true) :
      ServerMove true (some packet) false []
  | accept (packet answer : Issued) (hpacket : connects P packet = true)
      (hanswer : accepts P answer = true) : ServerMove false (some packet) true [answer]
  | reject (packet answer : Issued) (hpacket : connects P packet = true)
      (hanswer : rejects P answer = true) : ServerMove false (some packet) false [answer]

end Moves

/-! ## The handshake -/

/-- The packets that a client and a server issued, and the ones they reassembled. -/
structure Exchange where
  byClient : List Issued
  byServer : List Issued
  atClient : List Issued
  atServer : List Issued

/-- The phase of the handshake that a state of the connection stands for. -/
def ClientState.phase : ClientState → Handshake.Phase
  | .disconnected => .idle
  | .connecting => .waiting
  | .connected => .established
  | .disconnecting => .closed

namespace Exchange

/-- Nothing was issued yet. -/
def init : Exchange where
  byClient := []
  byServer := []
  atClient := []
  atServer := []

/-- The client made a move. -/
def clientMoves (x : Exchange) (received : Option Issued) (issued : List Issued) : Exchange :=
  { x with byClient := x.byClient ++ issued, atClient := x.atClient ++ received.toList }

/-- The server made a move. -/
def serverMoves (x : Exchange) (received : Option Issued) (issued : List Issued) : Exchange :=
  { x with byServer := x.byServer ++ issued, atServer := x.atServer ++ received.toList }

section Coupled

variable (P) [Rkyv P]

/-- The handshake that an exchange stands for. -/
def handshake (x : Exchange) (state : ClientState) (member : Bool) : Handshake.State where
  phase := state.phase
  member
  requests := x.byClient.countP (connects P)
  served := x.atServer.countP (connects P)
  grants := x.byServer.countP (accepts P)
  refusals := x.byServer.countP (rejects P)
  refused := x.atClient.countP (rejects P)

/-- The state of the connection and the slot of the client fit the packets so far. -/
structure Coupled (x : Exchange) (state : ClientState) (member : Bool) : Prop where
  served : x.atServer ⊆ x.byClient
  handled : x.atClient ⊆ x.byServer
  servedOnce : (x.atServer.filter (connects P)).Nodup
  refusedOnce : (x.atClient.filter (rejects P)).Nodup
  disconnecting : ∀ packet ∈ x.byClient, disconnects P packet = true → state = .disconnecting
  noKick : ∀ packet ∈ x.byServer, kicks P packet = false
  reachable : Handshake.Reachable (x.handshake P state member)

end Coupled

/-- Something new of a kind is left if everything of the kind came at most once. -/
theorem countP_lt {α : Type} {p : α → Bool} {as bs : List α} {b : α} (hsub : as ⊆ bs)
    (honce : (as.filter p).Nodup) (hmem : b ∈ bs) (hb : p b = true) (hnew : b ∉ as) :
    as.countP p < bs.countP p := by
  have hcons : (b :: as.filter p).Nodup := by
    rw [List.nodup_cons]
    exact ⟨fun hmem' => hnew (List.mem_filter.mp hmem').1, honce⟩
  have hsubset : b :: as.filter p ⊆ bs.filter p := by
    intro a ha
    rcases List.mem_cons.mp ha with rfl | ha
    · exact List.mem_filter.mpr ⟨hmem, hb⟩
    · obtain ⟨hmem', hp⟩ := List.mem_filter.mp ha
      exact List.mem_filter.mpr ⟨hsub hmem', hp⟩
  have hlength := (hcons.subperm hsubset).length_le
  rw [List.countP_eq_length_filter, List.countP_eq_length_filter]
  exact hlength

/-- Adding something new of a kind keeps the elements of the kind distinct. -/
theorem nodup_filter_append {α : Type} {p : α → Bool} {as : List α} {new : Option α}
    (honce : (as.filter p).Nodup) (hnew : ∀ a ∈ new, p a = true → a ∉ as) :
    ((as ++ new.toList).filter p).Nodup := by
  cases new with
  | none => simpa using honce
  | some a =>
    rw [List.filter_append, List.nodup_append]
    refine ⟨honce, (List.nodup_singleton a).filter _, fun b hb c hc hbc => ?_⟩
    obtain ⟨hmem, -⟩ := List.mem_filter.mp hb
    obtain ⟨hmem', hp⟩ := List.mem_filter.mp hc
    have hca : c = a := by simpa using hmem'
    subst hbc hca
    exact hnew b rfl hp hmem

namespace Coupled

variable [Rkyv P] {x : Exchange} {state state' : ClientState} {member member' : Bool}
  {received : Option Issued} {issued : List Issued}

/-- Nothing was issued, so no slot is needed. -/
theorem init : Exchange.init.Coupled P .disconnected false := by
  refine ⟨by simp [Exchange.init], by simp [Exchange.init], by simp [Exchange.init],
    by simp [Exchange.init], by simp [Exchange.init], by simp [Exchange.init], ?_⟩
  exact Relation.ReflTransGen.refl

/-- **A client that is connected has a slot.** -/
theorem member_of_connected (h : x.Coupled P .connected member) : member = true :=
  Handshake.established_member h.reachable rfl

/-- The handshake goes on when the client makes a move. -/
theorem reachable_clientMoves (h : x.Coupled P state member)
    (hmove : ClientMove P state received state' issued)
    (hreceived : ∀ packet ∈ received, packet ∈ x.byServer ∧
      (rejects P packet = true → packet ∉ x.atClient)) :
    Handshake.Reachable ((x.clientMoves received issued).handshake P state' member) := by
  cases hmove with
  | issue _ _ hissued =>
    have hsame : (x.clientMoves none issued).handshake P state member =
        x.handshake P state member := by
      have hzero : issued.countP (connects P) = 0 := by
        rw [List.countP_eq_zero]
        intro packet hpacket
        simp [(hissued packet hpacket).1]
      simp [handshake, clientMoves, List.countP_append, hzero]
    rw [hsame]
    exact h.reachable
  | connect packet hpacket =>
    refine h.reachable.tail ?_
    have hnext : (x.clientMoves none [packet]).handshake P .connecting member =
        { x.handshake P .disconnected member with
          phase := .waiting
          requests := (x.handshake P .disconnected member).requests + 1 } := by
      simp [handshake, clientMoves, ClientState.phase, List.countP_append, hpacket]
    rw [hnext]
    exact .request _ rfl
  | disconnect packet hpacket =>
    refine h.reachable.tail ?_
    have hnext : (x.clientMoves none [packet]).handshake P .disconnecting member =
        { x.handshake P .connected member with phase := .closed } := by
      simp [handshake, clientMoves, ClientState.phase, List.countP_append, hpacket]
    rw [hnext]
    exact .close _ rfl
  | receive _ packet =>
    obtain ⟨hmem, hnew⟩ := hreceived packet rfl
    have hsame : rejects P packet = false →
        (x.clientMoves (some packet) []).handshake P state member = x.handshake P state member := by
      intro hreject
      simp [handshake, clientMoves, List.countP_append, hreject]
    rcases hcheck : (Rkyv.checkServer packet.2 :
        Exec (Except ValidationError (ServerConnectionPacket P))) with abort | error | p
    · rw [ClientState.after, hsame (by simp [rejects, readsServer, hcheck])]
      exact h.reachable
    · rw [ClientState.after, hsame (by simp [rejects, readsServer, hcheck])]
      exact h.reachable
    · cases p with
      | status status =>
        rw [ClientState.after, hsame (by simp [rejects, readsServer, hcheck,
          ServerConnectionPacket.isReject])]
        exact h.reachable
      | user p =>
        rw [ClientState.after, hsame (by simp [rejects, readsServer, hcheck,
          ServerConnectionPacket.isReject])]
        exact h.reachable
      | kick kick =>
        -- servers do not kick
        have hkick := h.noKick packet hmem
        simp [kicks, readsServer, hcheck, ServerConnectionPacket.isKick] at hkick
      | accept accept =>
        have haccept : accepts P packet = true := by
          simp [accepts, readsServer, hcheck, ServerConnectionPacket.isAccept]
        have hgrants : 0 < (x.handshake P state member).grants :=
          List.countP_pos_iff.mpr ⟨packet, hmem, haccept⟩
        have hphase : (state.after (.ok (.ok (.accept accept)) :
            Exec (Except ValidationError (ServerConnectionPacket P)))).phase =
              if state.phase = .waiting then .established else state.phase := by
          cases state <;> rfl
        have hnext : (x.clientMoves (some packet) []).handshake P
            (state.after (.ok (.ok (.accept accept)) :
              Exec (Except ValidationError (ServerConnectionPacket P)))) member =
            { x.handshake P state member with
              phase := if state.phase = .waiting then .established else state.phase } := by
          simp [handshake, clientMoves, List.countP_append, not_rejects_of_accepts haccept, hphase]
        rw [hnext]
        exact h.reachable.tail (.handleGrant _ hgrants)
      | reject reject =>
        have hreject : rejects P packet = true := by
          simp [rejects, readsServer, hcheck, ServerConnectionPacket.isReject]
        have hrefused : (x.handshake P state member).refused <
            (x.handshake P state member).refusals :=
          countP_lt h.handled h.refusedOnce hmem hreject (hnew hreject)
        have hphase : (state.after (.ok (.ok (.reject reject)) :
            Exec (Except ValidationError (ServerConnectionPacket P)))).phase =
              if state.phase = .waiting then .idle else state.phase := by
          cases state <;> rfl
        have hnext : (x.clientMoves (some packet) []).handshake P
            (state.after (.ok (.ok (.reject reject)) :
              Exec (Except ValidationError (ServerConnectionPacket P)))) member =
            { x.handshake P state member with
              phase := if state.phase = .waiting then .idle else state.phase
              refused := (x.handshake P state member).refused + 1 } := by
          simp [handshake, clientMoves, List.countP_append, hreject, hphase]
        rw [hnext]
        exact h.reachable.tail (.handleRefusal _ hrefused)

/-- **A move of the client.** -/
theorem clientMoves (h : x.Coupled P state member)
    (hmove : ClientMove P state received state' issued)
    (hreceived : ∀ packet ∈ received, packet ∈ x.byServer ∧
      (rejects P packet = true → packet ∉ x.atClient)) :
    (x.clientMoves received issued).Coupled P state' member where
  served := List.Subset.trans h.served (List.subset_append_left _ _)
  handled := by
    refine List.append_subset.mpr ⟨h.handled, fun packet hpacket => ?_⟩
    exact (hreceived packet (Option.mem_toList.mp hpacket)).1
  servedOnce := h.servedOnce
  refusedOnce := nodup_filter_append h.refusedOnce fun packet hpacket => (hreceived packet hpacket).2
  disconnecting packet hpacket hdisconnect := by
    have hbefore := h.disconnecting packet
    rcases List.mem_append.mp hpacket with hold | hnew
    · have hstate := hbefore hold hdisconnect
      subst hstate
      cases hmove with
      | issue => rfl
      | receive _ packet =>
        unfold ClientState.after
        split <;> rfl
    · cases hmove with
      | issue _ _ hissued =>
        rw [(hissued packet hnew).2] at hdisconnect
        cases hdisconnect
      | connect packet' hconnect =>
        rw [List.mem_singleton.mp hnew, not_disconnects_of_connects hconnect] at hdisconnect
        cases hdisconnect
      | disconnect => rfl
      | receive => cases hnew
  noKick := h.noKick
  reachable := h.reachable_clientMoves hmove hreceived

/-- The handshake goes on when the server makes a move. -/
theorem reachable_serverMoves (h : x.Coupled P state member)
    (hmove : ServerMove P member received member' issued)
    (hreceived : ∀ packet ∈ received, packet ∈ x.byClient ∧
      (connects P packet = true → packet ∉ x.atServer)) :
    Handshake.Reachable ((x.serverMoves received issued).handshake P state member') := by
  have hzero : Unrelated P issued → issued.countP (accepts P) = 0 ∧ issued.countP (rejects P) = 0 := by
    intro hissued
    rw [List.countP_eq_zero, List.countP_eq_zero]
    exact ⟨fun packet hpacket => by simp [(hissued packet hpacket).1],
      fun packet hpacket => by simp [(hissued packet hpacket).2.1]⟩
  have hserved : ∀ packet ∈ received, connects P packet = true →
      (x.handshake P state member).served < (x.handshake P state member).requests := by
    intro packet hpacket hconnect
    obtain ⟨hmem, hnew⟩ := hreceived packet hpacket
    exact countP_lt h.served h.servedOnce hmem hconnect (hnew hconnect)
  cases hmove with
  | issue _ _ hissued =>
    obtain ⟨haccepts, hrejects⟩ := hzero hissued
    have hsame : (x.serverMoves none issued).handshake P state member =
        x.handshake P state member := by
      simp [handshake, serverMoves, List.countP_append, haccepts, hrejects]
    rw [hsame]
    exact h.reachable
  | answer _ packet _ hpacket hissued =>
    obtain ⟨haccepts, hrejects⟩ := hzero hissued
    have hsame : (x.serverMoves (some packet) issued).handshake P state member =
        x.handshake P state member := by
      simp [handshake, serverMoves, List.countP_append, haccepts, hrejects, hpacket]
    rw [hsame]
    exact h.reachable
  | leave packet hpacket =>
    rcases hpacket with hconnect | hdisconnect
    · -- a client that has a slot has no request left
      have hmember := h.reachable.inv.member_eq_false (hserved packet rfl hconnect)
      cases hmember
    · have hnot : connects P packet = false := by
        by_contra hconnect
        rw [not_disconnects_of_connects (by simpa using hconnect)] at hdisconnect
        cases hdisconnect
      have hstate := h.disconnecting packet (hreceived packet rfl).1 hdisconnect
      subst hstate
      have hnext : (x.serverMoves (some packet) []).handshake P .disconnecting false =
          { x.handshake P .disconnecting true with member := false } := by
        simp [handshake, serverMoves, List.countP_append, hnot]
      rw [hnext]
      exact h.reachable.tail (.leave _ rfl)
  | accept packet answer hpacket hanswer =>
    have hnext : (x.serverMoves (some packet) [answer]).handshake P state true =
        { x.handshake P state false with
          member := true
          served := (x.handshake P state false).served + 1
          grants := (x.handshake P state false).grants + 1 } := by
      simp [handshake, serverMoves, List.countP_append, hpacket, hanswer,
        not_rejects_of_accepts hanswer]
    rw [hnext]
    exact h.reachable.tail (.grant _ (hserved packet rfl hpacket))
  | reject packet answer hpacket hanswer =>
    have hnot : accepts P answer = false := by
      by_contra haccept
      rw [not_rejects_of_accepts (by simpa using haccept)] at hanswer
      cases hanswer
    have hnext : (x.serverMoves (some packet) [answer]).handshake P state false =
        { x.handshake P state false with
          served := (x.handshake P state false).served + 1
          refusals := (x.handshake P state false).refusals + 1 } := by
      simp [handshake, serverMoves, List.countP_append, hpacket, hanswer, hnot]
    rw [hnext]
    exact h.reachable.tail (.refuse _ (hserved packet rfl hpacket) rfl)

/-- **A move of the server.** -/
theorem serverMoves (h : x.Coupled P state member)
    (hmove : ServerMove P member received member' issued)
    (hreceived : ∀ packet ∈ received, packet ∈ x.byClient ∧
      (connects P packet = true → packet ∉ x.atServer)) :
    (x.serverMoves received issued).Coupled P state member' where
  served := by
    refine List.append_subset.mpr ⟨h.served, fun packet hpacket => ?_⟩
    exact (hreceived packet (Option.mem_toList.mp hpacket)).1
  handled := List.Subset.trans h.handled (List.subset_append_left _ _)
  servedOnce := nodup_filter_append h.servedOnce fun packet hpacket => (hreceived packet hpacket).2
  refusedOnce := h.refusedOnce
  disconnecting := h.disconnecting
  noKick packet hpacket := by
    rcases List.mem_append.mp hpacket with hold | hnew
    · exact h.noKick packet hold
    · cases hmove with
      | issue _ _ hissued => exact (hissued packet hnew).2.2
      | answer _ _ _ _ hissued => exact (hissued packet hnew).2.2
      | leave => cases hnew
      | accept _ answer _ hanswer =>
        rw [List.mem_singleton.mp hnew]
        exact not_kicks_of_accepts hanswer
      | reject _ answer _ hanswer =>
        rw [List.mem_singleton.mp hnew]
        exact not_kicks_of_rejects hanswer
  reachable := h.reachable_serverMoves hmove hreceived

end Coupled

end Exchange

end Ultinet
