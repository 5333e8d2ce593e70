import Ultinet.Net.ConnectionSlot
import Ultinet.Net.ListenerAddrs

/-!
# Which servers a client can hear

A UDP socket that was connected to an address receives datagrams from this address only, until it is
connected elsewhere.  The client has one socket for all servers it listens to, and the first thing
`Client::connect` does is to connect this socket; nothing ever undoes it, not even when the rest of
the call fails.

`SocketRun` keeps the peer of the socket beside the client.  `hears_iff` says that the client hears
every server it listens to throughout exactly those runs in which the socket is only connected while
no other server is listened to, and no other server is added afterwards.
-/

namespace Ultinet

variable {P : Packets}

/-- A client in a run, with the peer that its socket is connected to. -/
structure SocketRun (P : Packets) where
  run : ClientRun P
  peer : Option SocketAddr

/-- An operation of a client, with the address to which a connect call connects the socket where
asking the socket for its peer then fails. -/
structure SocketOp (P : Packets) where
  op : ClientOp P
  unnamed : Option SocketAddr := none

/-- The address that a connect call connects the socket to, which is the first thing it does. -/
def SocketOp.connectsTo : SocketOp P → Option SocketAddr
  | ⟨.connect (.ok serverAddr) _ _, _⟩ => some serverAddr
  | ⟨.connect (.error _) _ _, unnamed⟩ => unnamed
  | _ => none

/-- A socket that is connected only receives datagrams from its peer. -/
def peerAccepts (peer : Option SocketAddr) (addr : SocketAddr) : Bool :=
  peer.all fun it => decide (addr = it)

namespace SocketRun

/-- What the socket receives of the datagrams that arrive. -/
def received (r : SocketRun P) (incoming : Incoming) : Incoming :=
  { incoming with
    datagrams := incoming.datagrams.filter fun datagram => peerAccepts r.peer datagram.1 }

/-- An operation as the client sees it: an update gets what the socket receives. -/
def filtered (r : SocketRun P) : ClientOp P → ClientOp P
  | .update handler incoming env => .update handler (r.received incoming) env
  | op => op

/-- The peer of the socket after an operation.  Only a client that is disconnected connects it. -/
def peerAfter (r : SocketRun P) (o : SocketOp P) : Option SocketAddr :=
  if r.run.client.state = .disconnected then o.connectsTo.or r.peer else r.peer

/-- The beginning: the socket is bound but not connected. -/
def init (config : ClientConfig) : SocketRun P where
  run := .init config
  peer := none

/-- The client hears every server it listens to: the filter of the socket excludes none of their
addresses, so whatever they send is received. -/
structure Hears (r : SocketRun P) : Prop where
  accepts : ∀ addr ∈ r.run.client.addrs, peerAccepts r.peer addr = true
  received : ∀ incoming : Incoming, ∀ datagram ∈ incoming.datagrams,
    datagram.1 ∈ r.run.client.addrs → datagram ∈ (r.received incoming).datagrams

/-- What passes the filter is received. -/
theorem Hears.of_accepts {r : SocketRun P}
    (h : ∀ addr ∈ r.run.client.addrs, peerAccepts r.peer addr = true) : r.Hears := by
  refine ⟨h, fun incoming datagram hmem hlistened => ?_⟩
  exact List.mem_filter.mpr ⟨hmem, h _ hlistened⟩

/-- An operation that leaves every listened address audible: the socket is not connected while
another server is listened to, and no server is added that the socket, afterwards, does not accept. -/
structure KeepsHearing (r : SocketRun P) (o : SocketOp P) : Prop where
  connects : r.run.client.state = .disconnected → ∀ serverAddr, o.connectsTo = some serverAddr →
    ∀ addr ∈ r.run.client.addrs, addr = serverAddr
  adds : ∀ serverAddr, r.run.Adds serverAddr o.op → peerAccepts (r.peerAfter o) serverAddr = true

variable [Rkyv P]

/-- One operation; there is no next state if it panics. -/
def step (r : SocketRun P) (o : SocketOp P) : Option (SocketRun P) :=
  (r.run.step (r.filtered o.op)).map fun run => { run, peer := r.peerAfter o }

/-- The transition system of a client and its socket. -/
def system (P : Packets) [Rkyv P] : Lts (SocketRun P) (SocketOp P) where
  step := step

/-! ## What a step does -/

variable {r r' : SocketRun P} {o : SocketOp P}

/-- A step is one of the client on what its socket receives. -/
theorem step_eq_some (h : r.step o = some r') :
    r.run.step (r.filtered o.op) = some r'.run ∧ r'.peer = r.peerAfter o := by
  unfold step at h
  rw [Option.map_eq_some_iff] at h
  obtain ⟨run, hrun, rfl⟩ := h
  exact ⟨hrun, rfl⟩

omit [Rkyv P] in
/-- The filter does not matter for the listeners that are added. -/
theorem adds_filtered (r : SocketRun P) (op : ClientOp P) (serverAddr : SocketAddr) :
    r.run.Adds serverAddr (r.filtered op) ↔ r.run.Adds serverAddr op := by
  cases op with
  | update handler incoming env => exact Iff.rfl
  | _ => exact Iff.rfl

omit [Rkyv P] in
/-- Unless the operation connects the socket, the socket keeps its peer. -/
theorem peerAfter_cases (r : SocketRun P) (o : SocketOp P) :
    (∃ serverAddr, r.run.client.state = .disconnected ∧ o.connectsTo = some serverAddr ∧
        r.peerAfter o = some serverAddr) ∨
      r.peerAfter o = r.peer := by
  unfold peerAfter
  split_ifs with hstate
  · cases hconnects : o.connectsTo with
    | none => exact Or.inr rfl
    | some serverAddr => exact Or.inl ⟨serverAddr, hstate, rfl, rfl⟩
  · exact Or.inr rfl

/-- An operation that connects the socket drops no address. -/
theorem subset_of_connectsTo {serverAddr : SocketAddr} (hconnects : o.connectsTo = some serverAddr)
    (h : r.step o = some r') : r.run.client.addrs ⊆ r'.run.client.addrs := by
  obtain ⟨hstep, -⟩ := step_eq_some h
  obtain ⟨op, unnamed⟩ := o
  cases op with
  | connect peer connect env =>
    change r.run.step (.connect peer connect env) = some r'.run at hstep
    cases hconnect : r.run.client.connect peer connect env.start with
    | error abort => simp [ClientRun.step, hconnect, Except.toOption] at hstep
    | ok answer =>
      obtain ⟨result, client, env'⟩ := answer
      simp only [ClientRun.step, hconnect, Except.toOption, Option.bind_eq_bind, Option.bind_some,
        Option.pure_def, Option.some.injEq] at hstep
      rw [← hstep]
      exact Client.connect_subset hconnect
  | _ => cases hconnects

/-- **Step lemma.**  From a state in which every listened server is heard, a step keeps it that way
if and only if it meets the condition. -/
theorem hears_step_iff (hhears : r.Hears) (h : r.step o = some r') :
    r'.Hears ↔ r.KeepsHearing o := by
  obtain ⟨hstep, hpeer⟩ := step_eq_some h
  have haddrs := ClientRun.step_addrs hstep
  simp only [adds_filtered] at haddrs
  constructor
  · intro hhears'
    constructor
    · intro hstate serverAddr hconnects addr hmem
      have hafter : r'.peer = some serverAddr := by
        rw [hpeer, peerAfter, if_pos hstate, hconnects]
        rfl
      have haccepts := hhears'.accepts addr (subset_of_connectsTo hconnects h hmem)
      rw [hafter] at haccepts
      exact of_decide_eq_true haccepts
    · intro serverAddr hadds
      rw [← hpeer]
      rcases haddrs with ⟨added, hadded, heq⟩ | ⟨hnone, -⟩
      · refine hhears'.accepts serverAddr ?_
        rw [heq, hadded.unique hadds]
        exact List.mem_append_right _ (List.mem_singleton_self added)
      · exact absurd hadds (hnone serverAddr)
  · intro hkeeps
    refine .of_accepts fun addr hmem => ?_
    -- an address that was listened to before
    have hold : addr ∈ r.run.client.addrs → peerAccepts (r.peerAfter o) addr = true := by
      intro hmem
      rcases r.peerAfter_cases o with ⟨serverAddr, hstate, hconnects, hafter⟩ | hsame
      · rw [hafter]
        exact decide_eq_true (hkeeps.connects hstate serverAddr hconnects addr hmem)
      · rw [hsame]
        exact hhears.accepts addr hmem
    rw [hpeer]
    rcases haddrs with ⟨added, hadded, heq⟩ | ⟨-, hsubperm⟩
    · rw [heq, List.mem_append, List.mem_singleton] at hmem
      rcases hmem with hmem | rfl
      · exact hold hmem
      · exact hkeeps.adds addr hadded
    · exact hold (hsubperm.subset hmem)

/-! ## Runs -/

/-- **When a client hears every server it listens to.**  The runs all of whose steps meet the
condition are exactly the runs in which, in every state reached, the socket excludes no server that
the client listens to. -/
theorem hears_iff {config : ClientConfig} :
    (system P).GuardedRun KeepsHearing (init config) r ↔
      (system P).GuardedRun (fun r o => ∀ r', r.step o = some r' → r'.Hears) (init config) r ∧
        r.Hears := by
  have hinit : (init config : SocketRun P).Hears := .of_accepts fun addr hmem => by cases hmem
  exact Lts.guardedRun_iff hinit fun r o r' hhears hstep => hears_step_iff hhears hstep

/-- Whether an operation of a client with default packets meets the condition, checked generously:
the socket is connected to a server while only this one is listened to, and nothing is added
afterwards. -/
def checkHearing (r : SocketRun P) (o : SocketOp P) : Bool :=
  match o.op with
  | .listen _ _ => r.peer.isNone
  | .connect (.ok serverAddr) _ _ => r.run.client.addrs.all fun addr => decide (addr = serverAddr)
  | .connect (.error _) _ _ | .query _ _ _ => false
  | _ => true

omit [Rkyv P] in
theorem checkHearing_sound (h : checkHearing r o = true) : r.KeepsHearing o := by
  obtain ⟨op, unnamed⟩ := o
  cases op with
  | listen addr env =>
    have hnone : r.peer = none := Option.isNone_iff_eq_none.mp h
    refine ⟨fun _ serverAddr hconnects => (nomatch hconnects), fun serverAddr _ => ?_⟩
    have hafter : r.peerAfter ⟨.listen addr env, unnamed⟩ = none := by
      simp [peerAfter, SocketOp.connectsTo, hnone]
    rw [hafter]
    rfl
  | connect peer connect env =>
    cases peer with
    | error error => cases h
    | ok serverAddr =>
      constructor
      · intro _ serverAddr' hconnects addr hmem
        cases hconnects
        exact of_decide_eq_true (List.all_eq_true.mp h addr hmem)
      · rintro serverAddr' ⟨rfl, hstate, -⟩
        have hafter : r.peerAfter ⟨.connect (.ok serverAddr) connect env, unnamed⟩ =
            some serverAddr := by
          simp [peerAfter, SocketOp.connectsTo, hstate]
        rw [hafter]
        exact decide_eq_true rfl
  | query serverAddr query env => cases h
  | _ => exact ⟨fun _ serverAddr hconnects => (nomatch hconnects), fun _ hadds => hadds.elim⟩

/-- A client that listens to one server and connects to it hears this server. -/
theorem hears_iff_one_server :
    ∃ r : SocketRun DefaultPackets,
      (system DefaultPackets).GuardedRun KeepsHearing (init .default) r ∧
      r.run.client.state = .connecting ∧ r.peer = some 1 ∧ r.Hears := by
  obtain ⟨r, hrun, hr⟩ := Lts.exists_guardedRun (system DefaultPackets) KeepsHearing checkHearing
    (init .default)
    [⟨.listen 1 (.accepting 0), none⟩,
      ⟨ClientRun.updateWith [(1, ClientRun.versionReply)] (.accepting 1), none⟩,
      ⟨.connect (.ok 1) () (.accepting 2), none⟩]
    (fun r => decide (r.run.client.state = .connecting ∧ r.peer = some 1))
    (fun _ _ _ => checkHearing_sound) (by decide +kernel)
  obtain ⟨hstate, hpeer⟩ := of_decide_eq_true hr
  exact ⟨r, hrun, hstate, hpeer, (hears_iff.mp hrun).2⟩

/-- A client that listens to server 1, connects to server 2 in vain and does not hear server 1 any
more: the version reply of server 1 is not received. -/
theorem hears_wrong :
    ∃ r : SocketRun DefaultPackets,
      (system DefaultPackets).GuardedRun (fun _ _ => True) (init .default) r ∧
      r.run.client.state = .disconnected ∧ 1 ∈ r.run.client.addrs ∧
      (r.received { datagrams := [(1, ClientRun.versionReply)] }).datagrams = [] ∧ ¬r.Hears := by
  obtain ⟨r, hrun, hr⟩ := Lts.exists_guardedRun (system DefaultPackets)
    (fun _ _ => True) (fun _ _ => true) (init .default)
    [⟨.listen 1 (.accepting 0), none⟩, ⟨.connect (.ok 2) () (.accepting 1), none⟩]
    (fun r => decide (r.run.client.state = .disconnected ∧ 1 ∈ r.run.client.addrs ∧
      (r.received { datagrams := [(1, ClientRun.versionReply)] }).datagrams = [] ∧
      peerAccepts r.peer 1 = false))
    (fun _ _ _ _ => trivial) (by decide +kernel)
  obtain ⟨hstate, hlistened, hlost, hdeaf⟩ := of_decide_eq_true hr
  refine ⟨r, hrun, hstate, hlistened, hlost, fun hhears => ?_⟩
  have haccepts := hhears.accepts 1 hlistened
  rw [hdeaf] at haccepts
  cases haccepts

end SocketRun

end Ultinet
