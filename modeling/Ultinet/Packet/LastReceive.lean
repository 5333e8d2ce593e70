import Ultinet.Packet.Dispatch
import Ultinet.Packet.Transfer

/-!
# When the receiver last heard of a packet

A receive buffer forgets the packets whose `lastReceive` is too long ago.  Here it is observed
together with the parts that it acked (`Receiver`).  The timestamp is the time of the latest acked part
in every run in which no part of a packet arrives late, once the packet is known to have only one part
(`Receiver.timestamps_iff`): for such a packet the timestamp stays the time of its first part, and it
can be forgotten, and reassembled again, while its part keeps coming.
-/

namespace Ultinet

/-! ## Receiving a part -/

namespace ReceivePacketBuffer

variable {b b' : ReceivePacketBuffer} {last : Bool} {id : PacketId} {seqIndex : ℕ} {payload : Bytes}
  {addr : SocketAddr} {env env' : Env} {result : Except PacketReceiveError ReceivedPacket}

/-- Everything that receiving a part can do if acks do not fail. -/
inductive Receipt (b : ReceivePacketBuffer) (id : PacketId) (now : ℕ) :
    Except PacketReceiveError ReceivedPacket → ReceivePacketBuffer → Prop
  | new (hget : b.packets.get? id = none) (packet : Option ReassembledPacket)
      (received : ReceivedPacket) :
      Receipt b id now (.ok received) { b with packets := b.packets.insert id ⟨now, packet⟩ }
  | more (lastReceive : ℕ) (packet : ReassembledPacket)
      (hget : b.packets.get? id = some ⟨lastReceive, some packet⟩) (packet' : ReassembledPacket)
      (received : ReceivedPacket) :
      Receipt b id now (.ok received) { b with packets := b.packets.insert id ⟨now, some packet'⟩ }
  | again (lastReceive : ℕ) (hget : b.packets.get? id = some ⟨lastReceive, none⟩) :
      -- the part is acked, but the timestamp stays
      Receipt b id now (.ok .duplicate) b
  | touched (lastReceive : ℕ) (hget : b.packets.get? id = some ⟨lastReceive, none⟩)
      (error : PacketReceiveError) :
      -- the part is not acked, but the timestamp does not stay
      Receipt b id now (.error error) { b with packets := b.packets.insert id ⟨now, none⟩ }
  | mismatch (lastReceive : ℕ) (packet : ReassembledPacket)
      (hget : b.packets.get? id = some ⟨lastReceive, some packet⟩) (error : PacketReceiveError) :
      Receipt b id now (.error error) b

theorem receiveSingle_receipt (hno : env.NoError)
    (h : b.receiveSingle id seqIndex payload addr env = (result, b', env')) :
    b.Receipt id env.now result b' := by
  obtain ⟨sent, -, -, ⟨error, -, hfail⟩ | hack⟩ := ack_spec id seqIndex addr env
  · exact absurd hno hfail
  obtain ⟨env'', hack⟩ : ∃ env'', Ultinet.ack id seqIndex addr env = (.ok (), env'') :=
    ⟨_, Prod.ext hack rfl⟩
  unfold receiveSingle at h
  cases hget : b.packets.get? id with
  | none =>
    simp only [hget, hack] at h
    cases h
    exact .new hget none _
  | some entry =>
    obtain ⟨lastReceive, packet⟩ := entry
    cases packet with
    | none =>
      simp only [hget, hack] at h
      cases h
      exact .again lastReceive hget
    | some packet =>
      simp only [hget] at h
      cases h
      exact .mismatch lastReceive packet hget _

theorem receivePart_receipt (hno : env.NoError)
    (h : b.receivePart last id seqIndex payload addr env = .ok (result, b', env')) :
    b.Receipt id env.now result b' := by
  obtain ⟨sent, -, -, ⟨error, -, hfail⟩ | hack⟩ := ack_spec id seqIndex addr env
  · exact absurd hno hfail
  obtain ⟨env'', hack⟩ : ∃ env'', Ultinet.ack id seqIndex addr env = (.ok (), env'') :=
    ⟨_, Prod.ext hack rfl⟩
  unfold receivePart touchEntry at h
  cases hget : b.packets.get? id with
  | none =>
    simp only [hget] at h
    cases hreceive : ReassembledPacket.new.receive last seqIndex payload with
    | error abort => simp [hreceive, bind, Except.bind] at h
    | ok received =>
      simp only [hreceive, hack, bind, Except.bind] at h
      cases h
      exact .new hget (some received.2) received.1
  | some entry =>
    obtain ⟨lastReceive, packet⟩ := entry
    cases packet with
    | none =>
      simp only [hget] at h
      cases h
      exact .touched lastReceive hget _
    | some packet =>
      simp only [hget] at h
      cases hreceive : packet.receive last seqIndex payload with
      | error abort => simp [hreceive, bind, Except.bind] at h
      | ok received =>
        simp only [hreceive, hack, bind, Except.bind] at h
        cases h
        exact .more lastReceive packet hget received.2 received.1

theorem receive_receipt (hno : env.NoError)
    (h : b.receive last id seqIndex payload addr env = .ok (result, b', env')) :
    b.Receipt id env.now result b' := by
  unfold receive at h
  split_ifs at h
  · exact receiveSingle_receipt hno (Except.ok.inj h)
  · exact receivePart_receipt hno h

end ReceivePacketBuffer

/-! ## A receive buffer that is observed -/

/-- A part that was acked: the packet it is of, when it was acked, and what became of it. -/
structure AckedPart where
  id : PacketId
  time : ℕ
  outcome : ReceivedPacket
  deriving DecidableEq

/-- A receive buffer, the time, and the parts that were acked so far, the latest one first. -/
structure Receiver where
  buffer : ReceivePacketBuffer
  now : ℕ
  acked : List AckedPart

/-- What happens to a receive buffer: datagrams arrive, and old packets are forgotten. -/
inductive ReceiverInput
  | datagram (buf : Bytes) (env : Env)
  | timeoutPackets (timeout : ℕ) (env : Env)

namespace ReceiverInput

/-- The socket reports no errors, so that no ack fails. -/
def NoError : ReceiverInput → Prop
  | datagram _ env => env.NoError
  | timeoutPackets _ _ => True

end ReceiverInput

namespace Receiver

variable {addr : SocketAddr} {r r' : Receiver} {id : PacketId}

/-- Nothing was received. -/
def init (now : ℕ) : Receiver where
  buffer := .new
  now := now
  acked := []

/-- The time goes on, and a datagram is handled or packets are forgotten. -/
def step (addr : SocketAddr) (r : Receiver) : ReceiverInput → Option Receiver
  | .datagram buf env =>
      if env.now < r.now then none
      else
        match r.buffer.handle buf addr env with
        | .error _ => none
        | .ok (.ok (.ack outcome), buffer, _) =>
            let acked := (datagramId buf).toList.map fun id => { id, time := env.now, outcome }
            some { buffer, now := env.now, acked := acked ++ r.acked }
        | .ok (_, buffer, _) => some { r with buffer, now := env.now }
  | .timeoutPackets timeout env =>
      if env.now < r.now then none
      else some { r with buffer := r.buffer.timeoutPackets timeout env, now := env.now }

/-- The runs of a receive buffer. -/
def system (addr : SocketAddr) : Lts Receiver ReceiverInput where
  step := step addr

/-- When a part of a packet was last acked. -/
def lastAcked (r : Receiver) (id : PacketId) : Option ℕ :=
  (r.acked.find? fun part => part.id = id).map AckedPart.time

/-- The timestamp of each known packet is the time of its latest acked part. -/
def Timestamps (r : Receiver) : Prop :=
  ∀ id entry, r.buffer.packets.get? id = some entry → r.lastAcked id = some entry.lastReceive

/-- No part arrives late for a packet that is known to have only one: such a packet was last heard of
at this very moment. -/
def NotLate (r : Receiver) : ReceiverInput → Prop
  | .datagram buf env => ∀ last id seqIndex payload, seqIndex < seqIndexBound →
      buf = partDatagram last id seqIndex payload →
      ∀ entry, r.buffer.packets.get? id = some entry → entry.packet = none →
        r.lastAcked id = some env.now
  | .timeoutPackets _ _ => True

/-! ## What a step does -/

/-- Everything a step can do if acks do not fail. -/
theorem step_cases {input : ReceiverInput} (hno : input.NoError)
    (h : step addr r input = some r') :
    (∃ env last id seqIndex payload, seqIndex < seqIndexBound ∧ r.now ≤ env.now ∧
        input = .datagram (partDatagram last id seqIndex payload) env ∧ r'.now = env.now ∧
        ∃ result, r.buffer.Receipt id env.now result r'.buffer ∧
          ((∃ outcome, result = .ok outcome ∧ r'.acked = ⟨id, env.now, outcome⟩ :: r.acked) ∨
            ∃ error, result = .error error ∧ r'.acked = r.acked)) ∨
      (∃ env id rest, r.now ≤ env.now ∧ input = .datagram (doneDatagram id ++ rest) env ∧
        r' = { r with buffer := (r.buffer.done id).2, now := env.now }) ∨
      (∃ buf env, (∀ last id seqIndex payload, buf ≠ partDatagram last id seqIndex payload) ∧
        r.now ≤ env.now ∧ input = .datagram buf env ∧ r' = { r with now := env.now }) ∨
      ∃ timeout env, r.now ≤ env.now ∧ input = .timeoutPackets timeout env ∧
        r' = { r with buffer := r.buffer.timeoutPackets timeout env, now := env.now } := by
  cases input with
  | datagram buf env =>
    simp only [step] at h
    split_ifs at h with hnow
    cases hhandle : r.buffer.handle buf addr env with
    | error abort =>
      rw [hhandle] at h
      cases h
    | ok handled =>
      obtain ⟨result, buffer, env'⟩ := handled
      rw [hhandle] at h
      have hcases := ReceivePacketBuffer.handle_handled hhandle
      cases hcases with
      | part last id seqIndex payload hseq hbuf received _ _ hreceive =>
        subst hbuf
        have hreceipt := ReceivePacketBuffer.receive_receipt hno hreceive
        refine Or.inl ⟨env, last, id, seqIndex, payload, hseq, not_lt.mp hnow, rfl, ?_⟩
        cases received with
        | error error =>
          cases h
          exact ⟨rfl, _, hreceipt, Or.inr ⟨error, rfl, rfl⟩⟩
        | ok outcome =>
          simp only [Except.mapError, Except.map, Transfer.datagramId_partDatagram] at h
          cases h
          exact ⟨rfl, _, hreceipt, Or.inl ⟨outcome, rfl, rfl⟩⟩
      | done id rest hbuf =>
        subst hbuf
        cases h
        exact Or.inr (Or.inl ⟨env, id, rest, not_lt.mp hnow, rfl, rfl⟩)
      | other _ hbuf hresult =>
        have hr' : r' = { r with now := env.now } := by
          split at h
          · cases h
          · rename_i heq
            cases heq
            exact absurd rfl (hresult _)
          · rename_i heq
            cases heq
            cases h
            rfl
        exact Or.inr (Or.inr (Or.inl ⟨buf, env, hbuf, not_lt.mp hnow, rfl, hr'⟩))
  | timeoutPackets timeout env =>
    simp only [step] at h
    split_ifs at h with hnow
    cases h
    exact Or.inr (Or.inr (Or.inr ⟨timeout, env, not_lt.mp hnow, rfl, rfl⟩))

/-! ## Timestamps -/

@[simp] theorem lastAcked_cons (buffer : ReceivePacketBuffer) (now : ℕ) (part : AckedPart)
    (acked : List AckedPart) (id : PacketId) :
    lastAcked ⟨buffer, now, part :: acked⟩ id =
      if part.id = id then some part.time else lastAcked ⟨buffer, now, acked⟩ id := by
  unfold lastAcked
  rw [List.find?_cons]
  by_cases hid : part.id = id
  · simp [hid]
  · simp [hid]

/-- Which packet a part is of. -/
theorem partDatagram_id {last last' : Bool} {id' : PacketId} {k k' : ℕ} {payload payload' : Bytes}
    (h : partDatagram last id k payload = partDatagram last' id' k' payload') : id = id' := by
  have hid := congrArg datagramId h
  simpa only [Transfer.datagramId_partDatagram, Option.some.injEq] using hid

theorem notLate_part_iff {last : Bool} {seqIndex : ℕ} {payload : Bytes} {env : Env}
    (hseq : seqIndex < seqIndexBound) :
    r.NotLate (.datagram (partDatagram last id seqIndex payload) env) ↔
      ∀ entry, r.buffer.packets.get? id = some entry → entry.packet = none →
        r.lastAcked id = some env.now := by
  constructor
  · exact fun h => h last id seqIndex payload hseq rfl
  · intro h last' id' seqIndex' payload' _ hbuf
    have hid := partDatagram_id hbuf
    subst hid
    exact h

/-- What happens to one packet does not concern the timestamps of the others. -/
theorem timestamps_iff_of_others (h : r.Timestamps) (r' : Receiver)
    (hbuffer : ∀ id' ≠ id, r'.buffer.packets.get? id' = r.buffer.packets.get? id')
    (hacked : ∀ id' ≠ id, r'.lastAcked id' = r.lastAcked id') :
    r'.Timestamps ↔ ∀ entry, r'.buffer.packets.get? id = some entry →
      r'.lastAcked id = some entry.lastReceive := by
  constructor
  · exact fun hall => hall id
  · intro hone id' entry hget
    by_cases hid : id' = id
    · subst hid
      exact hone entry hget
    · rw [hbuffer id' hid] at hget
      rw [hacked id' hid]
      exact h id' entry hget

/-- A part keeps the timestamps right exactly if it is not late. -/
theorem timestamps_part_iff {now : ℕ} {result : Except PacketReceiveError ReceivedPacket}
    {buffer : ReceivePacketBuffer} {acked : List AckedPart} (h : r.Timestamps)
    (hreceipt : r.buffer.Receipt id now result buffer)
    (hacked : (∃ outcome, result = .ok outcome ∧ acked = ⟨id, now, outcome⟩ :: r.acked) ∨
      ∃ error, result = .error error ∧ acked = r.acked) :
    Timestamps ⟨buffer, now, acked⟩ ↔
      ∀ entry, r.buffer.packets.get? id = some entry → entry.packet = none →
        r.lastAcked id = some now := by
  have hothers : ∀ id' ≠ id, lastAcked ⟨buffer, now, acked⟩ id' = r.lastAcked id' := by
    intro id' hid
    rcases hacked with ⟨outcome, -, rfl⟩ | ⟨error, -, rfl⟩
    · rw [lastAcked_cons, if_neg (Ne.symm hid)]
      rfl
    · rfl
  cases hreceipt with
  | new hget packet received =>
    rcases hacked with ⟨outcome, -, rfl⟩ | ⟨error, herror, -⟩
    · rw [timestamps_iff_of_others h _ (fun id' hid => SortedMap.get?_insert_of_ne hid) hothers]
      refine iff_of_true (fun entry hentry => ?_) fun entry hentry => ?_
      · rw [SortedMap.get?_insert_self] at hentry
        cases hentry
        simp
      · rw [hget] at hentry
        cases hentry
    · cases herror
  | more lastReceive packet hget packet' received =>
    rcases hacked with ⟨outcome, -, rfl⟩ | ⟨error, herror, -⟩
    · rw [timestamps_iff_of_others h _ (fun id' hid => SortedMap.get?_insert_of_ne hid) hothers]
      refine iff_of_true (fun entry hentry => ?_) fun entry hentry hnone => ?_
      · rw [SortedMap.get?_insert_self] at hentry
        cases hentry
        simp
      · rw [hget] at hentry
        cases hentry
        cases hnone
    · cases herror
  | again lastReceive hget =>
    rcases hacked with ⟨outcome, -, rfl⟩ | ⟨error, herror, -⟩
    · have hlast : r.lastAcked id = some lastReceive := h id _ hget
      rw [timestamps_iff_of_others h ⟨r.buffer, now, _⟩ (fun _ _ => rfl) hothers, hlast]
      simp only [hget, lastAcked_cons, if_true, Option.some.injEq, forall_eq', true_imp_iff]
      exact eq_comm
    · cases herror
  | touched lastReceive hget error =>
    rcases hacked with ⟨outcome, hok, -⟩ | ⟨error, -, rfl⟩
    · cases hok
    · rw [timestamps_iff_of_others h _ (fun id' hid => SortedMap.get?_insert_of_ne hid) hothers]
      simp only [SortedMap.get?_insert_self, hget, Option.some.injEq, forall_eq', true_imp_iff]
      exact Iff.rfl
  | mismatch lastReceive packet hget error =>
    rcases hacked with ⟨outcome, hok, -⟩ | ⟨error, -, rfl⟩
    · cases hok
    · refine iff_of_true h fun entry hentry hnone => ?_
      rw [hget] at hentry
      cases hentry
      cases hnone

/-- One step keeps the timestamps right exactly if no part arrives late in it. -/
theorem timestamps_step_iff {input : ReceiverInput} (h : r.Timestamps) (hno : input.NoError)
    (hstep : step addr r input = some r') : r'.Timestamps ↔ r.NotLate input := by
  rcases step_cases hno hstep with
    ⟨env, last, id, seqIndex, payload, hseq, -, rfl, hnow, result, hreceipt, hacked⟩ |
    ⟨env, id, rest, -, rfl, rfl⟩ | ⟨buf, env, hbuf, -, rfl, rfl⟩ | ⟨timeout, env, -, rfl, rfl⟩
  · rw [notLate_part_iff hseq, ← timestamps_part_iff h hreceipt hacked]
    obtain ⟨buffer, now, acked⟩ := r'
    cases hnow
    exact Iff.rfl
  · refine iff_of_true (fun id' entry hentry => ?_) fun last id' k payload _ heq => ?_
    · simp only [ReceivePacketBuffer.done, SortedMap.get?_erase] at hentry
      split_ifs at hentry
      exact h id' entry hentry
    · exact absurd heq doneDatagram_append_ne_partDatagram
  · exact iff_of_true h fun last id' k payload _ heq => absurd heq (hbuf last id' k payload)
  · refine iff_of_true (fun id' entry hentry => ?_) trivial
    simp only [ReceivePacketBuffer.timeoutPackets, SortedMap.get?_retain,
      Option.filter_eq_some_iff] at hentry
    exact h id' entry hentry.1

/-! ## What is forgotten -/

/-- The parts were acked in the order in which they are recorded. -/
structure Ordered (r : Receiver) : Prop where
  sorted : r.acked.Pairwise fun part earlier => earlier.time ≤ part.time
  le : ∀ part ∈ r.acked, part.time ≤ r.now

theorem Ordered.step {input : ReceiverInput} (h : r.Ordered) (hno : input.NoError)
    (hstep : step addr r input = some r') : r'.Ordered := by
  rcases step_cases hno hstep with
    ⟨env, last, id, seqIndex, payload, -, hle, rfl, hnow, result, -, hacked⟩ |
    ⟨env, id, rest, hle, rfl, rfl⟩ | ⟨buf, env, -, hle, rfl, rfl⟩ | ⟨timeout, env, hle, rfl, rfl⟩
  · rcases hacked with ⟨outcome, -, hacked⟩ | ⟨error, -, hacked⟩
    · constructor
      · rw [hacked, List.pairwise_cons]
        exact ⟨fun part hpart => (h.le part hpart).trans hle, h.sorted⟩
      · rw [hacked, hnow]
        intro part hpart
        rcases List.mem_cons.mp hpart with rfl | hpart
        · exact le_rfl
        · exact (h.le part hpart).trans hle
    · exact ⟨hacked ▸ h.sorted, fun part hpart =>
        ((h.le part (hacked ▸ hpart)).trans hle).trans hnow.ge⟩
  · exact ⟨h.sorted, fun part hpart => (h.le part hpart).trans hle⟩
  · exact ⟨h.sorted, fun part hpart => (h.le part hpart).trans hle⟩
  · exact ⟨h.sorted, fun part hpart => (h.le part hpart).trans hle⟩

/-- The latest acked part was acked last. -/
theorem Ordered.le_lastAcked (h : r.Ordered) {time : ℕ} (hlast : r.lastAcked id = some time) :
    ∀ part ∈ r.acked, part.id = id → part.time ≤ time := by
  obtain ⟨buffer, now, acked⟩ := r
  have hsorted := h.sorted
  clear h
  dsimp only at hsorted ⊢
  induction acked with
  | nil => simp
  | cons first acked ih =>
    obtain ⟨hfirst, hrest⟩ := List.pairwise_cons.mp hsorted
    rw [lastAcked_cons] at hlast
    intro part hpart hid
    split_ifs at hlast with heq
    · cases hlast
      rcases List.mem_cons.mp hpart with rfl | hpart
      · exact le_rfl
      · exact hfirst part hpart
    · rcases List.mem_cons.mp hpart with rfl | hpart
      · exact absurd hid heq
      · exact ih hlast hrest part hpart hid

/-- A packet is forgotten only if none of its parts was acked for that long. -/
theorem le_elapsed_of_forgotten (h : r.Timestamps) (ho : r.Ordered) {timeout : ℕ} {env : Env}
    (hknown : r.buffer.packets.get? id ≠ none)
    (hforgot : (r.buffer.timeoutPackets timeout env).packets.get? id = none) :
    ∀ part ∈ r.acked, part.id = id → timeout ≤ elapsed env.now part.time := by
  obtain ⟨entry, hget⟩ := Option.ne_none_iff_exists'.mp hknown
  simp only [ReceivePacketBuffer.timeoutPackets, SortedMap.get?_retain, hget,
    Option.filter_eq_none_iff, Option.some.injEq, forall_eq', decide_eq_true_eq, not_lt] at hforgot
  intro part hpart hid
  have hle := ho.le_lastAcked (h id entry hget) part hpart hid
  unfold elapsed at hforgot ⊢
  omega

/-- The parts of a packet keep coming: no `Done` for it arrives, and whenever packets are forgotten a
part of it was acked less than the timeout ago. -/
def KeepsComing (id : PacketId) (r : Receiver) : ReceiverInput → Prop
  | .datagram buf _ => ∀ rest, buf ≠ doneDatagram id ++ rest
  | .timeoutPackets timeout env =>
      ∃ part ∈ r.acked, part.id = id ∧ elapsed env.now part.time < timeout

/-- A packet whose parts keep coming stays known. -/
theorem known_step {input : ReceiverInput} (h : r.Timestamps) (ho : r.Ordered) (hno : input.NoError)
    (hcoming : r.KeepsComing id input) (hstep : step addr r input = some r')
    (hknown : r.buffer.packets.get? id ≠ none) : r'.buffer.packets.get? id ≠ none := by
  rcases step_cases hno hstep with
    ⟨env, last, id', seqIndex, payload, -, -, -, -, result, hreceipt, -⟩ |
    ⟨env, id', rest, -, rfl, rfl⟩ | ⟨buf, env, -, -, rfl, rfl⟩ | ⟨timeout, env, -, rfl, rfl⟩
  · have hinsert : ∀ packet, (r.buffer.packets.insert id' packet).get? id ≠ none := by
      intro packet
      by_cases hid : id = id'
      · subst hid
        simp
      · rwa [SortedMap.get?_insert_of_ne hid]
    generalize r'.buffer = buffer at hreceipt ⊢
    cases hreceipt with
    | new | more | touched => exact hinsert _
    | again | mismatch => exact hknown
  · have hne : id ≠ id' := by
      rintro rfl
      exact hcoming rest rfl
    simp only [ReceivePacketBuffer.done, SortedMap.get?_erase]
    rwa [if_neg hne]
  · exact hknown
  · obtain ⟨part, hpart, hid, hlt⟩ := hcoming
    intro hforgot
    have hle := le_elapsed_of_forgotten h ho hknown hforgot part hpart hid
    omega

/-! ## Runs -/

/-- **The timestamps are the times of the latest acked parts** throughout a run exactly if no part of
a packet that is known to have only one arrives late in it.  Then a packet is forgotten only if none of
its parts was acked for as long as the timeout, and a packet whose parts keep coming stays known. -/
theorem timestamps_iff (addr : SocketAddr) (now : ℕ) (r : Receiver) :
    ((system addr).GuardedRun (fun r input => input.NoError ∧ r.NotLate input) (init now) r ↔
      (system addr).GuardedRun
          (fun r input => input.NoError ∧ ∀ r', (system addr).step r input = some r' → r'.Timestamps)
          (init now) r ∧ r.Timestamps) ∧
      ((system addr).GuardedRun (fun r input => input.NoError ∧ r.NotLate input) (init now) r →
        (∀ (timeout : ℕ) (env : Env) (id : PacketId), r.buffer.packets.get? id ≠ none →
          (r.buffer.timeoutPackets timeout env).packets.get? id = none →
          ∀ part ∈ r.acked, part.id = id → timeout ≤ elapsed env.now part.time) ∧
        ∀ (id : PacketId) (r' : Receiver),
          (system addr).GuardedRun
            (fun r input => (input.NoError ∧ r.NotLate input) ∧ r.KeepsComing id input) r r' →
          r.buffer.packets.get? id ≠ none → r'.buffer.packets.get? id ≠ none) := by
  have hstart : (init now).Timestamps := by simp [Timestamps, init, ReceivePacketBuffer.new]
  have hordered : (init now).Ordered := ⟨List.Pairwise.nil, by simp [init]⟩
  have hiff : (system addr).GuardedRun (fun r input => input.NoError ∧ r.NotLate input) (init now) r ↔
      (system addr).GuardedRun
          (fun r input => input.NoError ∧ ∀ r', (system addr).step r input = some r' → r'.Timestamps)
          (init now) r ∧ r.Timestamps :=
    Lts.guardedRun_iff_in_env hordered (fun r input r' ho hno hstep => ho.step hno hstep) hstart
      fun r input r' _ h hno hstep => timestamps_step_iff h hno hstep
  refine ⟨hiff, fun hrun => ?_⟩
  have hr : r.Timestamps := (hiff.mp hrun).2
  have ho : r.Ordered :=
    hrun.invariant (I := Ordered) (fun r input r' ho hok hstep => ho.step hok.1 hstep) hordered
  refine ⟨fun timeout env id => le_elapsed_of_forgotten hr ho, fun id r' hmore hknown => ?_⟩
  have hall : r'.Timestamps ∧ r'.Ordered ∧ r'.buffer.packets.get? id ≠ none := by
    refine hmore.invariant (I := fun r => r.Timestamps ∧ r.Ordered ∧
      r.buffer.packets.get? id ≠ none) (fun r input r' hI hok hstep => ?_) ⟨hr, ho, hknown⟩
    obtain ⟨h, ho, hknown⟩ := hI
    exact ⟨(timestamps_step_iff h hok.1.1 hstep).mpr hok.1.2, ho.step hok.1.1 hstep,
      known_step h ho hok.1.1 hok.2 hstep hknown⟩
  exact hall.2.2

/-! ## Two runs -/

/-- Whether no part arrives late. -/
def checkNotLate (r : Receiver) : ReceiverInput → Bool
  | .datagram buf env =>
      (datagramId buf).all fun id => (r.buffer.packets.get? id).all fun entry =>
        entry.packet.isSome || decide (r.lastAcked id = some env.now)
  | .timeoutPackets _ _ => true

theorem notLate_of_check {input : ReceiverInput} (h : r.checkNotLate input = true) :
    r.NotLate input := by
  cases input with
  | datagram buf env =>
    rintro last id seqIndex payload - rfl entry hget hnone
    simpa [checkNotLate, hget, hnone] using h
  | timeoutPackets => trivial

/-- The first of two parts comes twice, 900 apart, and is still known 600 later. -/
theorem timestamps_iff_parts :
    ∃ r r', (system 2).GuardedRun (fun r input => input.NoError ∧ r.NotLate input) (init 0) r ∧
      (system 2).step r (.timeoutPackets 1000 (.accepting 1500)) = some r' ∧ r.Timestamps ∧
      r.buffer.packets.get? (.replicate 7) ≠ none ∧
      r'.buffer.packets.get? (.replicate 7) ≠ none := by
  obtain ⟨r, hrun, hgoal⟩ := Lts.exists_guardedRun (system 2)
    (fun r input => input.NoError ∧ r.NotLate input) checkNotLate (init 0)
    [.datagram (chunkDatagram (.replicate 7) (List.replicate 492 1) 0) (.accepting 0),
      .datagram (chunkDatagram (.replicate 7) (List.replicate 492 1) 0) (.accepting 900)]
    (fun r => decide (r.now = 900) && (r.buffer.packets.get? (.replicate 7)).isSome &&
      r.acked.any fun part => decide (part.id = .replicate 7) && decide (part.time = 900))
    (by
      intro r input hinput hcheck
      simp only [List.mem_cons, List.not_mem_nil, or_false] at hinput
      refine ⟨?_, notLate_of_check hcheck⟩
      rcases hinput with rfl | rfl <;> exact Env.accepting_noError _ 7)
    (by decide +kernel)
  simp only [Bool.and_eq_true, decide_eq_true_eq, List.any_eq_true] at hgoal
  obtain ⟨⟨hnow, hsome⟩, part, hpart, hid, htime⟩ := hgoal
  have hknown := Option.isSome_iff_ne_none.mp hsome
  obtain ⟨hiff, hlater⟩ := timestamps_iff 2 0 r
  have hstep : (system 2).step r (.timeoutPackets 1000 (.accepting 1500)) =
      some { r with buffer := r.buffer.timeoutPackets 1000 (.accepting 1500), now := 1500 } := by
    refine if_neg ?_
    rw [hnow]
    decide
  have hcoming : r.KeepsComing (.replicate 7) (.timeoutPackets 1000 (.accepting 1500)) := by
    refine ⟨part, hpart, hid, ?_⟩
    rw [htime]
    decide
  have hguard : ((ReceiverInput.timeoutPackets 1000 (.accepting 1500)).NoError ∧
      r.NotLate (.timeoutPackets 1000 (.accepting 1500))) ∧
      r.KeepsComing (.replicate 7) (.timeoutPackets 1000 (.accepting 1500)) :=
    ⟨⟨trivial, trivial⟩, hcoming⟩
  exact ⟨r, _, hrun, hstep, (hiff.mp hrun).2, hknown,
    (hlater hrun).2 _ _ (Relation.ReflTransGen.single ⟨_, hguard, hstep⟩) hknown⟩

/-- **Forgotten and delivered again.**  The only part of a packet comes every 900 or less, and is
acked every time.  Its timestamp is not the time of the latest one, so it is forgotten 600 after it,
and the next one is reassembled again. -/
theorem timestamps_late_duplicate :
    (∃ r, (system 2).GuardedRun (fun _ input => input.NoError) (init 0) r ∧ ¬r.Timestamps) ∧
      ∃ r, (system 2).GuardedRun (fun _ input => input.NoError) (init 0) r ∧
        r.acked = [⟨.replicate 7, 1600, .reassembled [1, 2]⟩, ⟨.replicate 7, 900, .duplicate⟩,
          ⟨.replicate 7, 0, .reassembled [1, 2]⟩] := by
  constructor
  · obtain ⟨r, hrun, hgoal⟩ := Lts.exists_guardedRun (system 2) (fun _ input => input.NoError)
      (fun _ _ => true) (init 0)
      [.datagram (chunkDatagram (.replicate 7) [1, 2] 0) (.accepting 0),
        .datagram (chunkDatagram (.replicate 7) [1, 2] 0) (.accepting 900)]
      (fun r => (r.buffer.packets.get? (.replicate 7)).any fun entry =>
        decide (r.lastAcked (.replicate 7) ≠ some entry.lastReceive))
      (by
        intro r input hinput _
        simp only [List.mem_cons, List.not_mem_nil, or_false] at hinput
        rcases hinput with rfl | rfl <;> exact Env.accepting_noError _ 7)
      (by decide +kernel)
    rw [Option.any_eq_true] at hgoal
    obtain ⟨entry, hget, hne⟩ := hgoal
    exact ⟨r, hrun, fun h => of_decide_eq_true hne (h _ entry hget)⟩
  · obtain ⟨r, hrun, hgoal⟩ := Lts.exists_guardedRun (system 2) (fun _ input => input.NoError)
      (fun _ _ => true) (init 0)
      [.datagram (chunkDatagram (.replicate 7) [1, 2] 0) (.accepting 0),
        .datagram (chunkDatagram (.replicate 7) [1, 2] 0) (.accepting 900),
        .timeoutPackets 1000 (.accepting 1500),
        .datagram (chunkDatagram (.replicate 7) [1, 2] 0) (.accepting 1600)]
      (fun r => decide (r.acked = [⟨.replicate 7, 1600, .reassembled [1, 2]⟩,
        ⟨.replicate 7, 900, .duplicate⟩, ⟨.replicate 7, 0, .reassembled [1, 2]⟩]))
      (by
        intro r input hinput _
        simp only [List.mem_cons, List.not_mem_nil, or_false] at hinput
        rcases hinput with rfl | rfl | rfl | rfl
        · exact Env.accepting_noError 0 7
        · exact Env.accepting_noError 900 7
        · trivial
        · exact Env.accepting_noError 1600 7)
      (by decide +kernel)
    exact ⟨r, hrun, of_decide_eq_true hgoal⟩

end Receiver

end Ultinet
