import Ultinet.Packet.Buffers

/-!
# Dispatching datagrams

The two decoders of `packet.rs` are tried one after the other on the bytes of a datagram, each for
some of the kinds.  Here they are compared with the three encoders: `PacketBuffer`, `ack` and `done`.

`WellFormed buf` says that a datagram has a kind that is handled and is long enough for its fields.
Every other datagram is rejected and changes nothing (`handle_of_not_wellFormed`), and a well-formed
one is what an encoder makes, up to bytes behind the fields of an ack or a `Done`
(`WellFormed.cases`).  So the lemmas on encoded datagrams (`handle_part`, `handle_ack`,
`handle_done`) cover everything that `handle` does.
-/

namespace Ultinet

open Chunking

variable {buf : Bytes}

/-! ## Well-formed datagrams -/

/-- The kind of a datagram is handled, and its fields are there. -/
def WellFormed (buf : Bytes) : Prop :=
  ∃ byte kind, buf.head? = some byte ∧ PacketKind.tryFrom byte = some kind ∧
    ((kind = .part ∨ kind = .lastPart ∨ kind = .ack) ∧ 21 ≤ buf.length ∨
      kind = .done ∧ 17 ≤ buf.length)

/-- A datagram of at least 17 bytes is its kind, an id and a rest. -/
theorem exists_id (hlen : 17 ≤ buf.length) {byte : UInt8} (hhead : buf.head? = some byte) :
    ∃ (id : PacketId) (rest : Bytes), buf = [byte] ++ id.bytes ++ rest := by
  obtain ⟨tail, rfl⟩ : ∃ tail, buf = byte :: tail := by
    cases buf with
    | nil => cases hhead
    | cons b tail =>
      cases hhead
      exact ⟨tail, rfl⟩
  rw [List.length_cons] at hlen
  refine ⟨⟨tail.take 16, by rw [List.length_take]; omega⟩, tail.drop 16, ?_⟩
  simp

/-- A datagram of at least 21 bytes is its kind, an id, a sequence index and a rest. -/
theorem exists_id_seqIndex (hlen : 21 ≤ buf.length) {byte : UInt8}
    (hhead : buf.head? = some byte) :
    ∃ (id : PacketId) (seqIndex : ℕ) (rest : Bytes), seqIndex < seqIndexBound ∧
      buf = [byte] ++ id.bytes ++ SeqIndex.toLeBytes seqIndex ++ rest := by
  obtain ⟨id, rest, rfl⟩ := exists_id (by omega) hhead
  rw [List.length_append, List.length_append, id.length_bytes, List.length_singleton] at hlen
  have hlen4 : (rest.take 4).length = 4 := by
    rw [List.length_take]
    omega
  obtain ⟨seqIndex, hseq, hbytes, -⟩ := SeqIndex.exists_fromLeBytes hlen4
  refine ⟨id, seqIndex, rest.drop 4, hseq, ?_⟩
  rw [hbytes, List.append_assoc _ (rest.take 4), List.take_append_drop]

/-- **Decoding is onto.**  A well-formed datagram is a part, or an ack or a `Done` with some bytes
behind it. -/
theorem WellFormed.cases (h : WellFormed buf) :
    (∃ last id seqIndex payload, seqIndex < seqIndexBound ∧
        buf = partDatagram last id seqIndex payload) ∨
      (∃ id seqIndex rest, seqIndex < seqIndexBound ∧ buf = ackDatagram id seqIndex ++ rest) ∨
      ∃ id rest, buf = doneDatagram id ++ rest := by
  obtain ⟨byte, kind, hhead, hkind, ⟨hkinds, hlen⟩ | ⟨rfl, hlen⟩⟩ := h
  · obtain ⟨id, seqIndex, rest, hseq, hbuf⟩ := exists_id_seqIndex hlen hhead
    have hbyte := PacketKind.toByte_of_tryFrom hkind
    rcases hkinds with rfl | rfl | rfl
    · exact Or.inl ⟨false, id, seqIndex, rest, hseq, by rw [hbuf, ← hbyte]; rfl⟩
    · exact Or.inl ⟨true, id, seqIndex, rest, hseq, by rw [hbuf, ← hbyte]; rfl⟩
    · refine Or.inr (Or.inl ⟨id, seqIndex, rest, hseq, ?_⟩)
      rw [hbuf, ← hbyte, ackDatagram_eq]
  · obtain ⟨id, rest, hbuf⟩ := exists_id hlen hhead
    refine Or.inr (Or.inr ⟨id, rest, ?_⟩)
    rw [hbuf, ← PacketKind.toByte_of_tryFrom hkind, doneDatagram_eq]

/-- Every encoded part is well formed. -/
theorem wellFormed_partDatagram (last : Bool) (id : PacketId) (seqIndex : ℕ) (payload : Bytes) :
    WellFormed (partDatagram last id seqIndex payload) := by
  have hlen : 21 ≤ (partDatagram last id seqIndex payload).length := by
    have hheader := length_partHeader last id seqIndex
    rw [partDatagram, List.length_append, hheader]
    unfold headerLen packetKindSize packetIdSize seqIndexSize
    omega
  refine ⟨(if last then PacketKind.lastPart else PacketKind.part).toByte,
    if last then .lastPart else .part, ?_, PacketKind.tryFrom_toByte _, Or.inl ⟨?_, hlen⟩⟩
  · simp [partDatagram, partHeader]
  · cases last <;> simp

namespace ReceivePacketBuffer

variable {b b' : ReceivePacketBuffer} {addr : SocketAddr} {env env' : Env}
  {result : Except HandlePacketError ReceivedPacketHandling}

/-- Everything that handling a datagram can do to the packets being received: it is a part, a `Done`,
or something else that is left alone. -/
inductive Handled (b : ReceivePacketBuffer) (buf : Bytes) (addr : SocketAddr) (env : Env) :
    Except HandlePacketError ReceivedPacketHandling → ReceivePacketBuffer → Env → Prop
  | part (last : Bool) (id : PacketId) (seqIndex : ℕ) (payload : Bytes)
      (hseq : seqIndex < seqIndexBound) (hbuf : buf = partDatagram last id seqIndex payload)
      (result : Except PacketReceiveError ReceivedPacket) (b' : ReceivePacketBuffer) (env' : Env)
      (hreceive : b.receive last id seqIndex payload addr env = .ok (result, b', env')) :
      Handled b buf addr env ((result.mapError .receive).map .ack) b' env'
  | done (id : PacketId) (rest : Bytes) (hbuf : buf = doneDatagram id ++ rest) :
      Handled b buf addr env (.ok (.done (b.done id).1)) (b.done id).2 env
  | other (result : Except HandlePacketError ReceivedPacketHandling)
      (hbuf : ∀ last id seqIndex payload, buf ≠ partDatagram last id seqIndex payload)
      (hresult : ∀ received, result ≠ .ok (.ack received)) : Handled b buf addr env result b env

/-- A datagram that is not well formed is rejected or left to someone else. -/
theorem handle_of_not_wellFormed (b : ReceivePacketBuffer) (addr : SocketAddr) (env : Env)
    (h : ¬WellFormed buf) :
    ∃ result, b.handle buf addr env = .ok (result, b, env) ∧
      ∀ received, result ≠ .ok (.ack received) := by
  cases buf with
  | nil => exact ⟨_, rfl, by simp⟩
  | cons byte rest =>
    simp only [handle_eq, handleFields, List.head?_cons]
    cases hkind : PacketKind.tryFrom byte with
    | none => exact ⟨_, rfl, by simp⟩
    | some kind =>
      have hshort : kind = .part ∨ kind = .lastPart → slice (byte :: rest)
          (packetKindSize + packetIdSize) (packetKindSize + packetIdSize + seqIndexSize) = none := by
        intro hkinds
        refine slice_eq_none (not_le.mp fun hlen => h ?_)
        exact ⟨byte, kind, rfl, hkind, Or.inl ⟨hkinds.imp_right Or.inl, hlen⟩⟩
      cases kind with
      | part =>
        simp only [hshort (by simp), Option.bind_none]
        exact ⟨_, rfl, by simp⟩
      | lastPart =>
        simp only [hshort (by simp), Option.bind_none]
        exact ⟨_, rfl, by simp⟩
      | done =>
        have hid : slice (byte :: rest) packetKindSize (packetKindSize + packetIdSize) = none := by
          refine slice_eq_none (not_le.mp fun hlen => h ?_)
          exact ⟨byte, .done, rfl, hkind, Or.inr ⟨rfl, hlen⟩⟩
        simp only [hid, Option.bind_none]
        exact ⟨_, rfl, by simp⟩
      | ack | version | ping | firstUpdate => exact ⟨_, rfl, by simp⟩

theorem handle_handled (h : b.handle buf addr env = .ok (result, b', env')) :
    b.Handled buf addr env result b' env' := by
  by_cases hwf : WellFormed buf
  · rcases hwf.cases with ⟨last, id, seqIndex, payload, hseq, rfl⟩ | ⟨id, seqIndex, rest, -, rfl⟩ |
      ⟨id, rest, rfl⟩
    · rw [b.handle_part id payload last hseq addr env] at h
      cases hreceive : b.receive last id seqIndex payload addr env with
      | error abort =>
        rw [hreceive] at h
        cases h
      | ok received =>
        obtain ⟨received, _, _⟩ := received
        rw [hreceive] at h
        cases h
        exact .part last id seqIndex payload hseq rfl received _ _ hreceive
    · have hcall : b.handle (ackDatagram id seqIndex ++ rest) addr env =
          .ok (.ok .unhandled, b, env) := by
        rw [ackDatagram_eq, List.append_assoc, List.append_assoc, List.singleton_append]
        simp only [handle_eq, handleFields, List.head?_cons, PacketKind.tryFrom_toByte]
      rw [hcall] at h
      cases h
      refine .other _ (fun last id' k payload heq => ?_) (by simp)
      have hhead := congrArg List.head? heq
      rw [ackDatagram_eq] at hhead
      cases last <;> simp [partDatagram, partHeader, PacketKind.toByte] at hhead
    · have hid := slice_id PacketKind.done.toByte id rest
      rw [List.append_assoc, List.singleton_append] at hid
      have hcall : b.handle (doneDatagram id ++ rest) addr env =
          .ok (.ok (.done (b.done id).1), (b.done id).2, env) := by
        rw [doneDatagram_eq, List.append_assoc, List.singleton_append]
        simp only [handle_eq, handleFields, List.head?_cons, PacketKind.tryFrom_toByte, hid]
      rw [hcall] at h
      cases h
      exact .done id rest rfl
  · obtain ⟨result', hcall, hresult⟩ := b.handle_of_not_wellFormed addr env hwf
    rw [hcall] at h
    cases h
    refine .other _ (fun last id k payload heq => hwf ?_) hresult
    rw [heq]
    exact wellFormed_partDatagram last id k payload

end ReceivePacketBuffer

/-! ## What is sent back -/

/-- Some acks to an address were tried, and nothing else. -/
def Env.Acks (addr : SocketAddr) (env env' : Env) : Prop :=
  ∃ tried bufs : List Bytes,
    env' = env.record (tried.map (Prod.mk addr)) (bufs.map (Prod.mk addr)) ∧
    ∀ buf ∈ tried, ∃ id seqIndex, buf = ackDatagram id seqIndex

theorem Env.Acks.refl (addr : SocketAddr) (env : Env) : env.Acks addr env :=
  ⟨[], [], env.record_nil.symm, by simp⟩

theorem ack_acks (id : PacketId) (seqIndex : ℕ) (addr : SocketAddr) (env : Env) :
    env.Acks addr (ack id seqIndex addr env).2 := by
  have hsend : env.Acks addr (env.send addr (ackDatagram id seqIndex)).2 := by
    have htried : ∀ buf ∈ [ackDatagram id seqIndex], ∃ id seqIndex, buf = ackDatagram id seqIndex :=
      fun buf hbuf => ⟨id, seqIndex, List.mem_singleton.mp hbuf⟩
    rcases env.send_cases addr (ackDatagram id seqIndex) with
      ⟨hsend, -⟩ | ⟨hsend, -⟩ | ⟨error, hsend, -⟩
    · rw [hsend]
      exact ⟨_, [ackDatagram id seqIndex], rfl, htried⟩
    · rw [hsend]
      exact ⟨_, [], rfl, htried⟩
    · rw [hsend]
      exact ⟨_, [], rfl, htried⟩
  unfold ack
  split <;> rename_i heq <;> rw [heq] at hsend <;> exact hsend

namespace ReceivePacketBuffer

variable {b b' : ReceivePacketBuffer} {addr : SocketAddr} {env env' : Env} {last : Bool}
  {id : PacketId} {seqIndex : ℕ} {payload : Bytes}

theorem receiveSingle_acks (b : ReceivePacketBuffer) (id : PacketId) (seqIndex : ℕ)
    (payload : Bytes) (addr : SocketAddr) (env : Env) :
    env.Acks addr (b.receiveSingle id seqIndex payload addr env).2.2 := by
  have hack := ack_acks id seqIndex addr env
  unfold receiveSingle
  split
  · dsimp only
    split <;> rename_i heq <;> rw [heq] at hack <;> exact hack
  · split
    · split <;> rename_i heq <;> rw [heq] at hack <;> exact hack
    · exact .refl addr env

theorem receive_acks {result : Except PacketReceiveError ReceivedPacket}
    (h : b.receive last id seqIndex payload addr env = .ok (result, b', env')) :
    env.Acks addr env' := by
  have hack := ack_acks id seqIndex addr env
  unfold receive at h
  split_ifs at h with honly
  · have hsingle := b.receiveSingle_acks id seqIndex payload addr env
    rw [Except.ok.inj h] at hsingle
    exact hsingle
  · unfold receivePart at h
    dsimp only at h
    split at h
    · cases h
      exact .refl addr env
    · rename_i packet hpacket
      cases hreceive : packet.receive last seqIndex payload with
      | error abort => simp [hreceive, bind, Except.bind] at h
      | ok received =>
        simp only [hreceive, bind, Except.bind, pure, Except.pure] at h
        split at h <;> rename_i heq <;> cases h <;> rw [heq] at hack <;> exact hack

theorem handle_acks {buf : Bytes} {result : Except HandlePacketError ReceivedPacketHandling}
    (h : b.handle buf addr env = .ok (result, b', env')) : env.Acks addr env' := by
  cases handle_handled h with
  | part last id seqIndex payload hseq hbuf received _ _ hreceive => exact receive_acks hreceive
  | done | other => exact .refl addr env

end ReceivePacketBuffer

/-- **Handling a datagram sends acks to its sender only.** -/
theorem PacketBuffers.handle_acks {b b' : PacketBuffers} {buf : Bytes} {addr : SocketAddr}
    {env env' : Env} {result : Except HandlePacketError PacketHandling}
    (h : b.handle buf addr env = .ok (result, b', env')) : env.Acks addr env' := by
  unfold handle at h
  cases buf with
  | nil =>
    cases h
    exact .refl addr env
  | cons kind data =>
    dsimp only at h
    cases hreceive : b.receiveBuffer.handle (kind :: data) addr env with
    | error abort => simp [hreceive, bind, Except.bind] at h
    | ok handled =>
      obtain ⟨result', receiveBuffer, env''⟩ := handled
      have hacks := ReceivePacketBuffer.handle_acks hreceive
      simp only [hreceive, SendPacketBuffer.handle_eq, bind, Except.bind, pure, Except.pure] at h
      split at h
      · cases h
        exact hacks
      · cases h
        exact hacks
      · cases h
        exact hacks
      · split at h <;> cases h <;> exact hacks

/-- Receiving the only part of a packet uses the socket for one ack at most. -/
theorem ReceivePacketBuffer.receiveSingle_env (b : ReceivePacketBuffer) (id : PacketId) (seqIndex : ℕ)
    (payload : Bytes) (addr : SocketAddr) (env : Env) :
    (b.receiveSingle id seqIndex payload addr env).2.2 = env ∨
      (b.receiveSingle id seqIndex payload addr env).2.2 = (ack id seqIndex addr env).2 := by
  unfold receiveSingle
  split
  · refine Or.inr ?_
    dsimp only
    split <;> rename_i heq <;> rw [heq]
  · split
    · refine Or.inr ?_
      split <;> rename_i heq <;> rw [heq]
    · exact Or.inl rfl

/-- Handling a datagram uses the socket for one ack at most. -/
theorem ReceivePacketBuffer.handle_env {b b' : ReceivePacketBuffer} {buf : Bytes} {addr : SocketAddr}
    {env env' : Env} {result : Except HandlePacketError ReceivedPacketHandling}
    (h : b.handle buf addr env = .ok (result, b', env')) :
    env' = env ∨ ∃ id seqIndex, env' = (ack id seqIndex addr env).2 := by
  cases handle_handled h with
  | done | other => exact Or.inl rfl
  | part last id seqIndex payload hseq hbuf received _ _ hreceive =>
    unfold receive at hreceive
    split_ifs at hreceive
    · have hsingle := b.receiveSingle_env id seqIndex payload addr env
      rw [Except.ok.inj hreceive] at hsingle
      exact hsingle.imp_right fun heq => ⟨id, seqIndex, heq⟩
    · unfold receivePart at hreceive
      dsimp only at hreceive
      split at hreceive
      · cases hreceive
        exact Or.inl rfl
      · obtain ⟨⟨received', packet'⟩, -, hreceive⟩ := exists_of_bind_ok hreceive
        refine Or.inr ⟨id, seqIndex, ?_⟩
        dsimp only at hreceive
        split at hreceive <;> rename_i heq <;> cases hreceive <;> rw [heq]

/-- **Handling a datagram sends nothing but an ack to its sender.** -/
theorem PacketBuffers.handle_sent {b b' : PacketBuffers} {buf : Bytes} {addr : SocketAddr}
    {env env' : Env} {result : Except HandlePacketError PacketHandling}
    (h : b.handle buf addr env = .ok (result, b', env')) :
    ∃ acks : List Bytes, env'.sent = env.sent ++ acks.map (Prod.mk addr) ∧
      ∀ ack ∈ acks, ∃ id seqIndex, ack = ackDatagram id seqIndex := by
  have henv : env' = env ∨ ∃ id seqIndex, env' = (Ultinet.ack id seqIndex addr env).2 := by
    unfold handle at h
    cases buf with
    | nil =>
      cases h
      exact Or.inl rfl
    | cons kind data =>
      dsimp only at h
      obtain ⟨⟨received, receiveBuffer, env''⟩, hreceive, h⟩ := exists_of_bind_ok h
      have hafter := ReceivePacketBuffer.handle_env hreceive
      dsimp only at h
      split at h
      · cases h
        exact hafter
      · cases h
        exact hafter
      · cases h
        exact hafter
      · obtain ⟨⟨sent, sendBuffer⟩, -, h⟩ := exists_of_bind_ok h
        dsimp only at h
        split at h <;> cases h <;> exact hafter
  rcases henv with rfl | ⟨id, seqIndex, rfl⟩
  · exact ⟨[], by simp, by simp⟩
  · unfold Ultinet.ack
    rcases env.send_cases addr (ackDatagram id seqIndex) with
      ⟨hsend, -⟩ | ⟨hsend, -⟩ | ⟨error, hsend, -⟩ <;> rw [hsend]
    · exact ⟨[ackDatagram id seqIndex], rfl, fun buf hbuf =>
        ⟨id, seqIndex, List.mem_singleton.mp hbuf⟩⟩
    · exact ⟨[], by simp [Env.record], by simp⟩
    · exact ⟨[], by simp [Env.record], by simp⟩

namespace PacketBuffers

variable (b : PacketBuffers) (addr : SocketAddr) (env : Env)

/-! ## The three operations behind `handle` -/

/-- Give a part to the packets being received. -/
def receive (last : Bool) (id : PacketId) (seqIndex : ℕ) (payload : Bytes) :
    Exec (Except HandlePacketError PacketHandling × PacketBuffers × Env) :=
  (b.receiveBuffer.receive last id seqIndex payload addr env).map
    fun (result, receiveBuffer, env) =>
      ((result.mapError .receive).map .received, { b with receiveBuffer }, env)

/-- Give an ack to the packets being sent. -/
def ack (id : PacketId) (seqIndex : ℕ) : Except HandlePacketError PacketHandling × PacketBuffers :=
  let (result, sendBuffer) := b.sendBuffer.ack id seqIndex
  ((result.mapError fun kind => .ack ⟨id, kind⟩).map .ack, { b with sendBuffer })

/-- Give a `Done` to the packets being received. -/
def done (id : PacketId) : PacketHandling × PacketBuffers :=
  let (knownPacket, receiveBuffer) := b.receiveBuffer.done id
  (.done knownPacket, { b with receiveBuffer })

/-- A part goes to the packets being received. -/
theorem handle_part (last : Bool) (id : PacketId) {seqIndex : ℕ} (hseq : seqIndex < seqIndexBound)
    (payload : Bytes) :
    b.handle (partDatagram last id seqIndex payload) addr env =
      b.receive addr env last id seqIndex payload := by
  have hcons : ∃ kind rest, partDatagram last id seqIndex payload = kind :: rest :=
    ⟨_, _, by simp [partDatagram, partHeader]; exact ⟨rfl, rfl⟩⟩
  obtain ⟨kind, rest, hbuf⟩ := hcons
  have hhandle := b.receiveBuffer.handle_part id payload last hseq addr env
  rw [hbuf] at hhandle ⊢
  simp only [handle, hhandle, receive]
  cases b.receiveBuffer.receive last id seqIndex payload addr env with
  | error abort => rfl
  | ok received =>
    obtain ⟨result, receiveBuffer, env'⟩ := received
    cases result <;> rfl

/-- An ack goes to the packets being sent, whatever follows it. -/
theorem handle_ack (id : PacketId) {seqIndex : ℕ} (hseq : seqIndex < seqIndexBound)
    (rest : Bytes) :
    b.handle (ackDatagram id seqIndex ++ rest) addr env =
      .ok ((b.ack id seqIndex).1, (b.ack id seqIndex).2, env) := by
  have hbuf : ackDatagram id seqIndex ++ rest =
      PacketKind.ack.toByte :: (id.bytes ++ (SeqIndex.toLeBytes seqIndex ++ rest)) := by
    simp [ackDatagram_eq]
  have hid := slice_id PacketKind.ack.toByte id (SeqIndex.toLeBytes seqIndex ++ rest)
  have hindex := slice_seqIndex PacketKind.ack.toByte id hseq rest
  rw [List.append_assoc, List.singleton_append] at hid hindex
  rw [hbuf]
  simp only [handle, ReceivePacketBuffer.handle_eq, ReceivePacketBuffer.handleFields,
    SendPacketBuffer.handle_eq, SendPacketBuffer.handleFields, List.head?_cons,
    PacketKind.tryFrom_toByte, hid, hindex, bind, Except.bind, ack]
  rcases b.sendBuffer.ack id seqIndex with ⟨result, sendBuffer⟩
  cases result <;> rfl

/-- A `Done` goes to the packets being received, whatever follows it. -/
theorem handle_done (id : PacketId) (rest : Bytes) :
    b.handle (doneDatagram id ++ rest) addr env =
      .ok (.ok (b.done id).1, (b.done id).2, env) := by
  have hbuf : doneDatagram id ++ rest = PacketKind.done.toByte :: (id.bytes ++ rest) := by
    simp [doneDatagram_eq]
  have hid := slice_id PacketKind.done.toByte id rest
  rw [List.append_assoc, List.singleton_append] at hid
  rw [hbuf]
  simp only [handle, ReceivePacketBuffer.handle_eq, ReceivePacketBuffer.handleFields, List.head?_cons,
    PacketKind.tryFrom_toByte, hid]
  rfl

/-- The errors of a datagram that is not well formed. -/
def Rejection (buf : Bytes) (error : HandlePacketError) : Prop :=
  error = .empty ∨ error = .malformed ∨ ∃ byte, buf.head? = some byte ∧ error = .unexpectedKind byte

/-- A datagram that is not well formed has an error of its own, whoever gets it. -/
theorem exists_rejection {buf : Bytes} (h : ¬WellFormed buf) :
    ∃ error, Rejection buf error ∧ ∀ (b : PacketBuffers) (addr : SocketAddr) (env : Env),
      b.handle buf addr env = .ok (.error error, b, env) := by
  cases buf with
  | nil => exact ⟨.empty, Or.inl rfl, fun _ _ _ => rfl⟩
  | cons byte rest =>
    have hshort : ∀ kind, PacketKind.tryFrom byte = some kind →
        (kind = .part ∨ kind = .lastPart ∨ kind = .ack → (byte :: rest).length < 21) ∧
          (kind = .done → (byte :: rest).length < 17) := by
      intro kind hkind
      constructor
      · intro hkinds
        by_contra hlen
        exact h ⟨byte, kind, rfl, hkind, Or.inl ⟨hkinds, by omega⟩⟩
      · intro hdone
        by_contra hlen
        exact h ⟨byte, kind, rfl, hkind, Or.inr ⟨hdone, by omega⟩⟩
    have hseq : (byte :: rest).length < 21 → slice (byte :: rest) (packetKindSize + packetIdSize)
        (packetKindSize + packetIdSize + seqIndexSize) = none :=
      fun hlen => slice_eq_none hlen
    have hid : (byte :: rest).length < 17 → slice (byte :: rest) packetKindSize
        (packetKindSize + packetIdSize) = none :=
      fun hlen => slice_eq_none hlen
    simp only [handle, ReceivePacketBuffer.handle_eq, ReceivePacketBuffer.handleFields,
      SendPacketBuffer.handle_eq, SendPacketBuffer.handleFields, List.head?_cons]
    cases hkind : PacketKind.tryFrom byte with
    | none => exact ⟨.unexpectedKind byte, Or.inr (Or.inr ⟨byte, rfl, rfl⟩), fun _ _ _ => rfl⟩
    | some kind =>
      obtain ⟨hpart, hdone⟩ := hshort kind hkind
      cases kind with
      | part =>
        simp only [hseq (hpart (by simp)), Option.bind_none]
        exact ⟨.malformed, Or.inr (Or.inl rfl), fun _ _ _ => rfl⟩
      | lastPart =>
        simp only [hseq (hpart (by simp)), Option.bind_none]
        exact ⟨.malformed, Or.inr (Or.inl rfl), fun _ _ _ => rfl⟩
      | done =>
        simp only [hid (hdone rfl), Option.bind_none]
        exact ⟨.malformed, Or.inr (Or.inl rfl), fun _ _ _ => rfl⟩
      | ack =>
        refine ⟨.malformed, Or.inr (Or.inl rfl), fun b addr env => ?_⟩
        simp only [bind, Except.bind, hseq (hpart (by simp)), Option.bind_none]
        cases (slice (byte :: rest) packetKindSize (packetKindSize + packetIdSize)).bind
          Uuid.fromSlice <;> rfl
      | version => exact ⟨.unexpectedKind byte, Or.inr (Or.inr ⟨byte, rfl, rfl⟩), fun _ _ _ => rfl⟩
      | ping => exact ⟨.unexpectedKind byte, Or.inr (Or.inr ⟨byte, rfl, rfl⟩), fun _ _ _ => rfl⟩
      | firstUpdate => exact ⟨.unexpectedKind byte, Or.inr (Or.inr ⟨byte, rfl, rfl⟩), fun _ _ _ => rfl⟩

/-- **Rejected datagrams.**  A datagram that is not well formed is rejected and changes nothing. -/
theorem handle_of_not_wellFormed {buf : Bytes} (h : ¬WellFormed buf) :
    ∃ error, Rejection buf error ∧ b.handle buf addr env = .ok (.error error, b, env) := by
  obtain ⟨error, hrejection, hhandle⟩ := exists_rejection h
  exact ⟨error, hrejection, hhandle b addr env⟩

end PacketBuffers

/-! ## The buffers that are sent -/

namespace PacketBuffer

/-- The buffers that the operations of `PacketBuffer` build for a part of a packet. -/
inductive Built (id : PacketId) : Bool → ℕ → PacketBuffer → Prop
  | new : Built id false 0 (new id)
  | append {k : ℕ} {b : PacketBuffer} (h : Built id false k b) (data : Bytes) :
      Built id false k (b.append data).2
  | skip {k : ℕ} {b : PacketBuffer} (h : Built id false k b) (data : Bytes) :
      Built id false k (b.skip data).2
  | next {k : ℕ} {b b' : PacketBuffer} (h : Built id false k b) (hnext : b.next = .ok b') :
      Built id false (k + 1) b'
  | newNext {k : ℕ} {b b' : PacketBuffer} (h : Built id false k b)
      (hnext : b.newNext = .ok b') : Built id false (k + 1) b'
  | markLast {k : ℕ} {b : PacketBuffer} (h : Built id false k b) : Built id true k b.markLast
  | copy {last : Bool} {k : ℕ} {b : PacketBuffer} (h : Built id last k b) : Built id last k b.copy

/-- The bytes behind the header. -/
def payload (b : PacketBuffer) : Bytes :=
  b.deref.drop headerLen

variable {id : PacketId} {last : Bool} {k : ℕ} {b b' : PacketBuffer}

theorem length_deref (b : PacketBuffer) : b.deref.length = b.len := by
  rw [deref, List.length_take, b.length_data]
  exact Nat.min_eq_left b.len_le

theorem length_payload_le (b : PacketBuffer) : b.payload.length ≤ 491 := by
  have hle := b.len_le
  rw [payload, List.length_drop, length_deref]
  unfold packetBufferSize at hle
  unfold headerLen packetKindSize packetIdSize seqIndexSize
  omega

/-- The buffer starts with the header of a part. -/
structure HasHeader (id : PacketId) (last : Bool) (k : ℕ) (b : PacketBuffer) : Prop where
  acked : b.acked = false
  le_len : headerLen ≤ b.len
  header : b.data.take headerLen = partHeader last id k
  seqIndex_lt : k < seqIndexBound

theorem HasHeader.headed (h : HasHeader id false k b) : Headed id k (b.len - headerLen) b where
  acked := h.acked
  len := by
    have hle := h.le_len
    omega
  header := h.header

theorem Headed.hasHeader {n : ℕ} (h : Headed id k n b) (hk : k < seqIndexBound) :
    HasHeader id false k b where
  acked := h.acked
  le_len := by
    rw [h.len]
    exact Nat.le_add_right _ _
  header := h.header
  seqIndex_lt := hk

/-- The sequence index of a header is incremented, unless it overflows. -/
theorem HasHeader.incSeqIndex (h : HasHeader id false k b) (hinc : b.incSeqIndex = .ok b') :
    HasHeader id false (k + 1) b' := by
  by_cases hk : k + 1 < seqIndexBound
  · obtain ⟨b'', hb'', hheaded, -⟩ := incSeqIndex_headed h.headed hk
    rw [hinc] at hb''
    cases hb''
    exact hheaded.hasHeader hk
  · have hindex : (b.data.drop (packetKindSize + packetIdSize)).take
        (headerLen - (packetKindSize + packetIdSize)) = SeqIndex.toLeBytes k := by
      rw [← List.take_append_drop headerLen b.data, h.header]
      simp [partHeader, packetKindSize, packetIdSize, headerLen, seqIndexSize, id.length_bytes,
        List.take_append]
    unfold PacketBuffer.incSeqIndex at hinc
    simp only [hindex, SeqIndex.fromLeBytes_toLeBytes h.seqIndex_lt, SeqIndex.add, if_neg hk] at hinc
    cases hinc

theorem HasHeader.copy (h : HasHeader id last k b) : HasHeader id last k b.copy where
  acked := rfl
  le_len := h.le_len
  header := by
    have hle := h.le_len
    have hlen := b.len_le
    simp only [PacketBuffer.copy, splice, List.take_zero, List.nil_append]
    rw [List.take_append_of_le_length (by rw [List.length_take, b.length_data]; omega),
      List.take_take, Nat.min_eq_left hle, h.header]
  seqIndex_lt := h.seqIndex_lt

theorem HasHeader.copyHeader (h : HasHeader id last k b) : HasHeader id last k b.copyHeader where
  acked := rfl
  le_len := le_rfl
  header := by
    have hle := h.le_len
    have hlen := b.len_le
    simp only [PacketBuffer.copyHeader, splice, List.take_zero, List.nil_append]
    rw [List.take_append_of_le_length (by rw [List.length_take, b.length_data]; omega),
      List.take_take, Nat.min_self, h.header]
  seqIndex_lt := h.seqIndex_lt

theorem HasHeader.markLast (h : HasHeader id false k b) : HasHeader id true k b.markLast where
  acked := h.acked
  le_len := h.le_len
  header := by
    have hsplit : b.data = [PacketKind.part.toByte] ++
        (id.bytes ++ SeqIndex.toLeBytes k ++ b.data.drop headerLen) := by
      conv_lhs => rw [← List.take_append_drop headerLen b.data, h.header]
      simp [partHeader]
    have hmarked : splice b.data 0 [PacketKind.lastPart.toByte] =
        partHeader true id k ++ b.data.drop headerLen := by
      conv_lhs => rw [hsplit]
      refine (splice_append (List.length_nil (α := UInt8)).symm rfl).trans ?_
      simp [partHeader]
    simp only [PacketBuffer.markLast, hmarked]
    rw [← length_partHeader true id k, List.take_left]
  seqIndex_lt := h.seqIndex_lt

/-- Every operation keeps the header. -/
theorem Built.hasHeader (h : Built id last k b) : HasHeader id last k b := by
  induction h with
  | new =>
    rw [new_eq]
    exact (headed_ofPart id 0 (Nat.zero_le _)).hasHeader (by decide)
  | append h data ih => exact (append_headed ih.headed data).hasHeader ih.seqIndex_lt
  | skip h data ih => exact (skip_headed ih.headed data).hasHeader ih.seqIndex_lt
  | next h hnext ih =>
    unfold PacketBuffer.next at hnext
    split_ifs at hnext
    refine HasHeader.incSeqIndex ?_ hnext
    exact ⟨ih.acked, le_rfl, ih.header, ih.seqIndex_lt⟩
  | newNext h hnext ih => exact ih.copyHeader.incSeqIndex hnext
  | markLast h ih => exact ih.markLast
  | copy h ih => exact ih.copy

/-- A buffer with a header is the datagram of a part. -/
theorem HasHeader.deref (h : HasHeader id last k b) :
    b.deref = partDatagram last id k b.payload := by
  have htake : b.deref.take headerLen = partHeader last id k := by
    rw [PacketBuffer.deref, List.take_take, Nat.min_eq_left h.le_len, h.header]
  rw [partDatagram, ← htake, payload, List.take_append_drop]

theorem built_ofPart_nil (id : PacketId) (hk : k < seqIndexBound) :
    Built id false k (ofPart false id k []) := by
  induction k with
  | zero =>
    rw [← new_eq]
    exact .new
  | succ k ih => exact .newNext (ih (by omega)) (newNext_ofPart id (Nat.zero_le _) hk)

/-- Every part of at most 491 bytes can be built. -/
theorem exists_built (last : Bool) (id : PacketId) (hk : k < seqIndexBound) {payload : Bytes}
    (hlen : payload.length ≤ 491) :
    ∃ b, Built id last k b ∧ b.deref = partDatagram last id k payload := by
  have hfits : payload.length ≤ partPacketPayloadSize := hlen
  have hempty : ([] : Bytes).length ≤ partPacketPayloadSize := Nat.zero_le _
  have happend := append_ofPart id k hempty payload
  have hbuilt : Built id false k (ofPart false id k payload) := by
    have := (built_ofPart_nil id hk).append payload
    rwa [happend, List.nil_append, List.length_nil, Nat.sub_zero,
      List.take_of_length_le hfits] at this
  cases last with
  | false => exact ⟨_, hbuilt, deref_ofPart false hfits⟩
  | true =>
    refine ⟨_, hbuilt.markLast, ?_⟩
    rw [markLast_ofPart]
    exact deref_ofPart true hfits

end PacketBuffer

/-- **The wire format.**  The datagrams that `PacketBuffer`, `ack` and `done` build are each
dispatched to one operation with the fields they were built from, and any datagram that is not well
formed is rejected without a change.  No conversion of a slice panics. -/
theorem PacketBuffers.handle_dispatch (b : PacketBuffers) (addr : SocketAddr) (env : Env) :
    (∀ id last seqIndex buffer, PacketBuffer.Built id last seqIndex buffer →
      buffer.payload.length ≤ 491 ∧
        b.handle buffer.deref addr env = b.receive addr env last id seqIndex buffer.payload) ∧
    (∀ id last seqIndex payload, seqIndex < 2 ^ 32 → payload.length ≤ 491 →
      ∃ buffer, PacketBuffer.Built id last seqIndex buffer ∧ buffer.payload = payload) ∧
    (∀ id seqIndex, seqIndex < 2 ^ 32 →
      b.handle (ackDatagram id seqIndex) addr env =
        .ok ((b.ack id seqIndex).1, (b.ack id seqIndex).2, env)) ∧
    (∀ id, b.handle (doneDatagram id) addr env = .ok (.ok (b.done id).1, (b.done id).2, env)) ∧
    (∀ buf, ¬WellFormed buf →
      ∃ error, Rejection buf error ∧ b.handle buf addr env = .ok (.error error, b, env)) ∧
    ∀ buf abort, readId buf ≠ .error abort ∧ readSeqIndex buf ≠ .error abort := by
  refine ⟨fun id last seqIndex buffer hbuilt => ⟨buffer.length_payload_le, ?_⟩,
    fun id last seqIndex payload hseq hlen => ?_, fun id seqIndex hseq => ?_, fun id => ?_,
    fun buf hbuf => b.handle_of_not_wellFormed addr env hbuf, fun buf abort => ⟨?_, ?_⟩⟩
  · have hheader := hbuilt.hasHeader
    rw [hheader.deref]
    exact b.handle_part addr env last id hheader.seqIndex_lt buffer.payload
  · obtain ⟨buffer, hbuilt, hderef⟩ := PacketBuffer.exists_built last id hseq hlen
    refine ⟨buffer, hbuilt, ?_⟩
    rw [PacketBuffer.payload, hderef, partDatagram, ← length_partHeader last id seqIndex,
      List.drop_left]
  · have := b.handle_ack addr env id hseq []
    rwa [List.append_nil] at this
  · have := b.handle_done addr env id []
    rwa [List.append_nil] at this
  · rw [readId_eq]
    simp
  · rw [readSeqIndex_eq]
    simp

end Ultinet
