import Ultinet.Packet.Transfer

/-!
# When a packet is delivered at most once

The receiver remembers the id of a packet that it reassembled until the sender's `Done` arrives.  A
copy of a part that arrives later is taken for a new packet, and if the packet has one part it is
reassembled again.

`Remembered` excludes that a part arrives whose packet was reassembled and forgotten.  Then no packet
is reported twice, whatever the sender's side does (`Once`).
-/

namespace Ultinet

namespace Transfer

variable {senderAddr receiverAddr : SocketAddr} {s t : Transfer}

/-- The part that arrives does not belong to a packet that the receiver reported and forgot. -/
def Remembered (s : Transfer) : TransferEvent → Prop
  | .atReceiver buf _ => ∀ id, datagramId buf = some id → buf ≠ doneDatagram id →
      s.receiver.packets.get? id = none → id ∉ s.reports.map Prod.fst
  | _ => True

/-- Packets were reported once, and the receiver has all their parts or forgot them. -/
structure Once (s : Transfer) : Prop where
  honest : Honest s
  nodup : (s.reports.map Prod.fst).Nodup
  complete : ∀ id ∈ s.reports.map Prod.fst, s.receiver.packets.get? id ≠ none →
    ∀ payload, (id, payload) ∈ s.log →
      Knows payload (Finset.range (chunkCount payload)) (s.receiver.packets.get? id)
  logged : ∀ id ∈ s.reports.map Prod.fst, id ∈ s.log.map Prod.fst

theorem once_init (batchSize : NonZeroBatchSize) : Once (init batchSize) where
  honest := honest_init batchSize
  nodup := by simp [init]
  complete := by simp [init]
  logged := by simp [init]

/-- A step that leaves the receiver alone. -/
theorem Once.frame (h : Once s) (honest : Honest t) (hreceiver : t.receiver = s.receiver)
    (hreports : t.reports = s.reports) (hlog : s.log ⊆ t.log) : Once t where
  honest := honest
  nodup := by
    rw [hreports]
    exact h.nodup
  complete := by
    rw [hreports, hreceiver]
    intro id hid hknown payload hmem
    obtain ⟨entry, hentry, rfl⟩ := List.mem_map.mp (h.logged id hid)
    obtain rfl := honest.payload_unique (hlog hentry) hmem
    exact h.complete _ hid hknown _ hentry
  logged := by
    rw [hreports]
    exact fun id hid => List.map_subset _ hlog (h.logged id hid)

/-- A part arrives. -/
theorem Once.part (h : Once s) (honest : Honest t) {id : PacketId} {payload : Bytes} {i : ℕ}
    {env : Env} (hmem : (id, payload) ∈ s.log) (hi : i < chunkCount payload)
    (hremembered : Remembered s (.atReceiver (chunkDatagram id payload i) env))
    (hstep : step senderAddr receiverAddr s (.atReceiver (chunkDatagram id payload i) env) =
      some t) : Once t := by
  have hsmall : chunkCount payload < seqIndexBound := h.honest.small _ hmem
  by_cases hreported : id ∈ s.reports.map Prod.fst
  · -- the receiver has every part, so this one is a duplicate
    have hknown : s.receiver.packets.get? id ≠ none := fun hnone =>
      hremembered id datagramId_chunkDatagram chunkDatagram_ne_doneDatagram hnone hreported
    have hfull := h.complete id hreported hknown payload hmem
    obtain ⟨receiver, acks, reports, rfl, hknows, hframe, -, hreports⟩ :=
      step_part hfull hsmall hi hstep
    have hi' : i ∈ Finset.range (chunkCount payload) := Finset.mem_range.mpr hi
    rw [Finset.insert_eq_of_mem hi'] at hknows
    have hnil : reports = [] := by
      rcases hreports with ⟨hnil, -⟩ | ⟨-, hnew, -⟩
      · exact hnil
      · exact absurd hi' hnew
    subst hnil
    refine ⟨honest, by simpa using h.nodup, fun id' hid' hknown' payload' hmem' => ?_, ?_⟩
    · rw [List.append_nil] at hid'
      by_cases hid : id' = id
      · subst hid
        obtain rfl := h.honest.payload_unique hmem hmem'
        exact hknows
      · have hold := h.complete id' hid' ((hframe id' hid) ▸ hknown') payload' hmem'
        exact (hframe id' hid).symm ▸ hold
    · simpa using h.logged
  · obtain ⟨S, hS⟩ := h.honest.knows id payload hmem
    obtain ⟨receiver, acks, reports, rfl, hknows, hframe, -, hreports⟩ :=
      step_part hS hsmall hi hstep
    -- packets reported before are other packets
    have hother : ∀ id' ∈ s.reports.map Prod.fst, receiver.packets.get? id' ≠ none →
        ∀ payload', (id', payload') ∈ s.log →
          Knows payload' (Finset.range (chunkCount payload')) (receiver.packets.get? id') := by
      intro id' hid' hknown' payload' hmem'
      have hne : id' ≠ id := by
        rintro rfl
        exact hreported hid'
      rw [hframe id' hne] at hknown' ⊢
      exact h.complete id' hid' hknown' payload' hmem'
    rcases hreports with ⟨rfl, -⟩ | ⟨rfl, -, hfull⟩
    · exact ⟨honest, by simpa using h.nodup, by simpa using hother, by simpa using h.logged⟩
    · rw [hfull] at hknows
      refine ⟨honest, ?_, fun id' hid' hknown' payload' hmem' => ?_, fun id' hid' => ?_⟩
      · rw [List.map_append, List.map_singleton, List.nodup_append]
        refine ⟨h.nodup, by simp, fun a ha b hb heq => hreported ?_⟩
        rw [heq, List.mem_singleton.mp hb] at ha
        exact ha
      · rw [List.map_append, List.mem_append] at hid'
        rcases hid' with hold | hnew
        · exact hother id' hold hknown' payload' hmem'
        · have hid : id' = id := by simpa using hnew
          subst hid
          obtain rfl := h.honest.payload_unique hmem hmem'
          exact hknows
      · rw [List.map_append, List.mem_append] at hid'
        rcases hid' with hold | hnew
        · exact h.logged id' hold
        · have hid : id' = id := by simpa using hnew
          rw [hid]
          exact List.mem_map_of_mem (f := Prod.fst) hmem

/-- What `Remembered` steps preserve. -/
theorem once_step {e : TransferEvent} (h : Once s) (hok : Genuine s e ∧ Remembered s e)
    (hstep : (system senderAddr receiverAddr).step s e = some t) : Once t := by
  have honest := h.honest.step hok.1 hstep
  change step senderAddr receiverAddr s e = some t at hstep
  cases e with
  | send threshold value env =>
    obtain ⟨packets, bufs, rfl, -, -⟩ := step_send hok.1.2 hstep
    exact h.frame honest rfl rfl (List.subset_append_left _ _)
  | sendPending resendDelay env =>
    simp only [step, Option.some.injEq] at hstep
    subst hstep
    exact h.frame honest rfl rfl (List.Subset.refl _)
  | timeoutPackets maxMissedAcks =>
    simp only [step, Option.some.injEq] at hstep
    subst hstep
    exact h.frame honest rfl rfl (List.Subset.refl _)
  | atSender buf =>
    simp only [step, SendPacketBuffer.handle_eq, Option.some.injEq] at hstep
    subst hstep
    exact h.frame honest rfl rfl (List.Subset.refl _)
  | atReceiver buf env =>
    obtain ⟨id, payload, hmem, rfl | ⟨i, hi, rfl⟩⟩ := h.honest.network buf hok.1
    · obtain rfl := step_done hstep
      refine ⟨honest, h.nodup, fun id' hid' hknown payload' hmem' => ?_, h.logged⟩
      simp only [SortedMap.get?_erase] at hknown ⊢
      split_ifs at hknown ⊢ with hid
      · exact absurd rfl hknown
      · exact h.complete id' hid' hknown payload' hmem'
    · exact h.part honest hmem hi hok.2 hstep

/-- **At most once.**  In every run of an honest sender, over a network that drops, duplicates,
delays and reorders, in which no part arrives whose packet was reassembled and forgotten: no packet
is reassembled twice. -/
theorem at_most_once (senderAddr receiverAddr : SocketAddr) (batchSize : NonZeroBatchSize)
    {s : Transfer}
    (hrun : (system senderAddr receiverAddr).GuardedRun
      (fun s e => Genuine s e ∧ Remembered s e) (init batchSize) s) :
    (s.reports.map Prod.fst).Nodup :=
  (hrun.invariant (I := Once) (fun _ _ _ h hok hstep => once_step h hok hstep)
    (once_init batchSize)).nodup

/-! ## Concrete runs -/

/-- What has to be checked of `Remembered` in each state of a run. -/
def checkRemembered (s : Transfer) (e : TransferEvent) : Bool :=
  decide (Genuine s e) &&
    match e with
    | .atReceiver buf _ => (datagramId buf).all fun id =>
        decide (buf ≠ doneDatagram id → s.receiver.packets.get? id = none →
          id ∉ s.reports.map Prod.fst)
    | _ => true

theorem remembered_of_check {e : TransferEvent} (h : checkRemembered s e = true) :
    Genuine s e ∧ Remembered s e := by
  obtain ⟨hgenuine, hrest⟩ := Bool.and_eq_true_iff.mp h
  refine ⟨of_decide_eq_true hgenuine, ?_⟩
  cases e with
  | atReceiver buf env =>
    intro id hid
    dsimp only at hrest
    rw [hid] at hrest
    exact of_decide_eq_true hrest
  | send | sendPending | timeoutPackets | atSender => trivial

/-- A part that arrives twice before its packet is done is reported once. -/
theorem at_most_once_duplicate :
    ∃ s, (system 1 2).GuardedRun (fun s e => Genuine s e ∧ Remembered s e)
        (init ⟨8, by decide⟩) s ∧
      s.reports.length = 1 ∧ (s.reports.map Prod.fst).Nodup := by
  obtain ⟨s, hrun, hs⟩ := Lts.exists_guardedRun (system 1 2)
    (fun s e => Genuine s e ∧ Remembered s e) checkRemembered (init ⟨8, by decide⟩)
    [.send 4 [[1], [2]] (.accepting 0),
      .atReceiver (chunkDatagram (.replicate 7) [1, 2] 0) (.accepting 0),
      .atReceiver (chunkDatagram (.replicate 7) [1, 2] 0) (.accepting 1),
      .atSender (ackDatagram (.replicate 7) 0), .sendPending 0 (.accepting 2),
      .atReceiver (doneDatagram (.replicate 7)) (.accepting 3)]
    (fun s => s.reports.length = 1) (fun _ _ _ => remembered_of_check) (by decide +kernel)
  exact ⟨s, hrun, of_decide_eq_true hs, at_most_once 1 2 _ hrun⟩

/-- **Delivered twice.**  A copy of a part that arrives after the `Done` is reported again. -/
theorem delivered_twice :
    ∃ s, (system 1 2).GuardedRun Genuine (init ⟨8, by decide⟩) s ∧
      s.reports = [(.replicate 7, [1, 2]), (.replicate 7, [1, 2])] := by
  obtain ⟨s, hrun, hs⟩ := Lts.exists_guardedRun (system 1 2) Genuine
    (fun s e => decide (Genuine s e)) (init ⟨8, by decide⟩)
    [.send 4 [[1], [2]] (.accepting 0),
      .atReceiver (chunkDatagram (.replicate 7) [1, 2] 0) (.accepting 0),
      .atSender (ackDatagram (.replicate 7) 0), .sendPending 0 (.accepting 1),
      .atReceiver (doneDatagram (.replicate 7)) (.accepting 2),
      .atReceiver (chunkDatagram (.replicate 7) [1, 2] 0) (.accepting 3)]
    (fun s => s.reports = [(.replicate 7, [1, 2]), (.replicate 7, [1, 2])])
    (fun _ _ _ => of_decide_eq_true) (by decide +kernel)
  exact ⟨s, hrun, of_decide_eq_true hs⟩

end Transfer

end Ultinet
