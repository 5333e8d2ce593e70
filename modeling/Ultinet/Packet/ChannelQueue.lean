import Ultinet.Packet.Resend

/-!
# A queue that is fed by a channel

A queue pulls buffers from its channel only as it needs them.  It sends what a queue would send that
has all buffers from the beginning (`PacketQueue.loaded`): the unacked buffers come in the same order,
none is lost, and no more are pulled than are needed (`PacketQueue.sends_as_loaded`).
-/

namespace Ultinet

/-! ## Filling up a prefix -/

section FillUp

variable {α : Type*} {p : α → Bool} {xs ys : List α}

theorem filter_append_of_forall (hys : ∀ y ∈ ys, p y = true) :
    (xs ++ ys).filter p = xs.filter p ++ ys := by
  rw [List.filter_append, List.filter_eq_self.mpr hys]

/-- Taking as many further elements as are missing is as good as taking all of them. -/
theorem take_filter_append_take (hys : ∀ y ∈ ys, p y = true) (n : ℕ) :
    ((xs ++ ys.take (n - ((xs.filter p).take n).length)).filter p).take n =
      ((xs ++ ys).filter p).take n := by
  have htake : ∀ y ∈ ys.take (n - ((xs.filter p).take n).length), p y = true :=
    fun y hy => hys y (List.mem_of_mem_take hy)
  rw [filter_append_of_forall htake, filter_append_of_forall hys, List.take_append,
    List.take_append, List.length_take]
  congr 1
  rw [List.take_take]
  congr 1
  omega

/-- With fewer elements there are too few. -/
theorem length_filter_append_take_lt (hys : ∀ y ∈ ys, p y = true) {n j : ℕ}
    (hj : j < n - ((xs.filter p).take n).length) : ((xs ++ ys.take j).filter p).length < n := by
  have htake : ∀ y ∈ ys.take j, p y = true := fun y hy => hys y (List.mem_of_mem_take hy)
  have hlength := List.length_take_le j ys
  rw [filter_append_of_forall htake, List.length_append]
  rw [List.length_take] at hj
  omega

end FillUp

namespace PacketQueue

/-! ## Pulling -/

/-- The queue with everything that is still in the channel. -/
def loaded (q : PacketQueue) : PacketQueue where
  packets := q.parts
  firstUnacked := q.firstUnacked
  rx := none

/-- How many buffers are pulled. -/
def missing (q : PacketQueue) (count : ℕ) : ℕ :=
  count - ((pending q.packets).take count).length

/-- Buffers move from the channel to the queue. -/
theorem pull_spec (q : PacketQueue) (count : ℕ) :
    (q.pull count).packets = q.packets ++ (q.rx.getD []).take (q.missing count) ∧
      (q.pull count).rx = q.rx.map (List.drop (q.missing count)) := by
  unfold pull missing
  cases hrx : q.rx with
  | none => simp [hrx]
  | some rx => exact ⟨rfl, rfl⟩

/-- Pulling neither loses, duplicates nor reorders buffers. -/
theorem loaded_pull (q : PacketQueue) (count : ℕ) : (q.pull count).loaded = q.loaded := by
  obtain ⟨hpackets, hrx⟩ := q.pull_spec count
  unfold loaded parts
  rw [hpackets, hrx, PacketOut.pull_firstUnacked, List.append_assoc]
  cases q.rx with
  | none => simp
  | some rx => simp [List.take_append_drop]

theorem parts_pull (q : PacketQueue) (count : ℕ) : (q.pull count).parts = q.parts :=
  congrArg packets (q.loaded_pull count)

/-- The unacked buffers after pulling are the first ones of all. -/
theorem pending_pull {q : PacketQueue} (hq : q.Unmarked) (count : ℕ) :
    (pending (q.pull count).packets).take count = (pending q.parts).take count := by
  obtain ⟨hpackets, -⟩ := q.pull_spec count
  rw [hpackets]
  exact take_filter_append_take (fun b hb => by simp [hq b hb]) count

/-- A loaded queue has nothing to pull. -/
theorem loaded_unacked (q : PacketQueue) (count : ℕ) :
    q.loaded.unacked count = (((pending q.parts).map PacketBuffer.deref).take count, q.loaded) :=
  rfl

/-- **The unacked buffers** are the ones a loaded queue has. -/
theorem unacked_eq_loaded {q : PacketQueue} (hq : q.Unmarked) (count : ℕ) :
    (q.unacked count).1 = (q.loaded.unacked count).1 := by
  rw [loaded_unacked]
  unfold unacked
  dsimp only
  rw [← List.map_take, ← List.map_take, pending_pull hq]

/-! ## Sending -/

/-- On a socket that does not fail, sending stops only where the socket would block. -/
theorem sendBuffers_cut {env : Env} (hno : env.NoError) (addr : SocketAddr) (count : ℕ)
    (bufs : List Bytes) :
    ∃ k ≤ bufs.length, ∃ attempts,
      sendBuffers addr count bufs env =
        (.ok (count + k, decide (k = bufs.length)),
          env.record attempts ((bufs.take k).map (Prod.mk addr))) ∧
      ∀ j buf, bufs[j]? = some buf → j ≤ k →
        env.answer (env.attempts ++ (bufs.take j).map (Prod.mk addr)) (addr, buf) =
          if j < k then .sent else .wouldBlock := by
  induction bufs generalizing count env with
  | nil => exact ⟨0, le_rfl, [], by simp [sendBuffers], by simp⟩
  | cons buf bufs ih =>
    rcases env.send_cases addr buf with ⟨hsend, hanswer⟩ | ⟨hsend, hanswer⟩ | ⟨error, -, hanswer⟩
    · have hno' : (env.record [(addr, buf)] [(addr, buf)]).NoError := hno
      obtain ⟨k, hk, attempts, heq, hcut⟩ := ih hno' (count + 1)
      refine ⟨k + 1, by simpa using hk, (addr, buf) :: attempts, ?_, fun j b hb hj => ?_⟩
      · simp only [sendBuffers, hsend, heq]
        simp
        omega
      · cases j with
        | zero =>
          have hfirst : buf = b := by simpa using hb
          subst hfirst
          simpa using hanswer
        | succ j =>
          have hrest := hcut j b (by simpa using hb) (by omega)
          simpa using hrest
    · refine ⟨0, Nat.zero_le _, [(addr, buf)], by simp [sendBuffers, hsend], fun j b hb hj => ?_⟩
      obtain rfl := Nat.le_zero.mp hj
      have hfirst : buf = b := by simpa using hb
      subst hfirst
      simpa using hanswer
    · exact absurd hanswer (hno _ _ error)

/-- **A queue that is fed by a channel** sends what a queue would send that has all buffers from the
beginning: it yields the first unacked buffers in order, none is lost, duplicated or reordered, and no
more are pulled than are needed.  So nothing is sent on a socket that never blocks if and only if no
unacked buffer is left, and sending is cut short only where the socket would block. -/
theorem sends_as_loaded {q : PacketQueue} (hq : q.Unmarked) :
    (∀ count,
      (q.unacked count).1 = ((pending q.parts).map PacketBuffer.deref).take count ∧
      (q.unacked count).2.parts = q.parts ∧
      ∃ k, (q.unacked count).2.packets = q.packets ++ (q.rx.getD []).take k ∧
        (q.unacked count).2.rx = q.rx.map (List.drop k) ∧
        ∀ j < k, (pending (q.packets ++ (q.rx.getD []).take j)).length < count) ∧
    ∀ (batchSize : NonZeroBatchSize) (addr : SocketAddr) (env : Env), env.NoError →
      ∃ n sent, (q.sendUnacked batchSize addr env).1 = .ok (n, sent) ∧
        ((n = 0 ∧ sent = true) ↔ pending q.parts = []) ∧
        (q.sendUnacked batchSize addr env).2.1.parts = q.parts ∧
        (q.sendUnacked batchSize addr env).2.2.sent =
          env.sent ++ (((pending q.parts).take n).map fun b => (addr, b.deref)) ∧
        n ≤ min batchSize.val (pending q.parts).length ∧
        (sent = true ↔ n = min batchSize.val (pending q.parts).length) ∧
        ∀ b, ((pending q.parts).take batchSize.val)[n]? = some b →
          env.answer (env.attempts ++ ((pending q.parts).take n).map fun b => (addr, b.deref))
            (addr, b.deref) = .wouldBlock := by
  refine ⟨fun count => ⟨unacked_eq_loaded hq count, q.parts_pull count, q.missing count, ?_⟩,
    fun batchSize addr env hno => ?_⟩
  · obtain ⟨hpackets, hrx⟩ := q.pull_spec count
    refine ⟨hpackets, hrx, fun j hj => ?_⟩
    exact length_filter_append_take_lt (fun b hb => by simp [hq b hb]) hj
  · have hbufs : (q.unacked batchSize.val).1 =
        ((pending q.parts).map PacketBuffer.deref).take batchSize.val :=
      unacked_eq_loaded hq batchSize.val
    obtain ⟨n, hn, attempts, hsend, hcut⟩ :=
      sendBuffers_cut hno addr 0 (q.unacked batchSize.val).1
    have hlength : (q.unacked batchSize.val).1.length =
        min batchSize.val (pending q.parts).length := by
      rw [hbufs, List.length_take, List.length_map]
    have htake : ((q.unacked batchSize.val).1.take n).map (Prod.mk addr) =
        ((pending q.parts).take n).map fun b => (addr, b.deref) := by
      rw [hbufs, List.take_take, Nat.min_eq_left (by omega), ← List.map_take, List.map_map]
      rfl
    have hpos := batchSize.property.1
    refine ⟨n, decide (n = (q.unacked batchSize.val).1.length), ?_, ?_, q.parts_pull _, ?_,
      by omega, ?_, fun b hb => ?_⟩
    · simp only [sendUnacked, hsend, Nat.zero_add]
    · rw [decide_eq_true_eq, hlength, ← List.length_eq_zero_iff]
      omega
    · simp only [sendUnacked, hsend, Env.record_sent, htake]
    · rw [decide_eq_true_eq, hlength]
    · have hget : (q.unacked batchSize.val).1[n]? = some b.deref := by
        rw [hbufs, ← List.map_take, List.getElem?_map, hb]
        rfl
      have hblock := hcut n b.deref hget le_rfl
      rw [if_neg (lt_irrefl n), htake] at hblock
      exact hblock

/-- A buffer that is acked and one that is not, and two more in the channel. -/
def halfPulled : PacketQueue where
  packets := [{ PacketBuffer.new (.replicate 7) with acked := true }, .new (.replicate 7)]
  firstUnacked := 0
  rx := some [.new (.replicate 8), .new (.replicate 9)]

/-- Two buffers are needed, so one of the two in the channel is pulled. -/
theorem sends_as_loaded_halfPulled :
    (halfPulled.unacked 2).1 =
        [(PacketBuffer.new (.replicate 7)).deref, (PacketBuffer.new (.replicate 8)).deref] ∧
      (halfPulled.unacked 2).2.rx = some [.new (.replicate 9)] ∧
      (halfPulled.unacked 2).2.parts = halfPulled.parts := by
  have hunmarked : halfPulled.Unmarked := by
    intro b hb
    rcases List.mem_pair.mp hb with rfl | rfl <;> rfl
  obtain ⟨hbufs, hparts, -⟩ := (sends_as_loaded hunmarked).1 2
  exact ⟨hbufs, rfl, hparts⟩

end PacketQueue

end Ultinet
