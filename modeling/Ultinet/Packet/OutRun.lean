import Ultinet.Lib.GuardedRun
import Ultinet.Packet.ChannelQueue

/-!
# A packet being sent, call by call

The calls of a `PacketOut` as a transition system.  `PacketOut.Outcome` says everything a call of
`sendPending` can do; what is proved of runs goes through it.
-/

namespace Ultinet

namespace PacketOut

variable {id : PacketId} {addr : SocketAddr} {env env' : Env} {p p' : PacketOut}

/-! ## Sending what is pending -/

/-- The batch size for the next batch. -/
def balanced (p : PacketOut) : NonZeroBatchSize :=
  balanceBatchSize p.batchSize p.lastBatchAcks p.lastBatchSize

/-- What is sent next, what is left in the queue, and how the socket answers. -/
def nextBatch (p : PacketOut) (addr : SocketAddr) (env : Env) :
    IoResult (ℕ × Bool) × PacketQueue × Env :=
  p.packetQueue.sendUnacked p.balanced addr env

/-- Everything a call of `sendPending` can do: the result, the packet afterwards and the socket. -/
inductive Outcome (p : PacketOut) (id : PacketId) (resendDelay : ℕ) (addr : SocketAddr) (env : Env) :
    IoResult Bool → PacketOut → Env → Prop
  | canceled (hlast : p.lastSend = none) :
      Outcome p id resendDelay addr env (done id addr env).1 p (done id addr env).2
  | early (lastSend : ℕ) (hlast : p.lastSend = some lastSend)
      (hearly : elapsed env.now lastSend < resendDelay) :
      Outcome p id resendDelay addr env (.ok false) p env
  | failed (lastSend : ℕ) (hlast : p.lastSend = some lastSend)
      (hdue : resendDelay ≤ elapsed env.now lastSend) (error : IoError)
      (hsend : (p.nextBatch addr env).1 = .error error) :
      Outcome p id resendDelay addr env (.error error)
        { p with
          batchSize := p.balanced
          packetQueue := (p.nextBatch addr env).2.1 } (p.nextBatch addr env).2.2
  | finished (lastSend : ℕ) (hlast : p.lastSend = some lastSend)
      (hdue : resendDelay ≤ elapsed env.now lastSend)
      (hsend : (p.nextBatch addr env).1 = .ok (0, true)) :
      Outcome p id resendDelay addr env (done id addr (p.nextBatch addr env).2.2).1
        { p with
          batchSize := p.balanced
          packetQueue := (p.nextBatch addr env).2.1 } (done id addr (p.nextBatch addr env).2.2).2
  | resent (lastSend : ℕ) (hlast : p.lastSend = some lastSend)
      (hdue : resendDelay ≤ elapsed env.now lastSend) (count : ℕ) (sent : Bool)
      (hsend : (p.nextBatch addr env).1 = .ok (count, sent)) (hmore : ¬(count = 0 ∧ sent = true)) :
      Outcome p id resendDelay addr env (.ok false)
        { packetQueue := (p.nextBatch addr env).2.1
          lastSend := some (p.nextBatch addr env).2.2.now
          missedAcks := p.missedAcks + (p.lastBatchSize - p.lastBatchAcks)
          batchSize := p.balanced
          lastBatchSize := count
          lastBatchAcks := 0 } (p.nextBatch addr env).2.2

theorem sendPending_outcome (p : PacketOut) (id : PacketId) (resendDelay : ℕ) (addr : SocketAddr)
    (env : Env) :
    Outcome p id resendDelay addr env (p.sendPending id resendDelay addr env).1
      (p.sendPending id resendDelay addr env).2.1 (p.sendPending id resendDelay addr env).2.2 := by
  cases hlast : p.lastSend with
  | none =>
    have hcall : p.sendPending id resendDelay addr env =
        ((done id addr env).1, p, (done id addr env).2) := by
      simp only [sendPending, hlast]
    rw [hcall]
    exact .canceled hlast
  | some lastSend =>
    by_cases hearly : elapsed env.now lastSend < resendDelay
    · have hcall : p.sendPending id resendDelay addr env = (.ok false, p, env) := by
        simp only [sendPending, hlast, if_pos hearly]
      rw [hcall]
      exact .early lastSend hlast hearly
    have hdue : resendDelay ≤ elapsed env.now lastSend := not_lt.mp hearly
    have hbatch : ({ p with batchSize := p.balanced } : PacketOut).packetQueue.sendUnacked p.balanced
        addr env = ((p.nextBatch addr env).1, (p.nextBatch addr env).2.1, (p.nextBatch addr env).2.2) :=
      rfl
    cases hsend : (p.nextBatch addr env).1 with
    | error error =>
      have hcall : p.sendPending id resendDelay addr env =
          (.error error, { p with
            batchSize := p.balanced
            packetQueue := (p.nextBatch addr env).2.1 }, (p.nextBatch addr env).2.2) := by
        rw [hsend] at hbatch
        simp only [sendPending, hlast, if_neg hearly]
        rw [← balanced, hbatch]
      rw [hcall]
      exact .failed lastSend hlast hdue error hsend
    | ok batch =>
      obtain ⟨count, sent⟩ := batch
      rw [hsend] at hbatch
      by_cases hmore : count = 0 ∧ sent = true
      · obtain ⟨rfl, rfl⟩ := hmore
        have hcall : p.sendPending id resendDelay addr env =
            ((done id addr (p.nextBatch addr env).2.2).1, { p with
              batchSize := p.balanced
              packetQueue := (p.nextBatch addr env).2.1 },
              (done id addr (p.nextBatch addr env).2.2).2) := by
          simp only [sendPending, hlast, if_neg hearly]
          rw [← balanced, hbatch]
          rfl
        rw [hcall]
        exact .finished lastSend hlast hdue hsend
      · have hcall : p.sendPending id resendDelay addr env =
            (.ok false, {
              packetQueue := (p.nextBatch addr env).2.1
              lastSend := some (p.nextBatch addr env).2.2.now
              missedAcks := p.missedAcks + (p.lastBatchSize - p.lastBatchAcks)
              batchSize := p.balanced
              lastBatchSize := count
              lastBatchAcks := 0 }, (p.nextBatch addr env).2.2) := by
          simp only [sendPending, hlast, if_neg hearly]
          rw [← balanced, hbatch]
          split
          · rename_i heq
            simp at heq
          · rename_i heq
            simp only [Prod.mk.injEq, Except.ok.injEq] at heq
            exact absurd ⟨heq.1.1, heq.1.2⟩ hmore
          · rename_i heq
            simp only [Prod.mk.injEq, Except.ok.injEq] at heq
            obtain ⟨⟨rfl, rfl⟩, rfl, rfl⟩ := heq
            rfl
        rw [hcall]
        exact .resent lastSend hlast hdue count sent hsend hmore

/-! ## Runs -/

/-- The calls of a packet that is being sent. -/
inductive Op
  | ack (seqIndex : ℕ)
  | sendPending (resendDelay : ℕ) (env : Env)

/-- The packet after a call. -/
def step (id : PacketId) (addr : SocketAddr) (p : PacketOut) : Op → PacketOut
  | .ack seqIndex => (p.ack seqIndex).2
  | .sendPending resendDelay env => (p.sendPending id resendDelay addr env).2.1

/-- The transition system of a packet being sent. -/
def system (id : PacketId) (addr : SocketAddr) : Lts PacketOut Op where
  step p op := some (step id addr p op)

/-- The socket reports no errors during a call. -/
def Op.NoError : Op → Prop
  | .ack _ => True
  | .sendPending _ env => env.NoError

/-- The next batch does not lose parts. -/
theorem nextBatch_parts (p : PacketOut) (addr : SocketAddr) (env : Env) :
    (p.nextBatch addr env).2.1.parts = p.packetQueue.parts :=
  p.packetQueue.parts_pull p.balanced.val

/-- Sending what is pending loses no parts and does not cancel the packet. -/
theorem sendPending_parts (p : PacketOut) (id : PacketId) (resendDelay : ℕ) (addr : SocketAddr)
    (env : Env) :
    (p.sendPending id resendDelay addr env).2.1.packetQueue.parts = p.packetQueue.parts ∧
      ((p.sendPending id resendDelay addr env).2.1.lastSend = none ↔ p.lastSend = none) := by
  have h := p.sendPending_outcome id resendDelay addr env
  generalize (p.sendPending id resendDelay addr env).1 = result at h
  generalize (p.sendPending id resendDelay addr env).2.1 = p' at h ⊢
  generalize (p.sendPending id resendDelay addr env).2.2 = env' at h
  cases h with
  | canceled | early => exact ⟨rfl, Iff.rfl⟩
  | failed | finished => exact ⟨p.nextBatch_parts addr env, Iff.rfl⟩
  | resent _ hlast => exact ⟨p.nextBatch_parts addr env, by simp [hlast]⟩

end PacketOut

end Ultinet
