import Mathlib

/-!
# The environment of a call: clock, socket and random identifiers

Every call into the library reads the clock, sends datagrams through one non-blocking UDP socket and
may draw random UUIDs.  `Env` collects these for one call: the reading of the clock, the answers of
the socket and the UUIDs to come are chosen by the environment, and the datagrams of the call are
recorded.

The answer to a send may depend on everything the call tried to send before, so every behaviour of
the socket is some answer function.
-/

namespace Ultinet

/-- A string of bytes. -/
abbrev Bytes := List UInt8

/-- Equal bytes are the same bytes: what is in a list of datagrams can be decided. -/
instance Bytes.lawfulBEq : LawfulBEq Bytes := inferInstance

/-- The address of a peer.  Only equality and the order of addresses are ever used. -/
abbrev SocketAddr := ℕ

/-- The time since an earlier reading of the monotonic clock; zero if it was not earlier.  Readings
of the clock (`Instant`) and spans of time (`Duration`) are natural numbers of one unit. -/
def elapsed (now earlier : ℕ) : ℕ :=
  now - earlier

/-- An I/O error of the operating system other than "would block". -/
structure IoError where
  code : ℕ
  deriving DecidableEq

/-- A UUID: sixteen bytes. -/
@[ext] structure Uuid where
  bytes : Bytes
  length_bytes : bytes.length = 16

namespace Uuid

/-- The bytes of a UUID as numbers. -/
def digits (u : Uuid) : List ℕ :=
  u.bytes.map UInt8.toNat

theorem digits_injective : Function.Injective digits := by
  intro u v h
  exact Uuid.ext ((List.map_injective_iff.mpr fun _ _ => UInt8.toNat_inj.mp) h)

/-- UUIDs are ordered as their strings of bytes. -/
instance : LinearOrder Uuid :=
  LinearOrder.lift' digits digits_injective

/-- Read a UUID from a slice, which must have exactly sixteen bytes. -/
def fromSlice (bytes : Bytes) : Option Uuid :=
  if h : bytes.length = 16 then some ⟨bytes, h⟩ else none

@[simp] theorem fromSlice_bytes (u : Uuid) : fromSlice u.bytes = some u := by
  simp [fromSlice, u.length_bytes]

/-- The UUID whose bytes are all the same. -/
def replicate (b : UInt8) : Uuid where
  bytes := List.replicate 16 b
  length_bytes := by simp

end Uuid

/-- What the operating system answers to a send. -/
inductive SendAnswer
  | sent
  | wouldBlock
  | failed (error : IoError)
  deriving DecidableEq

/-- The environment of one call. -/
structure Env where
  /-- The reading of the clock. -/
  now : ℕ
  /-- The answer to a send, after the sends tried before it. -/
  answer : List (SocketAddr × Bytes) → SocketAddr × Bytes → SendAnswer
  /-- The random UUIDs, in the order they are drawn. -/
  uuid : ℕ → Uuid
  /-- The sends tried so far. -/
  attempts : List (SocketAddr × Bytes) := []
  /-- The datagrams the socket accepted so far. -/
  sent : List (SocketAddr × Bytes) := []
  /-- How many UUIDs were drawn so far. -/
  drawn : ℕ := 0

/-- The result of a call that may fail with an error. -/
abbrev IoResult (α : Type) := Except IoError α

namespace Env

/-- The environment when a call starts: nothing was sent or drawn yet. -/
def start (env : Env) : Env :=
  { env with attempts := [], sent := [], drawn := 0 }

section Start

variable (env : Env)

@[simp] theorem start_now : env.start.now = env.now := rfl

@[simp] theorem start_answer : env.start.answer = env.answer := rfl

@[simp] theorem start_uuid : env.start.uuid = env.uuid := rfl

@[simp] theorem start_attempts : env.start.attempts = [] := rfl

@[simp] theorem start_sent : env.start.sent = [] := rfl

@[simp] theorem start_drawn : env.start.drawn = 0 := rfl

end Start

/-- Draw a fresh random UUID. -/
def newUuid (env : Env) : Uuid × Env :=
  (env.uuid env.drawn, { env with drawn := env.drawn + 1 })

/-- The environment after some sends were tried, of which some were accepted. -/
def record (env : Env) (attempts sent : List (SocketAddr × Bytes)) : Env :=
  { env with attempts := env.attempts ++ attempts, sent := env.sent ++ sent }

section Record

variable (env : Env) (attempts sent attempts' sent' : List (SocketAddr × Bytes))

@[simp] theorem record_now : (env.record attempts sent).now = env.now := rfl

@[simp] theorem record_answer : (env.record attempts sent).answer = env.answer := rfl

@[simp] theorem record_uuid : (env.record attempts sent).uuid = env.uuid := rfl

@[simp] theorem record_drawn : (env.record attempts sent).drawn = env.drawn := rfl

@[simp] theorem record_attempts :
    (env.record attempts sent).attempts = env.attempts ++ attempts := rfl

@[simp] theorem record_sent : (env.record attempts sent).sent = env.sent ++ sent := rfl

@[simp] theorem record_nil : env.record [] [] = env := by
  simp [record]

@[simp] theorem record_record :
    (env.record attempts sent).record attempts' sent' =
      env.record (attempts ++ attempts') (sent ++ sent') := by
  simp [record]

end Record

/-- Send a datagram to an address: `true` if it was sent, `false` if the socket would block. -/
def send (env : Env) (addr : SocketAddr) (buf : Bytes) : IoResult Bool × Env :=
  match env.answer env.attempts (addr, buf) with
  | .sent => (.ok true, env.record [(addr, buf)] [(addr, buf)])
  | .wouldBlock => (.ok false, env.record [(addr, buf)] [])
  | .failed error => (.error error, env.record [(addr, buf)] [])

/-- Everything a send can do. -/
theorem send_cases (env : Env) (addr : SocketAddr) (buf : Bytes) :
    (env.send addr buf = (.ok true, env.record [(addr, buf)] [(addr, buf)]) ∧
        env.answer env.attempts (addr, buf) = .sent) ∨
      (env.send addr buf = (.ok false, env.record [(addr, buf)] []) ∧
        env.answer env.attempts (addr, buf) = .wouldBlock) ∨
      ∃ error, env.send addr buf = (.error error, env.record [(addr, buf)] []) ∧
        env.answer env.attempts (addr, buf) = .failed error := by
  unfold send
  cases env.answer env.attempts (addr, buf) with
  | sent => simp
  | wouldBlock => simp
  | failed error => simp

/-- The socket of the environment reports no error. -/
def NoError (env : Env) : Prop :=
  ∀ attempts datagram error, env.answer attempts datagram ≠ .failed error

/-- The socket of the environment accepts everything. -/
def Perfect (env : Env) : Prop :=
  ∀ attempts datagram, env.answer attempts datagram = .sent

/-- A socket that accepts everything, and UUIDs that are all the same. -/
def accepting (now : ℕ) (uuid : UInt8 := 7) : Env where
  now
  answer := fun _ _ => .sent
  uuid := fun _ => .replicate uuid

theorem accepting_noError (now : ℕ) (uuid : UInt8) : (accepting now uuid).NoError := by
  simp [NoError, accepting]

/-- A socket that would block every time. -/
def blocked (now : ℕ) : Env where
  now
  answer := fun _ _ => .wouldBlock
  uuid := fun _ => .replicate 0

theorem blocked_noError (now : ℕ) : (blocked now).NoError := by
  simp [NoError, blocked]

/-- A socket that fails every time. -/
def unreachable (now : ℕ) : Env where
  now
  answer := fun _ _ => .failed ⟨113⟩
  uuid := fun _ => .replicate 0

end Env

end Ultinet
