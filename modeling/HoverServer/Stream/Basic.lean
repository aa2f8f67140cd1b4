import HoverServer.Bytes

/-! Both ends of a connection: what reading may bring, and a sink that need not take all it is
given. -/
namespace HoverServer

inductive IoKind where
  | brokenPipe
  | wouldBlock
  | unexpectedEof
  | interrupted
  | writeZero
  | other
  deriving DecidableEq

structure IoError where
  kind : IoKind
  message : String
  deriving DecidableEq

def IoError.writeZero : IoError := ⟨.writeZero, "failed to write whole buffer"⟩

/-- The answer to one call for input. No bytes mean that the input has ended. -/
inductive Read where
  | bytes (bs : Bytes)
  | failure (e : IoError)
  deriving DecidableEq

namespace Read

def size : Read → Nat
  | .bytes bs => bs.length
  | .failure _ => 0

def chunkSize : Nat := 8192

/-- What a reader gets that asks for at most `chunkSize` bytes at a time. -/
def chunks : Read → List Read
  | .bytes [] => [.bytes []]
  | .bytes bs => (Bytes.pieces (chunkSize - 1) bs).map .bytes
  | .failure e => [.failure e]

end Read

/-- Why a write fails. One that was interrupted is only made again, so that is no reason. -/
structure WriteFault where
  error : IoError
  final : error.kind ≠ .interrupted
  deriving DecidableEq

/-- A sink takes `room` bytes and lets through `flushes` flushes, without bound where there is
none given. Having accepted `n` bytes, it takes up to `most n + 1` in one call. A write to a full
sink fails with `full`, if there is such a thing, and a flush that is not let through fails with
`unflushed`. -/
structure Sink where
  accepted : Bytes
  most : Nat → Nat
  room : Option Nat
  full : Option WriteFault
  flushes : Option Nat
  unflushed : IoError

namespace Sink

/-- A sink that takes everything at once and never fails. -/
def perfect : Sink := ⟨[], fun n => n, none, none, none, .writeZero⟩

def free (s : Sink) (n : Nat) : Nat :=
  match s.room with
  | none => n
  | some room => min n (room - s.accepted.length)

/-- One call takes some bytes from the front, or fails. A full sink that reports nothing takes
nothing. -/
def write (s : Sink) (bs : Bytes) : Except IoError Nat × Sink :=
  let n := s.free (min bs.length (s.most s.accepted.length + 1))
  if n = 0 then
    match s.full with
    | some fault => (.error fault.error, s)
    | none => (.ok 0, s)
  else (.ok n, { s with accepted := s.accepted ++ bs.take n })

/-- Writes on until everything is taken. -/
def writeAll (s : Sink) (bs : Bytes) : Option IoError × Sink :=
  if _h : bs = [] then (none, s)
  else
    match s.write bs with
    | (.error e, s) => (some e, s)
    | (.ok 0, s) => (some .writeZero, s)
    | (.ok (n + 1), s) => writeAll s (bs.drop (n + 1))
termination_by bs.length
decreasing_by
  have : 0 < bs.length := List.length_pos_iff.2 _h
  simp
  omega

def flush (s : Sink) : Option IoError × Sink :=
  match s.flushes with
  | none => (none, s)
  | some (n + 1) => (none, { s with flushes := some n })
  | some 0 => (some s.unflushed, s)

/-- A message is written whole and flushed. -/
def send (s : Sink) (bs : Bytes) : Option IoError × Sink :=
  match s.writeAll bs with
  | (none, s) => s.flush
  | (some e, s) => (some e, s)

end Sink
end HoverServer
