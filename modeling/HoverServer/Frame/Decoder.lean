import HoverServer.Frame.Basic

/-! Frames taken off a stream that arrives in chunks. -/
namespace HoverServer.Frame

/-- The bytes held back, and how many of them are known to be free of a terminator. -/
structure Decoder where
  buffer : Bytes
  scanned : Nat
  deriving DecidableEq

namespace Decoder

def empty : Decoder := ⟨[], 0⟩

/-- Where the first terminator is, in bytes of which the first is at `place`. -/
def terminatorFrom (place : Nat) : Bytes → Option Nat
  | [] => none
  | b :: r => if terminator.isPrefixOf (b :: r) then some place else terminatorFrom (place + 1) r

/-- A terminator may straddle the end of the last scan by up to three bytes. -/
def resume (d : Decoder) : Nat := min (d.scanned - 3) d.buffer.length

def findTerminator (d : Decoder) : Option Nat :=
  terminatorFrom d.resume (d.buffer.drop d.resume)

inductive Next where
  | wait (d : Decoder)
  | refuse (fault : Fault)
  | take (f : Frame) (d : Decoder)

def next (d : Decoder) : Next :=
  match d.findTerminator with
  | none => .wait ⟨d.buffer, d.buffer.length⟩
  | some place =>
    let header := d.buffer.take place
    match contentLength header with
    | .error fault => .refuse fault
    | .ok n =>
      let start := place + terminator.length
      if wordLimit ≤ start + n then .refuse (.invalidLength (toString n))
      else if d.buffer.length < start + n then .wait d
      else .take ⟨header, (d.buffer.drop start).take n⟩ ⟨d.buffer.drop (start + n), 0⟩

theorem next_length {d e : Decoder} {f : Frame} (h : d.next = .take f e) :
    e.buffer.length < d.buffer.length := by
  unfold next at h
  split at h
  · cases h
  · dsimp only at h
    split at h
    · cases h
    · split at h
      · cases h
      · split at h
        · cases h
        · cases h
          simp [terminator] at *
          omega

/-- What one chunk completes. The frames before a fault are taken off the buffer, but a fault
leaves the header block it is about where it is. -/
structure Feed where
  frames : List Frame
  fault : Option Fault
  decoder : Decoder

def drain (d : Decoder) : Feed :=
  match h : d.next with
  | .wait e => ⟨[], none, e⟩
  | .refuse fault => ⟨[], some fault, d⟩
  | .take f e =>
    have := next_length h
    let rest := drain e
    ⟨f :: rest.frames, rest.fault, rest.decoder⟩
termination_by d.buffer.length

def feed (d : Decoder) (chunk : Bytes) : Feed := drain ⟨d.buffer ++ chunk, d.scanned⟩

/-- A number of bytes without which no further frame can be complete. -/
def needed (d : Decoder) : Nat :=
  match d.findTerminator with
  | none => 1
  | some place =>
    match contentLength (d.buffer.take place) with
    | .error _ => 1
    | .ok n => max 1 (place + terminator.length + n - d.buffer.length)

/-- The bodies that a feed hands on: all of its frames, or none if it fails. -/
def Feed.bodies (f : Feed) : Except Fault (List String) :=
  match f.fault with
  | none => .ok (f.frames.map Frame.text)
  | some fault => .error fault

end Decoder
end HoverServer.Frame
