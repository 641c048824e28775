import RemoteObjects.Transport.Error

/-!
# Frames on a stream

A frame is its length, as four bytes with the most significant first, and then its body.  How the
bytes of a stream arrive in pieces makes no difference, so a stream is what it still has to give:
its bytes and, possibly, a fault that comes once when they have all been read.
-/

namespace RemoteObjects.Transport

/-- The longest body of a frame. -/
def maxFrame : Nat := 16 * 1024 * 1024

/-- Four bytes, the most significant first. -/
def lengthBytes (n : Nat) : ByteArray :=
  ⟨#[(n >>> 24).toUInt8, (n >>> 16).toUInt8, (n >>> 8).toUInt8, n.toUInt8]⟩

/-- The number that the first four bytes spell. -/
def lengthOf (bytes : ByteArray) : Nat :=
  (bytes.extract 0 4).data.toList.foldl (fun n b ↦ n * 256 + b.toNat) 0

/-- The frame with the given body. -/
def frame (body : ByteArray) : ByteArray := lengthBytes body.size ++ body

/-! ## Reading -/

structure Incoming where
  bytes : ByteArray
  fault : Option (Fault × String)

/-- A stream whose bytes arrive in pieces of so many bytes at most.  A piece without bytes is the
end of a stream, so if pieces hold none, none arrive. -/
def Incoming.inPieces (size : Nat) (s : Incoming) : Incoming :=
  if size = 0 then { s with bytes := .empty } else s

inductive Reading where
  | frame (body : ByteArray) (rest : Incoming)
  /-- The stream ended before a new frame. -/
  | ended
  | failed (e : Error)

/-- The failure of a stream whose bytes do not suffice; interruptions are waited out. -/
def Incoming.failure (s : Incoming) : Error :=
  match s.fault with
  | none | some (.interrupted, _) => .ofFault .unexpectedEnd "early eof"
  | some (fault, reason) => .ofFault fault reason

/-- Whether the stream, short of bytes, comes to its end. -/
def Incoming.ends (s : Incoming) : Bool :=
  match s.fault with
  | none | some (.interrupted, _) | some (.unexpectedEnd, _) => true
  | _ => false

/-- Reads one frame.  An end of the stream before a length is complete is a clean one. -/
def readFrame (s : Incoming) : Reading :=
  if s.bytes.size < 4 then
    if s.ends then .ended else .failed s.failure
  else
    let size := lengthOf s.bytes
    if maxFrame < size then .failed (.payloadTooLarge size)
    else if 4 + size ≤ s.bytes.size then
      .frame (s.bytes.extract 4 (4 + size))
        { s with bytes := s.bytes.extract (4 + size) s.bytes.size }
    else .failed s.failure

/-- Reads at most `fuel` frames, and then what comes instead of a frame. -/
def readFrames : Nat → Incoming → List ByteArray × Option Error
  | 0, _ => ([], none)
  | fuel + 1, s =>
    match readFrame s with
    | .frame body rest =>
      let (bodies, last) := readFrames fuel rest
      (body :: bodies, last)
    | .ended => ([], none)
    | .failed e => ([], some e)

/-- All frames of a stream and the failure that ends it, if it does not end cleanly.  Every frame
takes four bytes at least. -/
def Incoming.frames (s : Incoming) : List ByteArray × Option Error :=
  readFrames (s.bytes.size / 4 + 1) s

/-! ## Writing -/

/-- Where frames are written: what was taken so far and, if it is bounded, how much can be. -/
structure Outgoing where
  written : ByteArray
  capacity : Option Nat

/-- Writes one frame.  What no longer fits is lost, and that is a failure; a body that is too long
is refused before anything is written. -/
def writeFrame (out : Outgoing) (body : ByteArray) : Except Error Unit × Outgoing :=
  if maxFrame < body.size then (.error (.payloadTooLarge body.size), out)
  else
    let all := out.written ++ frame body
    match out.capacity with
    | none => (.ok (), { out with written := all })
    | some capacity =>
      if all.size ≤ capacity then (.ok (), { out with written := all })
      else
        let taken := all.extract 0 (max capacity out.written.size)
        (.error (.io "write zero"), { out with written := taken })

end RemoteObjects.Transport
