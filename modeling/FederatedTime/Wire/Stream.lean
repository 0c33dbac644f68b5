import FederatedTime.Wire.Decode

/-!
# Streams

A stream arrives in chunks that need not end where frames end. `drain` reads every message that a
buffer holds; `finish` reads on after the stream has ended, when an incomplete frame is an error.
-/

namespace FederatedTime.Wire

/-- What reading a buffer to its end, or to the first error, gave in turn. The last answer has no
message. -/
def drain (direction : Direction) (s : Bytes) : List Decoded :=
  let d := decode direction s
  match _h : d.result with
  | .ok (some _) => d :: drain direction d.rest
  | _ => [d]
termination_by s.length
decreasing_by exact length_rest_decode _h

/-- Read one message from a buffer to which nothing will be added. -/
def decodeLast (direction : Direction) (s : Bytes) : Decoded :=
  let d := decode direction s
  match d.result with
  | .ok none => if d.rest.isEmpty then d else ⟨.error .bytesRemaining, d.rest⟩
  | _ => d

/-- What reading a buffer to which nothing will be added gave in turn. -/
def finish (direction : Direction) (s : Bytes) : List Decoded :=
  let d := decode direction s
  match _h : d.result with
  | .ok (some _) => d :: finish direction d.rest
  | _ => [decodeLast direction s]
termination_by s.length
decreasing_by exact length_rest_decode _h

/-- What is left in a buffer after the given answers. -/
def leftOver (s : Bytes) (answers : List Decoded) : Bytes :=
  (answers.getLast?.map (·.rest)).getD s

/-- Read on with one more chunk: the answers, and what is left in the buffer. -/
def feed (direction : Direction) (buffer chunk : Bytes) : List Decoded × Bytes :=
  let s := buffer ++ chunk
  let answers := drain direction s
  (answers, leftOver s answers)

end FederatedTime.Wire
