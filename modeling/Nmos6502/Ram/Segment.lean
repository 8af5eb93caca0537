import Nmos6502.Ram

/-!
# Memory with contents

Memory is set up from segments, each loaded over the ones before it. A segment lists its bytes or
repeats a pattern. The first segment that does not fit is the reason why there is no such memory.

## Main definitions

* `Segment`, `Segment.contents`
* `Ram.ofSegments` — memory of a given size with given contents
-/

namespace Nmos6502

/-- Contents for a range of memory. -/
inductive Segment where
  /-- Bytes from an address on. -/
  | bytes (start : UInt16) (bytes : List UInt8)
  /-- A pattern, repeated or cut to a length. -/
  | pattern (start : UInt16) (length : Nat) (pattern : Array UInt8)

namespace Segment

/-- Where a segment begins. -/
def start : Segment → UInt16
  | .bytes start _ => start
  | .pattern start _ _ => start

/-- The bytes of a segment. -/
def contents : Segment → List UInt8
  | .bytes _ given => given
  | .pattern _ length motif =>
    if motif.isEmpty then []
    else (List.range length).map fun i => motif.getD (i % motif.size) 0

end Segment

namespace Ram

/-- Why there is no memory with given contents. -/
inductive SetupFault where
  /-- There is no memory of that size. -/
  | size (fault : SizeFault)
  /-- A segment does not fit. -/
  | refused (cause : OutOfBounds)
  deriving DecidableEq

/-- Loads segments one after the other. -/
def loadSegments (ram : Ram) : List Segment → Except OutOfBounds Ram
  | [] => .ok ram
  | segment :: segments =>
    match Bus.load ram segment.start segment.contents with
    | (.ok (), ram) => ram.loadSegments segments
    | (.error cause, _) => .error cause

/-- Memory of a given size with given contents, zero elsewhere. -/
def ofSegments (size : Nat) (segments : List Segment) : Except SetupFault Ram :=
  match ofSize size with
  | .error fault => .error (.size fault)
  | .ok ram =>
    match ram.loadSegments segments with
    | .ok ram => .ok ram
    | .error cause => .error (.refused cause)

end Ram

end Nmos6502
