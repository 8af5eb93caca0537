import Nmos6502.Ram

/-!
# Memory dumps

A dump shows memory in rows of sixteen bytes under a line of column numbers. Rows begin at multiples
of sixteen, so a range that starts inside a row is shown from the start of that row; a range that
ends inside a row cuts the row there.

## Main definitions

* `Ram.dumpRows` — where the rows begin and the bytes they show
* `Ram.dump` — the text
-/

namespace Nmos6502

open Text

namespace Ram

/-- The bytes of a row. -/
def rowLength : Nat := 16

/-- The rows that show the bytes from `start` up to `stop`: where each begins, and its bytes. -/
def dumpRows (ram : Ram) (start stop : Nat) : List (Nat × List UInt8) :=
  let first := start - start % rowLength
  let count := (stop - first + (rowLength - 1)) / rowLength
  (List.range count).map fun i =>
    let row := first + rowLength * i
    (row, ram.slice row (min rowLength (stop - row)))

/-- The line of column numbers, indented by the width of a row's address. -/
def dumpHeader : String :=
  "      " ++ hexBytes .lower ((List.range rowLength).map UInt8.ofNat) ++ "\n"

/-- A row: its address and its bytes. -/
def dumpRow (row : Nat × List UInt8) : String :=
  hexWord .lower (UInt16.ofNat row.1) ++ ": " ++ hexBytes .lower row.2 ++ "\n"

/-- The dump of `length` bytes from `offset` on, if memory has them all. -/
def dump (ram : Ram) (offset : UInt16) (length : Nat) : Except OutOfBounds String :=
  let stop := offset.toNat + length
  if ram.size < stop then .error ⟨stop - 1, ram.size⟩
  else .ok (dumpHeader ++ String.join ((ram.dumpRows offset.toNat stop).map dumpRow))

end Ram

end Nmos6502
