import Mathlib.Tactic.Common
import Nmos6502.Proofs.PlainMemory

/-!
# The listing of a range of memory

A range of plain memory is listed as the bytes that it holds. Where it ends beyond the end of memory
there should be no listing, and there is none as long as an address can lie beyond the end: the
first one that does is refused. Memory that fills the address space has no such address. There a
range that reaches too far goes on at the beginning, and is listed as if its bytes lay in one piece.

## Main results

* `disassembleMemory_cases` — the listing of a range, in and beyond memory
* `disassembleMemory_beyond_full` — a range beyond the end that is listed
-/

namespace Nmos6502

variable {count : Nat}

/-- **The listing of a range** that is not empty. -/
theorem disassembleMemory_cases (ram : Ram) (start : UInt16) (hcount : 0 < count) :
    disassembleMemory ram start count =
      if start.toNat + count ≤ ram.size then .ok (disassemble (ram.slice start.toNat count) start)
      else if ram.size < addressSpace then
        .error (.refused ⟨max start.toNat ram.size, ram.size⟩)
      else .ok (disassemble (ram.around start.toNat count) start) := by
  rw [disassembleMemory]
  by_cases hin : start.toNat + count ≤ ram.size
  · rw [if_pos hin, ram.readRange_of_le hin]
  · rw [if_neg hin]
    by_cases hsize : ram.size < addressSpace
    · rw [if_pos hsize, ram.readRange_of_lt hsize hcount (Nat.not_le.mp hin)]
    · have hfull : ram.size = addressSpace := Nat.le_antisymm ram.size_le (Nat.not_lt.mp hsize)
      rw [if_neg hsize, ram.readRange_of_full hfull]

/-- In a small memory a range may end with the last byte, and not one byte later. -/
theorem disassembleMemory_cases_small :
    disassembleMemory (Ram.zeros 0x0060 (by decide) (by decide)) 0x005E 2 =
      .ok (disassemble [0x00, 0x00] 0x005E) ∧
    disassembleMemory (Ram.zeros 0x0060 (by decide) (by decide)) 0x005F 2 =
      .error (.refused ⟨0x0060, 0x0060⟩) := by
  constructor
  · rw [disassembleMemory_cases _ _ (by decide), if_pos (by decide)]
    rfl
  · rw [disassembleMemory_cases _ _ (by decide), if_neg (by decide), if_pos (by decide)]
    rfl

/-- **Beyond the end of the address space** nothing is refused. The second byte of this range is
the first of memory. -/
theorem disassembleMemory_beyond_full :
    Ram.full.size < (0xFFFF : UInt16).toNat + 2 ∧
      disassembleMemory Ram.full 0xFFFF 2 = .ok (disassemble [0x00, 0x00] 0xFFFF) := by
  have hfull : Ram.full.size = addressSpace := Array.size_replicate
  have hbytes : Ram.full.around 0xFFFF 2 = [0x00, 0x00] := by
    simp [Ram.around, Ram.full, Ram.zeros, addressSpace, List.range_succ]
  refine ⟨by rw [hfull]; decide, ?_⟩
  rw [disassembleMemory, Ram.readRange_of_full _ hfull]
  exact congrArg (fun bytes => Except.ok (disassemble bytes 0xFFFF)) hbytes

end Nmos6502
