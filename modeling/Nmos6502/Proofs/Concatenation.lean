import Mathlib.Tactic.Common
import Nmos6502.Proofs.Lossless
import Nmos6502.Proofs.Placement

/-!
# The listing of bytes put together

Bytes that are put together are listed as they would be one after the other, if the first of them
do not end inside an instruction. The others are then listed from the address that the first lead
to, around the end of the address space if need be.

Two of the three kinds of lines depend on nothing but their own bytes, so whatever comes after the
bytes that were listed, these lines stay. The third is an instruction that is cut off. With more
bytes behind it, it is another line, so there must be none.

## Main results

* `Line.Opens.of_not_truncated` — a line that is not cut off stays, whatever comes after it
* `Tiles.append` — lines that cover bytes, and lines that cover what comes after them
* `disassemble_append` — the listing of bytes put together
-/

namespace Nmos6502

variable {bytes later : List UInt8} {start : UInt16}

/-- A line that is not cut off stays, whatever comes after it. -/
theorem Line.Opens.of_not_truncated {line : Line} {rest : List UInt8} (h : line.Opens start rest)
    (hwhole : line.isTruncated = false) (other : List UInt8) : line.Opens start other := by
  cases h with
  | decoded legal whole => exact .decoded legal whole start other
  | illegal unknown => exact .illegal unknown start other
  | truncated => cases hwhole

/-- **Lines put together.** Where no line is cut off, the lines for what comes after the bytes go on
behind them. -/
theorem Tiles.append {lines others : List Line} (h : Tiles bytes start lines)
    (hwhole : ∀ line ∈ lines, line.isTruncated = false)
    (hlater : Tiles later (start + UInt16.ofNat bytes.length) others) :
    Tiles (bytes ++ later) start (lines ++ others) := by
  induction h with
  | nil start => simpa using hlater
  | @cons line start rest lines opens _ ih =>
    rw [List.length_append, UInt16.ofNat_add, ← UInt16.add_assoc] at hlater
    rw [List.append_assoc, List.cons_append]
    exact .cons (opens.of_not_truncated (hwhole line (List.mem_cons_self ..)) _)
      (ih (fun line hl => hwhole line (List.mem_cons_of_mem _ hl)) hlater)

/-- **The listing of bytes put together.** If no line of the first bytes is cut off, it is their
listing and after it the listing of the others, from the address on that the first lead to. Without
a header the same holds of the text. -/
theorem disassemble_append (hwhole : ∀ line ∈ disassemble bytes start, line.isTruncated = false)
    (later : List UInt8) :
    disassemble (bytes ++ later) start =
        disassemble bytes start ++ disassemble later (start + UInt16.ofNat bytes.length) ∧
      render (bytes ++ later) start false =
        render bytes start false ++ render later (start + UInt16.ofNat bytes.length) false := by
  have hlines : disassemble (bytes ++ later) start =
      disassemble bytes start ++ disassemble later (start + UInt16.ofNat bytes.length) :=
    disassemble_eq_iff.mpr ((tiles_disassemble bytes start).append hwhole (tiles_disassemble _ _))
  refine ⟨hlines, String.toList_injective ?_⟩
  calc (render (bytes ++ later) start false).toList
    _ = bodyText (disassemble (bytes ++ later) start) false := toList_render_plain ..
    _ = bodyText (disassemble bytes start) false ++
          bodyText (disassemble later (start + UInt16.ofNat bytes.length)) false := by
        rw [hlines, bodyText_append]
    _ = _ := by rw [String.toList_append, toList_render_plain, toList_render_plain]

/-- A load and a byte that begins nothing, around the end of the address space, and behind them a
branch that is cut off. -/
theorem disassemble_append_wrapping :
    (∀ line ∈ disassemble [0xA9, 0x05, 0x02] 0xFFFE, line.isTruncated = false) ∧
      disassemble ([0xA9, 0x05, 0x02] ++ [0xD0]) 0xFFFE =
        disassemble [0xA9, 0x05, 0x02] 0xFFFE ++ [.truncated 0x0001 [0xD0]] := by
  have hwhole : ∀ line ∈ disassemble [0xA9, 0x05, 0x02] 0xFFFE, line.isTruncated = false := by
    decide +kernel
  have htail : disassemble [0xD0] (0xFFFE + UInt16.ofNat 3) = [.truncated 0x0001 [0xD0]] := by
    decide +kernel
  refine ⟨hwhole, (disassemble_append hwhole [0xD0]).1.trans ?_⟩
  exact congrArg (disassemble [0xA9, 0x05, 0x02] 0xFFFE ++ ·) htail

end Nmos6502
