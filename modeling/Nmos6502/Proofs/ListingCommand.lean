import Mathlib.Tactic.Common
import Nmos6502.CommandLine
import Nmos6502.Proofs.Tiling

/-!
# The listing command

The command that lists a program does not print a finished listing. It puts the header and the lines
together itself, and while it does so it collects what there is to say about the lines, in words of
its own. Both are printed line by line, each to a stream of its own.

What is printed is the listing that the library makes, and what is reported is what the faults say
that are met in decoding the same bytes. For a listing has one line for each move of the cursor, and
the line tells what was decoded in that move: the fault can be had back from it, its address and its
numbers included.

## Main definitions

* `Cursor.items` — what a cursor decodes, one item for each move
* `Line.item` — what was decoded where a line stands
* `itemReport?` — what is reported about an item

## Main results

* `Cursor.items_start` — the items of some bytes are those of the lines of their listing
* `runDisassemble_agrees` — what the command prints
-/

namespace Nmos6502

open Text

/-! ## Items and lines -/

/-- What was decoded where a line stands. -/
def Line.item : Line → Except Fault Instruction
  | .decoded instruction => .ok instruction
  | .illegal address opcode => .error (.illegalOpcode opcode address)
  | .truncated address bytes =>
    let operation := bytes.head?.bind operation?
    .error (.incomplete address (operation.elim 1 Operation.size) bytes.length)

namespace Cursor

variable {cursor following : Cursor} {item : Except Fault Instruction}

theorem next?_eq_some_iff :
    cursor.next? = some (item, following) ↔
      cursor.rest ≠ [] ∧ cursor.item = item ∧ cursor.following = following := by
  rw [next?]
  cases cursor.rest <;> simp

/-- What a cursor decodes on its way from where it stands to the end. -/
def items (cursor : Cursor) : List (Except Fault Instruction) :=
  match _ : cursor.next? with
  | none => []
  | some (item, following) => item :: following.items
termination_by cursor.rest.length
decreasing_by
  obtain ⟨hrest, -, rfl⟩ := next?_eq_some_iff.mp ‹_›
  exact length_rest_following_lt hrest

theorem items_of_next?_eq_none (h : cursor.next? = none) : cursor.items = [] := by
  rw [items]
  split
  next => rfl
  next hsome => rw [h] at hsome; cases hsome

theorem items_of_next?_eq_some (h : cursor.next? = some (item, following)) :
    cursor.items = item :: following.items := by
  rw [items]
  split
  next hnone => rw [h] at hnone; cases hnone
  next hsome =>
    rw [h] at hsome
    cases hsome
    rfl

variable {line : Line} {start : UInt16} {rest : List UInt8}

theorem item_of_opens (h : line.Opens start rest) (offset : Nat) :
    (⟨line.bytes ++ rest, offset, start⟩ : Cursor).item = line.item := by
  cases h with
  | decoded legal whole => exact Instruction.decode_of_whole legal whole start rest
  | illegal unknown => exact Instruction.decode_of_unknown unknown start rest
  | @truncated opcode operation legal operand short =>
    have hsize : ((opcode :: operand).head?.bind operation?).elim 1 Operation.size =
        operation.size := by
      rw [List.head?_cons, Option.bind_some, legal]
      rfl
    rw [Line.item, hsize, List.append_nil]
    exact Instruction.decode_of_short legal short start

/-- A cursor that stands at a line decodes what the line tells, and moves past its bytes. -/
theorem next?_of_opens (h : line.Opens start rest) (offset : Nat) :
    (⟨line.bytes ++ rest, offset, start⟩ : Cursor).next? = some (line.item,
      ⟨rest, offset + line.bytes.length, start + UInt16.ofNat line.bytes.length⟩) :=
  next?_eq_some_iff.mpr
    ⟨List.append_ne_nil_of_left_ne_nil h.bytes_ne_nil _, item_of_opens h offset,
      (step_of_opens h offset).2⟩

end Cursor

variable {bytes : List UInt8} {start : UInt16} {lines : List Line}

theorem Tiles.items_eq (h : Tiles bytes start lines) (offset : Nat) :
    (⟨bytes, offset, start⟩ : Cursor).items = lines.map Line.item := by
  induction h generalizing offset with
  | nil => exact Cursor.items_of_next?_eq_none rfl
  | cons opens _ ih =>
    rw [Cursor.items_of_next?_eq_some (Cursor.next?_of_opens opens offset), ih, List.map_cons]

/-- **Items and lines.** For each move of the cursor there is a line, which tells what was decoded
in it. -/
theorem Cursor.items_start (bytes : List UInt8) (start : UInt16) :
    (Cursor.start bytes start).items = (disassemble bytes start).map Line.item :=
  (tiles_disassemble bytes start).items_eq 0

/-! ## What is printed -/

/-- What is reported about an item. An instruction that is cut off is said to be so, with its
address. Another fault is reported in its own words. -/
def itemReport? : Except Fault Instruction → Option String
  | .ok _ => none
  | .error (.incomplete address _ _) =>
    some ("truncated instruction at $" ++ hexWord .upper address)
  | .error fault => some fault.message

/-- A line gives rise to what is to be said about what was decoded there. -/
theorem itemReport?_comp_item : itemReport? ∘ Line.item = Line.complaint? := by
  funext line
  cases line <;> rfl

theorem unlines_append (lines more : List String) :
    unlines (lines ++ more) = unlines lines ++ unlines more := by
  rw [unlines, List.map_append, String.join_append]
  rfl

theorem unlines_titleLines : unlines titleLines = listingHeader ++ "\n" := by
  decide +kernel

theorem unlines_listing (start : UInt16) (bytes : List UInt8) (verbose : Bool) :
    unlines (listing start bytes verbose).1 = render bytes start verbose := by
  have hbody : unlines ((disassemble bytes start).map fun line => line.format verbose) =
      String.join ((disassemble bytes start).map fun line => line.format verbose ++ "\n") := by
    rw [unlines, List.map_map]
    rfl
  rw [listing, unlines_append, hbody, render]
  cases verbose with
  | false => rfl
  | true => rw [if_pos rfl, if_pos rfl, unlines_titleLines]

theorem complaints_listing (start : UInt16) (bytes : List UInt8) (verbose : Bool) :
    (listing start bytes verbose).2 = (Cursor.start bytes start).items.filterMap itemReport? := by
  rw [Cursor.items_start, List.filterMap_map, itemReport?_comp_item, listing]

/-- **The listing command agrees with the library.** It ends well for all bytes. To the first stream
it writes the listing as the library makes it, with a header, addresses and bytes if it is verbose.
To the second it writes a line for each fault that is met in decoding the bytes, in their order. -/
theorem runDisassemble_agrees (start : UInt16) (bytes : List UInt8) (verbose : Bool) :
    ∃ outcome, runCommand (.disassemble start bytes verbose) = some outcome ∧ outcome.code = 0 ∧
      outcome.stdout = render bytes start verbose ∧
      outcome.stderr = unlines ((Cursor.start bytes start).items.filterMap itemReport?) :=
  ⟨_, rfl, rfl, unlines_listing start bytes verbose,
    congrArg unlines (complaints_listing start bytes verbose)⟩

/-- A byte that begins nothing and an instruction that is cut off do not stop a listing. -/
example : listing 0x0000 [0xA9, 0x05, 0x02, 0x8D, 0x00] false =
    (["LDA #$05", ".byte $02", "STA $??00"],
      ["illegal opcode 0x02 at $0002", "truncated instruction at $0003"]) := by
  decide +kernel

end Nmos6502
