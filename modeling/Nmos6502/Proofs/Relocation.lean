import Mathlib.Tactic.Common
import Nmos6502.Proofs.Lossless
import Nmos6502.Proofs.Placement

/-!
# A listing moved to another address

The same bytes can be listed as if they began somewhere else. The lines are the same then, each as
far from the start as before, and so it is as if the listing had been moved. An address is part of
the text in one place only: a branch shows where it goes. The target moves as far as the branch
does, around the end of the address space if need be. Where the distance is cut off there is no
target yet, and then a branch looks the same everywhere.

## Main definitions

* `Line.Kind` — what a line stands for
* `Line.relocate` — a line some addresses further on
* `Line.isBranch` — a line shows where a branch goes
* `branchText` — a branch with its target

## Main results

* `Tiles.relocate` — lines that cover bytes cover them anywhere
* `Line.Opens.text_relocate` — what moving a line does to its text
* `disassemble_relocate` — everything that moving does to a listing
-/

namespace Nmos6502

open Text

/-! ## Moved lines -/

/-- An instruction some addresses further on. -/
def Instruction.relocate (instruction : Instruction) (shift : UInt16) : Instruction :=
  { instruction with address := instruction.address + shift }

namespace Line

/-- What a line stands for. -/
inductive Kind where
  /-- A whole instruction. -/
  | decoded
  /-- A byte that begins no instruction. -/
  | illegal
  /-- The bytes of an instruction that is cut off. -/
  | truncated
  deriving DecidableEq

/-- What a line stands for. -/
def kind : Line → Kind
  | .decoded _ => .decoded
  | .illegal _ _ => .illegal
  | .truncated _ _ => .truncated

/-- A line some addresses further on. -/
def relocate (line : Line) (shift : UInt16) : Line :=
  match line with
  | .decoded instruction => .decoded (instruction.relocate shift)
  | .illegal address opcode => .illegal (address + shift) opcode
  | .truncated address bytes => .truncated (address + shift) bytes

/-- Whether a line shows a branch and with it where the branch goes. -/
def isBranch : Line → Bool
  | .decoded instruction => instruction.mode = .relative
  | _ => false

@[simp] theorem kind_relocate (line : Line) (shift : UInt16) :
    (line.relocate shift).kind = line.kind := by
  cases line <;> rfl

@[simp] theorem bytes_relocate (line : Line) (shift : UInt16) :
    (line.relocate shift).bytes = line.bytes := by
  cases line <;> rfl

@[simp] theorem address_relocate (line : Line) (shift : UInt16) :
    (line.relocate shift).address = line.address + shift := by
  cases line <;> rfl

end Line

variable {line : Line} {bytes rest : List UInt8} {start : UInt16} {lines : List Line}

theorem Line.Opens.relocate (h : line.Opens start rest) (shift : UInt16) :
    (line.relocate shift).Opens (start + shift) rest := by
  cases h with
  | decoded legal whole => exact .decoded legal whole (start + shift) rest
  | illegal unknown => exact .illegal unknown (start + shift) rest
  | truncated legal short => exact .truncated legal short (start + shift)

/-- **Moved lines.** Lines that cover bytes cover them anywhere. -/
theorem Tiles.relocate (h : Tiles bytes start lines) (shift : UInt16) :
    Tiles bytes (start + shift) (lines.map (·.relocate shift)) := by
  induction h with
  | nil start => exact .nil (start + shift)
  | @cons line start rest lines opens _ ih =>
    have hnext : start + UInt16.ofNat line.bytes.length + shift =
        start + shift + UInt16.ofNat (line.relocate shift).bytes.length := by
      rw [line.bytes_relocate]
      ac_rfl
    rw [hnext] at ih
    rw [List.map_cons, ← line.bytes_relocate shift]
    exact .cons (opens.relocate shift) ih

/-! ## Moved text -/

/-- The text of a branch that goes to `target`. -/
def branchText (mnemonic : Mnemonic) (target : UInt16) : String :=
  withOperand mnemonic.name ("$" ++ hexWord .upper target)

/-- A target is as far from one address as from another. -/
theorem relativeTarget_add (next shift : UInt16) (offset : UInt8) :
    relativeTarget (next + shift) offset = relativeTarget next offset + shift := by
  unfold relativeTarget
  split
  · simp only [UInt16.sub_eq_add_neg]
    ac_rfl
  · ac_rfl

/-- No operand depends on the address but the distance of a branch. -/
theorem operandText_eq_of_address {mode : Mode} {operand : List UInt8}
    (h : mode = .relative → operand = []) (address other : UInt16) :
    operandText mode operand address = operandText mode operand other := by
  cases mode with
  | relative =>
    rw [h rfl]
    rfl
  | _ => rfl

theorem instructionText_eq_of_address {operation : Operation} {operand : List UInt8}
    (h : operation.mode = .relative → operand = []) (address other : UInt16) :
    instructionText operation operand address = instructionText operation operand other := by
  rw [instructionText, operandText_eq_of_address h address other]
  rfl

theorem instructionText_of_relative {operation : Operation} (h : operation.mode = .relative)
    (offset : UInt8) (address : UInt16) :
    instructionText operation [offset] address =
      branchText operation.mnemonic (relativeTarget (address + 2) offset) := by
  rw [instructionText, h]
  rfl

/-- **The text of a moved line** is the text of the line, unless it shows where a branch goes. Then
the target is moved. -/
theorem Line.Opens.text_relocate (h : line.Opens start rest) (shift : UInt16) :
    (line.isBranch = false → (line.relocate shift).text = line.text) ∧
      (line.isBranch = true → ∃ mnemonic target, line.text = branchText mnemonic target ∧
        (line.relocate shift).text = branchText mnemonic (target + shift)) := by
  cases h with
  | @decoded opcode operation legal operand whole =>
    have htext (address : UInt16) : Line.text (.decoded
        (.ofOperation address opcode operation (opcode :: operand))) =
        instructionText operation operand address := rfl
    constructor
    · intro hplain
      have hmode : operation.mode ≠ .relative := of_decide_eq_false hplain
      exact instructionText_eq_of_address (fun hrelative => absurd hrelative hmode) _ _
    · intro hbranch
      have hmode : operation.mode = .relative := of_decide_eq_true hbranch
      rw [hmode] at whole
      obtain ⟨offset, rfl⟩ := List.length_eq_one_iff.mp whole
      have hnext : start + shift + 2 = start + 2 + shift := by ac_rfl
      refine ⟨operation.mnemonic, relativeTarget (start + 2) offset,
        (htext start).trans (instructionText_of_relative hmode offset start), ?_⟩
      rw [← relativeTarget_add, ← hnext]
      exact (htext (start + shift)).trans (instructionText_of_relative hmode offset _)
  | illegal => exact ⟨fun _ => rfl, nofun⟩
  | @truncated opcode operation legal operand short =>
    refine ⟨fun _ => ?_, nofun⟩
    -- a branch that is cut off has no distance
    have hnone (hmode : operation.mode = .relative) : operand = [] := by
      rw [hmode] at short
      exact List.length_eq_zero_iff.mp (Nat.lt_one_iff.mp short)
    rw [Line.relocate, Line.text_truncated legal, Line.text_truncated legal,
      instructionText_eq_of_address hnone (start + shift) start]

/-! ## Moved listings -/

/-- **A listing moved to another address.** Each line moves as far as the start does. It stands for
the same as before and covers the same bytes, and its text stays, unless it shows where a branch
goes: the branch is the same, and the target moves as far as the start does. -/
theorem disassemble_relocate (bytes : List UInt8) (start other : UInt16) :
    disassemble bytes other =
        (disassemble bytes start).map (·.relocate (other - start)) ∧
      ∀ line ∈ disassemble bytes start,
        (line.relocate (other - start)).kind = line.kind ∧
        (line.relocate (other - start)).bytes = line.bytes ∧
        (line.relocate (other - start)).address = line.address + (other - start) ∧
        (line.isBranch = false → (line.relocate (other - start)).text = line.text) ∧
        (line.isBranch = true → ∃ mnemonic target, line.text = branchText mnemonic target ∧
          (line.relocate (other - start)).text =
            branchText mnemonic (target + (other - start))) := by
  have htiles := tiles_disassemble bytes start
  constructor
  · have hmoved := htiles.relocate (other - start)
    rw [UInt16.add_comm, UInt16.sub_add_cancel] at hmoved
    exact disassemble_eq_iff.mpr hmoved
  · intro line hline
    obtain ⟨rest, opens⟩ := htiles.exists_opens_of_mem hline
    exact ⟨line.kind_relocate _, line.bytes_relocate _, line.address_relocate _,
      opens.text_relocate _⟩

/-- A branch to itself, moved to the end of the address space, and a branch that is cut off. -/
theorem disassemble_relocate_toEnd :
    disassemble [0xD0, 0xFE, 0xD0] 0xFFFF =
        (disassemble [0xD0, 0xFE, 0xD0] 0x0600).map (·.relocate 0xF9FF) ∧
      (∃ line ∈ disassemble [0xD0, 0xFE, 0xD0] 0x0600, line.isBranch = true ∧
        line.text = "BNE $0600" ∧ (line.relocate 0xF9FF).text = "BNE $FFFF" ∧
        ∃ mnemonic target, line.text = branchText mnemonic target ∧
          (line.relocate 0xF9FF).text = branchText mnemonic (target + 0xF9FF)) ∧
      ∃ line ∈ disassemble [0xD0, 0xFE, 0xD0] 0x0600, line.isBranch = false ∧
        line.text = "BNE $????" ∧ (line.relocate 0xF9FF).text = line.text := by
  obtain ⟨hmoved, htexts⟩ := disassemble_relocate [0xD0, 0xFE, 0xD0] 0x0600 0xFFFF
  have hlines : disassemble [0xD0, 0xFE, 0xD0] 0x0600 =
      [.decoded ⟨0x0600, 0xD0, .bne, .relative, [0xD0, 0xFE], 2, 2⟩,
        .truncated 0x0602 [0xD0]] := by decide +kernel
  rw [hlines] at hmoved htexts ⊢
  obtain ⟨-, -, -, -, hbranch⟩ := htexts _ (List.mem_cons_self ..)
  obtain ⟨-, -, -, hplain, -⟩ := htexts _ (List.mem_cons_of_mem _ (List.mem_singleton_self _))
  exact ⟨hmoved,
    ⟨_, List.mem_cons_self .., rfl, by decide +kernel, by decide +kernel, hbranch rfl⟩,
    _, List.mem_cons_of_mem _ (List.mem_singleton_self _), rfl, by decide +kernel, hplain rfl⟩

end Nmos6502
