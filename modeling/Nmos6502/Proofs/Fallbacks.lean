import Mathlib.Tactic.Common
import Nmos6502.Proofs.Effect

/-!
# What is done if an operand lacks something

Loading the byte of an operand, storing to it and jumping to it are defined for all operands, also
for those that have no byte or no address. A byte that is missing is read once more or taken from
the accumulator, a result that has nowhere to go is dropped, and a jump without a target does
nothing. None of it is reported as a fault, so a mnemonic in the wrong column of the opcode matrix
would go unnoticed.

None of it ever happens. To say so, what is done in these cases is made a parameter. With the
fallbacks of the processor the operations are those of the instruction set. For an operand that a
documented opcode has found, and for a whole instruction, the parameter does not matter: whatever
the fallbacks do, it is the same microcode.

Whether an operand has a byte and an address depends on nothing but its mode and on whether the
operation reads. That is seen from the tree of `Operand.resolve` alone, for all results it can end
with, so it holds for any memory and after anything.

## Main definitions

* `Microcode.EndsIn` — what holds of every result that microcode can end with
* `Operand.FoundBy` — what a mode finds
* `Fallbacks`, `Fallbacks.silent` — what is done if an operand lacks something
* `Mnemonic.executeWith`, `Registers.instructionWith` — the instruction set with other fallbacks

## Main results

* `Operand.endsIn_resolve` — the operands that a mode can find
* `Mnemonic.executeWith_silent` — the instruction set is the one with silent fallbacks
* `Registers.instructionWith_eq` — an instruction is the same whatever the fallbacks do
* `fallbacks_never_taken` — no documented opcode comes to a fallback
-/

namespace Nmos6502

/-! ## Every result of microcode -/

namespace Microcode

variable {α β M : Type} [Bus M]

/-- What holds of every result that the microcode can end with, whatever is read. -/
def EndsIn (p : α → Prop) : Microcode α → Prop
  | .done result => p result
  | .fail _ => True
  | .read _ next => ∀ byte, (next byte).EndsIn p
  | .write _ _ next => next.EndsIn p
  | .idle next => next.EndsIn p

theorem endsIn_true (code : Microcode α) : code.EndsIn fun _ => True := by
  induction code with
  | done _ | fail _ => trivial
  | read _ _ ih => exact ih
  | write _ _ _ ih | idle _ ih => exact ih

variable {p : α → Prop} {q : β → Prop}

theorem EndsIn.bind {code : Microcode α} (h : code.EndsIn p) {f : α → Microcode β}
    (hf : ∀ result, p result → (f result).EndsIn q) : (code >>= f).EndsIn q := by
  induction code with
  | done result => exact hf result h
  | fail _ => trivial
  | read _ _ ih => exact fun byte => ih byte (h byte)
  | write _ _ _ ih | idle _ ih => exact ih h

/-- What holds after every result holds, whatever came before. -/
theorem endsIn_bind (code : Microcode α) {f : α → Microcode β}
    (hf : ∀ result, (f result).EndsIn q) : (code >>= f).EndsIn q :=
  code.endsIn_true.bind fun result _ => hf result

/-- What a result can be used for is the same if it is for all that the microcode ends with. -/
theorem EndsIn.bind_congr {code : Microcode α} (h : code.EndsIn p) {f g : α → Microcode β}
    (hfg : ∀ result, p result → f result = g result) : code >>= f = code >>= g := by
  induction code with
  | done result => exact hfg result h
  | fail _ => rfl
  | read address _ ih => exact congrArg (read address) (funext fun byte => ih byte (h byte))
  | write address value _ ih => exact congrArg (write address value) (ih h)
  | idle _ ih => exact congrArg idle (ih h)

/-- What comes of running the microcode is one of its results. -/
theorem EndsIn.of_perform {code : Microcode α} (h : code.EndsIn p) {memory : M}
    {journal later : Journal} {result : α}
    (hrun : code.perform memory journal = (.ok result, later)) : p result := by
  induction code generalizing journal with
  | done =>
    cases hrun
    exact h
  | fail => cases hrun
  | read address next ih =>
    rw [perform] at hrun
    cases hread : journal.read memory address with
    | ok value =>
      rw [hread] at hrun
      exact ih value (h value) hrun
    | error cause =>
      rw [hread] at hrun
      cases hrun
  | write address value next ih =>
    rw [perform] at hrun
    cases hcheck : Bus.check memory address with
    | ok =>
      rw [hcheck] at hrun
      exact ih h hrun
    | error cause =>
      rw [hcheck] at hrun
      cases hrun
  | idle next ih => exact ih h hrun

end Microcode

/-! ## What a mode finds -/

namespace Operand

/-- An operand has what its mode finds: a byte if there is one without memory, or if it is read; an
address if the operand is in memory, or a target. -/
structure FoundBy (operand : Operand) (mode : Mode) (use : OperandUse) : Prop where
  /-- The operand knows its mode. -/
  mode_eq : operand.mode = mode
  /-- Whether there is a byte. -/
  value_eq : operand.value?.isSome =
    (mode = .accumulator || mode = .immediate || mode.isInMemory && use.reads)
  /-- Whether there is an address. -/
  address_eq : operand.address?.isSome = (mode = .relative || mode.isInMemory)

theorem endsIn_inMemory {mode : Mode} (h : mode.isInMemory = true) (use : OperandUse)
    (address : UInt16) (registers : Registers) :
    (inMemory mode use address registers).EndsIn fun found => found.1.FoundBy mode use := by
  have hmode : mode ≠ .accumulator ∧ mode ≠ .immediate := by
    constructor <;> rintro rfl <;> cases h
  rw [inMemory]
  cases hreads : use.reads with
  | true => exact fun byte => ⟨rfl, by simp [h, hreads], by simp [h]⟩
  | false => exact ⟨rfl, by simp [hreads, hmode], by simp [h]⟩

/-- **What a mode finds**, in every memory and with every register. -/
theorem endsIn_resolve (mode : Mode) (use : OperandUse) (registers : Registers) :
    (resolve mode use registers).EndsIn fun found => found.1.FoundBy mode use := by
  cases mode with
  | implied | accumulator => exact ⟨rfl, rfl, rfl⟩
  | immediate | relative => exact fun _ => ⟨rfl, rfl, rfl⟩
  | zeroPage | zeroPageX | zeroPageY | absolute | absoluteX | absoluteY =>
    exact Microcode.endsIn_bind _ fun _ => endsIn_inMemory rfl ..
  | indirect | indexedIndirect | indirectIndexed =>
    exact Microcode.endsIn_bind _ fun _ => Microcode.endsIn_bind _ fun _ => endsIn_inMemory rfl ..

/-- **A mode finds what the family needs**, if it is one that the family can work on. -/
theorem FoundBy.suits {operand : Operand} {mode : Mode} {family : Family}
    (found : operand.FoundBy mode family.operandUse) (h : family.admits mode = true) :
    family.Suits operand := by
  have hvalue := found.value_eq
  have haddress := found.address_eq
  cases family with
  | load action =>
    refine hvalue.trans ?_
    rcases (Bool.or_eq_true _ _).mp h with hmode | hmem
    · simp [of_decide_eq_true hmode]
    · simp [hmem, Family.operandUse, OperandUse.reads]
  | store source =>
    have hmem : mode.isInMemory = true := h
    refine ⟨?_, by simp [haddress, hmem]⟩
    rw [found.mode_eq]
    rintro rfl
    cases hmem
  | modify action =>
    rcases (Bool.or_eq_true _ _).mp h with hmode | hmem
    · have hmode := of_decide_eq_true hmode
      exact ⟨by simp [hvalue, hmode], .inl (found.mode_eq.trans hmode)⟩
    · exact ⟨by simp [hvalue, hmem, Family.operandUse, OperandUse.reads],
        .inr (by simp [haddress, hmem])⟩
  | branch condition =>
    refine haddress.trans ?_
    simp [of_decide_eq_true h]
  | jump | call =>
    refine haddress.trans ?_
    rcases (Bool.or_eq_true _ _).mp h with hmode | hmode <;>
      simp [of_decide_eq_true hmode, Mode.isInMemory]
  | internal | push | pull | comeBack | resume => trivial

end Operand

/-! ## Other fallbacks -/

/-- What is done if an operand lacks what is needed of it. -/
structure Fallbacks where
  /-- A byte is to be loaded, and none is known. -/
  load : Operand → Registers → Microcode UInt8
  /-- A result is to be stored, and there is neither the accumulator nor an address for it. -/
  store : Operand → UInt8 → Registers → Microcode Registers
  /-- Control is to go to a target, and there is none. -/
  target : Registers → Microcode Registers

/-- What the processor does: it reads the byte once more or takes the accumulator, drops the result,
and goes on without a jump. -/
def Fallbacks.silent : Fallbacks where
  load operand registers :=
    match operand.address? with
    | some address => readByte address
    | none => return registers.a
  store _ _ registers := return registers
  target registers := return registers

section Alternatives

variable (fallbacks : Fallbacks)

namespace Operand

variable (operand : Operand) (registers : Registers)

/-- The byte found, with a fallback if there is none. -/
def loadWith : Microcode UInt8 :=
  match operand.value? with
  | some value => return value
  | none => fallbacks.load operand registers

/-- Sends a result to the accumulator or the address, with a fallback if there is neither. -/
def storeWith (value : UInt8) : Microcode Registers :=
  if operand.mode = .accumulator then return { registers with a := value }
  else
    match operand.address? with
    | some address => .write address value (.done registers)
    | none => fallbacks.store operand value registers

/-- Goes on at the address, with a fallback if there is none. -/
def jumpWith : Microcode Registers :=
  match operand.address? with
  | some target => return { registers with pc := target }
  | none => fallbacks.target registers

/-- Goes on at the address, one cycle later, if the condition holds. -/
def branchWith (condition : Bool) : Microcode Registers :=
  if condition then
    match operand.address? with
    | some target => .idle (.done { registers with pc := target })
    | none => fallbacks.target registers
  else return registers

theorem loadWith_silent : operand.loadWith .silent registers = operand.load registers := by
  obtain ⟨mode, value?, address?⟩ := operand
  cases value? <;> cases address? <;> rfl

theorem storeWith_silent (value : UInt8) :
    operand.storeWith .silent registers value = operand.store value registers := rfl

theorem jumpWith_silent : operand.jumpWith .silent registers = return operand.jump registers := by
  obtain ⟨mode, value?, address?⟩ := operand
  cases address? <;> rfl

theorem branchWith_silent (condition : Bool) :
    operand.branchWith .silent registers condition = operand.branch registers condition := by
  obtain ⟨mode, value?, address?⟩ := operand
  cases condition <;> cases address? <;> rfl

end Operand

/-- What the operations of a family do at the bus, with other fallbacks. -/
def Family.microcodeWith (family : Family) (operand : Operand) (registers : Registers) :
    Microcode Registers :=
  match family with
  | .load action => do
    let value ← operand.loadWith fallbacks registers
    return action registers value
  | .store source => operand.storeWith fallbacks registers (source registers)
  | .modify action => do
    let value ← operand.loadWith fallbacks registers
    let (result, registers) := action registers value
    operand.storeWith fallbacks registers result
  | .branch condition => operand.branchWith fallbacks registers (condition registers.status)
  | .jump => operand.jumpWith fallbacks registers
  | .call => do
    let registers ← registers.pushWord (registers.pc - 1)
    operand.jumpWith fallbacks registers
  | family => family.microcode operand registers

/-- The operation of a mnemonic, with other fallbacks. -/
def Mnemonic.executeWith (mnemonic : Mnemonic) (operand : Operand) (registers : Registers) :
    Microcode Registers :=
  mnemonic.family.microcodeWith fallbacks operand registers

/-- The instruction at the program counter, with other fallbacks. -/
def Registers.instructionWith (registers : Registers) (size : Nat) : Microcode Executed := do
  let address := registers.pc
  let (opcode, registers) ← registers.fetch
  match operation? opcode with
  | none => .fail (.illegalOpcode opcode address)
  | some operation =>
    let available := size - address.toNat
    if available < operation.size then
      .fail (.incomplete address operation.size available)
    else do
      let (operand, registers) ←
        Operand.resolve operation.mode operation.mnemonic.operandUse registers
      let registers ← operation.mnemonic.executeWith fallbacks operand registers
      return ⟨operation, registers⟩

end Alternatives

theorem Family.microcodeWith_silent (family : Family) (operand : Operand)
    (registers : Registers) :
    family.microcodeWith .silent operand registers = family.microcode operand registers := by
  cases family with
  | load action => rw [microcodeWith, operand.loadWith_silent]; rfl
  | store source => exact operand.storeWith_silent ..
  | modify action => rw [microcodeWith, operand.loadWith_silent]; rfl
  | branch condition => exact operand.branchWith_silent ..
  | jump => exact operand.jumpWith_silent ..
  | call => simp only [microcodeWith, operand.jumpWith_silent]; rfl
  | internal | push | pull | comeBack | resume => rfl

/-- **The instruction set** is the one with the fallbacks of the processor, for any operand. -/
theorem Mnemonic.executeWith_silent (mnemonic : Mnemonic) (operand : Operand)
    (registers : Registers) :
    mnemonic.executeWith .silent operand registers = mnemonic.execute operand registers := by
  rw [execute_eq_microcode, executeWith, Family.microcodeWith_silent]

/-- A fallback that is taken shows. -/
example (registers : Registers) :
    Mnemonic.inc.executeWith { Fallbacks.silent with load := fun _ _ => .idle (.done 0x00) }
      ⟨.implied, none, none⟩ registers = .idle (.done (registers.describe 0x01)) :=
  rfl

/-! ## Nothing is left to them -/

namespace Operand

variable {operand : Operand}

theorem loadWith_eq (h : operand.value?.isSome) (fallbacks other : Fallbacks)
    (registers : Registers) :
    operand.loadWith fallbacks registers = operand.loadWith other registers := by
  obtain ⟨value, hvalue⟩ := Option.isSome_iff_exists.mp h
  rw [loadWith, loadWith, hvalue]

theorem storeWith_eq (h : operand.mode = .accumulator ∨ operand.address?.isSome)
    (fallbacks other : Fallbacks) (registers : Registers) (value : UInt8) :
    operand.storeWith fallbacks registers value = operand.storeWith other registers value := by
  rw [storeWith, storeWith]
  split
  next => rfl
  next hmode =>
    obtain ⟨address, haddress⟩ := Option.isSome_iff_exists.mp (h.resolve_left hmode)
    rw [haddress]

theorem jumpWith_eq (h : operand.address?.isSome) (fallbacks other : Fallbacks)
    (registers : Registers) :
    operand.jumpWith fallbacks registers = operand.jumpWith other registers := by
  obtain ⟨address, haddress⟩ := Option.isSome_iff_exists.mp h
  rw [jumpWith, jumpWith, haddress]

theorem branchWith_eq (h : operand.address?.isSome) (fallbacks other : Fallbacks)
    (registers : Registers) (condition : Bool) :
    operand.branchWith fallbacks registers condition =
      operand.branchWith other registers condition := by
  obtain ⟨address, haddress⟩ := Option.isSome_iff_exists.mp h
  rw [branchWith, branchWith, haddress]

end Operand

/-- An operand that suits the family leaves nothing to the fallbacks. -/
theorem Family.microcodeWith_eq {family : Family} {operand : Operand} (h : family.Suits operand)
    (fallbacks other : Fallbacks) (registers : Registers) :
    family.microcodeWith fallbacks operand registers =
      family.microcodeWith other operand registers := by
  cases family with
  | load action => rw [microcodeWith, microcodeWith, Operand.loadWith_eq h fallbacks other]
  | store source => exact Operand.storeWith_eq (.inr h.2) ..
  | modify action =>
    simp only [microcodeWith, Operand.loadWith_eq h.1 fallbacks other,
      Operand.storeWith_eq h.2 fallbacks other]
  | branch condition => exact Operand.branchWith_eq h ..
  | jump => exact Operand.jumpWith_eq h ..
  | call => simp only [microcodeWith, Operand.jumpWith_eq h fallbacks other]
  | internal | push | pull | comeBack | resume => rfl

/-! ## Documented opcodes -/

namespace Family.Suits

variable {family : Family} {operand : Operand}

/-- The byte is known if the operation works on one. -/
theorem value (h : family.Suits operand)
    (use : family.operandUse = .read ∨ family.operandUse = .readModifyWrite) :
    operand.value?.isSome := by
  cases family with
  | load action => exact h
  | modify action => exact h.1
  | _ => rcases use with use | use <;> cases use

/-- There is a place for the result if the operation has one. -/
theorem place (h : family.Suits operand)
    (use : family.operandUse = .write ∨ family.operandUse = .readModifyWrite) :
    operand.mode = .accumulator ∨ operand.address?.isSome := by
  cases family with
  | store source => exact .inr h.2
  | modify action => exact h.2
  | _ => rcases use with use | use <;> cases use

/-- There is a target if control may go there. -/
theorem target {mnemonic : Mnemonic} (h : mnemonic.family.Suits operand)
    (transfers : mnemonic ∈ [.jmp, .jsr, .bcc, .bcs, .beq, .bmi, .bne, .bpl, .bvc, .bvs]) :
    operand.address?.isSome := by
  cases mnemonic with
  | jmp | jsr | bcc | bcs | beq | bmi | bne | bpl | bvc | bvs => exact h
  | _ => exact absurd transfers (by decide)

end Family.Suits

section Documented

variable {opcode : UInt8} {operation : Operation}

/-- What a documented opcode finds suits its operation. -/
theorem Operand.FoundBy.suits_of_legal {operand : Operand}
    (found : operand.FoundBy operation.mode operation.mnemonic.operandUse)
    (legal : operation? opcode = some operation) : operation.mnemonic.family.Suits operand := by
  rw [operandUse_eq_family] at found
  exact found.suits (admits_of_operation? legal)

theorem Mnemonic.executeWith_eq {operand : Operand}
    (found : operand.FoundBy operation.mode operation.mnemonic.operandUse)
    (legal : operation? opcode = some operation) (fallbacks : Fallbacks) (registers : Registers) :
    operation.mnemonic.executeWith fallbacks operand registers =
      operation.mnemonic.execute operand registers := by
  rw [← executeWith_silent]
  exact Family.microcodeWith_eq (found.suits_of_legal legal) ..

/-- **A whole instruction** is the same microcode whatever the fallbacks do. -/
theorem Registers.instructionWith_eq (fallbacks : Fallbacks) (registers : Registers) (size : Nat) :
    registers.instructionWith fallbacks size = registers.instruction size := by
  refine (registers.fetch.endsIn_true).bind_congr fun ⟨opcode, fetched⟩ _ => ?_
  dsimp only
  cases legal : operation? opcode with
  | none => rfl
  | some operation =>
    dsimp only
    split
    next => rfl
    next =>
      refine (Operand.endsIn_resolve ..).bind_congr fun ⟨operand, resolved⟩ found => ?_
      rw [Mnemonic.executeWith_eq found legal]

/-- **No documented opcode comes to a fallback**, on any bus, in any state and after anything that
is noted. Of the operand that is found, the byte is known if the operation works on one; there is
the accumulator or an address if a result is to be stored; and there is a target for every jump,
call and branch. So whatever were done in the other cases, the operation would be the same. -/
theorem fallbacks_never_taken {M : Type} [Bus M] {memory : M} {registers after : Registers}
    {journal later : Journal} {operand : Operand} (legal : operation? opcode = some operation)
    (resolved : (Operand.resolve operation.mode operation.mnemonic.operandUse registers).perform
      memory journal = (.ok (operand, after), later)) :
    (operation.mnemonic.operandUse = .read ∨ operation.mnemonic.operandUse = .readModifyWrite →
      operand.value?.isSome) ∧
    (operation.mnemonic.operandUse = .write ∨ operation.mnemonic.operandUse = .readModifyWrite →
      operand.mode = .accumulator ∨ operand.address?.isSome) ∧
    (operation.mnemonic ∈ [.jmp, .jsr, .bcc, .bcs, .beq, .bmi, .bne, .bpl, .bvc, .bvs] →
      operand.address?.isSome) ∧
    ∀ (fallbacks : Fallbacks) (registers : Registers),
      operation.mnemonic.executeWith fallbacks operand registers =
        operation.mnemonic.execute operand registers := by
  have found := (Operand.endsIn_resolve ..).of_perform resolved
  have suits := found.suits_of_legal legal
  rw [operandUse_eq_family]
  exact ⟨suits.value, suits.place, suits.target, Mnemonic.executeWith_eq found legal⟩

/-- An increment in the zero page, where every byte is `$10`. -/
theorem fallbacks_never_taken_inc :
    ∃ operation operand, operation? 0xE6 = some operation ∧ operation.mnemonic = .inc ∧
      operand.value? = some 0x10 ∧ operand.address? = some 0x0010 ∧
      ∀ (fallbacks : Fallbacks) (registers : Registers),
        operation.mnemonic.executeWith fallbacks operand registers =
          operation.mnemonic.execute operand registers := by
  have legal : operation? 0xE6 = some ⟨.inc, .zeroPage, 5⟩ := by decide +kernel
  have resolved : (Operand.resolve .zeroPage Mnemonic.inc.operandUse ⟨0, 0, 0, 0xFF, 0x0601,
      .powerOn⟩).perform (⟨fun _ => 0x10⟩ : Image) .empty =
        (.ok (⟨.zeroPage, some 0x10, some 0x0010⟩, ⟨0, 0, 0, 0xFF, 0x0602, .powerOn⟩),
          ⟨[.read 0x0010 0x10, .read 0x0601 0x10], 0⟩) :=
    rfl
  obtain ⟨-, -, -, never⟩ := fallbacks_never_taken legal resolved
  exact ⟨_, _, legal, rfl, rfl, rfl, never⟩

end Documented

end Nmos6502
