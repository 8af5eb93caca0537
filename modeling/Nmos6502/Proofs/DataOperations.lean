import Nmos6502.Proofs.Location

/-!
# Operations on data

Loads, logic, counting and transfers have one thing in common: they leave a byte somewhere, and two
flags describe this byte and not the one that was there before. What the byte should be is said in
a table of numbers, `Cpu.reference?`, from the state before the step and from the bytes that memory
gives. The table does not know how the operations are carried out.

Stores and the transfer to the stack pointer move a byte and leave the flags alone. The bit test is
the other way round: it leaves no byte, and its flags come from two different ones.

## Main definitions

* `Cpu.reference?` — what an operation should leave, and where
* `Mnemonic.stored?` — the register that an operation stores

## Main results

* `Cpu.shows_reference` — the table is right, and the flags describe the result
* `Cpu.step_data` — what operations on data leave
-/

namespace Nmos6502

/-- The register that an operation stores, if it is a store. -/
def Mnemonic.stored? : Mnemonic → Option Location
  | .sta => some .a
  | .stx => some .x
  | .sty => some .y
  | _ => none

namespace Cpu

/-- The location that an operation should leave its result at, and the result as a number. -/
def reference? (cpu : Cpu Ram) (mnemonic : Mnemonic) : Option (Location × Nat) :=
  let a := cpu.registers.a.toNat
  let x := cpu.registers.x.toNat
  let y := cpu.registers.y.toNat
  let sp := cpu.registers.sp
  match mnemonic with
  | .lda => cpu.loadedByte?.map fun m => (.a, m.toNat)
  | .ldx => cpu.loadedByte?.map fun m => (.x, m.toNat)
  | .ldy => cpu.loadedByte?.map fun m => (.y, m.toNat)
  | .and => cpu.loadedByte?.map fun m => (.a, a &&& m.toNat)
  | .ora => cpu.loadedByte?.map fun m => (.a, a ||| m.toNat)
  | .eor => cpu.loadedByte?.map fun m => (.a, a ^^^ m.toNat)
  | .inc => do
    let location ← cpu.target?
    let m ← cpu.byteAt? location
    return (location, (m.toNat + 1) % 0x100)
  | .dec => do
    let location ← cpu.target?
    let m ← cpu.byteAt? location
    return (location, (m.toNat + 0xFF) % 0x100)
  | .inx => some (.x, (x + 1) % 0x100)
  | .dex => some (.x, (x + 0xFF) % 0x100)
  | .iny => some (.y, (y + 1) % 0x100)
  | .dey => some (.y, (y + 0xFF) % 0x100)
  | .tax => some (.x, a)
  | .tay => some (.y, a)
  | .txa => some (.a, x)
  | .tya => some (.a, y)
  | .tsx => some (.x, sp.toNat)
  | .pla => (cpu.byteAt? (.memory (stackSlot (sp + 1)))).map fun m => (.a, m.toNat)
  | _ => none

/-- One more, as a number. -/
theorem toNat_add_one (byte : UInt8) : (byte + 1).toNat = (byte.toNat + 1) % 0x100 :=
  UInt8.toNat_add byte 1

/-- One less, as a number. -/
theorem toNat_sub_one (byte : UInt8) : (byte - 1).toNat = (byte.toNat + 0xFF) % 0x100 := by
  rw [UInt8.toNat_sub, Nat.add_comm]
  rfl

/-! ## Results in registers -/

section Shown

variable {cpu : Cpu Ram} {registers : Registers} {byte : UInt8}

theorem shows_setA (h : cpu.registers = registers.setA byte) : cpu.Shows .a byte.toNat :=
  shows_of_describe (by rw [byteAt?, h]; rfl) (congrArg Registers.status h)

theorem shows_setX (h : cpu.registers = registers.setX byte) : cpu.Shows .x byte.toNat :=
  shows_of_describe (by rw [byteAt?, h]; rfl) (congrArg Registers.status h)

theorem shows_setY (h : cpu.registers = registers.setY byte) : cpu.Shows .y byte.toNat :=
  shows_of_describe (by rw [byteAt?, h]; rfl) (congrArg Registers.status h)

end Shown

variable {cpu : Cpu Ram} {mnemonic : Mnemonic}

/-- The registers after a byte was loaded. -/
theorem registers_of_load {action : Registers → UInt8 → Registers}
    (hfamily : mnemonic.family = .load action) (h : cpu.step.result = .ok mnemonic) :
    ∃ pc m, cpu.loadedByte? = some m ∧
      cpu.step.cpu.registers = action { cpu.registers with pc } m := by
  obtain ⟨operation, m, -, -, hm, hcpu⟩ := step_of_load hfamily h
  exact ⟨_, m, hm, congrArg Cpu.registers hcpu⟩

/-- The registers after an operation that concerns nothing else. -/
theorem registers_of_internal {action : Registers → Registers}
    (hfamily : mnemonic.family = .internal action) (h : cpu.step.result = .ok mnemonic) :
    ∃ pc, cpu.step.cpu.registers = action { cpu.registers with pc } := by
  obtain ⟨operation, rfl, hx⟩ := exists_executes h
  exact ⟨_, congrArg Cpu.registers (hx.internal_eq hfamily)⟩

/-- The registers after a byte was taken from the stack. -/
theorem registers_of_pull {action : Registers → UInt8 → Registers}
    (hfamily : mnemonic.family = .pull action) (h : cpu.step.result = .ok mnemonic) :
    ∃ pc m, cpu.byteAt? (.memory (stackSlot (cpu.registers.sp + 1))) = some m ∧
      cpu.step.cpu.registers = action { cpu.registers with sp := cpu.registers.sp + 1, pc } m := by
  obtain ⟨operation, rfl, hx⟩ := exists_executes h
  obtain ⟨m, hm, hcpu⟩ := hx.pull_eq hfamily
  exact ⟨_, m, hm, congrArg Cpu.registers hcpu⟩

/-! ## Results anywhere -/

/-- A load leaves what its byte makes of the registers, if that is shown somewhere. -/
theorem shows_loaded {action : Registers → UInt8 → Registers} {location : Location}
    {value : UInt8 → Nat} (hfamily : mnemonic.family = .load action)
    (h : cpu.step.result = .ok mnemonic)
    (hshows : ∀ {after : Cpu Ram} {pc : UInt16} {m : UInt8},
      after.registers = action { cpu.registers with pc } m → after.Shows location (value m)) :
    ∃ found result, (cpu.loadedByte?.map fun m => (location, value m)) = some (found, result) ∧
      cpu.step.cpu.Shows found result := by
  obtain ⟨pc, m, hm, hregisters⟩ := registers_of_load hfamily h
  exact ⟨location, value m, congrArg (Option.map _) hm, hshows hregisters⟩

/-- Counting leaves the new number where the old one was. -/
theorem shows_counted {action : UInt8 → UInt8}
    (hfamily : mnemonic.family = .modify (counted action)) (h : cpu.step.result = .ok mnemonic) :
    ∃ location m, cpu.target? = some location ∧ cpu.byteAt? location = some m ∧
      cpu.step.cpu.Shows location (action m).toNat := by
  obtain ⟨operation, rfl, hx⟩ := exists_executes h
  obtain ⟨location, m, htarget, hm, hcpu⟩ := hx.modify_eq hfamily
  refine ⟨location, m, htarget, hm, ?_⟩
  rw [hcpu]
  refine shows_replace ?_ rfl
  exact within_of_byteAt? hm

/-- **The table is right**, and the flags describe the result. The cases are the rows. -/
theorem shows_reference
    (hm : mnemonic ∈ [.lda, .ldx, .ldy, .and, .ora, .eor, .inc, .dec, .inx, .iny, .dex, .dey, .tax,
      .tay, .txa, .tya, .tsx, .pla])
    (h : cpu.step.result = .ok mnemonic) :
    ∃ location value, cpu.reference? mnemonic = some (location, value) ∧
      cpu.step.cpu.Shows location value := by
  cases mnemonic with
  | lda => exact shows_loaded rfl h shows_setA
  | ldx => exact shows_loaded rfl h shows_setX
  | ldy => exact shows_loaded rfl h shows_setY
  | and =>
    refine shows_loaded rfl h fun {after pc m} hregisters => ?_
    rw [← UInt8.toNat_and]
    exact shows_setA hregisters
  | ora =>
    refine shows_loaded rfl h fun {after pc m} hregisters => ?_
    rw [← UInt8.toNat_or]
    exact shows_setA hregisters
  | eor =>
    refine shows_loaded rfl h fun {after pc m} hregisters => ?_
    rw [← UInt8.toNat_xor]
    exact shows_setA hregisters
  | inc =>
    obtain ⟨location, m, htarget, hm, hshows⟩ := shows_counted rfl h
    exact ⟨location, _, by simp [reference?, htarget, hm], toNat_add_one m ▸ hshows⟩
  | dec =>
    obtain ⟨location, m, htarget, hm, hshows⟩ := shows_counted rfl h
    exact ⟨location, _, by simp [reference?, htarget, hm], toNat_sub_one m ▸ hshows⟩
  | inx =>
    obtain ⟨pc, hregisters⟩ := registers_of_internal rfl h
    exact ⟨_, _, rfl, toNat_add_one _ ▸ shows_setX hregisters⟩
  | iny =>
    obtain ⟨pc, hregisters⟩ := registers_of_internal rfl h
    exact ⟨_, _, rfl, toNat_add_one _ ▸ shows_setY hregisters⟩
  | dex =>
    obtain ⟨pc, hregisters⟩ := registers_of_internal rfl h
    exact ⟨_, _, rfl, toNat_sub_one _ ▸ shows_setX hregisters⟩
  | dey =>
    obtain ⟨pc, hregisters⟩ := registers_of_internal rfl h
    exact ⟨_, _, rfl, toNat_sub_one _ ▸ shows_setY hregisters⟩
  | tax | tsx =>
    obtain ⟨pc, hregisters⟩ := registers_of_internal rfl h
    exact ⟨_, _, rfl, shows_setX hregisters⟩
  | tay =>
    obtain ⟨pc, hregisters⟩ := registers_of_internal rfl h
    exact ⟨_, _, rfl, shows_setY hregisters⟩
  | txa | tya =>
    obtain ⟨pc, hregisters⟩ := registers_of_internal rfl h
    exact ⟨_, _, rfl, shows_setA hregisters⟩
  | pla =>
    obtain ⟨pc, m, hm, hregisters⟩ := registers_of_pull rfl h
    exact ⟨_, _, congrArg (Option.map _) hm, shows_setA hregisters⟩
  | _ => exact absurd hm (by decide)

/-! ## Stores -/

/-- A store leaves a register at the effective address. -/
theorem byteAt?_of_stored {source : Location} (hsource : mnemonic.stored? = some source)
    (h : cpu.step.result = .ok mnemonic) :
    ∃ address, cpu.target? = some (.memory address) ∧
      cpu.step.cpu.byteAt? (.memory address) = cpu.byteAt? source ∧
      cpu.step.cpu.registers.status = cpu.registers.status := by
  obtain ⟨operation, hm, hx⟩ := exists_executes h
  cases mnemonic with
  | sta | stx | sty =>
    cases hsource
    obtain ⟨address, htarget, haccepted, hcpu⟩ := hx.store_eq (congrArg Mnemonic.family hm)
    rw [hcpu]
    refine ⟨address, htarget, byteAt?_replace ?_ _, rfl⟩
    exact Ram.refusal?_eq_none_iff.mp haccepted
  | _ => cases hsource

/-! ## Bit tests -/

theorem overflow_testBits (registers : Registers) (m : UInt8) :
    (registers.testBits m).status.overflow = m.toNat.testBit 6 :=
  forall_byte (p := fun m => (m &&& 0x40 != 0) = m.toNat.testBit 6) (by decide +kernel) m

theorem zero_testBits (registers : Registers) (m : UInt8) :
    (registers.testBits m).status.zero = true ↔ registers.a.toNat &&& m.toNat = 0 := by
  rw [← UInt8.toNat_and]
  exact beq_iff_eq.trans UInt8.toNat_inj.symm

/-- **Operations on data.** What the table says is what is there after the step, and the flags
describe it. A store leaves a register at the effective address, and the transfer to the stack
pointer leaves X there, and no flag changes. A bit test leaves flags: zero says that the byte and
the accumulator have no bit in common, and the others are bits of the byte. -/
theorem step_data (cpu : Cpu Ram) :
    (∀ mnemonic ∈ [.lda, .ldx, .ldy, .and, .ora, .eor, .inc, .dec, .inx, .iny, .dex, .dey, .tax,
        .tay, .txa, .tya, .tsx, .pla], cpu.step.result = .ok mnemonic →
      ∃ location value, cpu.reference? mnemonic = some (location, value) ∧
        cpu.step.cpu.Shows location value) ∧
    (∀ mnemonic source, mnemonic.stored? = some source → cpu.step.result = .ok mnemonic →
      ∃ address, cpu.target? = some (.memory address) ∧
        cpu.step.cpu.byteAt? (.memory address) = cpu.byteAt? source ∧
        cpu.step.cpu.registers.status = cpu.registers.status) ∧
    (cpu.step.result = .ok .txs →
      cpu.step.cpu.registers.sp = cpu.registers.x ∧
        cpu.step.cpu.registers.status = cpu.registers.status) ∧
    (cpu.step.result = .ok .bit →
      ∃ m, cpu.loadedByte? = some m ∧
        (cpu.step.cpu.registers.status.zero = true ↔ cpu.registers.a.toNat &&& m.toNat = 0) ∧
        cpu.step.cpu.registers.status.negative = m.toNat.testBit 7 ∧
        cpu.step.cpu.registers.status.overflow = m.toNat.testBit 6 ∧
        cpu.step.cpu.registers.a = cpu.registers.a) := by
  refine ⟨fun _ hm h => shows_reference hm h, fun _ _ hsource h => byteAt?_of_stored hsource h,
    fun h => ?_, fun h => ?_⟩
  · obtain ⟨pc, hregisters⟩ := registers_of_internal rfl h
    rw [hregisters]
    exact ⟨rfl, rfl⟩
  · obtain ⟨pc, m, hm, hregisters⟩ := registers_of_load rfl h
    rw [hregisters]
    exact ⟨m, hm, zero_testBits _ m, isNegative_eq_testBit m, overflow_testBits _ m, rfl⟩

/-- A count that goes below zero, a store, a bit test and a transfer, one at each even address. -/
def handling (pc : UInt16) : Cpu Ram where
  registers := ⟨0x3F, 0x7F, 0, 0xFF, pc, .powerOn⟩
  clock := .zero
  verbose := false
  memory := ((((((((Ram.zeros 0x0070 (by decide) (by decide)).put 0 0xC6).put 1 0x40).put 2
    0x85).put 3 0x41).put 4 0x24).put 5 0x42).put 6 0x9A).put 0x0042 0xC0

/-- One less than zero is all ones, and negative. The store and the transfer move what is in A and
X, and the bit test finds nothing in common with a byte that has both of its top bits set. -/
theorem step_data_handling :
    (handling 0).step.cpu.Shows (.memory 0x0040) 0xFF ∧
    (handling 2).step.cpu.byteAt? (.memory 0x0041) = some 0x3F ∧
    (handling 4).step.cpu.registers.status.zero = true ∧
    (handling 4).step.cpu.registers.status.overflow = true ∧
    (handling 6).step.cpu.registers.sp = 0x7F := by
  obtain ⟨hdata, -, -, -⟩ := step_data (handling 0)
  obtain ⟨-, hstores, -, -⟩ := step_data (handling 2)
  obtain ⟨-, -, -, htests⟩ := step_data (handling 4)
  obtain ⟨-, -, hmoves, -⟩ := step_data (handling 6)
  refine ⟨?_, ?_, ?_⟩
  · obtain ⟨location, value, hreference, hshows⟩ := hdata .dec (by decide) (by decide +kernel)
    have hrow : (handling 0).reference? .dec = some (.memory 0x0040, 0xFF) := by decide +kernel
    cases hrow.symm.trans hreference
    exact hshows
  · obtain ⟨address, htarget, hstored, -⟩ := hstores .sta .a rfl (by decide +kernel)
    have hplace : (handling 2).target? = some (.memory 0x0041) := by decide +kernel
    cases hplace.symm.trans htarget
    exact hstored
  · obtain ⟨m, hm, hzero, -, hoverflow, -⟩ := htests (by decide +kernel)
    have hloaded : (handling 4).loadedByte? = some 0xC0 := by decide +kernel
    cases hloaded.symm.trans hm
    exact ⟨hzero.mpr (by decide), hoverflow.trans (by decide), (hmoves (by decide +kernel)).1⟩

end Cpu

end Nmos6502
