import Nmos6502.Proofs.Footprint
import Nmos6502.Proofs.Iteration

/-!
# More memory changes nothing

The size of memory decides what fails, and nothing else. So a run that ends well in some memory ends
the same way in any larger memory that begins with the same bytes, and it leaves the bytes beyond as
they are.

The reason is a chain of monotonicity. A byte that is read in the smaller memory is read in the
larger one, and a write that would be accepted is accepted. So a performance that ends well stays
the same performance, with the same journal. The instruction asks for the size once more, to see
whether its bytes are there, and more room can only help. Its writes stay within the smaller memory,
so the larger one goes on to begin with the same bytes, and the next step is compared in the same
way.

The other direction fails: a larger memory can make a step succeed that failed.

## Main definitions

* `Ram.Begins` — a memory begins with the bytes of another
* `Ram.KeptFrom` — a memory is as before from an address on
* `Cpu.Enlarges` — the same processor with more memory

## Main results

* `Registers.instruction_mono` — an instruction that ends well does so with more memory ahead
* `Cpu.Enlarges.step` — a step that ends well
* `Cpu.run_enlarged` — a run that ends well
-/

namespace Nmos6502

/-- An instruction that ends well does so with more memory ahead of it, in the same way. -/
theorem Registers.instruction_mono {M : Type} [Bus M] {memory : M} {registers : Registers}
    {size more : Nat} {executed : Executed} {journal later : Journal} (hle : size ≤ more)
    (h : (registers.instruction size).perform memory journal = (.ok executed, later)) :
    (registers.instruction more).perform memory journal = (.ok executed, later) := by
  obtain ⟨⟨opcode, fetched⟩, noted, hfetch, h⟩ := Microcode.exists_of_perform_bind h
  rw [instruction, Microcode.perform_bind_of_ok hfetch]
  dsimp only at h ⊢
  cases ho : operation? opcode with
  | none =>
    simp only [ho] at h
    cases h
  | some operation =>
    simp only [ho] at h ⊢
    by_cases hroom : size - registers.pc.toNat < operation.size
    · rw [if_pos hroom] at h
      cases h
    · have hmore : ¬ more - registers.pc.toNat < operation.size := by omega
      rw [if_neg hroom] at h
      rw [if_neg hmore]
      exact h

/-! ## Memory -/

namespace Ram

/-- A memory is the beginning of another. -/
structure Begins (ram larger : Ram) : Prop where
  /-- The other one is not smaller. -/
  size_le : ram.size ≤ larger.size
  /-- Up to the end of the memory they hold the same bytes. -/
  read_eq {address : UInt16} : address.toNat < ram.size → larger.read address = ram.read address

/-- A memory has kept its size, and its bytes from an address on. -/
structure KeptFrom (ram : Ram) (bound : Nat) (after : Ram) : Prop where
  /-- The size is as before. -/
  size_eq : after.size = ram.size
  /-- The bytes are as before. -/
  read_eq {address : UInt16} : bound ≤ address.toNat → after.read address = ram.read address

theorem KeptFrom.refl (ram : Ram) (bound : Nat) : ram.KeptFrom bound ram := ⟨rfl, fun _ => rfl⟩

theorem KeptFrom.trans {ram middle after : Ram} {bound : Nat} (h : ram.KeptFrom bound middle)
    (h' : middle.KeptFrom bound after) : ram.KeptFrom bound after where
  size_eq := h'.size_eq.trans h.size_eq
  read_eq hbound := (h'.read_eq hbound).trans (h.read_eq hbound)

/-- Writes that are all made are within memory. -/
theorem lt_size_of_mem_writes {ram after : Ram} {writes : List (UInt16 × UInt8)}
    (h : Bus.writeAll ram writes = (.ok (), after)) :
    ∀ write ∈ writes, write.1.toNat < ram.size := by
  induction writes generalizing ram with
  | nil => exact fun write hw => absurd hw List.not_mem_nil
  | cons write writes ih =>
    obtain ⟨haccepted, hrest⟩ := Bus.writeAll_cons_ok.mp h
    intro other hother
    rcases List.mem_cons.mp hother with rfl | hother
    · exact refusal?_eq_none_iff.mp haccepted
    · rw [← ram.size_put write.1 write.2]
      exact ih hrest other hother

/-- Writes that are made leave what is beyond them. -/
theorem keptFrom_writeAll {ram after : Ram} {writes : List (UInt16 × UInt8)} {bound : Nat}
    (h : Bus.writeAll ram writes = (.ok (), after))
    (hbound : ∀ write ∈ writes, write.1.toNat < bound) : ram.KeptFrom bound after where
  size_eq := size_writeAll h
  read_eq hle := read_writeAll_of_not_mem h fun write hw heq =>
    absurd (hbound write hw) (Nat.not_lt.mpr (heq ▸ hle))

namespace Begins

variable {ram larger : Ram}

theorem includes (h : ram.Begins larger) : Bus.Includes ram larger where
  read hread := (h.read_eq (lt_size_of_read_ok hread)).trans hread
  check hcheck := check_eq_ok_iff.mpr (Nat.lt_of_lt_of_le (check_eq_ok_iff.mp hcheck) h.size_le)

theorem put (h : ram.Begins larger) (target : UInt16) (value : UInt8) :
    (ram.put target value).Begins (larger.put target value) where
  size_le := by
    rw [size_put, size_put]
    exact h.size_le
  read_eq hlt := by
    rw [size_put] at hlt
    rw [read_put, read_put, h.read_eq hlt]

/-- Writes that are made in a memory are made in a larger one. -/
theorem exists_writeAll (h : ram.Begins larger) {after : Ram} {writes : List (UInt16 × UInt8)}
    (hw : Bus.writeAll ram writes = (.ok (), after)) :
    ∃ grown, Bus.writeAll larger writes = (.ok (), grown) ∧ after.Begins grown := by
  induction writes generalizing ram larger with
  | nil =>
    cases hw
    exact ⟨larger, rfl, h⟩
  | cons write writes ih =>
    obtain ⟨haccepted, hrest⟩ := Bus.writeAll_cons_ok.mp hw
    obtain ⟨grown, hgrown, hbegins⟩ := ih (h.put write.1 write.2) hrest
    have hroom := Nat.lt_of_lt_of_le (refusal?_eq_none_iff.mp haccepted) h.size_le
    exact ⟨grown, Bus.writeAll_cons_ok.mpr ⟨refusal?_eq_none_iff.mpr hroom, hgrown⟩, hbegins⟩

end Begins

end Ram

/-! ## Steps and runs -/

namespace Cpu

/-- The same registers and the same clock, and a memory that begins with the same bytes. -/
structure Enlarges (larger cpu : Cpu Ram) : Prop where
  /-- The registers are the same. -/
  registers : larger.registers = cpu.registers
  /-- The clock is the same. -/
  clock : larger.clock = cpu.clock
  /-- The memory begins with the same bytes. -/
  memory : cpu.memory.Begins larger.memory

namespace Enlarges

variable {cpu larger : Cpu Ram}

theorem rehearse (h : larger.Enlarges cpu) {executed : Executed} {journal : Journal}
    (hr : cpu.rehearse = (.ok executed, journal)) : larger.rehearse = (.ok executed, journal) := by
  have hroom := Registers.instruction_mono h.memory.size_le hr
  rw [Cpu.rehearse, h.registers]
  exact Microcode.perform_of_includes h.memory.includes hroom

/-- **A step that ends well** does the same with more memory, and nothing beyond. -/
theorem step (h : larger.Enlarges cpu) {mnemonic : Mnemonic}
    (hs : cpu.step.result = .ok mnemonic) :
    larger.step.result = .ok mnemonic ∧ larger.step.cpu.Enlarges cpu.step.cpu ∧
      cpu.step.cpu.memory.size = cpu.memory.size ∧
      larger.memory.KeptFrom cpu.memory.size larger.step.cpu.memory := by
  rcases hr : cpu.rehearse with ⟨fault | executed, journal⟩
  · rw [step_of_rehearse_error hr] at hs
    cases hs
  rcases hw : Bus.writeAll cpu.memory journal.writes with ⟨cause | done, after⟩
  · rw [step_of_writeAll_error hr hw] at hs
    cases hs
  obtain ⟨grown, hgrown, hbegins⟩ := h.memory.exists_writeAll hw
  have hkept := Ram.keptFrom_writeAll hgrown (Ram.lt_size_of_mem_writes hw)
  rw [step_of_writeAll_ok hr hw] at hs ⊢
  rw [step_of_writeAll_ok (h.rehearse hr) hgrown]
  have hclock := congrArg (Clock.tick · (executed.ticks journal)) h.clock
  exact ⟨hs, ⟨rfl, hclock, hbegins⟩, Ram.size_writeAll hw, hkept⟩

/-- A run that ends well, by induction on its turns. What was reported does not matter. -/
theorem runFrom {limit : RunLimit} {start fuel executed : Nat} {reported : List Event}
    {report : RunReport Ram} {summary : RunSummary} (h : larger.Enlarges cpu)
    (hrun : runFrom limit start fuel executed reported cpu = some report)
    (hok : report.result = .ok summary) (other : List Event) :
    ∃ found, Cpu.runFrom limit start fuel executed other larger = some found ∧
      found.result = .ok summary ∧ found.cpu.Enlarges report.cpu ∧
      report.cpu.memory.size = cpu.memory.size ∧
      larger.memory.KeptFrom cpu.memory.size found.cpu.memory := by
  induction fuel using Nat.strongRecOn generalizing executed reported other cpu larger with
  | ind fuel ih =>
    rcases runFrom_cases hrun with ⟨hlimit, hresult, hcpu⟩ | ⟨left, rfl, hlimit, hturn⟩
    · rw [← h.clock] at hlimit hresult
      rw [hcpu]
      exact ⟨_, runFrom_of_spent hlimit, hresult.symm.trans hok, h, rfl, .refl ..⟩
    rcases hturn with ⟨fault, -, hresult, -⟩ | ⟨hs, hcpu, hresult⟩ |
      ⟨mnemonic, later, hs, hne, hrest⟩
    · rw [hok] at hresult
      cases hresult
    · obtain ⟨hs', hafter, hsize, hkept⟩ := h.step hs
      rw [← h.clock] at hlimit
      rw [← hafter.clock] at hresult
      obtain ⟨events, hreport⟩ := exists_report_of_endsWith (EndsWith.break hlimit hs')
      rw [hcpu]
      exact ⟨_, hreport, hresult.symm.trans hok, hafter, hsize, hkept⟩
    · obtain ⟨hs', hafter, hsize, hkept⟩ := h.step hs
      rw [← h.clock] at hlimit
      rw [runFrom_succ_of_goesOn ⟨hlimit, mnemonic, hne, hs'⟩]
      obtain ⟨found, hfound, hresult, hlast, hsame, hkept'⟩ :=
        ih left (Nat.lt_succ_self left) hafter hrest _
      rw [hsize] at hsame hkept'
      exact ⟨found, hfound, hresult, hlast, hsame, hkept.trans hkept'⟩

end Enlarges

/-- **More memory changes nothing** about a run that ends well, with ample fuel or any other: the
summary, the registers and the clock are the same, and so are the bytes that both memories have. The
bytes beyond are as before. -/
theorem run_enlarged {cpu larger : Cpu Ram} (h : larger.Enlarges cpu) {limit : RunLimit}
    {fuel : Nat} {report : RunReport Ram} {summary : RunSummary}
    (hrun : cpu.runWithin fuel limit = some report) (hok : report.result = .ok summary) :
    ∃ found, larger.runWithin fuel limit = some found ∧ found.result = .ok summary ∧
      found.cpu.Enlarges report.cpu ∧ report.cpu.memory.size = cpu.memory.size ∧
      larger.memory.KeptFrom cpu.memory.size found.cpu.memory := by
  rw [runWithin, h.clock]
  exact h.runFrom hrun hok []

/-- A program that fills its memory: it stores a byte at the end, and a break follows. -/
def storeAtEnd : Cpu Ram where
  registers := ⟨0, 0, 0, 0xFF, 0, .powerOn⟩
  clock := .zero
  verbose := false
  memory := ((((Ram.zeros 8 (by decide) (by decide)).put 0 0xA9).put 1 0x55).put 2 0x85).put 3 7

/-- The same program with as much memory again, which is not empty, and with every step reported. -/
def storeInMiddle : Cpu Ram where
  registers := ⟨0, 0, 0, 0xFF, 0, .powerOn⟩
  clock := .zero
  verbose := true
  memory := (((((Ram.zeros 0x0010 (by decide) (by decide)).put 0 0xA9).put 1 0x55).put 2 0x85).put 3
    7).put 9 0x77

theorem storeInMiddle_enlarges : storeInMiddle.Enlarges storeAtEnd where
  registers := rfl
  clock := rfl
  memory.size_le := by decide
  memory.read_eq {address} hlt := by
    have hall : ∀ n < 8, storeInMiddle.memory.read (UInt16.ofNat n) =
        storeAtEnd.memory.read (UInt16.ofNat n) := by decide +kernel
    have hread := hall address.toNat hlt
    rwa [UInt16.ofNat_toNat] at hread

/-- The run stores its byte, and the byte beyond stays. -/
theorem run_enlarged_storeAtEnd :
    storeInMiddle.Enlarges storeAtEnd ∧ ∃ report, storeAtEnd.run .unbounded = some report ∧
      report.result = .ok ⟨3, 12, .breakInstruction⟩ ∧
      ∃ found, storeInMiddle.run .unbounded = some found ∧
        found.result = .ok ⟨3, 12, .breakInstruction⟩ ∧ found.cpu.Enlarges report.cpu ∧
        found.cpu.memory.read 9 = .ok 0x77 := by
  have hresult : (storeAtEnd.run .unbounded).map RunReport.result =
      some (.ok ⟨3, 12, .breakInstruction⟩) := by decide +kernel
  obtain ⟨report, hreport, hok⟩ := Option.map_eq_some_iff.mp hresult
  obtain ⟨found, hfound, hsame, hafter, -, hkept⟩ :=
    run_enlarged storeInMiddle_enlarges hreport hok
  have hbyte : storeInMiddle.memory.read 9 = .ok 0x77 := by decide +kernel
  exact ⟨storeInMiddle_enlarges, report, hreport, hok, found, hfound, hsame, hafter,
    (hkept.read_eq (by decide)).trans hbyte⟩

end Cpu

end Nmos6502
