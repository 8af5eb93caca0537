import Nmos6502.Proofs.Outcome
import Nmos6502.Proofs.Transition

/-!
# Memory that fills the address space

Where memory has a byte at every address, nothing is refused. An instruction whose bytes do not run
past the end does what `Operation.effect` says, and that is an equation for the processor after it.
Programs are followed with these equations, from one state to the next by `Cpu.Leads`, and when a
break is reached the run is known.

Code and data are the bytes of an image at successive places. The places are numbers here, so that
those of the parts of a program are sums.

## Main definitions

* `Image.bytes` — the bytes at successive places

## Main results

* `Image.bytes_append_iff`, `Image.bytes_flatMap` — the parts of a program
* `Cpu.step_of_full` — a step, as an equation
* `Cpu.Leads.run_of_break` — a run that comes to a break
-/

namespace Nmos6502

/-! ## Places -/

theorem toNat_ofNat_of_lt {place : Nat} (h : place < addressSpace) :
    (UInt16.ofNat place).toNat = place := by
  rw [UInt16.toNat_ofNat']
  exact Nat.mod_eq_of_lt h

namespace Image

variable {image other : Image} {place count : Nat}

/-- The bytes at `count` places from `place` on. -/
def bytes (image : Image) (place count : Nat) : List UInt8 :=
  (List.range count).map fun i => image.byte (UInt16.ofNat (place + i))

@[simp] theorem length_bytes : (image.bytes place count).length = count := by
  simp [bytes]

theorem bytes_succ :
    image.bytes place (count + 1) =
      image.bytes place count ++ [image.byte (UInt16.ofNat (place + count))] := by
  rw [bytes, List.range_succ, List.map_append]
  rfl

theorem bytes_add (more : Nat) :
    image.bytes place (count + more) =
      image.bytes place count ++ image.bytes (place + count) more := by
  simp only [bytes, List.range_add, List.map_append, List.map_map, Function.comp_def,
    Nat.add_assoc]

theorem bytes_congr (h : ∀ i < count,
    other.byte (UInt16.ofNat (place + i)) = image.byte (UInt16.ofNat (place + i))) :
    other.bytes place count = image.bytes place count :=
  List.map_congr_left fun i hi => h i (List.mem_range.mp hi)

/-- One piece of code stands before another. -/
theorem bytes_append_iff {first second : List UInt8} :
    image.bytes place (first ++ second).length = first ++ second ↔
      image.bytes place first.length = first ∧
        image.bytes (place + first.length) second.length = second := by
  rw [List.length_append, bytes_add]
  constructor
  · intro h
    exact List.append_inj h length_bytes
  · rintro ⟨hfirst, hsecond⟩
    rw [hfirst, hsecond]

theorem length_flatMap_range {part : Nat → List UInt8} {length : Nat}
    (hlength : ∀ i, (part i).length = length) (count : Nat) :
    ((List.range count).flatMap part).length = length * count := by
  induction count with
  | zero => rfl
  | succ count ih =>
    rw [List.range_succ, List.flatMap_append, List.flatMap_singleton, List.length_append, ih,
      hlength, Nat.mul_succ]

/-- A series of pieces of the same length: each stands where the lengths before it put it. -/
theorem bytes_flatMap {part : Nat → List UInt8} {length : Nat}
    (hlength : ∀ i, (part i).length = length)
    (h : image.bytes place ((List.range count).flatMap part).length =
      (List.range count).flatMap part) :
    ∀ i < count, image.bytes (place + length * i) (part i).length = part i := by
  induction count with
  | zero => exact nofun
  | succ count ih =>
    rw [List.range_succ, List.flatMap_append, List.flatMap_singleton, bytes_append_iff,
      length_flatMap_range hlength] at h
    intro i hi
    rcases Nat.lt_succ_iff_lt_or_eq.mp hi with hlt | rfl
    · exact ih (by rw [length_flatMap_range hlength]; exact h.1) i hlt
    · exact h.2

end Image

/-! ## Memory -/

namespace Bus

variable {M : Type} [Bus M]

/-- The memory after some writes, if none is refused. -/
def putAll (memory : M) (writes : List (UInt16 × UInt8)) : M :=
  writes.foldl (fun memory write => put memory write.1 write.2) memory

theorem eq_putAll_of_writeAll {memory after : M} {writes : List (UInt16 × UInt8)}
    (h : writeAll memory writes = (.ok (), after)) : after = putAll memory writes := by
  induction writes generalizing memory with
  | nil =>
    cases h
    rfl
  | cons write writes ih => exact ih (writeAll_cons_ok.mp h).2

end Bus

namespace Ram

variable {ram : Ram}

theorem slice_eq_bytes {place count : Nat} (h : place + count ≤ ram.size) :
    ram.slice place count = (Bus.image ram).bytes place count := by
  have hsize : ram.size ≤ addressSpace := ram.size_le
  rw [← ram.around_eq_slice h]
  refine List.map_congr_left fun i hi => ?_
  have hi := List.mem_range.mp hi
  rw [byte_image, toNat_ofNat_of_lt (by omega), Nat.mod_eq_of_lt (by omega)]

theorem read_of_full (hfull : ram.size = addressSpace) (address : UInt16) :
    Bus.read ram address = .ok ((Bus.image ram).byte address) := by
  have haddress : address.toNat < ram.size := hfull ▸ address.toNat_lt
  rw [read_eq, if_neg (Nat.not_le.mpr haddress), byte_image]

theorem refusal?_of_full (hfull : ram.size = addressSpace) (address : UInt16) (value : UInt8) :
    Bus.refusal? ram address value = none :=
  refusal?_eq_none_iff.mpr (hfull ▸ address.toNat_lt)

/-- Memory that fills the address space keeps every byte that it is given. -/
theorem byte_put_of_full (hfull : ram.size = addressSpace) (target address : UInt16)
    (value : UInt8) :
    (Bus.image (ram.put target value)).byte address =
      if address = target then value else (Bus.image ram).byte address := by
  have hput : (ram.put target value).size = addressSpace := (size_put ..).trans hfull
  have hwritten := read_put_of_accepted (refusal?_of_full hfull target value) address
  have hread := (read_of_full hput address).symm.trans hwritten
  split at hread
  next hsame => rw [if_pos hsame]; exact Except.ok.inj hread
  next hother =>
    rw [if_neg hother]
    exact Except.ok.inj (hread.trans (read_of_full hfull address))

/-- A series of bytes becomes longer by a byte that is put after it. -/
theorem bytes_put_of_full (hfull : ram.size = addressSpace) {place count : Nat}
    (h : place + count < addressSpace) (value : UInt8) :
    (Bus.image (ram.put (UInt16.ofNat (place + count)) value)).bytes place (count + 1) =
      (Bus.image ram).bytes place count ++ [value] := by
  rw [Image.bytes_succ, byte_put_of_full hfull, if_pos rfl]
  refine congrArg (· ++ [value]) (Image.bytes_congr fun i hi => ?_)
  rw [byte_put_of_full hfull, if_neg]
  intro heq
  have hplaces := congrArg UInt16.toNat heq
  rw [toNat_ofNat_of_lt (by omega), toNat_ofNat_of_lt h] at hplaces
  omega

theorem size_putAll (ram : Ram) (writes : List (UInt16 × UInt8)) :
    (Bus.putAll ram writes).size = ram.size := by
  induction writes generalizing ram with
  | nil => rfl
  | cons write writes ih => exact (ih _).trans (size_put ..)

/-- After some writes a byte is the one last written to its address, if there is one. -/
theorem byte_putAll_of_full (hfull : ram.size = addressSpace) (writes : List (UInt16 × UInt8))
    (address : UInt16) :
    (Bus.image (Bus.putAll ram writes)).byte address =
      (writes.reverse.lookup address).getD ((Bus.image ram).byte address) := by
  induction writes generalizing ram with
  | nil => rfl
  | cons write writes ih =>
    obtain ⟨target, value⟩ := write
    have hput : (ram.put target value).size = addressSpace := (size_put ..).trans hfull
    refine (ih hput).trans ?_
    rw [byte_put_of_full hfull, List.reverse_cons, List.lookup_append]
    cases writes.reverse.lookup address with
    | some found => rfl
    | none =>
      by_cases h : address = target
      · simp [h]
      · have hne : (address == target) = false := by simpa using h
        simp [List.lookup_cons, h, hne]

end Ram

/-! ## Steps -/

namespace Cpu

variable {cpu : Cpu Ram} {operation : Operation}

/-- An instruction whose bytes do not run past the end is executed. -/
theorem executes_of_full (hfull : cpu.memory.size = addressSpace)
    (ho : operation? (cpu.image.byte cpu.registers.pc) = some operation)
    (hfits : cpu.registers.pc.toNat + operation.size ≤ addressSpace) :
    cpu.Executes operation := by
  have hread := Ram.read_of_full hfull cpu.registers.pc
  have hnext : cpu.next? = some operation := next?_of_operation? hread ho
  have hresult := step_result_of_fits hread ho (by omega)
  rw [Ram.firstBeyond?_eq_none cpu.memory fun address _ => hfull ▸ address.toNat_lt] at hresult
  obtain ⟨found, -, hx⟩ := exists_executes hresult
  obtain rfl : operation = found := Option.some.inj (hnext.symm.trans hx.next)
  exact hx

/-- **A step, as an equation**, of an operation that takes no branch. -/
theorem step_of_full (hfull : cpu.memory.size = addressSpace)
    (ho : operation? (cpu.image.byte cpu.registers.pc) = some operation)
    (hmode : operation.mode ≠ .relative)
    (hfits : cpu.registers.pc.toNat + operation.size ≤ addressSpace) :
    cpu.step.result = .ok operation.mnemonic ∧
      cpu.step.cpu =
        { registers := (cpu.effect operation).registers
          clock := cpu.clock.tick operation.cycles
          verbose := cpu.verbose
          memory := Bus.putAll cpu.memory (cpu.effect operation).writes } := by
  have hx := executes_of_full hfull ho hfits
  refine ⟨hx.result, ?_⟩
  rw [hx.cpu_eq, Operation.cost_of_mode ho hmode, ← Bus.eq_putAll_of_writeAll hx.writeAll]

end Cpu

/-! ## Runs -/

namespace Cpu

variable {M : Type} [Bus M] {cpu now : Cpu M}

/-- A run without a limit that comes to a break after some turns ends there. -/
theorem Leads.runFrom_of_break {turns : Nat} (h : Leads cpu turns now)
    (hbreak : now.step.result = .ok .brk) (start fuel executed : Nat) (reported : List Event) :
    ∃ events, runFrom .unbounded start (turns + fuel + 1) executed reported cpu =
      some ⟨.ok ⟨executed + turns + 1, now.step.cpu.clock.cycles - start, .breakInstruction⟩,
        now.step.cpu, events⟩ := by
  induction turns generalizing cpu executed reported with
  | zero =>
    obtain rfl : cpu = now := h.afterSteps_eq
    rw [Nat.zero_add]
    exact exists_report_of_endsWith (.break rfl hbreak)
  | succ turns ih =>
    have hfirst : GoesOn .unbounded start executed cpu :=
      ⟨rfl, h.goesOn 0 (Nat.zero_lt_succ turns)⟩
    have hlater : Leads cpu.step.cpu turns now :=
      ⟨fun j hj => h.goesOn (j + 1) (Nat.succ_lt_succ hj), h.afterSteps_eq⟩
    obtain ⟨events, hrun⟩ := ih hlater (executed + 1) (cpu.step.events.reverse ++ reported)
    refine ⟨events, ?_⟩
    rw [Nat.add_right_comm turns 1 fuel, runFrom_succ_of_goesOn hfirst, hrun,
      Nat.add_right_comm executed 1 turns]
    rfl

/-- **A run that comes to a break.** -/
theorem Leads.run_of_break {turns : Nat} (h : Leads cpu turns now)
    (hbreak : now.step.result = .ok .brk) (hturns : turns < ample) :
    ∃ events, cpu.run .unbounded =
      some ⟨.ok ⟨turns + 1, now.step.cpu.clock.cycles - cpu.clock.cycles, .breakInstruction⟩,
        now.step.cpu, events⟩ := by
  obtain ⟨left, hleft⟩ := Nat.exists_eq_add_of_lt hturns
  rw [run, runWithin, hleft]
  simpa only [Nat.zero_add] using h.runFrom_of_break hbreak cpu.clock.cycles left 0 []

end Cpu

end Nmos6502
