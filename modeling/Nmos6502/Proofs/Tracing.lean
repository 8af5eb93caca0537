import Mathlib.Data.List.TakeWhile
import Nmos6502.Proofs.Leap
import Nmos6502.Proofs.OperandForm
import Nmos6502.Proofs.Peek

/-!
# Traces of steps

A verbose processor writes a log of each step: the instruction, a text for every access, and the
registers after it. The log changes nothing. It can be trusted, too: its texts are the accesses that
the instruction has to make, in order and up to the first that memory refuses, with the bytes that
memory gave. No two accesses have the same text, so the writes can be had back from the log, and
when they are repeated they turn the memory before the step into the one after it.

What an instruction has to make is known from the image, where nothing is refused. The lemma that
carries this module is `Microcode.accesses_perform`: the accesses made of a memory are the first of
those made of its image.

## Main definitions

* `Access.text` — what a log says about an access
* `Bus.Grants` — memory gives the byte that is read, and accepts what is written
* `Bus.meets` — memory does not refuse an access
* `Cpu.planned`, `Cpu.accessesMade` — the accesses of an instruction, and how far it gets with them

## Main results

* `Access.text_injective` — an access can be had back from its text
* `Microcode.accesses_perform` — the accesses that are made
* `Cpu.step_refused_or` — where a step is stopped
* `Cpu.step_traced` — everything about the log of a step
-/

namespace Nmos6502

open Text

/-! ## The texts of a log -/

namespace Access

/-- The arrow between the byte of an access and its address. -/
def arrow : Access → String
  | .read _ _ => " <- $"
  | .write _ _ => " -> $"

/-- The byte of an access. -/
def value : Access → UInt8
  | .read _ value | .write _ value => value

/-- The address of an access. -/
def address : Access → UInt16
  | .read address _ | .write address _ => address

/-- What a log says about an access. -/
def text (access : Access) : String :=
  "$" ++ hexByte .lower access.value ++ access.arrow ++ hexWord .lower access.address

/-- The parts of an access tell it. -/
theorem eq_of_parts {access other : Access} (harrow : access.arrow = other.arrow)
    (hvalue : access.value = other.value) (haddress : access.address = other.address) :
    access = other := by
  have hne : " <- $" ≠ " -> $" := by decide
  cases access <;> cases other
  case read.write => exact absurd harrow hne
  case write.read => exact absurd harrow.symm hne
  all_goals
    obtain rfl := hvalue
    obtain rfl := haddress
    rfl

theorem length_toList_arrow (access : Access) : access.arrow.toList.length = 5 := by
  have hread : " <- $".toList.length = 5 := by decide
  have hwrite : " -> $".toList.length = 5 := by decide
  cases access
  · exact hread
  · exact hwrite

/-- **An access can be had back from the log.** The parts of the text have fixed widths. -/
theorem text_injective : Function.Injective text := by
  intro access other h
  have hparts := congrArg String.toList h
  simp only [text, String.toList_append, toList_hexByte, toList_hexWord] at hparts
  obtain ⟨hrest, haddress⟩ := List.append_inj' hparts
    ((length_fixedDigits ..).trans (length_fixedDigits ..).symm)
  obtain ⟨hrest, harrow⟩ := List.append_inj' hrest
    (access.length_toList_arrow.trans other.length_toList_arrow.symm)
  have hvalue := List.append_cancel_left hrest
  refine eq_of_parts (String.toList_inj.mp harrow) (UInt8.toNat_inj.mp ?_)
    (UInt16.toNat_inj.mp ?_)
  · exact fixedDigits_injective (Nat.le_refl 16) (UInt8.toNat_lt _) (UInt8.toNat_lt _) hvalue
  · exact fixedDigits_injective (Nat.le_refl 16) (UInt16.toNat_lt _) (UInt16.toNat_lt _) haddress

end Access

theorem Event.text_access (access : Access) : (Event.access access).text = access.text := by
  cases access <;> rfl

/-! ## The accesses that are made -/

/-- Memory does not refuse an access. -/
def Bus.meets {M : Type} [Bus M] (memory : M) (access : Access) : Bool :=
  (refusalOf? memory access.demand).isNone

/-- Memory grants an access: it gives the byte that is read, and accepts what is written. -/
def Bus.Grants {M : Type} [Bus M] (memory : M) : Access → Prop
  | .read address value => read memory address = .ok value
  | .write address _ => check memory address = .ok ()

namespace Microcode

variable {α M : Type} [Bus M]

/-- **The accesses that are made** are those made of the image, up to the first that memory
refuses. A read that came after a write might be answered by the journal instead. -/
theorem accesses_perform {memory : M} (code : Microcode α) {journal : Journal}
    {planned : List Access}
    (hplanned : (code.perform (Bus.image memory) journal).2.accesses =
      planned.reverse ++ journal.accesses)
    (horder : planned.Pairwise fun earlier later =>
      earlier.write?.isSome → later.write?.isSome)
    (hj : (∃ access ∈ planned, access.write? = none) → ∀ a, journal.pending? a = none) :
    (code.perform memory journal).2.accesses =
      (planned.takeWhile (Bus.meets memory)).reverse ++ journal.accesses := by
  induction code generalizing journal planned with
  | done result | fail fault =>
    have hnil : planned = [] := by simpa [perform] using hplanned
    rw [hnil]
    rfl
  | read address next ih =>
    cases hp : journal.pending? address with
    | some value =>
      simp only [perform, Journal.read, hp] at hplanned
      obtain ⟨later, rfl, -⟩ := eq_cons_of_note hplanned
      have hnone := hj ⟨_, List.mem_cons_self .., rfl⟩ address
      rw [hp] at hnone
      cases hnone
    | none =>
      have himage : Bus.read (Bus.image memory) address =
          .ok ((Bus.image memory).byte address) := rfl
      simp only [perform, Journal.read, hp, himage] at hplanned ⊢
      obtain ⟨later, rfl, hlater⟩ := eq_cons_of_note hplanned
      cases hr : Bus.read memory address with
      | error cause =>
        rw [List.takeWhile_cons_of_neg (by simp [Bus.meets, Access.demand, Bus.refusalOf?, hr])]
        rfl
      | ok value =>
        obtain rfl := Bus.byte_image_of_read hr
        have hempty := hj ⟨_, List.mem_cons_self .., rfl⟩
        rw [List.takeWhile_cons_of_pos (by simp [Bus.meets, Access.demand, Bus.refusalOf?, hr]),
          List.reverse_cons, List.append_assoc]
        exact ih _ hlater horder.of_cons fun _ => by simpa using hempty
  | write address value next ih =>
    have hcheck : Bus.check (Bus.image memory) address = .ok () := rfl
    simp only [perform, hcheck] at hplanned ⊢
    obtain ⟨later, rfl, hlater⟩ := eq_cons_of_note hplanned
    cases hc : Bus.check memory address with
    | error cause =>
      rw [List.takeWhile_cons_of_neg (by simp [Bus.meets, Access.demand, Bus.refusalOf?, hc])]
      rfl
    | ok accepted =>
      rw [List.takeWhile_cons_of_pos (by simp [Bus.meets, Access.demand, Bus.refusalOf?, hc]),
        List.reverse_cons, List.append_assoc]
      refine ih hlater horder.of_cons ?_
      -- after the write there is no read, so it does not matter what is pending
      rintro ⟨access, hmem, hread⟩
      have hwrite := List.rel_of_pairwise_cons horder hmem rfl
      rw [hread] at hwrite
      cases hwrite
  | idle next ih => exact ih hplanned horder hj

end Microcode

/-! ## The accesses of a step -/

theorem Operation.demands_eq (operation : Operation) (registers : Registers) (image : Image) :
    operation.demands registers image =
      (operation.accesses registers image).map Access.demand := by
  simp [accesses, demands, Access.demand, Function.comp_def]

namespace Cpu

variable {M : Type} [Bus M] {cpu : Cpu M}

/-- The accesses that the instruction at the program counter has to make, in order. Of one that is
not documented or does not fit, only the opcode is read. -/
def planned (cpu : Cpu M) : List Access :=
  match operation? (cpu.image.byte cpu.registers.pc) with
  | some operation =>
    if operation.size ≤ Bus.size cpu.memory - cpu.registers.pc.toNat then
      operation.accesses cpu.registers cpu.image
    else [.read cpu.registers.pc (cpu.image.byte cpu.registers.pc)]
  | none => [.read cpu.registers.pc (cpu.image.byte cpu.registers.pc)]

/-- The accesses that are made of these: all, up to the first that memory refuses. -/
def accessesMade (cpu : Cpu M) : List Access := cpu.planned.takeWhile (Bus.meets cpu.memory)

theorem planned_of_fits {operation : Operation}
    (ho : operation? (cpu.image.byte cpu.registers.pc) = some operation)
    (hs : operation.size ≤ Bus.size cpu.memory - cpu.registers.pc.toNat) :
    cpu.planned = operation.accesses cpu.registers cpu.image := by
  simp only [planned, ho, if_pos hs]

/-- Against the image all accesses are made. -/
theorem accesses_instruction_image (cpu : Cpu M) :
    ((cpu.registers.instruction (Bus.size cpu.memory)).perform cpu.image .empty).2.accesses =
      cpu.planned.reverse ++ Journal.empty.accesses := by
  have hfetch := fetch_image (fun _ => Journal.pending?_empty _) cpu.image cpu.registers
  unfold planned
  cases ho : operation? (cpu.image.byte cpu.registers.pc) with
  | none =>
    rw [Registers.instruction, Microcode.perform_bind_of_ok hfetch]
    simp only [ho]
    rfl
  | some operation =>
    by_cases hs : operation.size ≤ Bus.size cpu.memory - cpu.registers.pc.toNat
    · rw [instruction_image ho hs, operation.accesses_journal]
      simp only [if_pos hs]
      exact (List.append_nil _).symm
    · rw [Registers.instruction, Microcode.perform_bind_of_ok hfetch]
      simp only [ho, if_neg hs, if_pos (Nat.not_le.mp hs)]
      rfl

/-- What an instruction has to read, it reads before it writes. -/
theorem pairwise_planned (cpu : Cpu M) :
    cpu.planned.Pairwise fun earlier later => earlier.write?.isSome → later.write?.isSome := by
  unfold planned
  split
  · split
    · exact Operation.pairwise_accesses ..
    · exact List.pairwise_singleton ..
  · exact List.pairwise_singleton ..

/-- The journal holds the accesses that were made. -/
theorem accesses_rehearse (cpu : Cpu M) : cpu.rehearse.2.accesses.reverse = cpu.accessesMade := by
  rw [rehearse, Microcode.accesses_perform _ cpu.accesses_instruction_image cpu.pairwise_planned
    fun _ _ => Journal.pending?_empty _, Journal.empty, List.append_nil, List.reverse_reverse]
  rfl

theorem writes_rehearse (cpu : Cpu M) :
    cpu.rehearse.2.writes = cpu.accessesMade.filterMap Access.write? := by
  rw [Journal.writes, accesses_rehearse]

/-- Nothing that is asked for the accesses that are made is refused. -/
theorem firstRefusal?_accessesMade (cpu : Cpu M) :
    Bus.firstRefusal? cpu.memory (cpu.accessesMade.map Access.demand) = none := by
  refine List.findSome?_eq_none_iff.mpr fun demand hd => ?_
  obtain ⟨access, ha, rfl⟩ := List.mem_map.mp hd
  have hmeets : Bus.meets cpu.memory access = true := List.mem_takeWhile_imp ha
  exact Option.isNone_iff_eq_none.mp hmeets

/-- A refusal of the first access that is not made is the fault of the step. -/
theorem rehearse_of_stopped {access : Access} {left : List Access} {cause : OutOfBounds}
    (hplanned : cpu.planned = cpu.accessesMade ++ access :: left)
    (hrefused : Bus.refusalOf? cpu.memory access.demand = some cause) :
    cpu.rehearse.1 = .error (.refused cause) := by
  have hdemands := Microcode.demands_image _ cpu.accesses_instruction_image cpu.pairwise_planned
    fun _ _ => Journal.pending?_empty _
  apply Microcode.perform_fst_of_firstRefusal?_eq_some
  refine (congrArg _ hdemands).trans ?_
  rw [hplanned, List.map_append, Bus.firstRefusal?_append, firstRefusal?_accessesMade,
    Option.none_or, List.map_cons, Bus.firstRefusal?_cons, hrefused]
  rfl

/-- An instruction makes all its accesses, or is stopped by the first that is refused. -/
theorem accessesMade_cases (cpu : Cpu M) :
    cpu.accessesMade = cpu.planned ∨
      ∃ access left cause, cpu.planned = cpu.accessesMade ++ access :: left ∧
        Bus.refusalOf? cpu.memory access.demand = some cause ∧
        cpu.step.result = .error (.refused cause) := by
  have hsplit : cpu.accessesMade ++ cpu.planned.dropWhile (Bus.meets cpu.memory) = cpu.planned :=
    List.takeWhile_append_dropWhile
  cases hleft : cpu.planned.dropWhile (Bus.meets cpu.memory) with
  | nil =>
    rw [hleft, List.append_nil] at hsplit
    exact .inl hsplit
  | cons access left =>
    rw [hleft] at hsplit
    have hrefused : Bus.meets cpu.memory access = false := by
      have := List.head?_dropWhile_not (Bus.meets cpu.memory) cpu.planned
      rw [hleft] at this
      simpa using this
    obtain ⟨cause, hcause⟩ : ∃ cause, Bus.refusalOf? cpu.memory access.demand = some cause :=
      Option.ne_none_iff_exists'.mp fun hnone => by simp [Bus.meets, hnone] at hrefused
    exact .inr ⟨access, left, cause, hsplit.symm, hcause,
      step_result_of_rehearse_error (rehearse_of_stopped hsplit.symm hcause)⟩

/-- The byte of a read is that of the image. -/
theorem value_of_mem_planned {address : UInt16} {value : UInt8}
    (h : .read address value ∈ cpu.planned) : cpu.image.byte address = value := by
  unfold planned at h
  split at h
  · split at h
    · rcases List.mem_append.mp h with hread | hwrite
      · obtain ⟨source, -, hsource⟩ := List.mem_map.mp hread
        cases hsource
        rfl
      · obtain ⟨write, -, hne⟩ := List.mem_map.mp hwrite
        cases hne
    · cases List.mem_singleton.mp h
      rfl
  · cases List.mem_singleton.mp h
    rfl

/-- Memory grants every access that is made. -/
theorem grants_of_mem {access : Access} (h : access ∈ cpu.accessesMade) :
    Bus.Grants cpu.memory access := by
  have hmeets : Bus.meets cpu.memory access = true := List.mem_takeWhile_imp h
  have halike := Bus.alike_of_met (Option.isNone_iff_eq_none.mp hmeets)
  cases access with
  | read address value =>
    have hvalue := value_of_mem_planned ((List.takeWhile_prefix _).subset h)
    exact halike.trans (congrArg Except.ok hvalue)
  | write address value => exact halike

/-- Whether a processor is verbose does not matter to what a step does. -/
theorem step_verbose (cpu : Cpu M) (verbose : Bool) :
    ({ cpu with verbose } : Cpu M).step.result = cpu.step.result ∧
      ({ cpu with verbose } : Cpu M).step.cpu = { cpu.step.cpu with verbose } := by
  obtain ⟨ticks, h⟩ := cpu.exists_ticks_step
  obtain ⟨hresult, hcpu⟩ := h { cpu with verbose } rfl rfl
  obtain ⟨-, hself⟩ := h cpu rfl rfl
  refine ⟨hresult, hcpu.trans ?_⟩
  rw [hself]

/-- What is reported of the end of a step. -/
def ending (report : StepReport M) : List Event :=
  match report.result with
  | .ok _ => [.executed report.cpu.registers report.cpu.clock]
  | .error _ => []

/-- **What a verbose step reports**: the instruction, the accesses that are made, and the end. -/
theorem events_step (h : cpu.verbose = true) :
    cpu.step.events =
      .executing cpu.peek :: cpu.accessesMade.map .access ++ ending cpu.step := by
  have hopening : cpu.openingEvents cpu.rehearse.2 =
      .executing cpu.peek :: cpu.accessesMade.map .access := by
    rw [openingEvents, if_pos h, Journal.events, accesses_rehearse]
  rcases hr : cpu.rehearse with ⟨fault | executed, journal⟩
  · rw [hr] at hopening
    rw [step_of_rehearse_error hr, hopening]
    exact (List.append_nil _).symm
  rw [hr] at hopening
  rcases hw : Bus.writeAll cpu.memory journal.writes with ⟨cause | done, memory⟩
  · rw [step_of_writeAll_error hr hw, hopening]
    exact (List.append_nil _).symm
  · rw [step_of_writeAll_ok hr hw, hopening]
    simp only [closingEvents, h, if_true]
    rfl

/-- A step that ends well makes all the accesses of its operation. -/
theorem accessesMade_of_journal {operation : Operation}
    (h : cpu.rehearse.2 = operation.journal cpu.registers cpu.image) :
    cpu.accessesMade = operation.accesses cpu.registers cpu.image := by
  rw [← accesses_rehearse, h, operation.accesses_journal, List.reverse_reverse]

/-- **Where a step is stopped.** It is refused an access, and makes those before it; or it makes all
accesses and does not decode, or it is refused one of its writes when they come to be made. -/
theorem step_refused_or {fault : Fault} (h : cpu.step.result = .error fault) :
    (∃ access left cause, cpu.planned = cpu.accessesMade ++ access :: left ∧
      Bus.refusalOf? cpu.memory access.demand = some cause ∧ fault = .refused cause) ∨
    cpu.planned = cpu.accessesMade ∧
      (cpu.peek = .error fault ∨
        ∃ cause memory, fault = .refused cause ∧
          Bus.writeAll cpu.memory (cpu.accessesMade.filterMap Access.write?) =
            (.error cause, memory)) := by
  rcases cpu.accessesMade_cases with hall | ⟨access, left, cause, hplanned, hrefused, hresult⟩
  · refine .inr ⟨hall.symm, ?_⟩
    rcases step_error_cases h with ⟨hr, -⟩ | ⟨executed, cause, memory, -, rfl, hw, -⟩
    · rcases cpu.peek_cases with ⟨found, hpeek, hfound⟩ | ⟨opcode, operation, hread, ho, hs⟩
      · cases hr.symm.trans hfound
        exact .inl hpeek
      · -- nothing that the operation asks is refused, so it would have ended well
        have himage : operation? (cpu.image.byte cpu.registers.pc) = some operation := by
          rw [image, Bus.byte_image_of_read hread, ho]
        have hmet := cpu.firstRefusal?_accessesMade
        rw [hall, planned_of_fits himage hs, ← Operation.demands_eq] at hmet
        rw [rehearse_of_fits hread ho hs, hmet] at hr
        cases hr
    · rw [writes_rehearse] at hw
      exact .inr ⟨cause, memory, rfl, hw⟩
  · rw [hresult] at h
    exact .inl ⟨access, left, cause, hplanned, hrefused, (Except.error.inj h).symm⟩

/-- **The log of a step is faithful, and it changes nothing.** Whether a processor is verbose does
not matter to the result, the registers, the clock and memory. A quiet step says nothing. A verbose
step that ends well tells the instruction that decoding gives, then all accesses of the operation in
order, then the registers; the bytes it tells are those that memory gave, and whoever makes the
writes that it tells gets the memory after the step. A verbose step that fails tells the
instruction, or why there is none, and the accesses before the fault. -/
theorem step_traced (cpu : Cpu M) :
    (∀ verbose, ({ cpu with verbose } : Cpu M).step.result = cpu.step.result ∧
      ({ cpu with verbose } : Cpu M).step.cpu = { cpu.step.cpu with verbose }) ∧
    (cpu.verbose = false → cpu.step.events = []) ∧
    (∀ access ∈ cpu.accessesMade, Bus.Grants cpu.memory access) ∧
    (∀ mnemonic, cpu.verbose = true → cpu.step.result = .ok mnemonic →
      ∃ instruction operation, cpu.peek = .ok instruction ∧ instruction.mnemonic = mnemonic ∧
        cpu.next? = some operation ∧
        cpu.accessesMade = operation.accesses cpu.registers cpu.image ∧
        cpu.step.events.map Event.text =
          ("Execute: " ++ instruction.text) ::
            cpu.accessesMade.map Access.text ++ [cpu.step.cpu.traceLine] ∧
        ∀ accesses : List Access,
          accesses.map Access.text = cpu.accessesMade.map Access.text →
            Bus.writeAll cpu.memory (accesses.filterMap Access.write?) =
              (.ok (), cpu.step.cpu.memory)) ∧
    ∀ fault, cpu.verbose = true → cpu.step.result = .error fault →
      cpu.step.events.map Event.text =
        ("Execute: " ++
          match cpu.peek with
          | .ok instruction => instruction.text
          | .error fault => fault.message) :: cpu.accessesMade.map Access.text ∧
      ((∃ access left cause, cpu.planned = cpu.accessesMade ++ access :: left ∧
          Bus.refusalOf? cpu.memory access.demand = some cause ∧ fault = .refused cause) ∨
        cpu.planned = cpu.accessesMade ∧
          (cpu.peek = .error fault ∨
            ∃ cause memory, fault = .refused cause ∧
              Bus.writeAll cpu.memory (cpu.accessesMade.filterMap Access.write?) =
                (.error cause, memory))) := by
  have htexts : (cpu.accessesMade.map Event.access).map Event.text =
      cpu.accessesMade.map Access.text := by
    rw [List.map_map]
    exact List.map_congr_left fun access _ => Event.text_access access
  refine ⟨cpu.step_verbose, cpu.step_quiet.2, fun access => grants_of_mem,
    fun mnemonic hverbose h => ?_, fun fault hverbose h => ⟨?_, step_refused_or h⟩⟩
  · obtain ⟨operation, rfl, hx⟩ := exists_executes h
    obtain ⟨opcode, found, hread, ho, hm, hjournal, hpeek⟩ := exists_peek_of_step_ok h
    refine ⟨_, operation, hpeek, hm, hx.next, accessesMade_of_journal hx.journal, ?_, ?_⟩
    · rw [events_step hverbose, hpeek, ending, h, List.cons_append, List.map_cons,
        List.map_append, htexts]
      rfl
    · intro accesses haccesses
      rw [List.map_injective_iff.mpr Access.text_injective haccesses, ← writes_rehearse,
        hx.journal, Operation.writes_journal]
      exact hx.writeAll
  · rw [events_step hverbose, ending, h, List.append_nil, List.map_cons, htexts]
    cases cpu.peek <;> rfl

/-- A verbose processor at an increment in the zero page. -/
def increasing : Cpu Ram where
  registers := ⟨0, 0, 0, 0xFF, 0, .powerOn⟩
  clock := .zero
  verbose := true
  memory := (((Ram.zeros 0x0028 (by decide) (by decide)).put 0 0xE6).put 1 0x10).put 0x10 0x7F

/-- A verbose processor at a call; the first byte that it pushes is the last of memory. -/
def callingAtEnd : Cpu Ram where
  registers := ⟨0, 0, 0, 0, 0, .powerOn⟩
  clock := .zero
  verbose := true
  memory := ((Ram.zeros 0x0101 (by decide) (by decide)).put 0 0x20).put 1 0x34

/-- The increment is told whole. The call is told up to its first push, and the second is what it
fails with. -/
theorem step_traced_calling :
    (∃ instruction, increasing.peek = .ok instruction ∧ instruction.mnemonic = .inc ∧
      increasing.step.events.map Event.text =
        ("Execute: " ++ instruction.text) ::
          [Access.read 0 0xE6, .read 1 0x10, .read 0x10 0x7F, .write 0x10 0x80].map Access.text ++
            [increasing.step.cpu.traceLine] ∧
      Bus.writeAll increasing.memory [(0x10, 0x80)] = (.ok (), increasing.step.cpu.memory)) ∧
    (∃ instruction, callingAtEnd.peek = .ok instruction ∧
      callingAtEnd.step.events.map Event.text =
        ("Execute: " ++ instruction.text) ::
          [Access.read 0 0x20, .read 1 0x34, .read 2 0x00, .write 0x0100 0x00].map Access.text) ∧
    callingAtEnd.step.result = .error (.refused ⟨0x01FF, 0x0101⟩) := by
  obtain ⟨-, -, -, htold, -⟩ := step_traced increasing
  obtain ⟨-, -, -, -, hfails⟩ := step_traced callingAtEnd
  have hresult : callingAtEnd.step.result = .error (.refused ⟨0x01FF, 0x0101⟩) := by
    decide +kernel
  have hincrement : increasing.accessesMade =
      [.read 0 0xE6, .read 1 0x10, .read 0x10 0x7F, .write 0x10 0x80] := by decide +kernel
  have hcall : callingAtEnd.accessesMade =
      [.read 0 0x20, .read 1 0x34, .read 2 0x00, .write 0x0100 0x00] := by decide +kernel
  refine ⟨?_, ?_, hresult⟩
  · obtain ⟨instruction, operation, hpeek, hm, -, -, htexts, hwrites⟩ :=
      htold .inc rfl (by decide +kernel)
    rw [hincrement] at htexts hwrites
    exact ⟨instruction, hpeek, hm, htexts, hwrites _ rfl⟩
  · have hpeek : callingAtEnd.peek = .ok ⟨0, 0x20, .jsr, .absolute, [0x20, 0x34, 0x00], 3, 6⟩ := by
      decide +kernel
    obtain ⟨htexts, -⟩ := hfails _ rfl hresult
    rw [hpeek, hcall] at htexts
    exact ⟨_, hpeek, htexts⟩

end Cpu

end Nmos6502
