import Nmos6502.Proofs.Step

/-!
# What an instruction asks of memory

While microcode is performed, memory is asked two kinds of question: for the byte at an address,
unless a noted write answers already, and whether an address can be written. These questions are
the demands. A performance is determined by the answers to its demands, and by nothing else of the
memory, which is what a statement about two memories needs.

Against an image every demand is met, so the demands of an instruction can be written down from
`Operation.effect`. Against any other memory the same demands are made, up to the first that is
refused. That gives the result of an instruction also where it fails: it is the refusal of the
first demand that is refused.

## Main definitions

* `Demand`, `Bus.refusalOf?`, `Bus.firstRefusal?` — a question, and that it is answered badly
* `Microcode.demands` — what is asked while microcode is performed
* `Operation.ownAddresses`, `Operation.allReads` — where the bytes of an instruction are, and all
  that it reads
* `Operation.accesses`, `Operation.demands` — the accesses and the demands of an instruction

## Main results

* `Microcode.perform_congr` — a performance is determined by the answers to its demands
* `Microcode.exists_append_of_mem_demands` — a demand is made where all before it were met
* `Operation.demands_instruction` — the demands of an instruction
* `Cpu.rehearse_of_fits` — the result of an instruction that is documented and fits
-/

namespace Nmos6502

/-! ## Demands -/

/-- Something that memory is asked. -/
inductive Demand where
  /-- The byte at an address. -/
  | read (address : UInt16)
  /-- Whether an address can be written. -/
  | write (address : UInt16)
  deriving DecidableEq

/-- What an access asks of memory. -/
def Access.demand : Access → Demand
  | .read address _ => .read address
  | .write address _ => .write address

namespace Bus

variable {M N : Type} [Bus M] [Bus N]

/-- Why a demand is refused, `none` if it is met. -/
def refusalOf? (memory : M) : Demand → Option OutOfBounds
  | .read address =>
    match read memory address with
    | .ok _ => none
    | .error cause => some cause
  | .write address =>
    match check memory address with
    | .ok () => none
    | .error cause => some cause

/-- The refusal of the first demand that is refused. -/
def firstRefusal? (memory : M) (demands : List Demand) : Option OutOfBounds :=
  demands.findSome? (refusalOf? memory)

/-- Two memories give the same answer to a demand. -/
def Alike (memory : M) (other : N) : Demand → Prop
  | .read address => read other address = read memory address
  | .write address => check other address = check memory address

theorem exists_read_of_met {memory : M} {address : UInt16}
    (h : refusalOf? memory (.read address) = none) : ∃ byte, read memory address = .ok byte := by
  cases hr : read memory address with
  | ok byte => exact ⟨byte, rfl⟩
  | error cause =>
    simp only [refusalOf?, hr] at h
    cases h

/-- A demand that is met is answered as the image answers it. -/
theorem alike_of_met {memory : M} {demand : Demand} (h : refusalOf? memory demand = none) :
    Alike (image memory) memory demand := by
  cases demand with
  | read address =>
    obtain ⟨byte, hr⟩ := exists_read_of_met h
    exact hr.trans (congrArg Except.ok (byte_image_of_read hr).symm)
  | write address =>
    cases hc : check memory address with
    | ok accepted => exact hc
    | error cause =>
      simp only [refusalOf?, hc] at h
      cases h

/-- A demand in two series, with all demands before it met, is in the first series or comes after
it. -/
theorem mem_or_met_of_append_eq {memory : M} {first second before after : List Demand}
    {demand : Demand} (h : first ++ second = before ++ demand :: after)
    (hmet : ∀ earlier ∈ before, refusalOf? memory earlier = none) :
    demand ∈ first ∨ (∀ earlier ∈ first, refusalOf? memory earlier = none) ∧
      ∃ rest, second = rest ++ demand :: after ∧
        ∀ earlier ∈ rest, refusalOf? memory earlier = none := by
  rcases List.append_eq_append_iff.mp h with ⟨rest, rfl, hsecond⟩ | ⟨rest, rfl, hrest⟩
  · exact .inr ⟨fun earlier he => hmet earlier (List.mem_append_left _ he), rest, hsecond,
      fun earlier he => hmet earlier (List.mem_append_right _ he)⟩
  · cases rest with
    | nil =>
      rw [List.nil_append] at hrest
      exact .inr ⟨fun earlier he => hmet earlier (by simpa using he), [], hrest.symm, by simp⟩
    | cons found rest =>
      cases hrest
      exact .inl (List.mem_append_right _ (List.mem_cons_self ..))

theorem firstRefusal?_cons (memory : M) (demand : Demand) (demands : List Demand) :
    firstRefusal? memory (demand :: demands) =
      (refusalOf? memory demand).or (firstRefusal? memory demands) := by
  rw [firstRefusal?, List.findSome?_cons]
  cases refusalOf? memory demand <;> rfl

theorem firstRefusal?_append (memory : M) (first second : List Demand) :
    firstRefusal? memory (first ++ second) =
      (firstRefusal? memory first).or (firstRefusal? memory second) :=
  List.findSome?_append

end Bus

/-! ## The order of accesses -/

namespace Journal

theorem accesses_noteReads (journal : Journal) (image : Image) (addresses : List UInt16) :
    (journal.noteReads image addresses).accesses =
      (addresses.map fun address => Access.read address (image.byte address)).reverse ++
        journal.accesses := by
  induction addresses generalizing journal with
  | nil => rfl
  | cons address addresses ih =>
    rw [noteReads, ih, List.map_cons, List.reverse_cons, List.append_assoc]
    rfl

theorem accesses_noteWrites (journal : Journal) (writes : List (UInt16 × UInt8)) :
    (journal.noteWrites writes).accesses =
      (writes.map fun write => Access.write write.1 write.2).reverse ++ journal.accesses := by
  induction writes generalizing journal with
  | nil => rfl
  | cons write writes ih =>
    rw [noteWrites, ih, List.map_cons, List.reverse_cons, List.append_assoc]
    rfl

end Journal

/-! ## The demands of microcode -/

namespace Microcode

variable {α M N : Type} [Bus M] [Bus N]

/-- What memory is asked while microcode is performed, in order. Nothing is asked after a
refusal. -/
def demands (memory : M) : Microcode α → Journal → List Demand
  | .done _, _ => []
  | .fail _, _ => []
  | .read address next, journal =>
    match journal.pending? address with
    | some value => (next value).demands memory (journal.note (.read address value))
    | none =>
      .read address ::
        match Bus.read memory address with
        | .ok value => (next value).demands memory (journal.note (.read address value))
        | .error _ => []
  | .write address value next, journal =>
    .write address ::
      match Bus.check memory address with
      | .ok () => next.demands memory (journal.note (.write address value))
      | .error _ => []
  | .idle next, journal => next.demands memory journal.noteIdle

/-- **Memory matters only through its answers.** -/
theorem perform_congr {memory : M} {other : N} (code : Microcode α) {journal : Journal}
    (h : ∀ demand ∈ code.demands memory journal, Bus.Alike memory other demand) :
    code.perform other journal = code.perform memory journal := by
  induction code generalizing journal with
  | done result => rfl
  | fail fault => rfl
  | read address next ih =>
    simp only [demands, perform, Journal.read] at h ⊢
    cases hp : journal.pending? address with
    | some value =>
      simp only [hp] at h ⊢
      exact ih value h
    | none =>
      simp only [hp] at h ⊢
      have hread : Bus.read other address = Bus.read memory address := h _ (List.mem_cons_self ..)
      rw [hread]
      cases hr : Bus.read memory address with
      | error cause => rfl
      | ok value =>
        rw [hr] at h
        exact ih value fun demand hd => h demand (List.mem_cons_of_mem _ hd)
  | write address value next ih =>
    simp only [demands, perform] at h ⊢
    have hcheck : Bus.check other address = Bus.check memory address :=
      h _ (List.mem_cons_self ..)
    rw [hcheck]
    cases hc : Bus.check memory address with
    | error cause => rfl
    | ok accepted =>
      rw [hc] at h
      exact ih fun demand hd => h demand (List.mem_cons_of_mem _ hd)
  | idle next ih => exact ih h

/-- **A demand is made where all before it were met.** The demands are those made of the image, up
to the first that is refused. -/
theorem exists_append_of_mem_demands {memory : M} (code : Microcode α) {journal : Journal}
    {demand : Demand} (h : demand ∈ code.demands memory journal) :
    ∃ before after, code.demands (Bus.image memory) journal = before ++ demand :: after ∧
      ∀ earlier ∈ before, Bus.refusalOf? memory earlier = none := by
  induction code generalizing journal with
  | done result => cases h
  | fail fault => cases h
  | read address next ih =>
    simp only [demands] at h ⊢
    cases hp : journal.pending? address with
    | some value =>
      simp only [hp] at h ⊢
      exact ih value h
    | none =>
      simp only [hp] at h ⊢
      rcases List.mem_cons.mp h with rfl | hlater
      · exact ⟨[], _, rfl, by simp⟩
      cases hr : Bus.read memory address with
      | error cause => rw [hr] at hlater; cases hlater
      | ok value =>
        rw [hr] at hlater
        have himage : Bus.read (Bus.image memory) address = .ok value :=
          congrArg Except.ok (Bus.byte_image_of_read hr)
        obtain ⟨before, after, heq, hmet⟩ := ih value hlater
        refine ⟨.read address :: before, after, by rw [himage]; exact congrArg _ heq, ?_⟩
        intro earlier he
        rcases List.mem_cons.mp he with rfl | he
        · simp only [Bus.refusalOf?, hr]
        · exact hmet earlier he
  | write address value next ih =>
    simp only [demands] at h ⊢
    rcases List.mem_cons.mp h with rfl | hlater
    · exact ⟨[], _, rfl, by simp⟩
    cases hc : Bus.check memory address with
    | error cause => rw [hc] at hlater; cases hlater
    | ok accepted =>
      rw [hc] at hlater
      obtain ⟨before, after, heq, hmet⟩ := ih hlater
      refine ⟨.write address :: before, after, congrArg _ heq, ?_⟩
      intro earlier he
      rcases List.mem_cons.mp he with rfl | he
      · simp only [Bus.refusalOf?, hc]
      · exact hmet earlier he
  | idle next ih => exact ih h

/-- Where the image's demands are met, memory and image are the same to the code. -/
theorem perform_of_firstRefusal?_eq_none {memory : M} (code : Microcode α) {journal : Journal}
    (h : Bus.firstRefusal? memory (code.demands (Bus.image memory) journal) = none) :
    code.perform memory journal = code.perform (Bus.image memory) journal := by
  exact perform_congr code fun demand hd =>
    Bus.alike_of_met (List.findSome?_eq_none_iff.mp h demand hd)

/-- **The first refusal decides.** -/
theorem perform_fst_of_firstRefusal?_eq_some {memory : M} (code : Microcode α)
    {journal : Journal} {cause : OutOfBounds}
    (h : Bus.firstRefusal? memory (code.demands (Bus.image memory) journal) = some cause) :
    (code.perform memory journal).1 = .error (.refused cause) := by
  induction code generalizing journal with
  | done result => cases h
  | fail fault => cases h
  | read address next ih =>
    simp only [demands, perform, Journal.read] at h ⊢
    cases hp : journal.pending? address with
    | some value =>
      simp only [hp] at h ⊢
      exact ih value h
    | none =>
      simp only [hp, Bus.firstRefusal?_cons, Bus.refusalOf?] at h ⊢
      cases hr : Bus.read memory address with
      | error refusal =>
        rw [hr] at h
        cases h
        rfl
      | ok value =>
        have himage : Bus.read (Bus.image memory) address = .ok value :=
          congrArg Except.ok (Bus.byte_image_of_read hr)
        rw [hr, himage] at h
        exact ih value h
  | write address value next ih =>
    simp only [demands, perform, Bus.firstRefusal?_cons, Bus.refusalOf?] at h ⊢
    cases hc : Bus.check memory address with
    | error refusal =>
      rw [hc] at h
      cases h
      rfl
    | ok accepted =>
      rw [hc] at h
      exact ih h
  | idle next ih => exact ih h

/-- Accesses are only added to a journal. -/
theorem exists_accesses_perform (memory : M) (code : Microcode α) (journal : Journal) :
    ∃ made : List Access,
      (code.perform memory journal).2.accesses = made.reverse ++ journal.accesses := by
  induction code generalizing journal with
  | done result => exact ⟨[], rfl⟩
  | fail fault => exact ⟨[], rfl⟩
  | read address next ih =>
    simp only [perform]
    cases journal.read memory address with
    | error cause => exact ⟨[], rfl⟩
    | ok value =>
      obtain ⟨made, h⟩ := ih value (journal.note (.read address value))
      exact ⟨.read address value :: made, by rw [h, List.reverse_cons, List.append_assoc]; rfl⟩
  | write address value next ih =>
    simp only [perform]
    cases Bus.check memory address with
    | error cause => exact ⟨[], rfl⟩
    | ok accepted =>
      obtain ⟨made, h⟩ := ih (journal.note (.write address value))
      exact ⟨.write address value :: made, by rw [h, List.reverse_cons, List.append_assoc]; rfl⟩
  | idle next ih => exact ih _

/-- The access that is noted first is the first of those that are added. -/
theorem eq_cons_of_note {image : Image} {code : Microcode α} {journal : Journal} {access : Access}
    {made : List Access}
    (h : (code.perform image (journal.note access)).2.accesses =
      made.reverse ++ journal.accesses) :
    ∃ later, made = access :: later ∧
      (code.perform image (journal.note access)).2.accesses =
        later.reverse ++ (journal.note access).accesses := by
  obtain ⟨later, hlater⟩ := exists_accesses_perform image code (journal.note access)
  refine ⟨later, ?_, hlater⟩
  have hboth : made.reverse ++ journal.accesses =
      (access :: later).reverse ++ journal.accesses := by
    rw [← h, hlater, List.reverse_cons, List.append_assoc]
    rfl
  exact List.reverse_inj.mp (List.append_cancel_right hboth)

/-- **What reads first and then writes** asks for each of its accesses. A read that came after a
write might be answered by the journal instead. -/
theorem demands_image {image : Image} (code : Microcode α) {journal : Journal}
    {made : List Access}
    (hmade : (code.perform image journal).2.accesses = made.reverse ++ journal.accesses)
    (horder : made.Pairwise fun earlier later => earlier.write?.isSome → later.write?.isSome)
    (hj : (∃ access ∈ made, access.write? = none) → ∀ a, journal.pending? a = none) :
    code.demands image journal = made.map Access.demand := by
  induction code generalizing journal made with
  | done result | fail fault =>
    have hnil : made = [] := by simpa [perform] using hmade
    rw [hnil]
    rfl
  | read address next ih =>
    cases hp : journal.pending? address with
    | some value =>
      simp only [perform, Journal.read, hp] at hmade
      obtain ⟨later, rfl, -⟩ := eq_cons_of_note hmade
      have hnone := hj ⟨_, List.mem_cons_self .., rfl⟩ address
      rw [hp] at hnone
      cases hnone
    | none =>
      have himage : Bus.read image address = .ok (image.byte address) := rfl
      simp only [perform, Journal.read, hp, himage] at hmade
      obtain ⟨later, rfl, hlater⟩ := eq_cons_of_note hmade
      simp only [demands, hp, himage, List.map_cons]
      refine congrArg (Demand.read address :: ·) (ih _ hlater horder.of_cons fun hread => ?_)
      have hempty := hj ⟨_, List.mem_cons_self .., rfl⟩
      simpa using hempty
  | write address value next ih =>
    have hcheck : Bus.check image address = .ok () := rfl
    simp only [perform, hcheck] at hmade
    obtain ⟨later, rfl, hlater⟩ := eq_cons_of_note hmade
    simp only [demands, hcheck, List.map_cons]
    refine congrArg (Demand.write address :: ·) (ih hlater horder.of_cons ?_)
    -- after the write there is no read, so it does not matter what is pending
    rintro ⟨access, hmem, hread⟩
    have hwrite := List.rel_of_pairwise_cons horder hmem rfl
    rw [hread] at hwrite
    cases hwrite
  | idle next ih => exact ih hmade horder hj

end Microcode

/-! ## The demands of an instruction -/

namespace Operation

variable (operation : Operation) (registers : Registers) (image : Image)

/-- The addresses of the bytes of an instruction, the opcode first. -/
def ownAddresses : List UInt16 := registers.pc :: operation.mode.operandAddresses registers

/-- The addresses that an instruction reads, in order. -/
def allReads : List UInt16 :=
  operation.reads registers image ++ (operation.effect registers image).pulls

/-- An instruction reads its own bytes, then a pointer, then the byte to work on, then the stack. -/
theorem allReads_eq :
    operation.allReads registers image =
      operation.ownAddresses registers ++ (operation.mode.pointerAddresses registers image ++
        (operation.mode.targetAddresses operation.mnemonic.family.operandUse registers image ++
          (operation.effect registers image).pulls)) := by
  simp only [allReads, reads, ownAddresses, Mode.reads, List.cons_append, List.append_assoc]

/-- The accesses of an instruction in order. It reads all it needs before it writes. -/
def accesses : List Access :=
  ((operation.allReads registers image).map fun address =>
      Access.read address (image.byte address)) ++
    (operation.effect registers image).writes.map fun write => Access.write write.1 write.2

/-- The demands of an instruction in order. -/
def demands : List Demand :=
  (operation.allReads registers image).map Demand.read ++
    (operation.effect registers image).writes.map fun write => Demand.write write.1

theorem accesses_journal :
    (operation.journal registers image).accesses =
      (operation.accesses registers image).reverse := by
  rw [journal, Journal.noteEffect, Journal.accesses_noteIdles, Journal.accesses_noteWrites,
    Journal.accesses_noteReads, Journal.accesses_noteReads, accesses, allReads, List.map_append,
    List.reverse_append, List.reverse_append, Journal.empty, List.append_nil]

theorem pairwise_accesses :
    (operation.accesses registers image).Pairwise fun earlier later =>
      earlier.write?.isSome → later.write?.isSome := by
  refine List.pairwise_append.mpr ⟨?_, ?_, ?_⟩
  · exact List.pairwise_map.mpr (List.pairwise_of_forall fun _ _ h => by cases h)
  · exact List.pairwise_map.mpr (List.pairwise_of_forall fun _ _ _ => rfl)
  · intro earlier he later hl _
    obtain ⟨write, -, rfl⟩ := List.mem_map.mp hl
    rfl

/-- **The demands of an instruction** that is documented and fits are those of its operation. -/
theorem demands_instruction {operation : Operation} {registers : Registers} {image : Image}
    {size : Nat} (ho : operation? (image.byte registers.pc) = some operation)
    (hs : operation.size ≤ size - registers.pc.toNat) :
    (registers.instruction size).demands image .empty = operation.demands registers image := by
  have hmade : ((registers.instruction size).perform image .empty).2.accesses =
      (operation.accesses registers image).reverse ++ Journal.empty.accesses := by
    rw [instruction_image ho hs, accesses_journal, Journal.empty, List.append_nil]
  rw [Microcode.demands_image _ hmade (operation.pairwise_accesses registers image)
    fun _ a => rfl]
  simp [accesses, demands, Access.demand, Function.comp_def]

end Operation

/-! ## The result of an instruction -/

namespace Cpu

variable {M : Type} [Bus M] {cpu : Cpu M} {opcode : UInt8}

theorem rehearse_of_illegal (hread : Bus.read cpu.memory cpu.registers.pc = .ok opcode)
    (ho : operation? opcode = none) :
    cpu.rehearse.1 = .error (.illegalOpcode opcode cpu.registers.pc) := by
  rw [rehearse, Registers.instruction, Microcode.perform_bind_of_ok (fetch_of_read hread)]
  simp only [ho]
  rfl

theorem rehearse_of_incomplete {operation : Operation}
    (hread : Bus.read cpu.memory cpu.registers.pc = .ok opcode)
    (ho : operation? opcode = some operation)
    (hs : Bus.size cpu.memory - cpu.registers.pc.toNat < operation.size) :
    cpu.rehearse.1 =
      .error (.incomplete cpu.registers.pc operation.size
        (Bus.size cpu.memory - cpu.registers.pc.toNat)) := by
  rw [rehearse, Registers.instruction, Microcode.perform_bind_of_ok (fetch_of_read hread)]
  simp only [ho, if_pos hs]
  rfl

/-- **The result of an instruction** that is documented and fits. The first demand that is refused
decides; where none is, the operation has its effect. -/
theorem rehearse_of_fits {operation : Operation}
    (hread : Bus.read cpu.memory cpu.registers.pc = .ok opcode)
    (ho : operation? opcode = some operation)
    (hs : operation.size ≤ Bus.size cpu.memory - cpu.registers.pc.toNat) :
    cpu.rehearse.1 =
      match Bus.firstRefusal? cpu.memory (operation.demands cpu.registers cpu.image) with
      | some cause => .error (.refused cause)
      | none => .ok ⟨operation, (cpu.effect operation).registers⟩ := by
  have himage : operation? (cpu.image.byte cpu.registers.pc) = some operation := by
    rw [image, Bus.byte_image_of_read hread, ho]
  have hdemands := Operation.demands_instruction himage hs
  cases hr : Bus.firstRefusal? cpu.memory (operation.demands cpu.registers cpu.image) with
  | some cause =>
    exact Microcode.perform_fst_of_firstRefusal?_eq_some _ ((congrArg _ hdemands).trans hr)
  | none =>
    have hperform := Microcode.perform_of_firstRefusal?_eq_none _ ((congrArg _ hdemands).trans hr)
    rw [rehearse, hperform]
    exact congrArg Prod.fst (instruction_image himage hs)

end Cpu

end Nmos6502
