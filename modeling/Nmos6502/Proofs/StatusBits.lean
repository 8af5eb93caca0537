import Mathlib.Data.List.Basic
import Nmos6502.Emulator
import Nmos6502.Proofs.Footprint
import Nmos6502.Proofs.Leap

/-!
# The bits of the status that are not flags

Two bits of the status are there to be packed into a byte and not to be consulted. The unused bit
reads as one. The break bit tells a pushed status from an interrupted one, and does not exist in the
register: the byte that is pushed has it set, and the byte that is pulled loses it. A configuration
may set it all the same, for it gives the status as a byte.

So whether the break bit is set is decided by history: by the last thing that happened to the
processor and settled it, which is a configuration, or an operation that pulls the status. The
history of a processor is a list of such happenings, and the bit after a history is a fold over it.
A processor keeps to that fold whatever is done to it, as long as nobody gives the status by its raw
bits. An emulator is a processor that is never configured with the bit set, and so never has it.

## Main definitions

* `Happening`, `Happening.breakBit?` — what happens to a processor, and what it makes of the bit
* `Status.Settled` — the two bits are as they should be
* `Use.happenings`, `Cpu.happenings` — the history of a processor
* `EmulatorCall`, `EmulatorCall.uses` — what can be done to an emulator, as uses of its processor

## Main results

* `breakBitAfter_eq_true_iff` — the most recent happening that settles the bit decides
* `Cpu.settled_step`, `Cpu.settled_useAll` — steps and sessions
* `status_bits_settled` — the two bits over whole sessions
-/

namespace Nmos6502

/-! ## Happenings -/

/-- Something that happens to a processor. -/
inductive Happening where
  /-- The registers are replaced by those of a configuration. -/
  | configured (config : Config)
  /-- An operation is executed. -/
  | executed (mnemonic : Mnemonic)
  deriving DecidableEq

namespace Happening

/-- What becomes of the break bit, `none` if it stays. -/
def breakBit? : Happening → Option Bool
  | .configured config => some (config.status &&& 0x10 != 0)
  | .executed mnemonic => if mnemonic ∈ [.plp, .rti] then some false else none

/-- The bit is kept by all but configurations and the operations that pull the status. -/
theorem breakBit?_eq_none_iff {happening : Happening} :
    happening.breakBit? = none ↔
      (∀ config, happening ≠ .configured config) ∧ happening ≠ .executed .plp ∧
        happening ≠ .executed .rti := by
  cases happening with
  | configured config => simp [breakBit?]
  | executed mnemonic => simp [breakBit?]

theorem breakBit?_eq_some_true_iff {happening : Happening} :
    happening.breakBit? = some true ↔
      ∃ config, happening = .configured config ∧ config.status &&& 0x10 ≠ 0 := by
  cases happening with
  | configured config => simp [breakBit?]
  | executed mnemonic => simp [breakBit?]

end Happening

/-- The break bit after a history, from what it was before. -/
def breakBitAfter (before : Bool) (history : List Happening) : Bool :=
  history.foldl (fun bit happening => happening.breakBit?.getD bit) before

theorem breakBitAfter_append (before : Bool) (history more : List Happening) :
    breakBitAfter before (history ++ more) = breakBitAfter (breakBitAfter before history) more :=
  List.foldl_append

/-- **The most recent happening that settles the bit decides.** If there is none, it is as
before. -/
theorem breakBitAfter_eq_true_iff {before : Bool} {history : List Happening} :
    breakBitAfter before history = true ↔
      (∃ earlier last later, history = earlier ++ last :: later ∧ last.breakBit? = some true ∧
        ∀ happening ∈ later, happening.breakBit? = none) ∨
      before = true ∧ ∀ happening ∈ history, happening.breakBit? = none := by
  induction history generalizing before with
  | nil => simp [breakBitAfter]
  | cons first history ih =>
    have hfold : breakBitAfter before (first :: history) =
        breakBitAfter (first.breakBit?.getD before) history := rfl
    rw [hfold, ih]
    constructor
    · rintro (⟨earlier, last, later, rfl, hlast, hlater⟩ | ⟨hbit, hrest⟩)
      · exact .inl ⟨first :: earlier, last, later, rfl, hlast, hlater⟩
      · cases hfirst : first.breakBit? with
        | none =>
          rw [hfirst] at hbit
          exact .inr ⟨hbit, List.forall_mem_cons.mpr ⟨hfirst, hrest⟩⟩
        | some bit =>
          rw [hfirst] at hbit
          obtain rfl : bit = true := hbit
          exact .inl ⟨[], first, history, rfl, hfirst, hrest⟩
    · rintro (⟨earlier, last, later, hsplit, hlast, hlater⟩ | ⟨rfl, hall⟩)
      · cases earlier with
        | nil =>
          cases hsplit
          exact .inr ⟨by rw [hlast]; rfl, hlater⟩
        | cons found earlier =>
          cases hsplit
          exact .inl ⟨earlier, last, later, rfl, hlast, hlater⟩
      · obtain ⟨hfirst, hrest⟩ := List.forall_mem_cons.mp hall
        exact .inr ⟨by rw [hfirst]; rfl, hrest⟩

/-- A history in which nothing sets the bit leaves it clear. -/
theorem breakBitAfter_of_clear {history : List Happening}
    (h : ∀ happening ∈ history, happening.breakBit? ≠ some true) :
    breakBitAfter false history = false := by
  refine Bool.eq_false_iff.mpr fun hset => ?_
  rcases breakBitAfter_eq_true_iff.mp hset with ⟨earlier, last, later, rfl, hlast, -⟩ | ⟨hbit, -⟩
  · exact h last (by simp) hlast
  · cases hbit

/-! ## Status -/

namespace Status

/-- The unused bit is set, and the break bit is as given. -/
structure Settled (status : Status) (breakBit : Bool) : Prop where
  /-- The unused bit reads as one. -/
  unused : status.unused = true
  /-- The break bit is what history makes of it. -/
  breakCommand : status.breakCommand = breakBit

theorem settled_ofByte (byte : UInt8) : (ofByte byte).Settled (byte &&& 0x10 != 0) := ⟨rfl, rfl⟩

theorem settled_ofPulled (byte : UInt8) : (ofPulled byte).Settled false := ⟨rfl, rfl⟩

/-- The two bits in the byte of a status. -/
theorem bits_of_settled {status : Status} (h : status.Settled false) :
    status.bits &&& 0x30 = 0x20 := by
  obtain ⟨c, z, i, d, b, u, v, n⟩ := status
  obtain ⟨rfl, rfl⟩ := h
  revert c z i d v n
  decide

end Status

/-! ## Operations -/

namespace Operation

variable {operation : Operation} {opcode : UInt8}

/-- An operation that pulls the status leaves one that comes from a byte of the stack. -/
theorem exists_status_eq_ofPulled (h : operation.mnemonic ∈ [.plp, .rti]) (registers : Registers)
    (image : Image) :
    ∃ byte, (operation.effect registers image).registers.status = .ofPulled byte := by
  obtain ⟨mnemonic, mode, cycles⟩ := operation
  rcases List.mem_pair.mp h with rfl | rfl
  · exact ⟨_, rfl⟩
  · exact ⟨_, rfl⟩

/-- What an operation makes of the two bits is what its happening makes of them. -/
theorem settled_effect (ho : operation? opcode = some operation) {registers : Registers}
    {bit : Bool} (h : registers.status.Settled bit) (image : Image) :
    (operation.effect registers image).registers.status.Settled
      (breakBitAfter bit [.executed operation.mnemonic]) := by
  by_cases hpulls : operation.mnemonic ∈ [.plp, .rti]
  · obtain ⟨byte, hstatus⟩ := exists_status_eq_ofPulled hpulls registers image
    have hbit : breakBitAfter bit [.executed operation.mnemonic] = false := by
      simp only [breakBitAfter, List.foldl_cons, List.foldl_nil, Happening.breakBit?, if_pos hpulls,
        Option.getD_some]
    rw [hstatus, hbit]
    exact Status.settled_ofPulled byte
  · have hkept : ∀ cell ∈ [Cell.breakCommand, .unused],
        cell.Kept registers (operation.effect registers image).registers := by
      intro cell hc
      refine kept_effect ho registers image ?_
      rcases List.mem_pair.mp hc with rfl | rfl <;> exact decide_eq_false hpulls
    have hbit : breakBitAfter bit [.executed operation.mnemonic] = bit := by
      simp only [breakBitAfter, List.foldl_cons, List.foldl_nil, Happening.breakBit?,
        if_neg hpulls, Option.getD_none]
    rw [hbit]
    exact ⟨(hkept .unused (by simp)).trans h.unused,
      (hkept .breakCommand (by simp)).trans h.breakCommand⟩

end Operation

/-! ## Steps and runs -/

namespace Cpu

variable {M : Type} [Bus M] {cpu : Cpu M} {bit : Bool}

/-- What a step makes happen: it executes an operation, if it ends well. -/
def stepHappenings (cpu : Cpu M) : List Happening :=
  match cpu.step.result with
  | .ok mnemonic => [.executed mnemonic]
  | .error _ => []

/-- What a run makes happen, if it has an end. Points inside a run are points between steps. -/
def runHappenings (cpu : Cpu M) (limit : RunLimit) : List Happening :=
  match cpu.run limit with
  | some _ => (runStates limit cpu.clock.cycles ample 0 cpu).flatMap stepHappenings
  | none => []

/-- **Steps.** A step keeps the two bits as history has them. -/
theorem settled_step (h : cpu.registers.status.Settled bit) :
    cpu.step.cpu.registers.status.Settled (breakBitAfter bit cpu.stepHappenings) := by
  unfold stepHappenings
  cases hs : cpu.step.result with
  | ok mnemonic =>
    obtain ⟨operation, rfl, hx⟩ := exists_executes hs
    obtain ⟨opcode, -, ho⟩ := exists_opcode_of_next? hx.next
    rw [hx.registers]
    exact Operation.settled_effect ho h cpu.image
  | error fault =>
    rcases step_error_cases hs with ⟨-, hcpu⟩ | ⟨executed, cause, memory, -, -, -, hcpu⟩ <;>
      rw [hcpu] <;> exact h

/-- **Runs.** So does a run. -/
theorem settled_runFrom {limit : RunLimit} {start fuel executed : Nat} {reported : List Event}
    {report : RunReport M} (hrun : runFrom limit start fuel executed reported cpu = some report)
    (h : cpu.registers.status.Settled bit) :
    report.cpu.registers.status.Settled
      (breakBitAfter bit ((runStates limit start fuel executed cpu).flatMap stepHappenings)) := by
  induction fuel generalizing executed reported cpu bit with
  | zero =>
    rcases runFrom_cases hrun with ⟨-, -, hcpu⟩ | ⟨left, hfuel, -⟩
    · rw [hcpu]
      exact h
    · cases hfuel
  | succ fuel ih =>
    rcases runFrom_cases hrun with ⟨hlimit, -, hcpu⟩ | ⟨left, hfuel, hlimit, hturn⟩
    · rw [hcpu, runStates, if_pos hlimit]
      exact h
    cases hfuel
    have hstep := settled_step h
    rw [runStates, hlimit, if_neg Bool.false_ne_true]
    rcases hturn with ⟨fault, hs, -, hcpu⟩ | ⟨hs, hcpu, -⟩ | ⟨mnemonic, later, hs, hne, hrest⟩
    · rw [stepHappenings, hs] at hstep
      rw [hcpu, hs]
      exact hstep
    · rw [hcpu, hs]
      simpa using hstep
    · have hlater := ih hrest hstep
      rw [← breakBitAfter_append] at hlater
      rw [hs]
      simpa [hne] using hlater

/-- A step configures nothing. -/
theorem breakBit?_of_mem_stepHappenings {happening : Happening}
    (h : happening ∈ cpu.stepHappenings) : happening.breakBit? ≠ some true := by
  unfold stepHappenings at h
  split at h
  · obtain rfl := List.mem_singleton.mp h
    simp [Happening.breakBit?]
  · cases h

/-- Nor does a run. -/
theorem breakBit?_of_mem_runHappenings {limit : RunLimit} {happening : Happening}
    (h : happening ∈ cpu.runHappenings limit) : happening.breakBit? ≠ some true := by
  unfold runHappenings at h
  split at h
  · obtain ⟨state, -, hstate⟩ := List.mem_flatMap.mp h
    exact breakBit?_of_mem_stepHappenings hstate
  · cases h

theorem settled_runReply (limit : RunLimit) (answer : RunSummary → Answer)
    (h : cpu.registers.status.Settled bit) :
    (cpu.runReply limit answer).state.registers.status.Settled
      (breakBitAfter bit (cpu.runHappenings limit)) := by
  unfold runReply runHappenings
  cases hrun : cpu.run limit with
  | none => exact h
  | some report =>
    have hlater := settled_runFrom hrun h
    obtain ⟨result, after, events⟩ := report
    cases result <;> exact hlater

end Cpu

/-! ## Sessions -/

namespace Use

variable {M : Type} [Bus M]

/-- The status is given by somebody who may have its raw bits. To ask for the byte that would be
pushed is none of this. -/
def setsStatus : Use M → Bool
  | .ask (.status .pushed) => false
  | .ask (.status _) => true
  | _ => false

/-- What a use makes happen. -/
def happenings (use : Use M) (cpu : Cpu M) : List Happening :=
  match use with
  | .ask .step => cpu.stepHappenings
  | .ask (.run limit) => cpu.runHappenings limit
  | .ask (.runForCycles budget) => cpu.runHappenings (.cycles budget)
  | .ask (.configure patch) => [.configured (patch.apply .powerOn)]
  | .ask (.reconfigure patch) => [.configured (patch.apply cpu.config)]
  | _ => []

/-- **Uses.** Whatever is done to a processor, its two bits are as history has them. -/
theorem settled_after (use : Use M) (huse : use.setsStatus = false) {cpu : Cpu M} {bit : Bool}
    (h : cpu.registers.status.Settled bit) :
    (use.after cpu).registers.status.Settled (breakBitAfter bit (use.happenings cpu)) := by
  cases use with
  | access change => exact h
  | ask request =>
    cases request with
    | step =>
      have hstep := Cpu.settled_step h
      simp only [after, happenings, CpuRequest.perform]
      rcases hs : cpu.step with ⟨fault | mnemonic, later, events⟩ <;> rw [hs] at hstep <;>
        exact hstep
    | run limit | runForCycles budget => exact Cpu.settled_runReply _ _ h
    | reset =>
      have hstatus : cpu.reset.2.registers.status = cpu.registers.status := by
        unfold Cpu.reset
        split <;> rfl
      simp only [after, happenings, CpuRequest.perform]
      rcases hr : cpu.reset with ⟨fault | done, later⟩ <;> rw [hr] at hstatus <;>
        exact hstatus ▸ h
    | peek =>
      simp only [after, happenings, CpuRequest.perform]
      split <;> exact h
    | configure patch | reconfigure patch => exact Status.settled_ofByte _
    | status request =>
      cases request with
      | pushed => exact h
      | _ => cases huse
    | _ => exact h

end Use

namespace Cpu

variable {M : Type} [Bus M]

/-- What some uses make happen, one after the other. -/
def happenings (cpu : Cpu M) : List (Use M) → List Happening
  | [] => []
  | use :: uses => use.happenings cpu ++ (use.after cpu).happenings uses

/-- **Sessions.** -/
theorem settled_useAll {cpu : Cpu M} {uses : List (Use M)}
    (huses : ∀ use ∈ uses, use.setsStatus = false) {bit : Bool}
    (h : cpu.registers.status.Settled bit) :
    (cpu.useAll uses).registers.status.Settled (breakBitAfter bit (cpu.happenings uses)) := by
  induction uses generalizing cpu bit with
  | nil => exact h
  | cons use uses ih =>
    obtain ⟨huse, hrest⟩ := List.forall_mem_cons.mp huses
    rw [happenings, breakBitAfter_append]
    exact ih hrest (use.settled_after huse h)

end Cpu

/-! ## Emulators -/

/-- Something that is done to an emulator. -/
inductive EmulatorCall where
  /-- Something is asked of it. -/
  | ask (request : EmulatorRequest)
  /-- A program is loaded. -/
  | loadProgram (start : UInt16) (program : List UInt8)

namespace EmulatorCall

/-- The emulator after a call. -/
def after (call : EmulatorCall) (emulator : Emulator) : Emulator :=
  match call with
  | .ask request => (request.perform emulator).state
  | .loadProgram start program => (emulator.loadProgram start program).state

/-- What a call does to the processor of an emulator. -/
def uses (call : EmulatorCall) (emulator : Emulator) : List (Use Ram) :=
  match call with
  | .ask .step => [.ask .step]
  | .ask (.run limit) => [.ask (.run (.instructions limit.toNat))]
  | .ask (.runForCycles budget) => [.ask (.runForCycles budget.toNat)]
  | .ask .reset =>
    [.ask (.configure ⟨some emulator.programStart, none, none, none, none, none, none⟩)]
  | .ask (.setPc address) => [.ask (.setPc address)]
  | .ask (.write address value) => [.access fun ram => (Bus.store ram address [value]).2]
  | .ask (.poke address bytes) => [.access fun ram => (Bus.store ram address bytes).2]
  | .ask _ => []
  | .loadProgram start program =>
    .access (fun ram => (Bus.load ram start program).2) ::
      match (Bus.load emulator.cpu.memory start program).1 with
      | .ok () => [.ask (.setPc start)]
      | .error _ => []

/-- A call does to the processor what its uses do. -/
theorem cpu_after (call : EmulatorCall) (emulator : Emulator) :
    (call.after emulator).cpu = emulator.cpu.useAll (call.uses emulator) := by
  cases call with
  | loadProgram start program =>
    simp only [after, uses, Emulator.loadProgram]
    rcases hload : Bus.load emulator.cpu.memory start program with ⟨cause | done, ram⟩ <;>
      simp [Cpu.useAll, Use.after, CpuRequest.perform, Cpu.mapRegisters, hload]
  | ask request =>
    cases request with
    | run limit | runForCycles limit =>
      simp only [after, uses, EmulatorRequest.perform, Emulator.runReply, Cpu.runLeaping_eq_run,
        Cpu.useAll, Use.after, CpuRequest.perform, Cpu.runReply]
      rcases emulator.cpu.run _ with - | ⟨result | result, later, events⟩ <;> rfl
    | read address =>
      simp only [after, uses, EmulatorRequest.perform]
      split <;> rfl
    | dump address length =>
      simp only [after, uses, EmulatorRequest.perform]
      split <;> rfl
    | _ => rfl

/-- No call gives the status by its bits. -/
theorem setsStatus_of_mem_uses {call : EmulatorCall} {emulator : Emulator} {use : Use Ram}
    (h : use ∈ call.uses emulator) : use.setsStatus = false := by
  cases call with
  | loadProgram start program =>
    rcases List.mem_cons.mp h with rfl | h
    · rfl
    · split at h
      · obtain rfl := List.mem_singleton.mp h
        rfl
      · cases h
  | ask request =>
    cases request with
    | read | dump | program => cases h
    | _ =>
      obtain rfl := List.mem_singleton.mp h
      rfl

/-- No call configures the processor with the break bit set. -/
theorem breakBit?_of_mem_happenings {call : EmulatorCall} {emulator : Emulator}
    {happening : Happening} (h : happening ∈ emulator.cpu.happenings (call.uses emulator)) :
    happening.breakBit? ≠ some true := by
  cases call with
  | loadProgram start program =>
    simp only [uses] at h
    split at h <;> cases h
  | ask request =>
    cases request with
    | step =>
      rw [uses, Cpu.happenings, Cpu.happenings, List.append_nil] at h
      exact Cpu.breakBit?_of_mem_stepHappenings h
    | run limit | runForCycles limit =>
      rw [uses, Cpu.happenings, Cpu.happenings, List.append_nil] at h
      exact Cpu.breakBit?_of_mem_runHappenings h
    | reset =>
      have hclear : some (Config.powerOn.status &&& 0x10 != 0) ≠ some true := by decide
      obtain rfl := List.mem_singleton.mp h
      exact hclear
    | _ => cases h

end EmulatorCall

namespace Emulator

/-- The emulator after some calls, one after the other. -/
def callAll (emulator : Emulator) : List EmulatorCall → Emulator
  | [] => emulator
  | call :: calls => (call.after emulator).callAll calls

/-- **Sessions of an emulator.** The break bit is never set. -/
theorem settled_callAll {emulator : Emulator} (calls : List EmulatorCall)
    (h : emulator.cpu.registers.status.Settled false) :
    (emulator.callAll calls).cpu.registers.status.Settled false := by
  induction calls generalizing emulator with
  | nil => exact h
  | cons call calls ih =>
    refine ih ?_
    have huses : ∀ use ∈ call.uses emulator, use.setsStatus = false :=
      fun _ => EmulatorCall.setsStatus_of_mem_uses
    have hclear : breakBitAfter false (emulator.cpu.happenings (call.uses emulator)) = false :=
      breakBitAfter_of_clear fun _ => EmulatorCall.breakBit?_of_mem_happenings
    rw [call.cpu_after, ← hclear]
    exact Cpu.settled_useAll huses h

end Emulator

/-! ## The two bits -/

/-- **The two bits of the status.** After any use of a processor that was given some configuration,
if only nobody gives the status by its raw bits, the unused bit is set; and the break bit is set
exactly if the most recent configuration has it and no operation has pulled the status since. Uses
that fail count as well. An emulator therefore has the one bit set and the other clear after any
calls. -/
theorem status_bits_settled {M : Type} [Bus M] :
    (∀ (memory : M) (config : Config) (uses : List (Use M)),
      (∀ use ∈ uses, use.setsStatus = false) →
        let cpu := Cpu.ofConfig memory config
        let status := (cpu.useAll uses).registers.status
        status.unused = true ∧
        (status.breakCommand = true ↔
          ∃ earlier last later,
            .configured config :: cpu.happenings uses = earlier ++ .configured last :: later ∧
            last.status &&& 0x10 ≠ 0 ∧
            ∀ happening ∈ later, (∀ other, happening ≠ .configured other) ∧
              happening ≠ .executed .plp ∧ happening ≠ .executed .rti)) ∧
    ∀ (size : Nat) (calls : List EmulatorCall),
      ((Emulator.ofSize size).callAll calls).cpu.registers.status.bits &&& 0x30 = 0x20 := by
  refine ⟨fun memory config uses huses => ?_, fun size calls => ?_⟩
  · have hgiven : (Cpu.ofConfig memory config).registers.status.Settled
        (breakBitAfter false [.configured config]) := Status.settled_ofByte config.status
    obtain ⟨hunused, hbreak⟩ := Cpu.settled_useAll huses hgiven
    rw [← breakBitAfter_append] at hbreak
    refine ⟨hunused, ?_⟩
    rw [hbreak, breakBitAfter_eq_true_iff]
    constructor
    · rintro (⟨earlier, found, later, hsplit, hfound, hlater⟩ | ⟨hbit, -⟩)
      · obtain ⟨last, rfl, hlast⟩ := Happening.breakBit?_eq_some_true_iff.mp hfound
        exact ⟨earlier, last, later, hsplit, hlast,
          fun _ hmem => Happening.breakBit?_eq_none_iff.mp (hlater _ hmem)⟩
      · cases hbit
    · rintro ⟨earlier, last, later, hsplit, hlast, hlater⟩
      exact .inl ⟨earlier, .configured last, later, hsplit,
        Happening.breakBit?_eq_some_true_iff.mpr ⟨last, rfl, hlast⟩,
        fun _ hmem => Happening.breakBit?_eq_none_iff.mpr (hlater _ hmem)⟩
  · exact Status.bits_of_settled (Emulator.settled_callAll calls (Status.settled_ofByte _))

/-- A status with the break bit set and the unused bit clear. -/
def breaking : Config := { Config.powerOn with status := 0x10, sp := 0 }

/-- An idle instruction, one that pulls the status, and a byte of ones to be pulled. -/
def idleThenPull : Ram :=
  (((Ram.zeros 0x0104 (by decide) (by decide)).put 0 0xEA).put 1 0x28).put 0x0101 0xFF

/-- The configured bit is there until the status is pulled, and the pulled bit is dropped. -/
theorem status_bits_settled_pulling :
    ((Cpu.ofConfig idleThenPull breaking).useAll [.ask .step]).registers.status.breakCommand =
      true ∧
    ((Cpu.ofConfig idleThenPull breaking).useAll
      [.ask .step, .ask .step]).registers.status.breakCommand ≠ true ∧
    ((Cpu.ofConfig idleThenPull breaking).useAll
      [.ask .step, .ask .step]).registers.status.unused = true ∧
    ((Emulator.ofSize 0x0104).callAll
      [.loadProgram 0x0100 [0x10, 0x28], .ask (.setPc 0x0101),
        .ask .step]).cpu.registers.status.bits &&& 0x30 = 0x20 := by
  obtain ⟨hcpu, hemulator⟩ := status_bits_settled (M := Ram)
  have honce : Happening.configured breaking ::
      (Cpu.ofConfig idleThenPull breaking).happenings [.ask .step] =
        [.configured breaking, .executed .nop] := by decide +kernel
  have htwice : Happening.configured breaking ::
      (Cpu.ofConfig idleThenPull breaking).happenings [.ask .step, .ask .step] =
        [.configured breaking, .executed .nop, .executed .plp] := by decide +kernel
  obtain ⟨-, hfirst⟩ := hcpu idleThenPull breaking [.ask .step] (by simp [Use.setsStatus])
  obtain ⟨hunused, hsecond⟩ :=
    hcpu idleThenPull breaking [.ask .step, .ask .step] (by simp [Use.setsStatus])
  refine ⟨hfirst.mpr ⟨[], breaking, [.executed .nop], honce, by decide, by simp⟩, ?_, hunused,
    hemulator _ _⟩
  intro hset
  obtain ⟨earlier, last, later, hsplit, -, hlater⟩ := hsecond.mp hset
  rw [htwice] at hsplit
  cases earlier with
  | nil =>
    cases hsplit
    exact (hlater (.executed .plp) (by simp)).2.1 rfl
  | cons first earlier =>
    have hmem : Happening.configured last ∈ [.executed .nop, .executed .plp] := by
      rw [(List.cons.inj hsplit).2]
      simp
    simp at hmem

end Nmos6502
