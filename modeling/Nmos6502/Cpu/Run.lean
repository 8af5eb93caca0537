import Nmos6502.Cpu

/-!
# Running

A run repeats the step until a break instruction has been executed or the limit is used up. The
limit is looked at before each step, so a limit of nothing executes nothing, and the last
instruction of a budget of cycles may take it over the budget. A fault ends the run, and what was
done before it stays done.

Nothing says that an unbounded run ends. So that the run is a function all the same, it is given
fuel, one unit for each step, and says when the fuel was not enough.

## Main definitions

* `RunLimit`, `RunLimit.isUsedUp`
* `StopReason`, `RunSummary`, `RunReport`
* `Cpu.runWithin` — a run with a given amount of fuel
* `Cpu.run` — a run with more fuel than any machine can burn
-/

namespace Nmos6502

/-- How long to run. -/
inductive RunLimit where
  /-- Until a break or a fault. -/
  | unbounded
  /-- For at most so many instructions. -/
  | instructions (count : Nat)
  /-- Until so many cycles have gone by. -/
  | cycles (count : Nat)
  deriving DecidableEq

/-- Whether a limit is used up after so many instructions and cycles. -/
def RunLimit.isUsedUp (limit : RunLimit) (instructions cycles : Nat) : Bool :=
  match limit with
  | .unbounded => false
  | .instructions count => count ≤ instructions
  | .cycles count => count ≤ cycles

/-- Why a run ended. -/
inductive StopReason where
  /-- A break instruction was executed. -/
  | breakInstruction
  /-- The limit is used up. -/
  | limitReached
  deriving DecidableEq

/-- What a run did. -/
structure RunSummary where
  /-- The number of instructions, a break included. -/
  instructions : Nat
  /-- The cycles that went by. -/
  cycles : Nat
  /-- Why it ended. -/
  stop : StopReason
  deriving DecidableEq

/-- What came of a run. -/
structure RunReport (M : Type) where
  /-- What the run did, or the fault that ended it. -/
  result : Except Fault RunSummary
  /-- The processor afterwards. -/
  cpu : Cpu M
  /-- What was reported. -/
  events : List Event

namespace Cpu

variable {M : Type} [Bus M]

/-- Runs on with fuel for so many steps. The run began at `start` cycles and has executed
`executed` instructions; `reported` holds what was reported so far, the latest first. -/
def runFrom (limit : RunLimit) (start : Nat) :
    (fuel executed : Nat) → (reported : List Event) → Cpu M → Option (RunReport M)
  | fuel, executed, reported, cpu =>
    let elapsed := cpu.clock.cycles - start
    if limit.isUsedUp executed elapsed then
      some ⟨.ok ⟨executed, elapsed, .limitReached⟩, cpu, reported.reverse⟩
    else
      match fuel with
      | 0 => none
      | fuel + 1 =>
        match cpu.step with
        | ⟨.error fault, cpu, events⟩ =>
          some ⟨.error fault, cpu, (events.reverse ++ reported).reverse⟩
        | ⟨.ok mnemonic, cpu, events⟩ =>
          let reported := events.reverse ++ reported
          if mnemonic = .brk then
            some ⟨.ok ⟨executed + 1, cpu.clock.cycles - start, .breakInstruction⟩, cpu,
              reported.reverse⟩
          else runFrom limit start fuel (executed + 1) reported cpu

/-- Runs with fuel for so many steps; `none` if that was not enough. -/
def runWithin (fuel : Nat) (limit : RunLimit) (cpu : Cpu M) : Option (RunReport M) :=
  runFrom limit cpu.clock.cycles fuel 0 [] cpu

/-- As many steps as the largest limit of 64 bits allows, and more than any machine has time for. -/
def ample : Nat := 0xFFFFFFFFFFFFFFFF

/-- Runs to the end; `none` if there is none. -/
def run (limit : RunLimit) (cpu : Cpu M) : Option (RunReport M) :=
  cpu.runWithin ample limit

end Cpu

end Nmos6502
