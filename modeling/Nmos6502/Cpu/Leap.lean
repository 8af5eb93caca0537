import Nmos6502.Cpu.Run

/-!
# Leaps

A program that has nothing left to do goes round in a loop, and the processor comes back to a state
in which it was before: the same registers and the same memory, only later. What it did since then
it will do again, so the turns to come need not be taken one by one. As many rounds as the limit has
room for are left out, with a leap.

To see that it has come back, a run remembers one of its states. It takes a new one when the
instructions since then are more than half of all, so that a loop of any length is found in the
end, and only few states are taken.

A run that leaps ends like one that does not, but in a loop it gets there soon, where the other
takes up to billions of turns. It reports nothing on its way, so it is only for where there is
nothing to report.

## Main definitions

* `RunLimit.rounds` — how many rounds of a loop can be left out
* `Cpu.leapFrom`, `Cpu.runLeaping` — a run that leaps
-/

namespace Nmos6502

/-- How many rounds of `length` instructions and `cost` cycles are sure to leave something of a
limit, and cost no more than `fuel`. -/
def RunLimit.rounds (limit : RunLimit) (fuel instructions cycles length cost : Nat) : Nat :=
  match limit with
  | .unbounded => fuel / length
  | .instructions count => min (fuel / length) ((count - instructions - 1) / length)
  | .cycles count => min (fuel / length) ((count - cycles - 1) / cost)

namespace Cpu

variable {M : Type}

/-- Time goes by and nothing else happens. -/
def wait (cpu : Cpu M) (ticks : Nat) : Cpu M :=
  { cpu with clock := cpu.clock.tick ticks }

variable [Bus M] [DecidableEq M]

/-- Runs on like `runFrom` and reports nothing. The state that the run remembers was `turns` turns
ago. It is forgotten if the registers are back and the memory is not; a new one will be taken. -/
def leapFrom (limit : RunLimit) (start : Nat) :
    (fuel executed : Nat) → (seen? : Option (Cpu M)) → (turns : Nat) → Cpu M → Option (RunReport M)
  | fuel, executed, seen?, turns, cpu =>
    let elapsed := cpu.clock.cycles - start
    if limit.isUsedUp executed elapsed then
      some ⟨.ok ⟨executed, elapsed, .limitReached⟩, cpu, []⟩
    else
      match fuel with
      | 0 => none
      | fuel + 1 =>
        match cpu.step with
        | ⟨.error fault, cpu, _⟩ => some ⟨.error fault, cpu, []⟩
        | ⟨.ok mnemonic, cpu, _⟩ =>
          let executed := executed + 1
          let turns := turns + 1
          if mnemonic = .brk then
            some ⟨.ok ⟨executed, cpu.clock.cycles - start, .breakInstruction⟩, cpu, []⟩
          else if executed < 2 * turns then leapFrom limit start fuel executed (some cpu) 0 cpu
          else
            match seen? with
            | none => leapFrom limit start fuel executed none turns cpu
            | some seen =>
              if cpu.registers ≠ seen.registers then
                leapFrom limit start fuel executed (some seen) turns cpu
              else if cpu.memory ≠ seen.memory then
                leapFrom limit start fuel executed none turns cpu
              else
                let cost := cpu.clock.cycles - seen.clock.cycles
                let rounds := limit.rounds fuel executed (cpu.clock.cycles - start) turns cost
                runFrom limit start (fuel - rounds * turns) (executed + rounds * turns) []
                  (cpu.wait (rounds * cost))

/-- Runs to the end like `run`, with leaps where there is nothing to report. -/
def runLeaping (limit : RunLimit) (cpu : Cpu M) : Option (RunReport M) :=
  if cpu.verbose then cpu.run limit else leapFrom limit cpu.clock.cycles ample 0 none 0 cpu

end Cpu

end Nmos6502
