/-!
# The cycle clock

The clock counts cycles up to the largest 64-bit number and stays there: it saturates instead of
wrapping, so it never runs backwards.

## Main definitions

* `Clock` — a count with its bound
* `Clock.tick` — time goes by
* `Clock.readings` — the counts after each of several ticks
-/

namespace Nmos6502

/-- The largest count of the clock. -/
def maxCycles : Nat := 0xFFFFFFFFFFFFFFFF

/-- Cycles since power-on. -/
structure Clock where
  /-- The count. -/
  cycles : Nat
  /-- The count never exceeds the largest 64-bit number. -/
  cycles_le : cycles ≤ maxCycles

namespace Clock

/-- The clock at power-on. -/
def zero : Clock := ⟨0, Nat.zero_le _⟩

/-- The clock after `ticks` more cycles, or at its end. -/
def tick (clock : Clock) (ticks : Nat) : Clock :=
  ⟨min maxCycles (clock.cycles + ticks), Nat.min_le_left _ _⟩

@[simp] theorem cycles_zero : zero.cycles = 0 := rfl

@[simp] theorem cycles_tick (clock : Clock) (ticks : Nat) :
    (clock.tick ticks).cycles = min maxCycles (clock.cycles + ticks) := rfl

theorem le_cycles_tick (clock : Clock) (ticks : Nat) :
    clock.cycles ≤ (clock.tick ticks).cycles :=
  Nat.le_min.2 ⟨clock.cycles_le, Nat.le_add_right _ _⟩

/-- The counts after each of some ticks, one after the other. -/
def readings (clock : Clock) : List Nat → List Nat
  | [] => []
  | ticks :: more => (clock.tick ticks).cycles :: (clock.tick ticks).readings more

end Clock

end Nmos6502
