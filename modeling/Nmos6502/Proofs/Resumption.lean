import Mathlib.Tactic.Common
import Nmos6502.Proofs.Counts

/-!
# Runs in slices

A run keeps two things to itself: how many instructions it has executed, and how late it was when it
began. A run that is taken up again after its limit was used up begins to count anew, and it begins
later. What it must be given for a limit is what the whole run would have left: the instructions or
the cycles that were not spent, and nothing if a last instruction has already spent more than there
was.

So two things are compared turn by turn. A run with a limit is the beginning of the run with a
larger one, up to the turn that ends it. And what follows from some turn on is a run of its own,
with what is left of the limit. The equations hold for any amount of fuel, so they also say that the
one run does not end if the other does not.

## Main definitions

* `RunLimit.left` — what is left of a limit
* `RunLimit.Within` — a limit that is not used up before another
* `RunReport.following` — two runs as one
* `Cpu.SplitsAt` — a run and what is left of it are a longer run

## Main results

* `Cpu.runFrom_succ` — one turn of a run, as an equation
* `Cpu.runFrom_of_within` — a run is the beginning of one with a larger limit
* `Cpu.runFrom_resume` — the rest of a run is a run
* `Cpu.splitsAt_of_within` — a run can be interrupted
* `Cpu.run_splits` — a limit can be spent in two parts
-/

namespace Nmos6502

/-! ## Limits in parts -/

namespace RunLimit

variable {short long limit : RunLimit}

/-- What is left of a limit after so many instructions and cycles. -/
def left (limit : RunLimit) (instructions cycles : Nat) : RunLimit :=
  match limit with
  | .unbounded => .unbounded
  | .instructions count => .instructions (count - instructions)
  | .cycles count => .cycles (count - cycles)

/-- What is left is used up when the whole limit is. -/
theorem isUsedUp_left (limit : RunLimit) (instructions cycles moreInstructions moreCycles : Nat) :
    (limit.left instructions cycles).isUsedUp moreInstructions moreCycles =
      limit.isUsedUp (instructions + moreInstructions) (cycles + moreCycles) := by
  cases limit with
  | unbounded => rfl
  | instructions count | cycles count => exact decide_eq_decide.mpr Nat.sub_le_iff_le_add'

/-- While one limit is not used up, neither is the other. -/
def Within (short long : RunLimit) : Prop :=
  ∀ {instructions cycles : Nat}, short.isUsedUp instructions cycles = false →
    long.isUsedUp instructions cycles = false

theorem instructions_within_add (count more : Nat) :
    Within (.instructions count) (.instructions (count + more)) := by
  intro instructions cycles h
  have hleft := of_decide_eq_false h
  exact decide_eq_false (by omega)

theorem cycles_within_add (count more : Nat) : Within (.cycles count) (.cycles (count + more)) := by
  intro instructions cycles h
  have hleft := of_decide_eq_false h
  exact decide_eq_false (by omega)

end RunLimit

/-- The summary of two runs, one after the other. -/
def RunSummary.following (second first : RunSummary) : RunSummary where
  instructions := first.instructions + second.instructions
  cycles := first.cycles + second.cycles
  stop := second.stop

/-- The report of two runs, one after the other: the counts add up, and the second run says how it
ends. -/
def RunReport.following {M : Type} (second : RunReport M) (first : RunSummary)
    (events : List Event) : RunReport M where
  result := second.result.map (·.following first)
  cpu := second.cpu
  events := events ++ second.events

namespace Cpu

variable {M : Type} [Bus M] {limit short long : RunLimit} {start fuel executed : Nat}
  {reported : List Event} {cpu : Cpu M} {first : RunReport M}

/-! ## Turn by turn -/

/-- **One turn of a run**, while the limit is not used up. -/
theorem runFrom_succ (h : limit.isUsedUp executed (cpu.clock.cycles - start) = false) :
    runFrom limit start (fuel + 1) executed reported cpu =
      match cpu.step.result with
      | .error fault => some ⟨.error fault, cpu.step.cpu, reported.reverse ++ cpu.step.events⟩
      | .ok mnemonic =>
        if mnemonic = .brk then
          some ⟨.ok ⟨executed + 1, cpu.step.cpu.clock.cycles - start, .breakInstruction⟩,
            cpu.step.cpu, reported.reverse ++ cpu.step.events⟩
        else
          runFrom limit start fuel (executed + 1) (cpu.step.events.reverse ++ reported)
            cpu.step.cpu := by
  rw [runFrom.eq_def]
  rcases hs : cpu.step with ⟨fault | mnemonic, after, events⟩ <;>
    simp only [h, hs, List.reverse_append, List.reverse_reverse] <;> rfl

/-- **The beginning of a longer run.** A run that its limit ended has come to a turn of the run with
the larger limit, and that goes on from there. A run that ended otherwise ends the same under the
larger limit, and with more fuel. -/
theorem runFrom_of_within (hwithin : short.Within long)
    (h : runFrom short start fuel executed reported cpu = some first) (more : Nat) :
    (∃ turns, first.result =
        .ok ⟨executed + turns, first.cpu.clock.cycles - start, .limitReached⟩ ∧
      first.cpu = cpu.afterSteps turns ∧
      runFrom long start (turns + more) executed reported cpu =
        runFrom long start more (executed + turns) first.events.reverse first.cpu) ∨
    (∀ summary, first.result = .ok summary → summary.stop = .breakInstruction) ∧
      runFrom long start (fuel + more) executed reported cpu = some first := by
  induction fuel generalizing executed reported cpu with
  | zero =>
    cases hspent : short.isUsedUp executed (cpu.clock.cycles - start) with
    | true =>
      cases (runFrom_of_spent hspent).symm.trans h
      exact .inl ⟨0, rfl, rfl, by rw [Nat.zero_add, List.reverse_reverse]; rfl⟩
    | false => cases (runFrom_zero hspent).symm.trans h
  | succ fuel ih =>
    cases hspent : short.isUsedUp executed (cpu.clock.cycles - start) with
    | true =>
      cases (runFrom_of_spent hspent).symm.trans h
      exact .inl ⟨0, rfl, rfl, by rw [Nat.zero_add, List.reverse_reverse]; rfl⟩
    | false =>
      -- the turn is not the last for the smaller limit, so it is not for the larger one
      have hlong := hwithin hspent
      rw [runFrom_succ hspent] at h
      rw [Nat.add_right_comm fuel 1 more, runFrom_succ hlong]
      cases hs : cpu.step.result with
      | error fault =>
        simp only [hs] at h ⊢
        cases h
        exact .inr ⟨fun _ hok => (by cases hok), rfl⟩
      | ok mnemonic =>
        by_cases hbrk : mnemonic = .brk
        · simp only [hs, if_pos hbrk] at h ⊢
          cases h
          exact .inr ⟨fun _ hok => (by cases hok; rfl), rfl⟩
        · simp only [hs, if_neg hbrk] at h ⊢
          rcases ih h with ⟨turns, hresult, hcpu, hgoes⟩ | hends
          · refine .inl ⟨turns + 1, ?_, hcpu, ?_⟩
            · rw [hresult, Nat.add_right_comm, Nat.add_assoc]
            · rw [Nat.add_right_comm turns 1 more, runFrom_succ hlong, hs, ← Nat.add_assoc,
                Nat.add_right_comm executed turns 1, ← hgoes]
              exact if_neg hbrk
          · exact .inr hends

section Resuming

variable {before : RunSummary} {earlier : List Event}

/-- How late it is, by the clock of the whole run. -/
theorem elapsed_eq {now : Nat} (h : start + before.cycles ≤ now) :
    now - start = before.cycles + (now - (start + before.cycles)) := by omega

/-- What is left is used up in the turn in which the whole limit is. -/
theorem isUsedUp_left_eq {now : Nat} (h : start + before.cycles ≤ now) (spent : Bool)
    (hspent : limit.isUsedUp (before.instructions + executed) (now - start) = spent) :
    (limit.left before.instructions before.cycles).isUsedUp executed
      (now - (start + before.cycles)) = spent := by
  rw [limit.isUsedUp_left, ← elapsed_eq h, hspent]

theorem runFrom_resume_of_spent (hclock : start + before.cycles ≤ cpu.clock.cycles)
    (hspent : limit.isUsedUp (before.instructions + executed) (cpu.clock.cycles - start) = true) :
    runFrom limit start fuel (before.instructions + executed) (reported ++ earlier) cpu =
      (runFrom (limit.left before.instructions before.cycles) (start + before.cycles) fuel executed
        reported cpu).map (·.following before earlier.reverse) := by
  rw [runFrom_of_spent hspent, runFrom_of_spent (isUsedUp_left_eq hclock _ hspent),
    elapsed_eq hclock, List.reverse_append]
  rfl

/-- **The rest of a run is a run**, with what is left of the limit. -/
theorem runFrom_resume (hclock : start + before.cycles ≤ cpu.clock.cycles) :
    runFrom limit start fuel (before.instructions + executed) (reported ++ earlier) cpu =
      (runFrom (limit.left before.instructions before.cycles) (start + before.cycles) fuel executed
        reported cpu).map (·.following before earlier.reverse) := by
  induction fuel generalizing executed reported cpu with
  | zero =>
    cases hspent : limit.isUsedUp (before.instructions + executed) (cpu.clock.cycles - start) with
    | true => exact runFrom_resume_of_spent hclock hspent
    | false =>
      rw [runFrom_zero hspent, runFrom_zero (isUsedUp_left_eq hclock _ hspent)]
      rfl
  | succ fuel ih =>
    cases hspent : limit.isUsedUp (before.instructions + executed) (cpu.clock.cycles - start) with
    | true => exact runFrom_resume_of_spent hclock hspent
    | false =>
      have hlater : start + before.cycles ≤ cpu.step.cpu.clock.cycles :=
        Nat.le_trans hclock (cpu.cycles_le_afterSteps 1)
      rw [runFrom_succ hspent, runFrom_succ (isUsedUp_left_eq hclock _ hspent),
        List.reverse_append, List.append_assoc]
      cases cpu.step.result with
      | error fault => rfl
      | ok mnemonic =>
        by_cases hbrk : mnemonic = .brk
        · simp only [if_pos hbrk, elapsed_eq hlater]
          rfl
        · simp only [if_neg hbrk]
          rw [Nat.add_assoc, ← List.append_assoc]
          exact ih hlater

/-- A run with what is left, from where the whole run has come to. -/
theorem runFrom_eq_following (hclock : start + before.cycles = cpu.clock.cycles) :
    runFrom limit start fuel before.instructions earlier.reverse cpu =
      (cpu.runWithin fuel (limit.left before.instructions before.cycles)).map
        (·.following before earlier) := by
  have hrest : runFrom limit start fuel (before.instructions + 0) ([] ++ earlier.reverse) cpu = _ :=
    runFrom_resume (Nat.le_of_eq hclock)
  rw [hclock, List.reverse_reverse] at hrest
  exact hrest

end Resuming

/-! ## Whole runs -/

/-- A run with the limit `short` is the beginning of the run with the limit `long`. What is left of
that limit after it is `rest`. -/
structure SplitsAt (cpu : Cpu M) (short long : RunLimit) (rest : RunSummary → RunLimit) :
    Prop where
  /-- If the limit ends the first run, a second run from where it ended leads to where the whole run
  leads, and both together did what that did. They end in the same fuel, if they do. -/
  limit : ∀ {fuel first summary}, cpu.runWithin fuel short = some first →
    first.result = .ok summary → summary.stop = .limitReached → ∀ more,
      cpu.runWithin (summary.instructions + more) long =
        (first.cpu.runWithin more (rest summary)).map (·.following summary first.events)
  /-- If a break ends the first run, that is the whole run. -/
  broke : ∀ {fuel first summary}, cpu.runWithin fuel short = some first →
    first.result = .ok summary → summary.stop = .breakInstruction → ∀ more,
      cpu.runWithin (fuel + more) long = some first
  /-- If a fault ends the first run, that is the whole run. -/
  fault : ∀ {fuel first fault}, cpu.runWithin fuel short = some first →
    first.result = .error fault → ∀ more, cpu.runWithin (fuel + more) long = some first

/-- **A run can be interrupted**, and goes on with what it left of a larger limit. -/
theorem splitsAt_of_within (cpu : Cpu M) (hwithin : short.Within long) :
    cpu.SplitsAt short long (fun summary => long.left summary.instructions summary.cycles) where
  limit := by
    intro fuel first summary h hok hstop more
    rcases runFrom_of_within hwithin h more with ⟨turns, hresult, hcpu, hgoes⟩ | ⟨hbreak, -⟩
    · rw [Nat.zero_add] at hresult hgoes
      cases hok.symm.trans hresult
      have hle : cpu.clock.cycles ≤ first.cpu.clock.cycles := hcpu ▸ cpu.cycles_le_afterSteps turns
      let before : RunSummary :=
        ⟨turns, first.cpu.clock.cycles - cpu.clock.cycles, .limitReached⟩
      have hrest : runFrom long cpu.clock.cycles more before.instructions first.events.reverse
          first.cpu = _ := runFrom_eq_following (Nat.add_sub_cancel' hle)
      exact hgoes.trans hrest
    · cases (hbreak summary hok).symm.trans hstop
  broke := by
    intro fuel first summary h hok hstop more
    rcases runFrom_of_within hwithin h more with ⟨turns, hresult, -, -⟩ | ⟨-, hsame⟩
    · cases hok.symm.trans hresult
      cases hstop
    · exact hsame
  fault := by
    intro fuel first fault h herror more
    rcases runFrom_of_within hwithin h more with ⟨turns, hresult, -, -⟩ | ⟨-, hsame⟩
    · cases herror.symm.trans hresult
    · exact hsame

/-- A run that its number of instructions ended has executed as many. -/
theorem instructions_eq_of_limitReached {count : Nat} {summary : RunSummary}
    (h : cpu.runWithin fuel (.instructions count) = some first)
    (hok : first.result = .ok summary) (hstop : summary.stop = .limitReached) :
    summary.instructions = count := by
  rcases runWithin_cases h with ⟨found, hresult, -, hcompleted⟩ | ⟨fault, hresult, -⟩
  · cases hok.symm.trans hresult
    obtain ⟨-, hspent, -⟩ := hcompleted.limit_iff.mp hstop
    exact Nat.le_antisymm hcompleted.instructions_le (of_decide_eq_true hspent)
  · cases hok.symm.trans hresult

/-- **A limit can be spent in two parts.** A run of so many instructions, and a run of some more
after it, do what one run of all of them does. A budget of cycles can be spent in two parts as well,
where the second part is what the first has left, nothing if its last instruction took it past the
whole. -/
theorem run_splits (cpu : Cpu M) (m n : Nat) :
    cpu.SplitsAt (.instructions m) (.instructions (m + n)) (fun _ => .instructions n) ∧
    cpu.SplitsAt (.cycles m) (.cycles (m + n))
      (fun summary => .cycles (m + n - summary.cycles)) := by
  refine ⟨?_, cpu.splitsAt_of_within (RunLimit.cycles_within_add m n)⟩
  have hsplits := cpu.splitsAt_of_within (RunLimit.instructions_within_add m n)
  refine ⟨?_, hsplits.broke, hsplits.fault⟩
  intro fuel first summary h hok hstop more
  have hrest : RunLimit.left (.instructions (m + n)) summary.instructions summary.cycles =
      .instructions n := by
    rw [instructions_eq_of_limitReached h hok hstop, RunLimit.left, Nat.add_sub_cancel_left]
  exact hrest ▸ hsplits.limit h hok hstop more

/-- A program that counts in X for ever. -/
def counting : Cpu Ram where
  registers := ⟨0, 0, 0, 0xFF, 0, .powerOn⟩
  clock := .zero
  verbose := false
  memory := ((Ram.zeros 0x0040 (by decide) (by decide)).put 0 0xE8).put 1 0x4C

/-- A budget of one cycle is exceeded by one, and the three cycles that are then left of five take
the program through its jump. A run that a break ends does not use up a larger limit. -/
theorem run_splits_counting :
    (∃ first second, counting.runWithin 1 (.cycles 1) = some first ∧
      first.result = .ok ⟨1, 2, .limitReached⟩ ∧
      first.cpu.runWithin 1 (.cycles 3) = some second ∧
      counting.runWithin 2 (.cycles 5) =
        some (second.following ⟨1, 2, .limitReached⟩ first.events) ∧
      (second.following ⟨1, 2, .limitReached⟩ first.events).result =
        .ok ⟨2, 5, .limitReached⟩) ∧
    ∃ first, idleThenBreak.runWithin 2 (.instructions 2) = some first ∧
      first.result = .ok ⟨2, 9, .breakInstruction⟩ ∧
      idleThenBreak.runWithin 9 (.instructions 7) = some first := by
  constructor
  · have hfirst : (counting.runWithin 1 (.cycles 1)).map RunReport.result =
        some (.ok ⟨1, 2, .limitReached⟩) := by decide +kernel
    have hwhole : (counting.runWithin 2 (.cycles 5)).map RunReport.result =
        some (.ok ⟨2, 5, .limitReached⟩) := by decide +kernel
    obtain ⟨first, hfirst, hok⟩ := Option.map_eq_some_iff.mp hfirst
    obtain ⟨whole, hwhole, hresult⟩ := Option.map_eq_some_iff.mp hwhole
    have hsplit : counting.runWithin 2 (.cycles 5) = (first.cpu.runWithin 1 (.cycles 3)).map
        (·.following ⟨1, 2, .limitReached⟩ first.events) :=
      (run_splits counting 1 4).2.limit hfirst hok rfl 1
    obtain ⟨second, hsecond, hboth⟩ := Option.map_eq_some_iff.mp (hsplit.symm.trans hwhole)
    subst hboth
    exact ⟨first, second, hfirst, hok, hsecond, hwhole, hresult⟩
  · have hfirst : (idleThenBreak.runWithin 2 (.instructions 2)).map RunReport.result =
        some (.ok ⟨2, 9, .breakInstruction⟩) := by decide +kernel
    obtain ⟨first, hfirst, hok⟩ := Option.map_eq_some_iff.mp hfirst
    exact ⟨first, hfirst, hok, (run_splits idleThenBreak 2 5).1.broke hfirst hok rfl 7⟩

end Cpu

end Nmos6502
