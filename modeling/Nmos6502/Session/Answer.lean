import Nmos6502.Cpu.Run
import Nmos6502.Listing

/-!
# Answers

What can come back from a request to a memory or a processor. A failure is part of the reply and not
the end of it: the state it left behind is there as well.

## Main definitions

* `Answer`, `Failure` — the outcome
* `Reply` — the outcome, the state afterwards, and what was reported
-/

namespace Nmos6502

/-- What a request can be answered with. -/
inductive Answer where
  /-- It is done. -/
  | done
  /-- A number. -/
  | number (n : Nat)
  /-- Some numbers. -/
  | numbers (ns : List Nat)
  /-- A text. -/
  | text (text : String)
  /-- Some stretches of bytes. -/
  | bytes (stretches : List (List UInt8))
  /-- An instruction. -/
  | instruction (instruction : Instruction)
  /-- A listing. -/
  | lines (lines : List Line)
  /-- The operation that was executed. -/
  | mnemonic (mnemonic : Mnemonic)
  /-- What a run did. -/
  | summary (summary : RunSummary)
  /-- A configuration. -/
  | config (config : Config)
  /-- The registers and the cycles. -/
  | registers (registers : Registers) (cycles : Nat)
  /-- A status. -/
  | status (status : Status)
  deriving DecidableEq

/-- Why a request failed. -/
inductive Failure where
  /-- Memory refused it. -/
  | memory (cause : OutOfBounds)
  /-- An instruction could not be decoded or executed. -/
  | fault (fault : Fault)
  /-- A run did not come to its end. -/
  | endless
  deriving DecidableEq

/-- The wording of a failure. -/
def Failure.message : Failure → String
  | .memory cause => cause.message
  | .fault cause => cause.message
  | .endless => "the run does not end"

/-- What came of a request. -/
structure Reply (S : Type) where
  /-- The answer, or the failure. -/
  result : Except Failure Answer
  /-- The memory or processor afterwards. -/
  state : S
  /-- What was reported. -/
  events : List Event

end Nmos6502
