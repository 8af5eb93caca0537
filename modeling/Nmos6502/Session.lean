import Nmos6502.Session.Memory
import Nmos6502.Session.Processor

/-!
# Sessions

A session is a list of requests to a processor and its memory, answered one after the other. A
request that fails is answered with its failure and the session goes on, whatever the failure left
behind. Only a series, the same request made several times, ends at the first that fails.

## Main definitions

* `SessionRequest`, `SessionRequest.perform`
* `CpuEntry` — what a session says about one request
* `runCpuSession` — a whole session
-/

namespace Nmos6502

/-- A request of a session. -/
inductive SessionRequest where
  /-- To the memory. -/
  | storage (request : StorageRequest)
  /-- To the processor. -/
  | processor (request : CpuRequest)

/-- Answers a request to a processor or to its memory. -/
def SessionRequest.perform (request : SessionRequest) (cpu : Cpu GuardedRam) :
    Reply (Cpu GuardedRam) :=
  match request with
  | .storage request =>
    let ⟨registers, clock, verbose, memory⟩ := cpu
    let reply := request.perform memory
    ⟨reply.result, ⟨registers, clock, verbose, reply.state⟩, reply.events⟩
  | .processor request => request.perform cpu

/-- What a session with a processor says about one request. -/
structure CpuEntry extends Entry where
  /-- The registers and the clock afterwards. -/
  trace : String
  /-- What was reported, if the processor is verbose afterwards. -/
  events : List Event

/-- What a session says about a reply, given the memory before the request. -/
def Reply.entry (reply : Reply (Cpu GuardedRam)) (before : Ram) : CpuEntry where
  result := reply.result
  changes := before.changes reply.state.memory.ram
  trace := reply.state.traceLine
  events := if reply.state.verbose then reply.events else []

/-- A request that is made several times. -/
structure Series where
  /-- The request. -/
  request : SessionRequest
  /-- How often it is made. -/
  times : Nat

/-- Answers a request `times` times or until it fails. The entries go before those in `said`
(newest first). -/
def SessionRequest.performTimes (request : SessionRequest) :
    (times : Nat) → List CpuEntry → Cpu GuardedRam → List CpuEntry × Cpu GuardedRam
  | 0, said, cpu => (said, cpu)
  | times + 1, said, cpu =>
    let before := cpu.memory.ram
    let reply := request.perform cpu
    let said := reply.entry before :: said
    match reply.result with
    | .ok _ => request.performTimes times said reply.state
    | .error _ => (said, reply.state)

/-- Answers the requests to a processor in order; its last state comes back with the entries. -/
def runCpuSession (requests : List Series) (cpu : Cpu GuardedRam) :
    List CpuEntry × Cpu GuardedRam :=
  let (said, cpu) := requests.foldl
    (fun (said, cpu) series => series.request.performTimes series.times said cpu) ([], cpu)
  (said.reverse, cpu)

end Nmos6502
