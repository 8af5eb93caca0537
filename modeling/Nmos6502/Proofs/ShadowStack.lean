import Mathlib.Data.List.Infix
import Mathlib.Logic.Relation
import Mathlib.Tactic.Common
import Nmos6502.Proofs.Footprint

/-!
# The stack as a list

Page one is used in a circle: a push stores at the stack pointer and counts it down, a pull counts
it up and reads. A program that leaves page one to these operations, never sets the stack pointer
itself and never has more than 256 bytes on the stack, sees a list. The list is the shadow: it grows
by what is pushed, shrinks when bytes are pulled, and knows nothing of addresses.

`Shadowed.Step` is a step that keeps this discipline, together with what it does to the shadow. The
invariant that carries a run is `Ram.Represents`: the stack pointer is as far below its start as the
shadow is long, and the shadow stands in page one above the stack pointer, its top first. Operations
that have nothing to do with the stack keep it by their footprint. The others push and pull, and
there is a lemma for each of the two.

The way back from a subroutine needs a second invariant, that a run which never takes the shadow
below some length leaves the bytes down there alone.

## Main definitions

* `Ram.Holds`, `Ram.Represents` — a list of bytes on the stack
* `Mnemonic.shadow?` — what an operation does to the shadow
* `Shadowed.Step`, `Shadowed.Run`, `Shadowed.RunAbove` — disciplined steps and runs

## Main results

* `Shadowed.Represented.step` — one step keeps the invariant
* `Shadowed.Represented.returns` — a return finds the way back to its call
* `Shadowed.run_represents` — runs of any length, what is pulled, and where subroutines return to
-/

namespace Nmos6502

/-! ## Bytes in page one -/

theorem stackSlot_inj {sp sp' : UInt8} (h : stackSlot sp = stackSlot sp') : sp = sp' := by
  have hlow : ∀ sp, lowByte (stackSlot sp) = sp := forall_byte (by decide +kernel)
  rw [← hlow sp, h, hlow]

/-- Addresses of page one. -/
def inStackPage (address : UInt16) : Prop := 0x0100 ≤ address ∧ address ≤ 0x01FF

theorem inStackPage_stackSlot (sp : UInt8) : inStackPage (stackSlot sp) :=
  forall_byte (p := fun sp => 0x0100 ≤ stackSlot sp ∧ stackSlot sp ≤ 0x01FF) (by decide +kernel) sp

namespace Ram

/-- The bytes of a list stand on the stack above a stack pointer, the top first. -/
def Holds (ram : Ram) (sp : UInt8) (bytes : List UInt8) : Prop :=
  ∀ i (h : i < bytes.length), ram.read (stackSlot (sp + 1 + UInt8.ofNat i)) = .ok bytes[i]

variable {ram : Ram} {sp : UInt8} {bytes : List UInt8}

theorem holds_nil (ram : Ram) (sp : UInt8) : ram.Holds sp [] := by
  intro i h
  cases h

theorem Holds.head {byte : UInt8} (h : ram.Holds sp (byte :: bytes)) :
    ram.read (stackSlot (sp + 1)) = .ok byte := by
  have := h 0 (Nat.zero_lt_succ _)
  rw [show UInt8.ofNat 0 = 0 from rfl, UInt8.add_zero] at this
  exact this

/-- The next place on the stack. -/
theorem next_place (sp : UInt8) (i : Nat) :
    sp + 1 + 1 + UInt8.ofNat i = sp + 1 + UInt8.ofNat (i + 1) := by
  rw [UInt8.ofNat_add, UInt8.add_assoc (sp + 1) 1, UInt8.add_comm 1]
  rfl

theorem Holds.tail {byte : UInt8} (h : ram.Holds sp (byte :: bytes)) :
    ram.Holds (sp + 1) bytes := by
  intro i hi
  rw [next_place]
  exact h (i + 1) (Nat.succ_lt_succ hi)

theorem Holds.cons {byte : UInt8} (hbyte : ram.read (stackSlot sp) = .ok byte)
    (h : ram.Holds sp bytes) : ram.Holds (sp - 1) (byte :: bytes) := by
  intro i hi
  rw [UInt8.sub_add_cancel]
  cases i with
  | zero => simpa using hbyte
  | succ i =>
    rw [UInt8.ofNat_add, UInt8.add_comm (UInt8.ofNat i), ← UInt8.add_assoc]
    exact h i (by simpa using hi)

/-- The list is still there if its bytes are. -/
theorem Holds.frame {after : Ram} (h : ram.Holds sp bytes)
    (hread : ∀ i < bytes.length, after.read (stackSlot (sp + 1 + UInt8.ofNat i)) =
      ram.read (stackSlot (sp + 1 + UInt8.ofNat i))) : after.Holds sp bytes :=
  fun i hi => (hread i hi).trans (h i hi)

/-- The place of the next push is none of the last 255. -/
theorem ne_place {i : Nat} (h : i < 255) (sp : UInt8) : sp + 1 + UInt8.ofNat i ≠ sp := by
  intro he
  have := congrArg UInt8.toNat he
  have := sp.toNat_lt
  simp only [UInt8.toNat_add, UInt8.toNat_ofNat', UInt8.toNat_one] at *
  omega

/-- A push puts a byte before the list, as long as there is room. -/
theorem Holds.push {value : UInt8} (h : ram.Holds sp bytes) (hlen : bytes.length < 256)
    (hr : Bus.refusal? ram (stackSlot sp) value = none) :
    (ram.put (stackSlot sp) value).Holds (sp - 1) (value :: bytes) := by
  refine Holds.cons ?_ (h.frame fun i hi => ?_)
  · rw [read_put_of_accepted hr, if_pos rfl]
  · rw [read_put, if_neg fun he => ne_place (by omega) sp (stackSlot_inj he)]

/-- The top of the list is what a pull finds. -/
theorem Holds.byte_image {byte : UInt8} (h : ram.Holds sp (byte :: bytes)) :
    (Bus.image ram).byte (stackSlot (sp + 1)) = byte :=
  Bus.byte_image_of_read h.head

/-- **The representation of a list.** The stack pointer is as far below its start as the list is
long, and the list stands above it. -/
structure Represents (ram : Ram) (sp start : UInt8) (bytes : List UInt8) : Prop where
  /-- The stack pointer counts the list. -/
  count : sp + UInt8.ofNat bytes.length = start
  /-- The list is in memory. -/
  holds : ram.Holds sp bytes

variable {start : UInt8}

theorem represents_nil (ram : Ram) (sp : UInt8) : ram.Represents sp sp [] :=
  ⟨UInt8.add_zero sp, holds_nil ram sp⟩

theorem Represents.push {value : UInt8} (h : ram.Represents sp start bytes)
    (hlen : bytes.length < 256) (hr : Bus.refusal? ram (stackSlot sp) value = none) :
    (ram.put (stackSlot sp) value).Represents (sp - 1) start (value :: bytes) := by
  refine ⟨?_, h.holds.push hlen hr⟩
  rw [List.length_cons, UInt8.ofNat_add, UInt8.add_comm (UInt8.ofNat _), ← UInt8.add_assoc,
    show UInt8.ofNat 1 = 1 from rfl, UInt8.sub_add_cancel, h.count]

/-- The first of some writes is a push. -/
theorem Represents.writeAll_cons {after : Ram} {value : UInt8} {writes : List (UInt16 × UInt8)}
    (h : ram.Represents sp start bytes) (hlen : bytes.length < 256)
    (hw : Bus.writeAll ram ((stackSlot sp, value) :: writes) = (.ok (), after)) :
    ∃ between : Ram, between.Represents (sp - 1) start (value :: bytes) ∧
      Bus.writeAll between writes = (.ok (), after) := by
  obtain ⟨hr, hrest⟩ := Bus.writeAll_cons_ok.mp hw
  exact ⟨_, h.push hlen hr, hrest⟩

theorem Represents.pull {byte : UInt8} (h : ram.Represents sp start (byte :: bytes)) :
    ram.Represents (sp + 1) start bytes := by
  refine ⟨?_, h.holds.tail⟩
  rw [← h.count, List.length_cons, UInt8.ofNat_add, UInt8.add_comm (UInt8.ofNat _),
    UInt8.add_assoc]
  rfl

theorem Represents.frame {after : Ram} (h : ram.Represents sp start bytes)
    (hread : ∀ sp, after.read (stackSlot sp) = ram.read (stackSlot sp)) :
    after.Represents sp start bytes :=
  ⟨h.count, h.holds.frame fun _ _ => hread _⟩

/-- The list and the start give the stack pointer. -/
theorem Represents.sp_eq (h : ram.Represents sp start bytes) :
    sp = start - UInt8.ofNat bytes.length := by
  rw [← h.count, UInt8.add_sub_cancel]

end Ram

/-! ## Status bytes -/

namespace Status

/-- What is pushed is the byte with bits 4 and 5 set. -/
theorem pushed_eq (status : Status) : status.pushed = status.bits ||| 0x30 := by
  obtain ⟨c, z, i, d, b, u, v, n⟩ := status
  revert c z i d b u v n
  decide +kernel

/-- What is pulled loses bit 4 and has bit 5 set. -/
theorem bits_ofPulled (byte : UInt8) : (ofPulled byte).bits = (byte &&& 0xEF) ||| 0x20 :=
  forall_byte (p := fun byte => (ofPulled byte).bits = (byte &&& 0xEF) ||| 0x20)
    (by decide +kernel) byte

end Status

namespace Operation

variable {opcode : UInt8} {mode : Mode} {cycles : Nat} (registers : Registers) (image : Image)

/-- What an operation on the flags pushes. -/
theorem writes_php : (Operation.effect ⟨.php, mode, cycles⟩ registers image).writes =
    [(stackSlot registers.sp, registers.status.bits ||| 0x30)] := by
  rw [← Status.pushed_eq]
  rfl

/-- What a call pushes: its last byte's address. -/
theorem writes_jsr (ho : operation? opcode = some ⟨.jsr, mode, cycles⟩) :
    (Operation.effect ⟨.jsr, mode, cycles⟩ registers image).writes =
      [(stackSlot registers.sp, highByte (registers.pc + 2)),
        (stackSlot (registers.sp - 1), lowByte (registers.pc + 2))] := by
  have hlast : registers.pc + 2 = registers.pc + 3 - 1 := by
    rw [← pc_add_three, UInt16.add_sub_cancel]
  rw [hlast]
  rcases (Bool.or_eq_true _ _).mp (admits_of_operation? ho) with hm | hm <;>
    · obtain rfl := of_decide_eq_true hm
      rfl

end Operation

/-! ## The shadow -/

/-- The shadow without its top bytes, if it has so many. -/
def popped? (count : Nat) (shadow : List UInt8) : Option (List UInt8) :=
  if count ≤ shadow.length then some (shadow.drop count) else none

/-- The shadow after an operation on registers. A call at address `p` leaves the address of its
last byte, `p + 2`, with the low byte on top. -/
def Mnemonic.shadow? (mnemonic : Mnemonic) (before : Registers) (shadow : List UInt8) :
    Option (List UInt8) :=
  match mnemonic with
  | .pha => some (before.a :: shadow)
  | .php => some ((before.status.bits ||| 0x30) :: shadow)
  | .jsr => some (lowByte (before.pc + 2) :: highByte (before.pc + 2) :: shadow)
  | .pla | .plp => popped? 1 shadow
  | .rts => popped? 2 shadow
  | .rti => popped? 3 shadow
  | _ => some shadow

theorem exists_of_popped? {count : Nat} {shadow after : List UInt8}
    (h : popped? count shadow = some after) :
    ∃ bytes, bytes.length = count ∧ shadow = bytes ++ after := by
  unfold popped? at h
  split at h
  next hle =>
    cases h
    exact ⟨shadow.take count, List.length_take_of_le hle, (List.take_append_drop _ _).symm⟩
  · cases h

theorem popped?_one {shadow after : List UInt8} (h : popped? 1 shadow = some after) :
    ∃ byte, shadow = byte :: after := by
  obtain ⟨bytes, hlen, rfl⟩ := exists_of_popped? h
  obtain ⟨byte, rfl⟩ := List.length_eq_one_iff.mp hlen
  exact ⟨byte, rfl⟩

theorem popped?_two {shadow after : List UInt8} (h : popped? 2 shadow = some after) :
    ∃ low high, shadow = low :: high :: after := by
  obtain ⟨bytes, hlen, rfl⟩ := exists_of_popped? h
  obtain ⟨low, high, rfl⟩ := List.length_eq_two.mp hlen
  exact ⟨low, high, rfl⟩

theorem popped?_three {shadow after : List UInt8} (h : popped? 3 shadow = some after) :
    ∃ byte low high, shadow = byte :: low :: high :: after := by
  obtain ⟨bytes, hlen, rfl⟩ := exists_of_popped? h
  obtain ⟨byte, low, high, rfl⟩ := List.length_eq_three.mp hlen
  exact ⟨byte, low, high, rfl⟩

/-- The shadow changes at its top only. -/
theorem suffix_or_suffix_of_shadow? {mnemonic : Mnemonic} {before : Registers}
    {shadow after : List UInt8} (h : mnemonic.shadow? before shadow = some after) :
    shadow <:+ after ∨ after <:+ shadow := by
  have hpopped : ∀ {count}, popped? count shadow = some after → after <:+ shadow := by
    intro count h
    obtain ⟨bytes, -, rfl⟩ := exists_of_popped? h
    exact List.suffix_append bytes after
  cases mnemonic with
  | pha | php => cases h; exact .inl (List.suffix_cons _ _)
  | jsr => cases h; exact .inl ((List.suffix_cons _ _).trans (List.suffix_cons _ _))
  | pla | plp | rts | rti => exact .inr (hpopped h)
  | _ => cases h; exact .inl (List.suffix_refl _)

/-- A processor, and a list of what its stack should hold. -/
structure Shadowed where
  /-- The processor. -/
  cpu : Cpu Ram
  /-- The list, its top first. -/
  shadow : List UInt8

namespace Shadowed

/-- A step that keeps the discipline of the stack. It executes an operation other than a transfer
to the stack pointer, no store of it goes to page one, and the shadow neither runs out of bytes nor
grows beyond the page. -/
structure Step (before : Shadowed) (mnemonic : Mnemonic) (after : Shadowed) : Prop where
  /-- The operation is executed. -/
  result : before.cpu.step.result = .ok mnemonic
  /-- The processor goes on. -/
  cpu : after.cpu = before.cpu.step.cpu
  /-- The stack pointer is not set. -/
  ne_txs : mnemonic ≠ .txs
  /-- Page one is not stored to. -/
  store : ∀ operation address, before.cpu.next? = some operation →
    operation.mnemonic.operandUse ∈ [.write, .readModifyWrite] →
    operation.mode.effectiveAddress? before.cpu.registers before.cpu.image = some address →
    ¬ inStackPage address
  /-- The shadow goes along. -/
  shadow : mnemonic.shadow? before.cpu.registers before.shadow = some after.shadow
  /-- The shadow fits into page one. -/
  length_le : after.shadow.length ≤ 256

/-- Disciplined steps, one after the other. -/
def Run : Shadowed → Shadowed → Prop :=
  Relation.ReflTransGen fun before after => ∃ mnemonic, before.Step mnemonic after

/-- A run that never takes the shadow below a length. -/
def RunAbove (floor : Nat) : Shadowed → Shadowed → Prop :=
  Relation.ReflTransGen fun before after =>
    (∃ mnemonic, before.Step mnemonic after) ∧ floor ≤ after.shadow.length

theorem RunAbove.run {floor : Nat} {before after : Shadowed} (h : RunAbove floor before after) :
    Run before after :=
  Relation.ReflTransGen.mono (fun _ _ h => h.1) _ _ h

/-- What stands below the floor stays. -/
theorem RunAbove.suffix {base : List UInt8} {before after : Shadowed}
    (h : RunAbove base.length before after) (hbase : base <:+ before.shadow) :
    base <:+ after.shadow := by
  induction h with
  | refl => exact hbase
  | tail _ hstep ih =>
    obtain ⟨⟨mnemonic, hs⟩, hfloor⟩ := hstep
    rcases suffix_or_suffix_of_shadow? hs.shadow with hgrown | hshrunk
    · exact ih.trans hgrown
    · exact List.suffix_of_suffix_length_le ih hshrunk hfloor

/-! ## The invariant -/

/-- **The invariant.** Memory and the stack pointer represent the shadow. -/
def Represented (start : UInt8) (state : Shadowed) : Prop :=
  state.cpu.memory.Represents state.cpu.registers.sp start state.shadow

variable {before after : Shadowed} {mnemonic : Mnemonic}

/-- Operations that have nothing to do with the stack leave it alone. -/
theorem Step.frame (hs : before.Step mnemonic after)
    (hm : mnemonic ∉ [.pha, .php, .pla, .plp, .jsr, .rts, .rti]) :
    after.cpu.registers.sp = before.cpu.registers.sp ∧ after.shadow = before.shadow ∧
      ∀ sp, after.cpu.memory.read (stackSlot sp) = before.cpu.memory.read (stackSlot sp) := by
  obtain ⟨operation, hnext, rfl, -, hmemory, hcells⟩ := Cpu.step_footprint hs.result
  have hstore := hs.store operation
  have hne := hs.ne_txs
  have hshadow := hs.shadow
  rw [hs.cpu]
  obtain ⟨mnemonic, mode, cycles⟩ := operation
  refine ⟨hcells .sp ?_, ?_, fun sp => hmemory _ fun hin => ?_⟩
  · simp_all [Operation.mayChange]
  · cases mnemonic with
    | pha | php | pla | plp | jsr | rts | rti => simp at hm
    | _ => exact (Option.some.inj hshadow).symm
  · have heffective := hstore (stackSlot sp) hnext
    cases mnemonic with
    | pha | php | jsr => simp at hm
    | sta | stx | sty | inc | dec | asl | lsr | rol | ror =>
      exact heffective (by simp [Mnemonic.operandUse]) (Option.mem_toList.mp hin)
        (inStackPage_stackSlot sp)
    | _ => cases hin

section Effect

variable {operation : Operation} (hs : before.Step mnemonic after)
  (hx : before.cpu.Executes operation)

include hs hx

/-- It is enough to look at the effect. -/
theorem Step.represented_of_effect {start sp : UInt8}
    (hsp : (before.cpu.effect operation).registers.sp = sp)
    (h : after.cpu.memory.Represents sp start after.shadow) : after.Represented start := by
  rw [← hsp, ← hx.registers, ← hs.cpu] at h
  exact h

theorem Step.memory_of_writes_nil (hw : (before.cpu.effect operation).writes = []) :
    after.cpu.memory = before.cpu.memory := by
  have hnone := hx.writeAll
  rw [hw, ← hs.cpu] at hnone
  exact (congrArg Prod.snd hnone).symm

end Effect

/-- **One step keeps the invariant.** -/
theorem Represented.step {start : UInt8} (h : before.Represented start)
    (hs : before.Step mnemonic after) : after.Represented start := by
  obtain ⟨operation, rfl, hx⟩ := Cpu.exists_executes hs.result
  obtain ⟨opcode, -, ho⟩ := Cpu.exists_opcode_of_next? hx.next
  have hwrites := hx.writeAll
  have hshadow := hs.shadow
  have hlen := hs.length_le
  obtain ⟨cpu, shadow⟩ := after
  obtain rfl : cpu = before.cpu.step.cpu := hs.cpu
  obtain ⟨mnemonic, mode, cycles⟩ := operation
  cases mnemonic with
  | pha =>
    cases hshadow
    obtain ⟨between, hpushed, hdone⟩ := h.writeAll_cons hlen hwrites
    cases hdone
    exact hs.represented_of_effect hx rfl hpushed
  | php =>
    cases hshadow
    rw [Cpu.effect, Operation.writes_php] at hwrites
    obtain ⟨between, hpushed, hdone⟩ := h.writeAll_cons hlen hwrites
    cases hdone
    exact hs.represented_of_effect hx rfl hpushed
  | jsr =>
    cases hshadow
    rw [Cpu.effect, Operation.writes_jsr _ _ ho] at hwrites
    obtain ⟨between, hhigh, hrest⟩ := h.writeAll_cons (Nat.lt_of_succ_lt hlen) hwrites
    obtain ⟨between, hlow, hdone⟩ := hhigh.writeAll_cons hlen hrest
    cases hdone
    exact hs.represented_of_effect hx rfl hlow
  | pla | plp =>
    obtain ⟨byte, hlist⟩ := popped?_one hshadow
    rw [Represented, hlist, ← hs.memory_of_writes_nil hx rfl] at h
    exact hs.represented_of_effect hx rfl h.pull
  | rts =>
    obtain ⟨low, high, hlist⟩ := popped?_two hshadow
    rw [Represented, hlist, ← hs.memory_of_writes_nil hx rfl] at h
    exact hs.represented_of_effect hx rfl h.pull.pull
  | rti =>
    obtain ⟨byte, low, high, hlist⟩ := popped?_three hshadow
    rw [Represented, hlist, ← hs.memory_of_writes_nil hx rfl] at h
    exact hs.represented_of_effect hx rfl h.pull.pull.pull
  | _ =>
    obtain ⟨hsp, hlist, hread⟩ := hs.frame (by simp)
    rw [Represented, hsp, hlist]
    exact h.frame hread

/-- A run keeps the invariant. -/
theorem Represented.run {start : UInt8} (h : before.Represented start) (run : Run before after) :
    after.Represented start := by
  induction run with
  | refl => exact h
  | tail _ hstep ih =>
    obtain ⟨mnemonic, hs⟩ := hstep
    exact ih.step hs

theorem represented_of_shadow_nil {state : Shadowed} (hempty : state.shadow = []) :
    state.Represented state.cpu.registers.sp := by
  rw [Represented, hempty]
  exact Ram.represents_nil _ _

/-! ## What is pulled -/

/-- The registers after a step are those of the effect. -/
theorem Step.registers (hs : before.Step mnemonic after) :
    ∃ mode cycles, after.cpu.registers =
      (before.cpu.effect ⟨mnemonic, mode, cycles⟩).registers := by
  obtain ⟨⟨mnemonic, mode, cycles⟩, rfl, hx⟩ := Cpu.exists_executes hs.result
  exact ⟨mode, cycles, hs.cpu ▸ hx.registers⟩

section Pulled

variable {start : UInt8} (h : before.Represented start)

include h

theorem Represented.pla (hs : before.Step .pla after) :
    ∃ byte, before.shadow = byte :: after.shadow ∧ after.cpu.registers.a = byte := by
  obtain ⟨byte, hlist⟩ := popped?_one hs.shadow
  obtain ⟨mode, cycles, hregisters⟩ := hs.registers
  rw [Represented, hlist] at h
  refine ⟨byte, hlist, ?_⟩
  rw [hregisters, ← h.holds.byte_image]
  rfl

theorem Represented.plp (hs : before.Step .plp after) :
    ∃ byte, before.shadow = byte :: after.shadow ∧
      after.cpu.registers.status.bits = (byte &&& 0xEF) ||| 0x20 := by
  obtain ⟨byte, hlist⟩ := popped?_one hs.shadow
  obtain ⟨mode, cycles, hregisters⟩ := hs.registers
  rw [Represented, hlist] at h
  refine ⟨byte, hlist, ?_⟩
  rw [hregisters, ← Status.bits_ofPulled, ← h.holds.byte_image]
  rfl

theorem Represented.rts (hs : before.Step .rts after) :
    ∃ low high, before.shadow = low :: high :: after.shadow ∧
      after.cpu.registers.pc = word low high + 1 := by
  obtain ⟨low, high, hlist⟩ := popped?_two hs.shadow
  obtain ⟨mode, cycles, hregisters⟩ := hs.registers
  rw [Represented, hlist] at h
  refine ⟨low, high, hlist, ?_⟩
  rw [hregisters, ← h.holds.byte_image, ← h.pull.holds.byte_image]
  rfl

theorem Represented.rti (hs : before.Step .rti after) :
    ∃ byte low high, before.shadow = byte :: low :: high :: after.shadow ∧
      after.cpu.registers.status.bits = (byte &&& 0xEF) ||| 0x20 ∧
      after.cpu.registers.pc = word low high := by
  obtain ⟨byte, low, high, hlist⟩ := popped?_three hs.shadow
  obtain ⟨mode, cycles, hregisters⟩ := hs.registers
  rw [Represented, hlist] at h
  refine ⟨byte, low, high, hlist, ?_, ?_⟩
  · rw [hregisters, ← Status.bits_ofPulled, ← h.holds.byte_image]
    rfl
  · rw [hregisters, ← h.pull.holds.byte_image, ← h.pull.pull.holds.byte_image]
    rfl

/-- A return that finds the shadow as the call left it goes to the instruction after the call. -/
theorem Represented.returns {called last returned : Shadowed} (hcall : before.Step .jsr called)
    (hrun : RunAbove called.shadow.length called last)
    (hlen : last.shadow.length = called.shadow.length) (hreturn : last.Step .rts returned) :
    returned.cpu.registers.pc = before.cpu.registers.pc + 3 ∧ returned.shadow = before.shadow := by
  obtain ⟨low, high, hlist, hpc⟩ := ((h.step hcall).run hrun.run).rts hreturn
  have hsame : called.shadow = last.shadow :=
    (hrun.suffix (List.suffix_refl _)).eq_of_length hlen.symm
  have hpushed : _ :: _ :: before.shadow = called.shadow := Option.some.inj hcall.shadow
  rw [hsame, hlist, List.cons.injEq, List.cons.injEq] at hpushed
  obtain ⟨rfl, rfl, hrest⟩ := hpushed
  rw [hpc, word_lowByte_highByte, pc_add_three]
  exact ⟨rfl, hrest.symm⟩

end Pulled

/-- **The stack is a list.** Along a run that began with an empty shadow the stack pointer counts
the shadow and page one holds it, so every pull finds the shadow's top bytes. The return that
belongs to a call goes to the instruction after it, whatever has been called in between. -/
theorem run_represents {start now : Shadowed} (hempty : start.shadow = []) (run : Run start now) :
    now.cpu.registers.sp = start.cpu.registers.sp - UInt8.ofNat now.shadow.length ∧
    (∀ i (h : i < now.shadow.length),
      now.cpu.memory.read (0x0100 ||| (now.cpu.registers.sp + 1 + UInt8.ofNat i).toUInt16) =
        .ok now.shadow[i]) ∧
    ∀ next,
      (now.Step .pla next → ∃ byte, now.shadow = byte :: next.shadow ∧
        next.cpu.registers.a = byte) ∧
      (now.Step .plp next → ∃ byte, now.shadow = byte :: next.shadow ∧
        next.cpu.registers.status.bits = (byte &&& 0xEF) ||| 0x20) ∧
      (now.Step .rts next → ∃ low high, now.shadow = low :: high :: next.shadow ∧
        next.cpu.registers.pc = word low high + 1) ∧
      (now.Step .rti next → ∃ byte low high, now.shadow = byte :: low :: high :: next.shadow ∧
        next.cpu.registers.status.bits = (byte &&& 0xEF) ||| 0x20 ∧
        next.cpu.registers.pc = word low high) ∧
      (now.Step .jsr next → ∀ last returned, RunAbove next.shadow.length next last →
        last.shadow.length = next.shadow.length → last.Step .rts returned →
        returned.cpu.registers.pc = now.cpu.registers.pc + 3 ∧
          returned.shadow = now.shadow) := by
  have h := (represented_of_shadow_nil hempty).run run
  exact ⟨h.sp_eq, h.holds, fun next => ⟨h.pla, h.plp, h.rts, h.rti,
    fun hcall last returned hrun hlen => h.returns hcall hrun hlen⟩⟩

/-- A step of an operation that has no operand in memory. -/
theorem step_of_unused (operation : Operation) {shadow : List UInt8}
    (hresult : before.cpu.step.result = .ok operation.mnemonic)
    (hnext : before.cpu.next? = some operation)
    (hmnemonic : operation.mnemonic.operandUse = .unused ∧ operation.mnemonic ≠ .txs)
    (hshadow : operation.mnemonic.shadow? before.cpu.registers before.shadow = some shadow)
    (hlen : shadow.length ≤ 256) :
    before.Step operation.mnemonic ⟨before.cpu.step.cpu, shadow⟩ := by
  refine ⟨hresult, rfl, hmnemonic.2, ?_, hshadow, hlen⟩
  intro other address hother huse
  cases Option.some.inj (hnext.symm.trans hother)
  simp [hmnemonic.1] at huse

/-- A call at address 0 to a subroutine at `$0010` that pushes the accumulator, pulls it and
returns. The stack pointer is at the lower end of page one. -/
def calling : Shadowed where
  cpu := {
    registers := ⟨0x42, 0, 0, 0x00, 0, .powerOn⟩
    clock := .zero
    verbose := false
    memory := (((((Ram.zeros 0x0300 (by decide) (by decide)).put 0 0x20).put 1 0x10).put
      0x10 0x48).put 0x11 0x68).put 0x12 0x60 }
  shadow := []

/-- In the subroutine. -/
def called : Shadowed := ⟨calling.cpu.step.cpu, [0x02, 0x00]⟩

/-- After the push. -/
def saved : Shadowed := ⟨called.cpu.step.cpu, [0x42, 0x02, 0x00]⟩

/-- After the pull. -/
def restored : Shadowed := ⟨saved.cpu.step.cpu, [0x02, 0x00]⟩

/-- Back from the subroutine. -/
def returned : Shadowed := ⟨restored.cpu.step.cpu, []⟩

theorem run_represents_calling :
    saved.cpu.registers.sp = 0xFD ∧
    saved.cpu.memory.read 0x01FF = .ok 0x02 ∧
    saved.cpu.memory.read 0x0100 = .ok 0x00 ∧
    restored.cpu.registers.a = 0x42 ∧
    returned.cpu.registers.pc = 0x0003 := by
  have hcall : calling.Step .jsr called :=
    step_of_unused ⟨.jsr, .absolute, 6⟩ (by decide +kernel) (by decide +kernel)
      (by decide) (by decide +kernel) (by decide)
  have hpush : called.Step .pha saved :=
    step_of_unused ⟨.pha, .implied, 3⟩ (by decide +kernel) (by decide +kernel)
      (by decide) (by decide +kernel) (by decide)
  have hpull : saved.Step .pla restored :=
    step_of_unused ⟨.pla, .implied, 4⟩ (by decide +kernel) (by decide +kernel)
      (by decide) (by decide +kernel) (by decide)
  have hreturn : restored.Step .rts returned :=
    step_of_unused ⟨.rts, .implied, 6⟩ (by decide +kernel) (by decide +kernel)
      (by decide) (by decide +kernel) (by decide)
  have hbody : RunAbove called.shadow.length called restored :=
    (Relation.ReflTransGen.single ⟨⟨_, hpush⟩, by decide⟩).tail ⟨⟨_, hpull⟩, by decide⟩
  have hrun : Run calling saved := (Relation.ReflTransGen.single ⟨_, hcall⟩).tail ⟨_, hpush⟩
  obtain ⟨hsp, hread, hnext⟩ := run_represents rfl hrun
  obtain ⟨-, -, hfrom⟩ := run_represents rfl (Relation.ReflTransGen.refl : Run calling calling)
  have hsp : saved.cpu.registers.sp = 0xFD := hsp
  have hlow := hread 1 (by decide)
  have hhigh := hread 2 (by decide)
  rw [hsp] at hlow hhigh
  obtain ⟨byte, hlist, ha⟩ := (hnext restored).1 hpull
  cases hlist
  exact ⟨hsp, hlow, hhigh, ha, ((hfrom called).2.2.2.2 hcall _ _ hbody rfl hreturn).1⟩

end Shadowed

end Nmos6502
