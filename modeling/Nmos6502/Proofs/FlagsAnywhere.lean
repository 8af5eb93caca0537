import Mathlib.Tactic.Common
import Nmos6502.CommandLine

/-!
# Flags anywhere on the command line

The command line is read from left to right, and what is no flag is put aside until all has been
read. So it does not matter where the flags stand: the other arguments make the command, and the
flags say how it is done. A flag for a limit takes the argument after it along, whatever that looks
like, so a flag and its count are one piece that nothing can come between. The last limit counts.

A request for help ends the reading, and with it the process. An address or a program is looked at
only when all arguments have been read, so a malformed one does not stand in the way.

An induction over the pieces of the command line shows what has been read of them, and which command
that makes is told apart by the number of arguments that are left.

## Main definitions

* `SpellsCount` — the texts that are counts of 64 bits
* `CommandFlag`, `CommandFlag.words` — a flag, and the arguments it takes up
* `Interleaves` — plain arguments with flags put between them
* `Calls`, `Malformed` — what plain arguments ask for

## Main results

* `parseCount_eq_ok_iff` — which counts are read
* `Interleaves.parseFlags_eq` — what is read of the command line
* `flags_anywhere` — what the command line asks for, wherever the flags stand
-/

namespace Nmos6502

/-! ## Counts -/

/-- A text spells a count of 64 bits: decimal digits, perhaps after a plus sign. -/
def SpellsCount (text : List Char) (count : Nat) : Prop :=
  ∃ sign digits, text = sign ++ digits ∧ (sign = [] ∨ sign = ['+']) ∧ digits ≠ [] ∧
    (∀ c ∈ digits, c.isDigit = true) ∧ Nat.ofDigitChars 10 digits 0 = count ∧ count ≤ maxCount

/-- A number does not become smaller when digits are added. -/
theorem le_ofDigitChars (digits : List Char) (value : Nat) :
    value ≤ Nat.ofDigitChars 10 digits value := by
  induction digits generalizing value with
  | nil => simp
  | cons c digits ih =>
    rw [Nat.ofDigitChars_cons]
    exact Nat.le_trans (by omega) (ih _)

theorem parseCountDigits_eq_ok_iff {value count : Nat} {text : List Char}
    (hvalue : value ≤ maxCount) :
    parseCountDigits value text = .ok count ↔
      (∀ c ∈ text, c.isDigit = true) ∧ Nat.ofDigitChars 10 text value = count ∧
        count ≤ maxCount := by
  induction text generalizing value with
  | nil =>
    simp only [parseCountDigits, Except.ok.injEq, List.not_mem_nil, false_implies, implies_true,
      Nat.ofDigitChars_nil, true_and]
    exact ⟨fun h => ⟨h, h ▸ hvalue⟩, And.left⟩
  | cons c text ih =>
    rw [parseCountDigits, List.forall_mem_cons, Nat.ofDigitChars_cons]
    by_cases hc : c.isDigit = true
    · rw [if_pos hc]
      by_cases hbeyond : maxCount < 10 * value + (c.toNat - '0'.toNat)
      · -- The digits that have not been read cannot make the count fit again.
        simp only [hbeyond, if_true, reduceCtorEq, false_iff, not_and]
        rintro - rfl
        exact Nat.not_le.mpr (Nat.lt_of_lt_of_le hbeyond (le_ofDigitChars text _))
      · simp only [hbeyond, if_false, ih (Nat.not_lt.mp hbeyond), hc, true_and]
    · simp [hc]

/-- **The counts that are read.** -/
theorem parseCount_eq_ok_iff {text : List Char} {count : Nat} :
    parseCount text = .ok count ↔ SpellsCount text count := by
  have hplus : '+'.isDigit = false := by decide
  constructor
  · intro h
    unfold parseCount at h
    split at h
    next => cases h
    next => cases h
    next digits hdigits =>
      exact ⟨['+'], digits, rfl, .inr rfl, fun hnone => hdigits (hnone ▸ rfl),
        (parseCountDigits_eq_ok_iff (Nat.zero_le _)).mp h⟩
    next hnone _ _ =>
      exact ⟨[], text, rfl, .inl rfl, hnone, (parseCountDigits_eq_ok_iff (Nat.zero_le _)).mp h⟩
  · rintro ⟨sign, digits, rfl, hsign, hsome, hdigits⟩
    have hread : parseCountDigits 0 digits = .ok count :=
      (parseCountDigits_eq_ok_iff (Nat.zero_le _)).mpr hdigits
    obtain ⟨c, later, rfl⟩ := List.exists_cons_of_ne_nil hsome
    rcases hsign with rfl | rfl
    · have hc : c ≠ '+' := by
        rintro rfl
        exact absurd (hdigits.1 _ (List.mem_cons_self ..)) (by rw [hplus]; decide)
      simpa [parseCount, hc] using hread
    · simpa [parseCount] using hread

/-! ## Flags between arguments -/

/-- The words that stand for flags. -/
def flagWords : List String := ["-v", "--verbose", "--max-instructions", "-h", "--help"]

/-- A flag as it is written. -/
inductive CommandFlag where
  /-- The process is to be verbose. -/
  | verbose (word : String) (mem : word ∈ ["-v", "--verbose"])
  /-- A limit, with the text of the count. -/
  | limit (text : String) (count : Nat) (spelled : SpellsCount text.toList count)
  /-- A request for help. -/
  | help (word : String) (mem : word ∈ ["-h", "--help"])

namespace CommandFlag

/-- The arguments that a flag takes up. -/
def words : CommandFlag → List String
  | .verbose word _ => [word]
  | .limit text _ _ => ["--max-instructions", text]
  | .help word _ => [word]

/-- Whether a flag makes the process verbose. -/
def isVerbose : CommandFlag → Bool
  | .verbose _ _ => true
  | _ => false

/-- Whether a flag asks for help. -/
def isHelp : CommandFlag → Bool
  | .help _ _ => true
  | _ => false

/-- The count of a limit. -/
def count? : CommandFlag → Option Nat
  | .limit _ count _ => some count
  | _ => none

end CommandFlag

/-- The last of the limits, if there is one. -/
def lastCount? (flags : List CommandFlag) : Option Nat :=
  (flags.filterMap CommandFlag.count?).getLast?

theorem lastCount?_cons (flag : CommandFlag) (flags : List CommandFlag) :
    lastCount? (flag :: flags) = (lastCount? flags).or flag.count? := by
  rw [lastCount?, lastCount?, List.filterMap_cons]
  cases flag.count? with
  | none => simp
  | some count =>
    rw [List.getLast?_cons]
    cases (flags.filterMap CommandFlag.count?).getLast? <;> rfl

/-- Arguments are some plain ones, in their order, and some flags, in their order, put between
them. -/
inductive Interleaves : (plain : List String) → List CommandFlag → (arguments : List String) → Prop
  /-- There are no arguments. -/
  | nil : Interleaves [] [] []
  /-- A plain argument comes next. -/
  | plain {argument : String} {plain arguments : List String} {flags : List CommandFlag}
    (noFlag : argument ∉ flagWords) (later : Interleaves plain flags arguments) :
    Interleaves (argument :: plain) flags (argument :: arguments)
  /-- A flag comes next. -/
  | flag (flag : CommandFlag) {plain arguments : List String} {flags : List CommandFlag}
    (later : Interleaves plain flags arguments) :
    Interleaves plain (flag :: flags) (flag.words ++ arguments)

/-! ## What is read -/

theorem parseFlags_plain {argument : String} (h : argument ∉ flagWords) (read : Arguments)
    (arguments : List String) :
    parseFlags read (argument :: arguments) =
      parseFlags { read with positional := argument :: read.positional } arguments := by
  simp only [flagWords, List.mem_cons, List.not_mem_nil, or_false, not_or] at h
  obtain ⟨hv, hverbose, hlimit, hh, hhelp⟩ := h
  rw [parseFlags.eq_def]
  simp only [hv, hverbose, hlimit, hh, hhelp, or_self, if_false]

/-- A flag changes one field of what has been read, or ends the reading. -/
theorem parseFlags_words (flag : CommandFlag) (read : Arguments) (arguments : List String) :
    parseFlags read (flag.words ++ arguments) =
      if flag.isHelp then .ok none
      else parseFlags { read with
        verbose := flag.isVerbose || read.verbose
        maxInstructions := flag.count?.or read.maxInstructions } arguments := by
  cases flag with
  | verbose word mem =>
    rw [CommandFlag.words, List.singleton_append, parseFlags.eq_def]
    simp only [if_pos (show word = "-v" ∨ word = "--verbose" by simpa using mem)]
    rfl
  | limit text count spelled =>
    rw [CommandFlag.words, List.cons_append, List.singleton_append, parseFlags, if_neg (by decide),
      if_pos rfl]
    simp only [parseCount_eq_ok_iff.mpr spelled]
    rfl
  | help word mem =>
    rw [CommandFlag.words, List.singleton_append, parseFlags.eq_def]
    have hword : word = "-h" ∨ word = "--help" := by simpa using mem
    rcases hword with rfl | rfl <;> rfl

/-- **What is read of the command line.** -/
theorem Interleaves.parseFlags_eq {plain arguments : List String} {flags : List CommandFlag}
    (h : Interleaves plain flags arguments) (read : Arguments) :
    parseFlags read arguments = .ok (if flags.any CommandFlag.isHelp then none
      else some {
        verbose := flags.any CommandFlag.isVerbose || read.verbose
        maxInstructions := (lastCount? flags).or read.maxInstructions
        positional := plain.reverse ++ read.positional }) := by
  induction h generalizing read with
  | nil => rfl
  | @plain argument plain arguments flags noFlag _ ih =>
    rw [parseFlags_plain noFlag, ih, List.reverse_cons, List.append_assoc]
    rfl
  | @flag flag plain arguments flags _ ih =>
    rw [parseFlags_words, ih, List.any_cons, List.any_cons, lastCount?_cons]
    cases flag.isHelp with
    | true => rfl
    | false => simp [Option.or_assoc, Bool.or_left_comm, Bool.or_assoc]

/-! ## What the plain arguments ask for -/

/-- The arguments are the name of a command that takes an address and a program, and these two. -/
def TakesProgram (name start bytes : String) (plain : List String) : Prop :=
  plain = [name, start, bytes] ∧ (name = "disasm" ∨ name = "run")

/-- The command that plain arguments call for. -/
inductive Calls (verbose : Bool) (limit : Option Nat) : (plain : List String) → Command → Prop
  /-- A listing. -/
  | disassemble {start bytes : String} {address : UInt16} {program : List UInt8}
    (hstart : parseAddress start = .ok address) (hbytes : parseBytes bytes = .ok program) :
    Calls verbose limit ["disasm", start, bytes] (.disassemble address program verbose)
  /-- A run. -/
  | run {start bytes : String} {address : UInt16} {program : List UInt8}
    (hstart : parseAddress start = .ok address) (hbytes : parseBytes bytes = .ok program) :
    Calls verbose limit ["run", start, bytes] (.run address program verbose limit)
  /-- The table of opcodes. -/
  | opcodes : Calls verbose limit ["opcodes"] .opcodes
  /-- Anything else makes no command. -/
  | usage {plain : List String}
    (hprogram : ∀ name start bytes, ¬ TakesProgram name start bytes plain)
    (hopcodes : plain ≠ ["opcodes"]) : Calls verbose limit plain .usage

/-- Plain arguments call for a command with an address and a program, and one of these has a
fault. -/
def Malformed (plain : List String) (fault : ArgumentFault) : Prop :=
  ∃ name start bytes cause, TakesProgram name start bytes plain ∧ fault = .hex cause ∧
    (parseAddress start = .error cause ∨
      (∃ address, parseAddress start = .ok address) ∧ parseBytes bytes = .error cause)

section Commands

variable {verbose : Bool} {limit : Option Nat} {plain : List String}

theorem parseProgram_of_ok {start bytes : String} {address : UInt16} {program : List UInt8}
    (hstart : parseAddress start = .ok address) (hbytes : parseBytes bytes = .ok program) :
    parseProgram start bytes = .ok (address, program) := by
  simp only [parseProgram, hstart, hbytes]

theorem parseProgram_of_error {start bytes : String} {cause : HexFault}
    (h : parseAddress start = .error cause ∨
      (∃ address, parseAddress start = .ok address) ∧ parseBytes bytes = .error cause) :
    parseProgram start bytes = .error (.hex cause) := by
  rcases h with hstart | ⟨⟨address, hstart⟩, hbytes⟩
  · simp only [parseProgram, hstart]
  · simp only [parseProgram, hstart, hbytes]

theorem Calls.commandOf_eq {command : Command} (h : Calls verbose limit plain command) :
    commandOf verbose limit plain = .ok command := by
  cases h with
  | disassemble hstart hbytes =>
    rw [commandOf, if_pos rfl, parseProgram_of_ok hstart hbytes]
    rfl
  | run hstart hbytes =>
    rw [commandOf, if_neg (by decide), if_pos rfl, parseProgram_of_ok hstart hbytes]
    rfl
  | opcodes => rfl
  | usage hprogram hopcodes =>
    unfold commandOf
    split
    next name start bytes =>
      have hname := not_and.mp (hprogram name start bytes) rfl
      rw [not_or] at hname
      rw [if_neg hname.1, if_neg hname.2]
    next name =>
      have hname : name ≠ "opcodes" := fun hsame => hopcodes (hsame ▸ rfl)
      rw [if_neg hname]
    next => rfl

theorem Malformed.commandOf_eq {fault : ArgumentFault} (h : Malformed plain fault) :
    commandOf verbose limit plain = .error fault := by
  obtain ⟨name, start, bytes, cause, ⟨rfl, hname⟩, rfl, hcause⟩ := h
  have hprogram := parseProgram_of_error hcause
  rcases hname with rfl | rfl
  · rw [commandOf, if_pos rfl, hprogram]
    rfl
  · rw [commandOf, if_neg (by decide), if_pos rfl, hprogram]
    rfl

/-- Plain arguments call for a command, or they are malformed. -/
theorem calls_or_malformed (verbose : Bool) (limit : Option Nat) (plain : List String) :
    (∃ command, Calls verbose limit plain command) ∨ ∃ fault, Malformed plain fault := by
  by_cases hprogram : ∃ name start bytes, TakesProgram name start bytes plain
  · obtain ⟨name, start, bytes, rfl, hname⟩ := hprogram
    cases hstart : parseAddress start with
    | error cause => exact .inr ⟨_, name, start, bytes, cause, ⟨rfl, hname⟩, rfl, .inl hstart⟩
    | ok address =>
      cases hbytes : parseBytes bytes with
      | error cause =>
        exact .inr ⟨_, name, start, bytes, cause, ⟨rfl, hname⟩, rfl,
          .inr ⟨⟨address, hstart⟩, hbytes⟩⟩
      | ok program =>
        rcases hname with rfl | rfl
        · exact .inl ⟨_, .disassemble hstart hbytes⟩
        · exact .inl ⟨_, .run hstart hbytes⟩
  · by_cases hopcodes : plain = ["opcodes"]
    · subst hopcodes
      exact .inl ⟨_, .opcodes⟩
    · exact .inl ⟨_, .usage (fun name start bytes h => hprogram ⟨name, start, bytes, h⟩) hopcodes⟩

theorem commandOf_eq_ok_iff {command : Command} :
    commandOf verbose limit plain = .ok command ↔ Calls verbose limit plain command := by
  refine ⟨fun h => ?_, Calls.commandOf_eq⟩
  rcases calls_or_malformed verbose limit plain with ⟨called, hcalled⟩ | ⟨fault, hfault⟩
  · rw [hcalled.commandOf_eq] at h
    exact Except.ok.inj h ▸ hcalled
  · rw [hfault.commandOf_eq] at h
    cases h

theorem commandOf_eq_error_iff {fault : ArgumentFault} :
    commandOf verbose limit plain = .error fault ↔ Malformed plain fault := by
  refine ⟨fun h => ?_, Malformed.commandOf_eq⟩
  rcases calls_or_malformed verbose limit plain with ⟨called, hcalled⟩ | ⟨found, hfound⟩
  · rw [hcalled.commandOf_eq] at h
    cases h
  · rw [hfound.commandOf_eq] at h
    exact Except.error.inj h ▸ hfound

end Commands

/-! ## What the command line asks for -/

theorem Interleaves.parseArguments_eq {plain arguments : List String} {flags : List CommandFlag}
    (h : Interleaves plain flags arguments) :
    parseArguments arguments =
      if flags.any CommandFlag.isHelp then .ok .usage
      else commandOf (flags.any CommandFlag.isVerbose) (lastCount? flags) plain := by
  rw [parseArguments, h.parseFlags_eq]
  cases flags.any CommandFlag.isHelp with
  | true => rfl
  | false => simp

/-- **Flags anywhere.** Let some flags be put between plain arguments, in any places, where a flag
for a limit takes the text of a count along. If none of the flags asks for help, what is asked for
is what the plain arguments call for, and there is a fault if and only if these call for a command
whose address or program has one. The command is verbose if one of the flags says so, and the last
limit counts. If one of the flags asks for help, the usage is shown, whatever else there is. -/
theorem flags_anywhere {plain arguments : List String} {flags : List CommandFlag}
    (h : Interleaves plain flags arguments) :
    ((∀ flag ∈ flags, flag.isHelp = false) → ∃ verbose limit,
      (verbose = true ↔ ∃ flag ∈ flags, flag.isVerbose = true) ∧
      limit = (flags.filterMap CommandFlag.count?).getLast? ∧
      (∀ command, parseArguments arguments = .ok command ↔ Calls verbose limit plain command) ∧
      ∀ fault, parseArguments arguments = .error fault ↔ Malformed plain fault) ∧
    ((∃ flag ∈ flags, flag.isHelp = true) → parseArguments arguments = .ok .usage) := by
  rw [h.parseArguments_eq]
  refine ⟨fun hnone => ?_, fun hsome => if_pos (List.any_eq_true.mpr hsome)⟩
  have hhelp : ¬ flags.any CommandFlag.isHelp = true := by
    rw [List.any_eq_true]
    rintro ⟨flag, hflag, hhelp⟩
    exact Bool.false_ne_true ((hnone flag hflag).symm.trans hhelp)
  rw [if_neg hhelp]
  exact ⟨flags.any CommandFlag.isVerbose, lastCount? flags, List.any_eq_true, rfl,
    fun command => commandOf_eq_ok_iff, fun fault => commandOf_eq_error_iff⟩

/-- A run with two limits, one of them with a plus sign and leading zeros, and a listing whose
program is malformed, without and with a request for help. -/
theorem flags_anywhere_between :
    (∃ flags, Interleaves ["run", "$0200", "ea"] flags
        ["--max-instructions", "3", "run", "-v", "$0200", "--max-instructions", "+010", "ea"] ∧
      parseArguments
          ["--max-instructions", "3", "run", "-v", "$0200", "--max-instructions", "+010", "ea"] =
        .ok (.run 0x0200 [0xEA] true (some 10))) ∧
    (∃ flags, Interleaves ["disasm", "0x600", "a9 0"] flags ["disasm", "0x600", "-v", "a9 0"] ∧
      parseArguments ["disasm", "0x600", "-v", "a9 0"] = .error (.hex (.oddLength 3))) ∧
    ∃ flags, Interleaves ["disasm", "0x600", "a9 0"] flags ["disasm", "0x600", "a9 0", "-h"] ∧
      parseArguments ["disasm", "0x600", "a9 0", "-h"] = .ok .usage := by
  have hthree : SpellsCount "3".toList 3 := parseCount_eq_ok_iff.mp (by decide)
  have hten : SpellsCount "+010".toList 10 := parseCount_eq_ok_iff.mp (by decide)
  have hverbose : "-v" ∈ ["-v", "--verbose"] := by decide
  have hhelp : "-h" ∈ ["-h", "--help"] := by decide
  have hodd : parseBytes "a9 0" = .error (.oddLength 3) := by decide +kernel
  have haddress : parseAddress "0x600" = .ok 0x0600 := by decide +kernel
  have hrun : Interleaves ["run", "$0200", "ea"]
      [.limit _ _ hthree, .verbose _ hverbose, .limit _ _ hten] _ :=
    .flag _ (.plain (by decide) (.flag _ (.plain (by decide)
      (.flag _ (.plain (by decide) .nil)))))
  have hlisting : Interleaves ["disasm", "0x600", "a9 0"] [.verbose _ hverbose] _ :=
    .plain (by decide) (.plain (by decide) (.flag _ (.plain (by decide) .nil)))
  have hasked : Interleaves ["disasm", "0x600", "a9 0"] [.help _ hhelp] _ :=
    .plain (by decide) (.plain (by decide) (.plain (by decide) (.flag _ .nil)))
  refine ⟨⟨_, hrun, ?_⟩, ⟨_, hlisting, ?_⟩, _, hasked, ?_⟩
  · obtain ⟨verbose, limit, hloud, rfl, hcommand, -⟩ :=
      (flags_anywhere hrun).1 (by simp [CommandFlag.isHelp])
    obtain rfl : verbose = true :=
      hloud.mpr ⟨_, List.mem_cons_of_mem _ (List.mem_cons_self ..), rfl⟩
    exact (hcommand _).mpr (.run (by decide +kernel) (by decide +kernel))
  · obtain ⟨verbose, limit, -, -, -, hfault⟩ :=
      (flags_anywhere hlisting).1 (by simp [CommandFlag.isHelp])
    exact (hfault _).mpr ⟨_, _, _, _, ⟨rfl, .inl rfl⟩, rfl, .inr ⟨⟨_, haddress⟩, hodd⟩⟩
  · exact (flags_anywhere hasked).2 ⟨_, List.mem_singleton_self _, rfl⟩

end Nmos6502
