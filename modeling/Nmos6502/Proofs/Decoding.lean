import Mathlib.Tactic.Common
import Nmos6502.Proofs.PlainMemory
import Nmos6502.Proofs.Tiling

/-!
# Decoding from memory and from bytes

An instruction can be decoded from memory at an address, or from bytes that are known to begin
there. The first reads byte by byte, at addresses that go around the end of the address space, but
not before the bytes that memory has left have been counted. The second takes as many bytes as the
instruction has off the front, and sees that there are too few when it has them in hand.

In plain memory both have the same bytes to begin with, and they ask the same questions in the same
order: what the first byte begins, and then whether all of it is there. What is short is short by
the same number of bytes, and what is whole ends within memory, so reading it does not go around.

## Main results

* `Instruction.decode_raw` — an instruction can be decoded from its own bytes
* `Ram.decodeAt_eq_decode` — both ways of decoding agree
-/

namespace Nmos6502

namespace Instruction

variable {bytes : List UInt8} {address : UInt16} {instruction : Instruction}

/-- **Decoding again.** An instruction stands where it was decoded, and can be decoded there from
its own bytes. -/
theorem decode_raw (h : decode bytes address = .ok instruction) :
    instruction.address = address ∧ decode instruction.raw address = .ok instruction := by
  have hsome : bytes ≠ [] := by
    rintro rfl
    cases h
  obtain ⟨line, rest, rfl, opens⟩ := exists_opens hsome address
  cases opens with
  | decoded legal whole =>
    change decode (_ :: _ ++ rest) address = _ at h
    rw [decode_of_whole legal whole] at h
    cases h
    have hown := decode_of_whole legal whole address []
    rw [List.append_nil] at hown
    exact ⟨rfl, hown⟩
  | illegal unknown =>
    change decode (_ :: rest) address = _ at h
    rw [decode_of_unknown unknown] at h
    cases h
  | truncated legal short =>
    change decode (_ :: _ ++ []) address = _ at h
    rw [List.append_nil, decode_of_short legal short] at h
    cases h

end Instruction

namespace Ram

variable {ram : Ram} {address : UInt16}

/-- The bytes from an address on begin with the one that is read there. -/
theorem exists_read_of_lt (h : address.toNat < ram.size) :
    ∃ opcode later, Bus.read ram address = .ok opcode ∧
      ram.bytes.toList.drop address.toNat = opcode :: later := by
  have hlength : address.toNat < ram.bytes.toList.length := h
  refine ⟨_, _, ?_, List.drop_eq_getElem_cons hlength⟩
  exact dif_pos h

/-- **Both ways of decoding agree** wherever memory has a byte: on the instruction, on an illegal
opcode, and on how many bytes an instruction needs and how many there are. An instruction that is
decoded can be decoded once more from its own bytes. -/
theorem decodeAt_eq_decode (ram : Ram) (h : address.toNat < ram.size) :
    Instruction.decodeAt ram address =
        Instruction.decode (ram.bytes.toList.drop address.toNat) address ∧
      ∀ instruction, Instruction.decodeAt ram address = .ok instruction →
        instruction.address = address ∧
          Instruction.decode instruction.raw address = .ok instruction := by
  have hagree : Instruction.decodeAt ram address =
      Instruction.decode (ram.bytes.toList.drop address.toNat) address := by
    obtain ⟨opcode, later, hread, hbytes⟩ := exists_read_of_lt h
    have hlength : (opcode :: later).length = ram.size - address.toNat := by
      rw [← hbytes, List.length_drop]
      rfl
    rw [hbytes]
    unfold Instruction.decodeAt Instruction.decode
    cases ho : operation? opcode with
    | none => simp only [hread, ho]
    | some operation =>
      have hsize : Bus.size ram = ram.size := rfl
      simp only [hread, ho, hsize]
      -- Memory counts before it reads, and the bytes are counted when they have been taken.
      by_cases hshort : ram.size - address.toNat < operation.size
      · have htake : (opcode :: later).take operation.size = opcode :: later :=
          List.take_of_length_le (by omega)
        rw [if_pos hshort, htake, hlength, if_pos hshort]
      · have htake : ((opcode :: later).take operation.size).length = operation.size :=
          List.length_take_of_le (by omega)
        have hrange : Bus.readRange ram address operation.size =
            .ok ((opcode :: later).take operation.size) := by
          rw [ram.readRange_of_le (by omega), slice_eq_take, hbytes]
        rw [if_neg hshort, hrange, htake, if_neg (Nat.lt_irrefl _)]
  exact ⟨hagree, fun instruction hdecoded => Instruction.decode_raw (hagree.symm.trans hdecoded)⟩

/-- Memory that ends with a load whose address is cut off. The bytes before it are a load of two
bytes and a byte that begins nothing. -/
theorem decodeAt_eq_decode_atEnd :
    let ram := ((((zeros 7 (by decide) (by decide)).put 2 0xA9).put 3 0x05).put 4 0x02).put 5 0xAD
    (2 : UInt16).toNat < ram.size ∧ (4 : UInt16).toNat < ram.size ∧ (5 : UInt16).toNat < ram.size ∧
      Instruction.decodeAt ram 2 = .ok ⟨2, 0xA9, .lda, .immediate, [0xA9, 0x05], 2, 2⟩ ∧
      Instruction.decode [0xA9, 0x05] 2 = .ok ⟨2, 0xA9, .lda, .immediate, [0xA9, 0x05], 2, 2⟩ ∧
      Instruction.decodeAt ram 4 = .error (.illegalOpcode 0x02 4) ∧
      Instruction.decodeAt ram 5 = .error (.incomplete 5 3 2) := by
  intro ram
  have htwo : (2 : UInt16).toNat < ram.size := by decide
  have hfour : (4 : UInt16).toNat < ram.size := by decide
  have hfive : (5 : UInt16).toNat < ram.size := by decide
  obtain ⟨hload, hagain⟩ := decodeAt_eq_decode ram htwo
  have hloaded : Instruction.decodeAt ram 2 =
      .ok ⟨2, 0xA9, .lda, .immediate, [0xA9, 0x05], 2, 2⟩ := hload.trans (by decide +kernel)
  refine ⟨htwo, hfour, hfive, hloaded, (hagain _ hloaded).2, ?_, ?_⟩
  · exact (decodeAt_eq_decode ram hfour).1.trans (by decide +kernel)
  · exact (decodeAt_eq_decode ram hfive).1.trans (by decide +kernel)

end Ram

end Nmos6502
