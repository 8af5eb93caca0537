/-!
# Address arithmetic

The address space wraps: sums are taken modulo `2 ^ 16`, and inside the zero page modulo `2 ^ 8`.
The one surprise is the pointer of an indirect jump, whose second byte is taken from the same page
as its first.

## Main definitions

* `word`, `lowByte`, `highByte` — a word and its two bytes
* `isNegative`, `signed` — the sign of a byte, and the number it stands for with a sign
* `zeroPageIndexed`, `absoluteIndexed` — an index added to a base
* `relativeTarget` — where a branch goes
* `pointerHighAddress` — the second byte of an indirect jump's pointer
-/

namespace Nmos6502

/-- The number of addresses. -/
def addressSpace : Nat := 0x10000

/-- The word with the given low and high byte. -/
def word (low high : UInt8) : UInt16 :=
  UInt16.ofNat (low.toNat + 256 * high.toNat)

/-- The low byte of a word. -/
def lowByte (word : UInt16) : UInt8 := UInt8.ofNat word.toNat

/-- The high byte of a word. -/
def highByte (word : UInt16) : UInt8 := UInt8.ofNat (word.toNat / 256)

/-- Whether a byte, read as a signed number, is negative: its top bit is set. -/
def isNegative (byte : UInt8) : Bool := 0x80 ≤ byte

/-- The number that a byte stands for in two's complement. -/
def signed (byte : UInt8) : Int := byte.toInt8.toInt

/-- A zero-page address with an index added; the sum stays in the zero page. -/
def zeroPageIndexed (base index : UInt8) : UInt16 :=
  (base + index).toUInt16

/-- An address with an index added. -/
def absoluteIndexed (base : UInt16) (index : UInt8) : UInt16 :=
  base + index.toUInt16

/-- The target of a branch whose following instruction is at `next`; the offset is signed. -/
def relativeTarget (next : UInt16) (offset : UInt8) : UInt16 :=
  if isNegative offset then next + offset.toUInt16 - 0x100 else next + offset.toUInt16

/-- Where the high byte of the pointer at `pointer` is read: the next address, but never beyond
the end of the pointer's page. -/
def pointerHighAddress (pointer : UInt16) : UInt16 :=
  word (lowByte pointer + 1) (highByte pointer)

@[simp] theorem toNat_word (low high : UInt8) :
    (word low high).toNat = low.toNat + 256 * high.toNat := by
  have := low.toNat_lt
  have := high.toNat_lt
  simp only [word, UInt16.toNat_ofNat']
  omega

@[simp] theorem lowByte_word (low high : UInt8) : lowByte (word low high) = low := by
  have := low.toNat_lt
  apply UInt8.toNat_inj.1
  simp only [lowByte, toNat_word, UInt8.toNat_ofNat']
  omega

@[simp] theorem highByte_word (low high : UInt8) : highByte (word low high) = high := by
  have := low.toNat_lt
  have := high.toNat_lt
  apply UInt8.toNat_inj.1
  simp only [highByte, toNat_word, UInt8.toNat_ofNat']
  omega

@[simp] theorem word_lowByte_highByte (w : UInt16) : word (lowByte w) (highByte w) = w := by
  have := w.toNat_lt
  apply UInt16.toNat_inj.1
  simp only [toNat_word, lowByte, highByte, UInt8.toNat_ofNat']
  omega

/-! ## Sums as numbers -/

theorem isNegative_iff (byte : UInt8) : isNegative byte = true ↔ 0x80 ≤ byte.toNat :=
  decide_eq_true_iff.trans UInt8.le_iff_toNat_le

theorem signed_eq (byte : UInt8) :
    signed byte = if isNegative byte then (byte.toNat : Int) - 0x100 else byte.toNat := by
  have hbyte := byte.toNat_lt
  have hbits : signed byte = byte.toBitVec.toInt := rfl
  rw [hbits, BitVec.toInt_eq_toNat_cond, UInt8.toNat_toBitVec]
  simp only [isNegative_iff]
  split <;> split <;> omega

theorem toNat_zeroPageIndexed (base index : UInt8) :
    (zeroPageIndexed base index).toNat = (base.toNat + index.toNat) % 0x100 := by
  rw [zeroPageIndexed, UInt8.toNat_toUInt16, UInt8.toNat_add]

theorem toNat_absoluteIndexed (base : UInt16) (index : UInt8) :
    (absoluteIndexed base index).toNat = (base.toNat + index.toNat) % addressSpace := by
  rw [absoluteIndexed, UInt16.toNat_add, UInt8.toNat_toUInt16]
  rfl

/-- A branch goes as far as its offset says, forwards or backwards. -/
theorem toNat_relativeTarget (next : UInt16) (offset : UInt8) :
    ((relativeTarget next offset).toNat : Int) = (next.toNat + signed offset) % addressSpace := by
  have hnext := next.toNat_lt
  have hoffset := offset.toNat_lt
  have hspace : (addressSpace : Int) = 0x10000 := rfl
  have hpage : (0x100 : UInt16).toNat = 0x100 := rfl
  rw [relativeTarget, signed_eq, hspace]
  split
  · rw [UInt16.toNat_sub, UInt16.toNat_add, UInt8.toNat_toUInt16, hpage]
    omega
  · rw [UInt16.toNat_add, UInt8.toNat_toUInt16]
    omega

/-- The page stays, and the place in the page wraps. -/
theorem toNat_pointerHighAddress (pointer : UInt16) :
    (pointerHighAddress pointer).toNat =
      pointer.toNat / 0x100 * 0x100 + (pointer.toNat + 1) % 0x100 := by
  have hlow : (1 : UInt8).toNat = 1 := rfl
  have := pointer.toNat_lt
  rw [pointerHighAddress, toNat_word, UInt8.toNat_add, hlow, lowByte, highByte,
    UInt8.toNat_ofNat', UInt8.toNat_ofNat']
  omega

end Nmos6502
