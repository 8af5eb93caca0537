import Mathlib.Order.Bounds.Basic
import Mathlib.Tactic.Common
import Nmos6502.Proofs.Loading
import Nmos6502.Ram.Dump

/-!
# Ranges that run over the end of memory

A range of bytes is loaded or dumped as a whole, and if one of its addresses lies outside memory, it
is refused as a whole. The refusal names the size of memory and one address. Of the addresses
outside memory the first is where memory ends, or where the range begins if that is later. The one
that is named is the last, since it is computed from the end of the range. The two are the same only
if a single address lies outside.

## Main definitions

* `Ram.outside` — the addresses of a range that lie outside memory

## Main results

* `Ram.overrun_refused` — which address a refusal names
* `Ram.overrun_names_last` — a refusal that does not name the first address outside memory
-/

namespace Nmos6502

namespace Ram

/-- The addresses of a range that lie outside memory. -/
def outside (ram : Ram) (offset : UInt16) (count : Nat) : Set Nat :=
  {address | offset.toNat ≤ address ∧ address < offset.toNat + count ∧ ram.size ≤ address}

variable {ram : Ram} {offset : UInt16} {count : Nat}

/-- The first address outside memory is at its end, or where the range begins. -/
theorem isLeast_outside (hcount : 0 < count) (h : ram.size < offset.toNat + count) :
    IsLeast (ram.outside offset count) (max offset.toNat ram.size) := by
  refine ⟨⟨Nat.le_max_left .., ?_, Nat.le_max_right ..⟩, fun address ha => ?_⟩
  · exact Nat.max_lt.mpr ⟨Nat.lt_add_of_pos_right hcount, h⟩
  · exact Nat.max_le.mpr ⟨ha.1, ha.2.2⟩

/-- The last address outside memory is the last of the range. -/
theorem isGreatest_outside (hcount : 0 < count) (h : ram.size < offset.toNat + count) :
    IsGreatest (ram.outside offset count) (offset.toNat + count - 1) := by
  refine ⟨⟨?_, ?_, ?_⟩, fun address ha => Nat.le_sub_one_of_lt ha.2.1⟩ <;> omega

theorem dump_of_lt (h : ram.size < offset.toNat + count) :
    ram.dump offset count = .error ⟨offset.toNat + count - 1, ram.size⟩ := by
  rw [dump, if_pos h]

/-- **A refused range.** A load and a dump are refused alike, and memory stays as it is. The refusal
names the size of memory and the last address of the range that lies outside, which is the first one
only if there is no other. Reading the same bytes one by one names the first, unless memory fills
the address space. -/
theorem overrun_refused (ram : Ram) (offset : UInt16) (hcount : 0 < count)
    (h : ram.size < offset.toNat + count) :
    ∃ first last, first = max offset.toNat ram.size ∧ IsLeast (ram.outside offset count) first ∧
      IsGreatest (ram.outside offset count) last ∧
      (∀ bytes : List UInt8, bytes.length = count →
        Bus.load ram offset bytes = (.error ⟨last, ram.size⟩, ram)) ∧
      ram.dump offset count = .error ⟨last, ram.size⟩ ∧
      (last = first ↔ ram.outside offset count = {first}) ∧
      (ram.size < addressSpace →
        Bus.readRange ram offset count = .error ⟨first, ram.size⟩) := by
  have hleast := isLeast_outside hcount h
  have hgreatest := isGreatest_outside hcount h
  refine ⟨_, _, rfl, hleast, hgreatest, fun bytes hlength => ?_, dump_of_lt h, ⟨fun hsame => ?_,
    fun honly => ?_⟩, fun hsize => ram.readRange_of_lt hsize hcount h⟩
  · subst hlength
    exact Bus.load_of_lt h
  · refine Set.eq_singleton_iff_unique_mem.mpr ⟨hleast.1, fun address ha => ?_⟩
    exact Nat.le_antisymm (hsame ▸ hgreatest.2 ha) (hleast.2 ha)
  · exact Set.mem_singleton_iff.mp (honly ▸ hgreatest.1)

/-- Sixteen bytes of memory. Of one range two addresses lie outside, and of another one a single
address, which is both the first and the last. -/
theorem overrun_refused_sixteen :
    (∃ last, IsGreatest ((zeros 0x10 (by decide) (by decide)).outside 0x000E 4) last ∧
      (zeros 0x10 (by decide) (by decide)).dump 0x000E 4 = .error ⟨last, 0x10⟩) ∧
    Bus.load (zeros 0x10 (by decide) (by decide)) 0x000E [1, 2, 3] =
      (.error ⟨0x10, 0x10⟩, zeros 0x10 (by decide) (by decide)) ∧
    Bus.readRange (zeros 0x10 (by decide) (by decide)) 0x000E 3 = .error ⟨0x10, 0x10⟩ := by
  have hfour : 0 < 4 := by decide
  have hthree : 0 < 3 := by decide
  obtain ⟨-, last, -, -, hlast, -, hdump, -, -⟩ :=
    overrun_refused (zeros 0x10 (by decide) (by decide)) 0x000E hfour (by decide)
  obtain ⟨first, last', rfl, -, hlast', hload, -, -, hread⟩ :=
    overrun_refused (zeros 0x10 (by decide) (by decide)) 0x000E hthree (by decide)
  obtain rfl : last' = 0x10 := hlast'.unique (isGreatest_outside hthree (by decide))
  exact ⟨⟨last, hlast, hdump⟩, hload [1, 2, 3] rfl, hread (by decide)⟩

/-- **The last address is named.** Of this range it is the second one outside memory. -/
theorem overrun_names_last :
    IsLeast ((zeros 0x10 (by decide) (by decide)).outside 0x000E 4) 0x10 ∧
      (Bus.load (zeros 0x10 (by decide) (by decide)) 0x000E [1, 2, 3, 4]).1 =
        .error ⟨0x11, 0x10⟩ ∧
      (zeros 0x10 (by decide) (by decide)).dump 0x000E 4 = .error ⟨0x11, 0x10⟩ :=
  ⟨isLeast_outside (by decide) (by decide), by decide, dump_of_lt (by decide)⟩

end Ram

end Nmos6502
