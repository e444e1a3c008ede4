import PokeStroller.Soc.BusMoves

/-!
# What an access does

The regions of the bus one by one. An array ends before its range does in one place
only, at the top of the low IO registers.
-/

namespace PokeStroller.Soc

open Exec

-- ---------------------------------------------------------------------------
-- The memory
-- ---------------------------------------------------------------------------

abbrev isRam (address : BitVec 16) : Prop := RAM_START ≤ address.toNat ∧ address.toNat ≤ RAM_END

theorem isRam.not_rom {address : BitVec 16} (h : isRam address) : ¬address.toNat ≤ ROM_END := by
  simp only [isRam, RAM_START, RAM_END] at h
  simp only [ROM_END]
  omega

theorem isRam.lt {address : BitVec 16} (h : isRam address) :
    address.toNat - RAM_START < RAM_SIZE := by
  simp only [isRam, RAM_START, RAM_END] at h
  simp only [RAM_START, RAM_SIZE]
  omega

theorem Read8_ram {address : BitVec 16} (h : isRam address) (s : H838606) :
    Read8 address s = .ok (s.ram ⟨_, h.lt⟩) s := by
  unfold Read8
  rw [bind_ok (get_apply s), Exec.ite_neg h.not_rom, Exec.ite_pos h, Bytes.get?_of_lt _ h.lt]
  rfl

theorem Write8_ram {address : BitVec 16} (h : isRam address) (value : Byte) (s : H838606) :
    Write8 address value s =
      .ok ⟨⟩ { s with ram := Function.update s.ram ⟨_, h.lt⟩ value } := by
  unfold Write8
  rw [bind_ok (get_apply s), Exec.ite_neg h.not_rom, Exec.ite_pos h, Bytes.set?_of_lt _ h.lt]
  rfl

theorem lt_rom {address : BitVec 16} (h : address.toNat ≤ ROM_END) : address.toNat < ROM_SIZE :=
  Nat.lt_succ_of_le h

theorem Read8_rom {address : BitVec 16} (h : address.toNat ≤ ROM_END) (s : H838606) :
    Read8 address s = .ok (s.rom ⟨_, lt_rom h⟩) s := by
  unfold Read8
  rw [bind_ok (get_apply s), Exec.ite_pos h, Bytes.get?_of_lt _ (lt_rom h)]
  rfl

end PokeStroller.Soc
