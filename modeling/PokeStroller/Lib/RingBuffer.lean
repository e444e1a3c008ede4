import Mathlib.Algebra.Order.Ring.Int
import Mathlib.Logic.Function.Basic

/-!
# Ring buffers with free-running counters

A ring of `n` places with counters of `w` bits that run freely and wrap. If `n`
divides `2 ^ w`, the places between the counters are a queue, wherever the
counters are.
-/

namespace PokeStroller.RingBuffer

variable {w n : Nat} [NeZero n]

def slot (i : BitVec w) : Fin n := Fin.ofNat n i.toNat

/-- What is in the places from `read` up to `write`. -/
def unread (ring : Fin n → α) (read write : BitVec w) : List α :=
  (List.range (write - read).toNat).map fun i => ring (slot (read + BitVec.ofNat w i))

variable {ring : Fin n → α} {read write : BitVec w}

theorem length_unread (ring : Fin n → α) (read write : BitVec w) :
    (unread ring read write).length = (write - read).toNat := by
  unfold unread
  rw [List.length_map, List.length_range]

theorem unread_self (ring : Fin n → α) (write : BitVec w) : unread ring write write = [] := by
  rw [← List.length_eq_zero_iff, length_unread, BitVec.sub_self]
  rfl

theorem unread_eq_nil_iff : unread ring read write = [] ↔ read = write := by
  rw [← List.length_eq_zero_iff, length_unread]
  constructor
  · intro h
    have hzero : write - read = 0#w := BitVec.eq_of_toNat_eq h
    rw [← BitVec.sub_add_cancel write read, hzero, BitVec.zero_add]
  · rintro rfl
    rw [BitVec.sub_self]
    rfl

theorem add_ofNat_sub (read write : BitVec w) :
    read + BitVec.ofNat w (write - read).toNat = write := by
  rw [BitVec.ofNat_toNat, BitVec.setWidth_eq, BitVec.add_comm, BitVec.sub_add_cancel]

theorem add_ofNat_succ (i : BitVec w) (k : Nat) :
    i + BitVec.ofNat w (k + 1) = i + 1 + BitVec.ofNat w k := by
  have hsucc : BitVec.ofNat w (k + 1) = 1 + BitVec.ofNat w k := by
    rw [BitVec.ofNat_add, BitVec.add_comm]
    rfl
  rw [hsucc, BitVec.add_assoc]

theorem toNat_sub_add (i : BitVec w) (h : k < 2 ^ w) : (i + BitVec.ofNat w k - i).toNat = k := by
  rw [BitVec.add_comm, BitVec.add_sub_cancel, BitVec.toNat_ofNat, Nat.mod_eq_of_lt h]

theorem unread_pop (h : read ≠ write) :
    unread ring read write = ring (slot read) :: unread ring (read + 1) write := by
  have hpos : (write - read).toNat ≠ 0 := by
    rw [← length_unread ring, Ne, List.length_eq_zero_iff, unread_eq_nil_iff]
    exact h
  obtain ⟨k, hk⟩ := Nat.exists_eq_succ_of_ne_zero hpos
  have hlt : k < 2 ^ w := by
    have := (write - read).isLt
    omega
  have hwrite : read + 1 + BitVec.ofNat w k = write := by
    rw [← add_ofNat_succ, ← Nat.succ_eq_add_one, ← hk, add_ofNat_sub]
  have hrest : (write - (read + 1)).toNat = k := by
    rw [← hwrite]
    exact toNat_sub_add (read + 1) hlt
  unfold unread
  rw [hrest, hk, List.range_succ_eq_map, List.map_cons, List.map_map]
  congr 1
  · rw [show BitVec.ofNat w 0 = 0#w from rfl, BitVec.add_zero]
  · refine List.map_congr_left fun i _ => ?_
    rw [Function.comp_apply, Nat.succ_eq_add_one, add_ofNat_succ]

theorem slot_add (hn : n ∣ 2 ^ w) (i : BitVec w) (k : Nat) :
    (slot (i + BitVec.ofNat w k) : Fin n).val = (i.toNat + k) % n := by
  change (i + BitVec.ofNat w k).toNat % n = _
  rw [BitVec.toNat_add, BitVec.toNat_ofNat, Nat.add_mod_mod, Nat.mod_mod_of_dvd _ hn]

theorem slot_add_ne (hn : n ∣ 2 ^ w) (hij : i < j) (hj : j < n) :
    (slot (read + BitVec.ofNat w i) : Fin n) ≠ slot (read + BitVec.ofNat w j) := by
  intro h
  have hmod : (read.toNat + j) % n = (read.toNat + i) % n := by
    rw [← slot_add hn, ← slot_add hn, h]
  have hzero : (read.toNat + j - (read.toNat + i)) % n = 0 := Nat.sub_mod_eq_zero_of_mod_eq hmod
  rw [Nat.add_sub_add_left, Nat.mod_eq_of_lt (by omega)] at hzero
  omega

theorem unread_push (hn : n ∣ 2 ^ w) (hroom : (write - read).toNat < n) (hw : n < 2 ^ w) (x : α) :
    unread (Function.update ring (slot write) x) read (write + 1) =
      unread ring read write ++ [x] := by
  have hnext : (write + 1 - read).toNat = (write - read).toNat + 1 := by
    have hwrite : read + BitVec.ofNat w ((write - read).toNat + 1) = write + 1 := by
      rw [add_ofNat_succ, BitVec.add_assoc, BitVec.add_comm 1, ← BitVec.add_assoc, add_ofNat_sub]
    rw [← hwrite]
    exact toNat_sub_add read (by omega)
  have hslot : (slot write : Fin n) = slot (read + BitVec.ofNat w (write - read).toNat) := by
    rw [add_ofNat_sub]
  unfold unread
  rw [hnext, List.range_succ, List.map_append, List.map_singleton]
  congr 1
  · refine List.map_congr_left fun i hi => ?_
    rw [hslot, Function.update_of_ne (slot_add_ne hn (List.mem_range.mp hi) hroom)]
  · rw [← hslot, Function.update_self]

end PokeStroller.RingBuffer
