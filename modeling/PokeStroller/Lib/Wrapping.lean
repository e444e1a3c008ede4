import Mathlib.Algebra.Order.Ring.Int
import Mathlib.Data.List.Range
import PokeStroller.Lib.Bytes
import PokeStroller.Lib.Writes

/-!
# Words in a memory that wraps

The bytes of a word from the highest to the lowest, and blocks of consecutive
places, of which the one after the last address is address 0.
-/

namespace PokeStroller

-- ---------------------------------------------------------------------------
-- The bytes of a word
-- ---------------------------------------------------------------------------

def bigEndian (k : Nat) (v : BitVec w) : List Byte :=
  (List.range k).map fun i => (v >>> (8 * (k - 1 - i))).setWidth 8

@[simp] theorem length_bigEndian (k : Nat) (v : BitVec w) : (bigEndian k v).length = k := by
  simp [bigEndian]

theorem getElem?_bigEndian {k i : Nat} (hi : i < k) (v : BitVec w) :
    (bigEndian k v)[i]? = some ((v >>> (8 * (k - 1 - i))).setWidth 8) := by
  rw [bigEndian, List.getElem?_map, List.getElem?_range hi, Option.map_some]

theorem bigEndian_one (v : BitVec w) : bigEndian 1 v = [v.setWidth 8] := by
  simp [bigEndian]

theorem bigEndian_succ (k : Nat) (v : BitVec w) :
    bigEndian (k + 1) v = (v >>> (8 * k)).setWidth 8 :: bigEndian k v := by
  unfold bigEndian
  rw [List.range_succ_eq_map, List.map_cons, List.map_map]
  refine congrArg _ (List.map_congr_left fun i _ => ?_)
  rw [Function.comp_apply, show k + 1 - 1 - i.succ = k - 1 - i by omega]

/-- A word that fits is determined by its bytes. -/
theorem bigEndian_inj {u v : BitVec w} (hw : w ≤ 8 * k) (h : bigEndian k u = bigEndian k v) :
    u = v := by
  refine BitVec.eq_of_getLsbD_eq fun j hj => ?_
  have hplace : k - 1 - j / 8 < k := by omega
  have hbyte := congrArg (·[k - 1 - j / 8]?) h
  rw [getElem?_bigEndian hplace, getElem?_bigEndian hplace, Option.some.injEq,
    show k - 1 - (k - 1 - j / 8) = j / 8 by omega] at hbyte
  have hbit := congrArg (·.getLsbD (j % 8)) hbyte
  have hmod : j % 8 < 8 := Nat.mod_lt j (by decide)
  simpa [hmod, Nat.div_add_mod] using hbit

theorem bigEndian_append (x : BitVec v) {y : BitVec w} (hw : w = 8 * l) :
    bigEndian (k + l) (x ++ y) = bigEndian k x ++ bigEndian l y := by
  subst hw
  refine List.ext_getElem? fun i => ?_
  rcases Nat.lt_or_ge i k with hi | hi
  · rw [List.getElem?_append_left (by simpa using hi), getElem?_bigEndian (by omega),
      getElem?_bigEndian hi, Option.some.injEq]
    refine BitVec.eq_of_getLsbD_eq fun j hj => ?_
    simp only [BitVec.getLsbD_setWidth, BitVec.getLsbD_ushiftRight, BitVec.getLsbD_append]
    rw [if_neg (by omega), show 8 * (k + l - 1 - i) + j - 8 * l = 8 * (k - 1 - i) + j by omega]
  · rw [List.getElem?_append_right (by simpa using hi), length_bigEndian]
    rcases Nat.lt_or_ge i (k + l) with hlt | hge
    · rw [getElem?_bigEndian hlt, getElem?_bigEndian (by omega), Option.some.injEq]
      refine BitVec.eq_of_getLsbD_eq fun j hj => ?_
      simp only [BitVec.getLsbD_setWidth, BitVec.getLsbD_ushiftRight, BitVec.getLsbD_append]
      rw [if_pos (by omega), show k + l - 1 - i = l - 1 - (i - k) by omega]
    · rw [List.getElem?_eq_none (by simpa using hge), List.getElem?_eq_none (by simp; omega)]

-- ---------------------------------------------------------------------------
-- Blocks
-- ---------------------------------------------------------------------------

variable {β : Type*} {n : Nat}

def block (a : BitVec n) (bs : List β) : List (BitVec n × β) :=
  bs.mapIdx fun i b => (a + BitVec.ofNat n i, b)

def load (m : BitVec n → β) (a : BitVec n) (k : Nat) : List β :=
  (List.range k).map fun i => m (a + BitVec.ofNat n i)

/-- A block no longer than the memory does not meet itself. -/
theorem place_inj {a : BitVec n} {i j : Nat} (hi : i < 2 ^ n) (hj : j < 2 ^ n)
    (h : a + BitVec.ofNat n i = a + BitVec.ofNat n j) : i = j := by
  have hnat := congrArg BitVec.toNat ((BitVec.add_right_inj a).mp h)
  rwa [BitVec.toNat_ofNat, BitVec.toNat_ofNat, Nat.mod_eq_of_lt hi, Nat.mod_eq_of_lt hj] at hnat

theorem block_cons (a : BitVec n) (b : β) (bs : List β) :
    block a (b :: bs) = (a, b) :: bs.mapIdx fun i c => (a + BitVec.ofNat n (i + 1), c) := by
  rw [block, List.mapIdx_cons, BitVec.add_zero]

theorem mem_block {a : BitVec n} {bs : List β} {w : BitVec n × β} :
    w ∈ block a bs ↔ ∃ i, ∃ h : i < bs.length, (a + BitVec.ofNat n i, bs[i]) = w :=
  List.mem_mapIdx

theorem map_fst_block (a : BitVec n) (bs : List β) :
    (block a bs).map Prod.fst = (List.range bs.length).map fun i => a + BitVec.ofNat n i := by
  refine List.ext_getElem (by simp [block]) fun i _ _ => ?_
  simp [block]

theorem store_block_inside (m : BitVec n → β) (a : BitVec n) {bs : List β}
    (hlen : bs.length ≤ 2 ^ n) (hb : bs[i]? = some b) :
    store m (block a bs) (a + BitVec.ofNat n i) = b := by
  obtain ⟨hi, rfl⟩ := List.getElem?_eq_some_iff.mp hb
  refine store_of_mem m (mem_block.mpr ⟨i, hi, rfl⟩) fun w hw hplace => ?_
  obtain ⟨j, hj, rfl⟩ := mem_block.mp hw
  obtain rfl := place_inj (by omega) (by omega) hplace
  rfl

theorem store_block_outside (m : BitVec n → β) {a p : BitVec n} {bs : List β}
    (hp : ∀ i < bs.length, p ≠ a + BitVec.ofNat n i) : store m (block a bs) p = m p := by
  refine store_of_notMem m fun w hw => ?_
  obtain ⟨i, hi, rfl⟩ := mem_block.mp hw
  exact (hp i hi).symm

theorem load_store (m : BitVec n → β) (a : BitVec n) (bs : List β) (hlen : bs.length ≤ 2 ^ n) :
    load (store m (block a bs)) a bs.length = bs := by
  refine List.ext_getElem (by simp [load]) fun i _ hi => ?_
  rw [← store_block_inside m a hlen (List.getElem?_eq_getElem hi)]
  simp [load]

theorem load_append (m : BitVec n → β) (a : BitVec n) (k l : Nat) :
    load m a (k + l) = load m a k ++ load m (a + BitVec.ofNat n k) l := by
  unfold load
  rw [List.range_add, List.map_append, List.map_map]
  refine congrArg _ (List.map_congr_left fun i _ => ?_)
  rw [Function.comp_apply, BitVec.ofNat_add, BitVec.add_assoc]

theorem store_block_comm (m : BitVec n → β) {a b : BitVec n} (bs cs : List β)
    (h : ∀ i < bs.length, ∀ j < cs.length, a + BitVec.ofNat n i ≠ b + BitVec.ofNat n j) :
    store (store m (block a bs)) (block b cs) = store (store m (block b cs)) (block a bs) := by
  refine store_comm m fun w hw v hv => ?_
  obtain ⟨i, hi, rfl⟩ := mem_block.mp hw
  obtain ⟨j, hj, rfl⟩ := mem_block.mp hv
  exact h i hi j hj

end PokeStroller
