import Mathlib.Logic.Function.Basic

/-!
# Byte arrays of fixed size

A static C array of `n` bytes. An access outside it has no meaning in the
language, so reads and writes are partial.
-/

namespace PokeStroller

abbrev Byte := BitVec 8

abbrev Bytes (n : Nat) := Fin n → Byte

namespace Bytes

def get? (m : Bytes n) (i : Nat) : Option Byte :=
  if h : i < n then some (m ⟨i, h⟩) else none

def set? (m : Bytes n) (i : Nat) (v : Byte) : Option (Bytes n) :=
  if h : i < n then some (Function.update m ⟨i, h⟩ v) else none

def setAll? (m : Bytes n) (i : Nat) : List Byte → Option (Bytes n)
  | [] => some m
  | b :: bs => (m.set? i b).bind fun m => m.setAll? (i + 1) bs

def getAll? (m : Bytes n) (i : Nat) : Nat → Option (List Byte)
  | 0 => some []
  | k + 1 => (m.get? i).bind fun b => (m.getAll? (i + 1) k).map (b :: ·)

theorem get?_of_lt (m : Bytes n) (h : i < n) : m.get? i = some (m ⟨i, h⟩) := by
  simp [get?, h]

theorem set?_of_lt (m : Bytes n) (h : i < n) (v : Byte) :
    m.set? i v = some (Function.update m ⟨i, h⟩ v) := by
  simp [set?, h]

theorem get?_of_le (m : Bytes n) (h : n ≤ i) : m.get? i = none := dif_neg (Nat.not_lt.mpr h)

theorem set?_of_le (m : Bytes n) (h : n ≤ i) (v : Byte) : m.set? i v = none :=
  dif_neg (Nat.not_lt.mpr h)

theorem get?_set?_self (h : (m : Bytes n).set? i v = some m') : m'.get? i = some v := by
  unfold set? at h
  split at h
  · cases h; simp [get?, *]
  · cases h

theorem get?_set?_ne (h : (m : Bytes n).set? i v = some m') (hij : j ≠ i) :
    m'.get? j = m.get? j := by
  unfold set? at h
  split at h
  · cases h
    unfold get?
    split
    · rw [Function.update_of_ne]
      simpa [Fin.ext_iff] using hij
    · rfl
  · cases h

theorem get?_setAll?_outside (h : (m : Bytes n).setAll? i bs = some m')
    (hj : j < i ∨ i + bs.length ≤ j) : m'.get? j = m.get? j := by
  induction bs generalizing m i with
  | nil => cases h; rfl
  | cons b bs ih =>
    simp only [setAll?, Option.bind_eq_some_iff] at h
    obtain ⟨m₁, h₁, h⟩ := h
    simp only [List.length_cons] at hj
    rw [ih h (by omega), get?_set?_ne h₁ (by omega)]

theorem get?_setAll?_inside (h : (m : Bytes n).setAll? i bs = some m') (hj : j < bs.length) :
    m'.get? (i + j) = bs[j]? := by
  induction bs generalizing m i j with
  | nil => cases hj
  | cons b bs ih =>
    simp only [setAll?, Option.bind_eq_some_iff] at h
    obtain ⟨m₁, h₁, h⟩ := h
    cases j with
    | zero =>
      rw [Nat.add_zero, get?_setAll?_outside h (by omega)]
      exact get?_set?_self h₁
    | succ j =>
      rw [List.getElem?_cons_succ, ← ih h (Nat.lt_of_succ_lt_succ hj)]
      congr 1
      omega

theorem getAll?_setAll? (h : (m : Bytes n).setAll? i bs = some m') :
    m'.getAll? i bs.length = some bs := by
  induction bs generalizing m i with
  | nil => rfl
  | cons b bs ih =>
    simp only [setAll?, Option.bind_eq_some_iff] at h
    obtain ⟨m₁, h₁, h⟩ := h
    have hfirst : m'.get? i = some b := by
      rw [get?_setAll?_outside h (by omega)]
      exact get?_set?_self h₁
    rw [List.length_cons, getAll?, hfirst, Option.bind_some, ih h, Option.map_some]

theorem getAll?_congr {m m' : Bytes n} (h : ∀ j, i ≤ j → j < i + k → m'.get? j = m.get? j) :
    m'.getAll? i k = m.getAll? i k := by
  induction k generalizing i with
  | zero => rfl
  | succ k ih =>
    have hfirst : m'.get? i = m.get? i := h i (by omega) (by omega)
    have hrest : m'.getAll? (i + 1) k = m.getAll? (i + 1) k := by
      refine ih fun j hj hjk => h j ?_ ?_
      · omega
      · omega
    rw [getAll?, getAll?, hfirst, hrest]

theorem setAll?_append (m : Bytes n) (i : Nat) (xs ys : List Byte) :
    m.setAll? i (xs ++ ys) = (m.setAll? i xs).bind fun m => m.setAll? (i + xs.length) ys := by
  induction xs generalizing m i with
  | nil => rfl
  | cons x xs ih =>
    rw [List.cons_append, setAll?, setAll?, Option.bind_assoc]
    refine congrArg _ (funext fun m => ?_)
    rw [ih, List.length_cons, Nat.add_right_comm, Nat.add_assoc]

theorem setAll?_of_le (m : Bytes n) {bs : List Byte} (h : i + bs.length ≤ n) :
    ∃ m', m.setAll? i bs = some m' := by
  induction bs generalizing m i with
  | nil => exact ⟨m, rfl⟩
  | cons b bs ih =>
    rw [List.length_cons] at h
    rw [setAll?, set?_of_lt m (by omega), Option.bind_some]
    exact ih _ (by omega)

theorem set?_get? (h : (m : Bytes n).get? i = some v) : m.set? i v = some m := by
  unfold get? at h
  split at h
  · rename_i hi
    cases h
    rw [set?_of_lt m hi, Function.update_eq_self]
  · cases h

theorem setAll?_getAll? {bs : List Byte} (h : (m : Bytes n).getAll? i bs.length = some bs) :
    m.setAll? i bs = some m := by
  induction bs generalizing i with
  | nil => rfl
  | cons b bs ih =>
    rw [List.length_cons, getAll?, Option.bind_eq_some_iff] at h
    obtain ⟨first, hfirst, h⟩ := h
    obtain ⟨rest, hrest, hcons⟩ := Option.map_eq_some_iff.mp h
    cases hcons
    rw [setAll?, set?_get? hfirst, Option.bind_some, ih hrest]

end Bytes

end PokeStroller
