import Mathlib.Data.List.Nodup
import Mathlib.Logic.Function.Basic

/-!
# Cells on a heap, and chains of them

A heap knows which cells are live, and an access to any other has no meaning.
A chain follows a link from cell to cell. One that ends comes to no cell twice.
-/

namespace PokeStroller

abbrev Heap (ι κ : Type*) := ι → Option κ

namespace Heap

variable [DecidableEq ι]

def modify? (heap : Heap ι κ) (a : ι) (f : κ → κ) : Option (Heap ι κ) :=
  (heap a).map fun c => Function.update heap a (some (f c))

def free? (heap : Heap ι κ) (a : ι) : Option (Heap ι κ) :=
  (heap a).map fun _ => Function.update heap a none

theorem modify?_of_live {heap : Heap ι κ} (h : heap a = some c) (f : κ → κ) :
    heap.modify? a f = some (Function.update heap a (some (f c))) := by
  rw [modify?, h, Option.map_some]

theorem free?_of_live {heap : Heap ι κ} (h : heap a = some c) :
    heap.free? a = some (Function.update heap a none) := by
  rw [free?, h, Option.map_some]

/-- These cells are what is live beside `others`, and the others are untouched. -/
structure Owns (heap others : Heap ι κ) (cells : List ι) : Prop where
  live : ∀ a, a ∈ cells ↔ heap a ≠ none ∧ others a = none
  others : ∀ a, others a ≠ none → heap a = others a

namespace Owns

variable {heap others : Heap ι κ} {cells : List ι} {a : ι}

omit [DecidableEq ι] in
theorem nil (others : Heap ι κ) : others.Owns others [] where
  live a := by simp
  others _ _ := rfl

omit [DecidableEq ι] in
theorem fresh (h : heap.Owns others cells) (ha : heap a = none) : others a = none := by
  by_contra hother
  exact hother ((h.others a hother).symm.trans ha)

theorem fill (h : heap.Owns others cells) (ha : heap a = none) (c : κ) :
    Owns (Function.update heap a (some c)) others (cells ++ [a]) where
  live b := by
    by_cases hb : b = a
    · subst hb
      simp [h.fresh ha]
    · rw [Function.update_of_ne hb, ← h.live b]
      simp [hb]
  others b hb := by
    have hne : b ≠ a := by
      rintro rfl
      exact hb (h.fresh ha)
    rw [Function.update_of_ne hne, h.others b hb]

theorem write (h : heap.Owns others cells) (ha : a ∈ cells) (c : κ) :
    Owns (Function.update heap a (some c)) others cells where
  live b := by
    by_cases hb : b = a
    · subst hb
      simp [ha, ((h.live b).mp ha).2]
    · rw [Function.update_of_ne hb, ← h.live b]
  others b hb := by
    have hne : b ≠ a := by
      rintro rfl
      exact hb ((h.live b).mp ha).2
    rw [Function.update_of_ne hne, h.others b hb]

theorem free (h : heap.Owns others (a :: cells)) (ha : a ∉ cells) :
    Owns (Function.update heap a none) others cells where
  live b := by
    by_cases hb : b = a
    · subst hb
      simp [ha]
    · rw [Function.update_of_ne hb, ← h.live b, List.mem_cons, or_iff_right hb]
  others b hb := by
    have hne : b ≠ a := by
      rintro rfl
      exact hb ((h.live b).mp List.mem_cons_self).2
    rw [Function.update_of_ne hne, h.others b hb]

end Owns

end Heap

/-- From the pointer `p` along `next`, these cells with what is in them, as far
as the pointer `q`. -/
inductive Chain (next : κ → Option ι) (heap : Heap ι κ) :
    Option ι → List (ι × κ) → Option ι → Prop
  | nil (p : Option ι) : Chain next heap p [] p
  | cons {a : ι} {c : κ} {cells : List (ι × κ)} {q : Option ι} :
      heap a = some c → Chain next heap (next c) cells q →
      Chain next heap (some a) ((a, c) :: cells) q

namespace Chain

variable {next : κ → Option ι} {heap heap' : Heap ι κ} {p q r : Option ι} {cells more : List (ι × κ)}

theorem append (h : Chain next heap p cells q) (h' : Chain next heap q more r) :
    Chain next heap p (cells ++ more) r := by
  induction h with
  | nil => exact h'
  | cons hlive _ ih => exact .cons hlive (ih h')

theorem split (h : Chain next heap p (cells ++ more) r) :
    ∃ q, Chain next heap p cells q ∧ Chain next heap q more r := by
  induction cells generalizing p with
  | nil => exact ⟨p, .nil p, h⟩
  | cons cell cells ih =>
    cases h with
    | cons hlive hrest =>
      obtain ⟨q, h₁, h₂⟩ := ih hrest
      exact ⟨q, .cons hlive h₁, h₂⟩

theorem live (h : Chain next heap p cells q) (hmem : (a, c) ∈ cells) : heap a = some c := by
  induction h with
  | nil => cases hmem
  | cons hlive _ ih =>
    rcases List.mem_cons.mp hmem with heq | hrest
    · cases heq
      exact hlive
    · exact ih hrest

theorem frame (h : Chain next heap p cells q)
    (hsame : ∀ a ∈ cells.map Prod.fst, heap' a = heap a) : Chain next heap' p cells q := by
  induction h with
  | nil => exact .nil _
  | cons hlive _ ih =>
    refine .cons ?_ (ih fun a ha => hsame a (List.mem_cons_of_mem _ ha))
    rw [hsame _ List.mem_cons_self, hlive]

/-- The cells to the end are determined by the pointer. -/
theorem unique (h : Chain next heap p cells none) (h' : Chain next heap p more none) :
    cells = more := by
  induction cells generalizing p more with
  | nil =>
    cases h
    cases h'
    rfl
  | cons cell cells ih =>
    cases h with
    | cons hlive hrest =>
      cases h' with
      | cons hlive' hrest' =>
        cases hlive.symm.trans hlive'
        rw [ih hrest hrest']

/-- A chain that came back to a cell would not end. -/
theorem nodup (h : Chain next heap p cells none) : (cells.map Prod.fst).Nodup := by
  induction cells generalizing p with
  | nil => exact List.nodup_nil
  | cons cell cells ih =>
    have hwhole := h
    cases h with
    | @cons a _ _ _ hlive hrest =>
      rw [List.map_cons, List.nodup_cons]
      refine ⟨fun hback => ?_, ih hrest⟩
      obtain ⟨⟨b, d⟩, hmem, hb⟩ := List.mem_map.mp hback
      obtain rfl : b = a := hb
      obtain ⟨before, after, rfl⟩ := List.append_of_mem hmem
      obtain ⟨q, -, hagain⟩ := hrest.split
      have hstart : q = some b := by
        cases hagain
        rfl
      have hlengths := congrArg List.length ((hstart ▸ hagain).unique hwhole)
      simp only [List.length_cons, List.length_append] at hlengths
      omega

theorem first (h : Chain next heap p cells none) : p = cells.head?.map Prod.fst := by
  cases h with
  | nil => rfl
  | cons => rfl

section
variable [DecidableEq ι]

theorem tail (h : Chain next heap (some a) ((a, c) :: cells) none) :
    Chain next (Function.update heap a none) (next c) cells none := by
  have hnodup := (List.nodup_cons.mp h.nodup).1
  cases h with
  | cons _ hrest =>
    exact hrest.frame fun b hb => Function.update_of_ne (ne_of_mem_of_not_mem hb hnodup) _ _

/-- A cell that was not live is filled, and linked to from the last one. -/
theorem concat {l b : ι} {e e' new : κ} (h : Chain next heap p (cells ++ [(l, e)]) none)
    (hfresh : heap b = none) (hlink : next e' = some b) (hend : next new = none) :
    Chain next (Function.update (Function.update heap b (some new)) l (some e')) p
      (cells ++ [(l, e'), (b, new)]) none := by
  have hnew : b ∉ (cells ++ [(l, e)]).map Prod.fst := by
    intro hmem
    obtain ⟨⟨_, c⟩, hc, rfl⟩ := List.mem_map.mp hmem
    rw [h.live hc] at hfresh
    cases hfresh
  have hlast : l ∉ cells.map Prod.fst := by
    have hnodup := h.nodup
    rw [List.map_append, List.nodup_append] at hnodup
    exact fun hmem => hnodup.2.2 l hmem l List.mem_cons_self rfl
  have hbl : b ≠ l := by
    rintro rfl
    exact hnew (by simp)
  obtain ⟨q, hbefore, hcell⟩ := h.split
  have hq : q = some l := by
    cases hcell
    rfl
  subst hq
  refine append (hbefore.frame fun a ha => ?_) (.cons (Function.update_self _ _ _) ?_)
  · have hab : a ≠ b := by
      rintro rfl
      exact hnew (by simp [List.mem_map.mp ha])
    rw [Function.update_of_ne (ne_of_mem_of_not_mem ha hlast), Function.update_of_ne hab]
  · rw [hlink]
    refine .cons ?_ ?_
    · rw [Function.update_of_ne hbl, Function.update_self]
    · rw [hend]
      exact .nil none

end

end Chain

end PokeStroller
