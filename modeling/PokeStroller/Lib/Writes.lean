import Mathlib.Data.List.Induction
import Mathlib.Logic.Function.Basic
import PokeStroller.Lib.Runs

/-!
# Write logs

A memory after a list of writes, oldest first: at each address the last value
written there. A run whose steps write what their labels say has written what
the whole log says.
-/

namespace PokeStroller

variable {α β : Type*} [DecidableEq α]

def store (m : α → β) (ws : List (α × β)) : α → β :=
  ws.foldl (fun m w => Function.update m w.1 w.2) m

theorem store_append (m : α → β) (ws vs : List (α × β)) :
    store m (ws ++ vs) = store (store m ws) vs := List.foldl_append

theorem store_apply (m : α → β) (ws : List (α × β)) (a : α) :
    store m ws a = (ws.reverse.lookup a).getD (m a) := by
  induction ws using List.reverseRecOn with
  | nil => rfl
  | append_singleton ws w ih =>
    obtain ⟨b, v⟩ := w
    rw [store_append, List.reverse_append, List.reverse_singleton, List.singleton_append,
      List.lookup_cons]
    change Function.update (store m ws) b v a = _
    by_cases hb : a = b
    · subst hb
      simp
    · rw [Function.update_of_ne hb, beq_false_of_ne hb, ih]

/-- Only the old value at an address matters there. -/
theorem store_congr {m m' : α → β} (h : m a = m' a) (ws : List (α × β)) :
    store m ws a = store m' ws a := by
  rw [store_apply, store_apply, h]

theorem store_of_notMem (m : α → β) {ws : List (α × β)} (h : ∀ w ∈ ws, w.1 ≠ a) :
    store m ws a = m a := by
  induction ws generalizing m with
  | nil => rfl
  | cons w ws ih =>
    have hw := h w List.mem_cons_self
    have hws := ih (Function.update m w.1 w.2) fun v hv => h v (List.mem_cons_of_mem _ hv)
    exact hws.trans (Function.update_of_ne hw.symm _ _)

theorem store_of_mem (m : α → β) {ws : List (α × β)} (hmem : (a, v) ∈ ws)
    (hv : ∀ w ∈ ws, w.1 = a → w.2 = v) : store m ws a = v := by
  induction ws using List.reverseRecOn with
  | nil => cases hmem
  | append_singleton ws w ih =>
    obtain ⟨b, u⟩ := w
    rw [store_append]
    change Function.update (store m ws) b u a = v
    by_cases hb : a = b
    · subst hb
      rw [Function.update_self]
      exact hv (a, u) (by simp) rfl
    · rw [Function.update_of_ne hb]
      refine ih ?_ fun w hw => hv w (List.mem_append_left _ hw)
      rcases List.mem_append.mp hmem with hmem | hmem
      · exact hmem
      · exact absurd (congrArg Prod.fst (List.mem_singleton.mp hmem)) hb

theorem store_comm (m : α → β) {ws vs : List (α × β)} (h : ∀ w ∈ ws, ∀ v ∈ vs, w.1 ≠ v.1) :
    store (store m ws) vs = store (store m vs) ws := by
  funext a
  by_cases hws : ∀ w ∈ ws, w.1 ≠ a
  · rw [store_of_notMem _ hws]
    exact store_congr (store_of_notMem m hws) vs
  · have hvs : ∀ v ∈ vs, v.1 ≠ a := by
      push Not at hws
      obtain ⟨w, hw, rfl⟩ := hws
      exact fun v hv => (h w hw v hv).symm
    rw [store_of_notMem _ hvs]
    exact (store_congr (store_of_notMem m hvs) ws).symm

/-- At the addresses where each step writes what its label says, a run has
written its log. -/
theorem Runs.store {σ : Type*} {step : σ → List (α × β) → σ → Prop} (memory : σ → α → β)
    {p : α → Prop} {s t : σ} {log : List (List (α × β))}
    (hstep : ∀ s ws t, step s ws t → ∀ a, p a → memory t a = store (memory s) ws a)
    (h : Runs step s log t) (ha : p a) : memory t a = store (memory s) log.flatten a := by
  induction h with
  | nil => rfl
  | cons hst _ ih =>
    rw [List.flatten_cons, store_append, ih]
    exact store_congr (hstep _ _ _ hst _ ha) _

end PokeStroller
