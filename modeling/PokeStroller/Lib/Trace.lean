import Mathlib.Logic.Relation
import PokeStroller.Lib.Runs

/-!
# A component and the history of its system

A system writes a history as it moves. A component of the system is traced by it
if what it does is a run of its own along what the history tells of it.
-/

namespace PokeStroller

/-- Between two states the component does what the history tells of it. -/
def Traced (log : S → List δ) (view : S → σ) (f : δ → Option ε) (step : σ → ε → σ → Prop)
    (s t : S) : Prop :=
  ∃ es, log t = log s ++ es ∧ Runs step (view s) (es.filterMap f) (view t)

namespace Traced

variable {log : S → List δ} {view : S → σ} {f : δ → Option ε} {step : σ → ε → σ → Prop} {s t u : S}

theorem refl (s : S) : Traced log view f step s s :=
  ⟨[], (List.append_nil _).symm, .nil _⟩

theorem trans (h : Traced log view f step s t) (h' : Traced log view f step t u) :
    Traced log view f step s u := by
  obtain ⟨es, hlog, hruns⟩ := h
  obtain ⟨es', hlog', hruns'⟩ := h'
  exact ⟨es ++ es', by rw [hlog', hlog, List.append_assoc], hruns.append_filterMap hruns'⟩

theorem quiet (hlog : log t = log s) (hview : view t = view s) : Traced log view f step s t :=
  ⟨[], by rw [hlog, List.append_nil], hview ▸ .nil _⟩

/-- An event that is none of the component. -/
theorem other (hlog : log t = log s ++ [e]) (he : f e = none) (hview : view t = view s) :
    Traced log view f step s t := by
  refine ⟨[e], hlog, ?_⟩
  simp only [List.filterMap_cons, he, List.filterMap_nil, hview]
  exact .nil _

theorem event (hlog : log t = log s ++ [e]) (he : f e = some x) (hstep : step (view s) x (view t)) :
    Traced log view f step s t := by
  refine ⟨[e], hlog, ?_⟩
  simp only [List.filterMap_cons, he, List.filterMap_nil]
  exact .single hstep

/-- What holds of every move holds of every sequence of moves. -/
theorem moves {move : S → S → Prop} (h : ∀ s t, move s t → Traced log view f step s t)
    (hmoves : Relation.ReflTransGen move s t) : Traced log view f step s t := by
  induction hmoves with
  | refl => exact refl s
  | tail _ hmove ih => exact ih.trans (h _ _ hmove)

/-- The run between two states of which the later history is known. -/
theorem runs (h : Traced log view f step s t) (hlog : log t = log s ++ es) :
    Runs step (view s) (es.filterMap f) (view t) := by
  obtain ⟨es', hlog', hruns⟩ := h
  obtain rfl := List.append_cancel_left (hlog.symm.trans hlog')
  exact hruns

end Traced

end PokeStroller
