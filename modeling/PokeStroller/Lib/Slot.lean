/-!
# One-place channels

A register that holds one value at a time: `put` needs it empty, `take` needs
the value in it. A log is in order if the channel accepts it from empty, and
then every value put has been taken exactly once, but for one still inside.
-/

namespace PokeStroller

inductive SlotEvent (α : Type)
  | put (a : α)
  | take (a : α)
  deriving DecidableEq, Repr

namespace Slot

variable [DecidableEq α]

/-- The content after an event; `none` if the event is out of order. -/
def next : Option α → SlotEvent α → Option (Option α)
  | none, .put a => some (some a)
  | some b, .take a => if a = b then some none else none
  | _, _ => none

def run : Option α → List (SlotEvent α) → Option (Option α)
  | p, [] => some p
  | p, e :: es => (next p e).bind fun q => run q es

@[simp] theorem run_nil (p : Option α) : run p [] = some p := rfl

@[simp] theorem run_cons (p : Option α) (e : SlotEvent α) (es : List (SlotEvent α)) :
    run p (e :: es) = (next p e).bind fun q => run q es := rfl

theorem run_append (p : Option α) (es es' : List (SlotEvent α)) :
    run p (es ++ es') = (run p es).bind fun q => run q es' := by
  induction es generalizing p with
  | nil => rfl
  | cons e es ih =>
    simp only [List.cons_append, run_cons]
    cases next p e with
    | none => rfl
    | some q => exact ih q

def puts : List (SlotEvent α) → List α
  | [] => []
  | .put a :: es => a :: puts es
  | .take _ :: es => puts es

def takes : List (SlotEvent α) → List α
  | [] => []
  | .put _ :: es => takes es
  | .take a :: es => a :: takes es

/-- What went in has come out in order, or is inside. -/
theorem puts_eq {p q : Option α} {es : List (SlotEvent α)} (h : run p es = some q) :
    p.toList ++ puts es = takes es ++ q.toList := by
  induction es generalizing p with
  | nil => cases h; simp [puts, takes]
  | cons e es ih =>
    obtain ⟨r, hr, h⟩ := Option.bind_eq_some_iff.mp h
    have tail := ih h
    cases e with
    | put a =>
      cases p with
      | none => cases hr; exact tail
      | some b => cases hr
    | take a =>
      cases p with
      | none => cases hr
      | some b =>
        simp only [next] at hr
        split at hr
        · cases hr
          rename_i hab
          simpa [puts, takes, hab] using tail
        · cases hr

end Slot

end PokeStroller
