import PokeStroller.Lib.Runs
import PokeStroller.Lib.Slot

/-!
# Registers with a flag

A register for one value, with a flag that it is full. One side is a program that
looks at the flag; the other is a device that obeys it. If the program acts only
after it has seen its turn, every value is handed over exactly once.
-/

namespace PokeStroller

structure Mailbox (α : Type) where
  full : Bool
  data : α
  deriving DecidableEq, Repr

inductive MailEvent (α : Type)
  /-- the program reads the flag -/
  | poll (full : Bool)
  | put (a : α)
  | take (a : α)
  /-- the program makes the register empty, or leaves it as it is -/
  | clear
  /-- anything else -/
  | force
  deriving DecidableEq, Repr

namespace MailEvent

def slot : MailEvent α → Option (SlotEvent α)
  | put a => some (.put a)
  | take a => some (.take a)
  | _ => none

def putOf : MailEvent α → Option α
  | put a => some a
  | _ => none

def takeOf : MailEvent α → Option α
  | take a => some a
  | _ => none

theorem puts_slots (log : List (MailEvent α)) :
    Slot.puts (log.filterMap slot) = log.filterMap putOf := by
  induction log with
  | nil => rfl
  | cons e log ih => cases e <;> simp only [List.filterMap_cons, slot, putOf, Slot.puts, ih]

theorem takes_slots (log : List (MailEvent α)) :
    Slot.takes (log.filterMap slot) = log.filterMap takeOf := by
  induction log with
  | nil => rfl
  | cons e log ih => cases e <;> simp only [List.filterMap_cons, slot, takeOf, Slot.takes, ih]

/-- Whether a program that puts has seen its turn since it last put; `none` if it has
acted without. -/
def sending : Bool → MailEvent α → Option Bool
  | seen, poll full => some (seen || !full)
  | true, put _ => some false
  | seen, take _ => some seen
  | true, clear => some true
  | _, _ => none

/-- The same for a program that takes. -/
def receiving : Bool → MailEvent α → Option Bool
  | seen, poll full => some (seen || full)
  | true, take _ => some false
  | seen, put _ => some seen
  | _, _ => none

/-- A program that acts in turn. -/
def Polite (next : Bool → MailEvent α → Option Bool) (seen : Bool) (log : List (MailEvent α)) :
    Prop := (log.foldlM next seen).isSome = true

instance (next : Bool → MailEvent α → Option Bool) (seen : Bool) (log : List (MailEvent α)) :
    Decidable (Polite next seen log) := inferInstanceAs (Decidable (_ = true))

theorem Polite.cons {next : Bool → MailEvent α → Option Bool} (h : Polite next seen (e :: log)) :
    ∃ seen', next seen e = some seen' ∧ Polite next seen' log := by
  unfold Polite at h
  rw [List.foldlM_cons] at h
  cases hnext : next seen e with
  | none =>
    rw [hnext] at h
    cases h
  | some seen' =>
    rw [hnext] at h
    exact ⟨seen', rfl, h⟩

end MailEvent

namespace Mailbox

def content (m : Mailbox α) : Option α := if m.full then some m.data else none

theorem content_empty {m : Mailbox α} (h : m.full = false) : m.content.toList = [] := by
  rw [content, h]
  rfl

/-- The program puts, the device takes what is there. -/
inductive Sends : Mailbox α → MailEvent α → Mailbox α → Prop
  | poll (m : Mailbox α) : Sends m (.poll m.full) m
  | put (a : α) (m : Mailbox α) : Sends m (.put a) ⟨true, a⟩
  | take {m : Mailbox α} : m.full = true → Sends m (.take m.data) ⟨false, m.data⟩
  | clear {m m' : Mailbox α} : (m.full = false → m'.full = false) → Sends m .clear m'
  | force (m m' : Mailbox α) : Sends m .force m'

/-- The device puts where there is room, the program takes. -/
inductive Receives : Mailbox α → MailEvent α → Mailbox α → Prop
  | poll (m : Mailbox α) : Receives m (.poll m.full) m
  | put (a : α) {m : Mailbox α} : m.full = false → Receives m (.put a) ⟨true, a⟩
  | take (m : Mailbox α) : Receives m (.take m.data) ⟨false, m.data⟩
  | force (m m' : Mailbox α) : Receives m .force m'

variable [DecidableEq α] {m m' : Mailbox α} {log : List (MailEvent α)}

/-- A program that has seen its turn finds the register empty, so it overwrites nothing. -/
theorem Sends.run (h : Runs Sends m log m') (hseen : seen = true → m.full = false)
    (hpolite : MailEvent.Polite MailEvent.sending seen log) :
    Slot.run m.content (log.filterMap MailEvent.slot) = some m'.content := by
  induction h generalizing seen with
  | nil => rfl
  | cons hstep _ ih =>
    obtain ⟨seen', hnext, hrest⟩ := hpolite.cons
    cases hstep with
    | poll _ =>
      cases hnext
      refine ih (fun h => ?_) hrest
      simp only [Bool.or_eq_true, Bool.not_eq_true'] at h
      exact h.elim hseen id
    | put a _ =>
      cases seen with
      | true =>
        cases hnext
        have hempty := hseen rfl
        simp only [MailEvent.slot, List.filterMap_cons, Slot.run_cons, content, hempty]
        exact ih (fun h => absurd h Bool.false_ne_true) hrest
      | false => cases hnext
    | take hfull =>
      cases hnext
      have hslot := ih (fun _ => rfl) hrest
      simp only [MailEvent.slot, List.filterMap_cons, Slot.run_cons, content, hfull, if_true]
      simpa [Slot.next, content] using hslot
    | clear hkept =>
      cases seen with
      | true =>
        cases hnext
        have hempty := hseen rfl
        have hslot := ih (fun _ => hkept hempty) hrest
        simp only [content, hkept hempty] at hslot
        simp only [MailEvent.slot, List.filterMap_cons, content, hempty]
        exact hslot
      | false => cases hnext
    | force _ _ => cases seen <;> cases hnext

/-- A program that has seen its turn finds the register full, so it takes nothing twice. -/
theorem Receives.run (h : Runs Receives m log m') (hseen : seen = true → m.full = true)
    (hpolite : MailEvent.Polite MailEvent.receiving seen log) :
    Slot.run m.content (log.filterMap MailEvent.slot) = some m'.content := by
  induction h generalizing seen with
  | nil => rfl
  | cons hstep _ ih =>
    obtain ⟨seen', hnext, hrest⟩ := hpolite.cons
    cases hstep with
    | poll _ =>
      cases hnext
      refine ih (fun h => ?_) hrest
      simp only [Bool.or_eq_true] at h
      exact h.elim hseen id
    | put a hempty =>
      cases hnext
      simp only [MailEvent.slot, List.filterMap_cons, Slot.run_cons, content, hempty]
      exact ih (fun _ => rfl) hrest
    | take _ =>
      cases seen with
      | true =>
        cases hnext
        have hslot := ih (fun h => absurd h Bool.false_ne_true) hrest
        simp only [MailEvent.slot, List.filterMap_cons, Slot.run_cons, content, hseen rfl, if_true]
        simpa [Slot.next, content] using hslot
      | false => cases hnext
    | force _ _ => cases seen <;> cases hnext

/-- Every value that was in the register or has been put has been taken, in order and once,
or is in the register. -/
theorem Sends.exactly_once (h : Runs Sends m log m')
    (hpolite : MailEvent.Polite MailEvent.sending (!m.full) log) :
    m.content.toList ++ log.filterMap MailEvent.putOf =
      log.filterMap MailEvent.takeOf ++ m'.content.toList := by
  have hslots := Slot.puts_eq (Sends.run h (Bool.not_eq_true' _).mp hpolite)
  rw [MailEvent.puts_slots, MailEvent.takes_slots] at hslots
  exact hslots

theorem Receives.exactly_once (h : Runs Receives m log m')
    (hpolite : MailEvent.Polite MailEvent.receiving m.full log) :
    m.content.toList ++ log.filterMap MailEvent.putOf =
      log.filterMap MailEvent.takeOf ++ m'.content.toList := by
  have hslots := Slot.puts_eq (Receives.run h id hpolite)
  rw [MailEvent.puts_slots, MailEvent.takes_slots] at hslots
  exact hslots

end Mailbox

end PokeStroller
