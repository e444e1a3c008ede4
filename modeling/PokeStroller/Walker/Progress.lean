import Mathlib.Algebra.Order.Ring.Int
import PokeStroller.Lib.Stutter
import PokeStroller.Walker.Session

/-!
# Emulated time advances

Every call that returns 0 counts two cycles, but for the hard-wired skips,
which count none. A skip moves the program to an address that is not skipped,
so a host that calls until a number of cycles has passed comes to an end.
-/

namespace PokeStroller

namespace Machine

def Skips (m : Machine) : Prop := m.sleep = false ∧ m.toWalker.skipHook.isSome = true

/-- `while (cycles < target) { if (runNextInstruction(&cycles)) return 1; }`,
if it ends within this many calls. -/
def hostLoop (target : BitVec 64) : Nat → Machine → Option (Outcome Fault Machine) :=
  Outcome.loop (fun m => m.cycleCount < target) runNextInstruction

def callsLeft (m : Machine) (target : BitVec 64) : Nat :=
  (target.toNat - m.cycleCount.toNat + 1) / 2

def NoWrap (m : Machine) (target : BitVec 64) : Prop :=
  m.cycleCount.toNat + 2 * m.callsLeft target < 2 ^ 64

instance (m : Machine) (target : BitVec 64) : Decidable (m.NoWrap target) :=
  inferInstanceAs (Decidable (_ < _))

end Machine

-- ---------------------------------------------------------------------------
-- Single calls
-- ---------------------------------------------------------------------------

/-- Where a skip goes there is no other skip. -/
theorem Walker.skipHook_lands {s t : Walker} (h : s.skipHook = some t) : t.skipHook = none := by
  unfold skipHook at h
  split at h
  · rename_i hpc
    cases h
    simp [skipHook, hpc]
  split at h
  · rename_i hpc
    cases h
    simp [skipHook, hpc]
  split at h
  · rename_i hpc
    cases h
    simp [skipHook, hpc]
  · cases h

namespace Machine

variable {m t : Machine}

theorem finishCall_count (h : m.finishCall = .ok t) : t.cycleCount = m.cycleCount + 2 := by
  unfold finishCall clockHandling at h
  obtain ⟨u, hu, ht⟩ := Outcome.andThen_eq_ok.mp h
  obtain ⟨-, -, -, hfirst⟩ := clockCycle_ok hu
  obtain ⟨-, -, -, hsecond⟩ := clockCycle_ok ht
  rw [hsecond, hfirst]
  exact BitVec.add_assoc _ _ _

theorem call_counts (h : m.runNextInstruction = .ok t) (hs : ¬ m.Skips) :
    t.cycleCount = m.cycleCount + 2 := by
  rcases runNextInstruction_cases (Outcome.leaves_of_ok h) with
    ⟨s, hs, -⟩ | ⟨hawake, s, hskip, -⟩ | ⟨hawake, hskip, s, hs, -⟩
  · rw [hs.run] at h
    have hcount := finishCall_count h
    exact hcount
  · exact absurd ⟨hawake, by rw [hskip]; rfl⟩ hs
  · simp [runNextInstruction, hawake, hskip, hs] at h

theorem call_skips (h : m.runNextInstruction = .ok t) (hs : m.Skips) :
    t.cycleCount = m.cycleCount ∧ ¬ t.Skips := by
  obtain ⟨hawake, hskip⟩ := hs
  obtain ⟨s, hskip⟩ := Option.isSome_iff_exists.mp hskip
  simp only [runNextInstruction, hawake, hskip, Bool.false_eq_true, ↓reduceIte] at h
  cases h
  refine ⟨rfl, ?_⟩
  rintro ⟨-, hagain⟩
  rw [show ({ m with toWalker := s } : Machine).toWalker.skipHook = none from
    Walker.skipHook_lands hskip] at hagain
  cases hagain

-- ---------------------------------------------------------------------------
-- The loop
-- ---------------------------------------------------------------------------

theorem countdown (target : BitVec 64) :
    Countdown (fun m : Machine => m.cycleCount < target) runNextInstruction
      (·.NoWrap target) Skips (·.callsLeft target) where
  remains {s} _ hbusy := by
    simp only [decide_eq_true_eq, BitVec.lt_def] at hbusy
    unfold callsLeft
    omega
  keeps {s t} hfits hbusy hcall := by
    by_cases hskip : s.Skips
    · unfold NoWrap callsLeft at hfits ⊢
      rw [(call_skips hcall hskip).1]
      exact hfits
    · simp only [decide_eq_true_eq, BitVec.lt_def] at hbusy
      unfold NoWrap callsLeft at hfits ⊢
      rw [call_counts hcall hskip, BitVec.toNat_add, show (2 : BitVec 64).toNat = 2 from rfl]
      omega
  works {s t} hfits hbusy hcall hskip := by
    simp only [decide_eq_true_eq, BitVec.lt_def] at hbusy
    unfold NoWrap callsLeft at hfits
    unfold callsLeft
    rw [call_counts hcall hskip, BitVec.toNat_add, show (2 : BitVec 64).toNat = 2 from rfl]
    omega
  idles {s t} _ _ hcall hskip := by
    obtain ⟨hcount, hnext⟩ := call_skips hcall hskip
    refine ⟨?_, hnext⟩
    unfold callsLeft
    rw [hcount]

/-- A call that returns 0 counts two cycles or is a skip, never one after
another; and the loop of the host ends, unless the counter would overflow
before it reaches the target. -/
theorem host_loop_ends :
    (∀ m t : Machine, m.runNextInstruction = .ok t →
      (¬ m.Skips ∧ t.cycleCount = m.cycleCount + 2) ∨
      (m.Skips ∧ t.cycleCount = m.cycleCount ∧ ¬ t.Skips)) ∧
    ∀ (m : Machine) (target : BitVec 64), m.NoWrap target →
      (hostLoop target (2 * m.callsLeft target + 1) m).isSome := by
  constructor
  · intro m t h
    by_cases hskip : m.Skips
    · exact .inr ⟨hskip, call_skips h hskip⟩
    · exact .inl ⟨hskip, call_counts h hskip⟩
  · intro m target hfits
    exact (countdown target).ends hfits (Nat.le_succ _)

/-- Asleep from cycle 0, four cycles are over after at most five calls. -/
theorem host_loop_ends_asleep : (hostLoop 4 5 { sleep := true }).isSome :=
  host_loop_ends.2 { sleep := true } 4 (by decide)

/-- The last target is odd, and an even count steps over it to 0. -/
theorem host_loop_overflow : ¬ ∀ (m : Machine) (target : BitVec 64),
    (hostLoop target (2 * m.callsLeft target + 1) m).isSome := by
  intro claim
  have h := claim { sleep := true, cycleCount := 0xfffffffffffffffe } 0xffffffffffffffff
  exact absurd h (by decide)

end Machine

end PokeStroller
