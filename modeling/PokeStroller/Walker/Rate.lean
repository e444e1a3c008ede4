import PokeStroller.Walker.Idle

/-!
# The rate of the subclock

The quotient of the two clock rates is 112.5 and the code divides by 112. A
run is watched by a meter that counts the calls of `runSubClock` and is read
at the end of each clock cycle.
-/

namespace PokeStroller

/-- A machine and its meter: `subClocks` counts the calls of `runSubClock`, and
the reading `readings[n]` is its value when the cycle count has reached `n`. -/
structure Metered extends Machine where
  subClocks : Nat := 0
  readings : List Nat := [0]

namespace Metered

-- ---------------------------------------------------------------------------
-- The metered call
-- ---------------------------------------------------------------------------

def clockCycle (m : Metered) : Outcome Fault Metered :=
  let m := { m with cycleCount := m.cycleCount + 1 }
  let ticked : Outcome Fault Metered :=
    if m.cycleCount % 4 = 0 then m.toWalker.ssuTick.map fun s => { m with toWalker := s }
    else .ok m
  ticked.andThen fun m =>
    if m.cycleCount %
        BitVec.ofNat 64 (SYSTEM_CLOCK_CYCLES_PER_SECOND / SUB_CLOCK_CYCLES_PER_SECOND) = 0 then
      let s := { m.toWalker with subClockCyclesEllapsed := m.subClockCyclesEllapsed + 1 }
      .ok { m with
        toWalker := s.runSubClock
        subClocks := m.subClocks + 1
        readings := m.readings ++ [m.subClocks + 1] }
    else .ok { m with readings := m.readings ++ [m.subClocks] }

def finishCall (m : Metered) : Outcome Fault Metered :=
  ({ m with toWalker := m.toWalker.interruptHandling } : Metered).clockCycle.andThen clockCycle

def runNextInstruction (m : Metered) : Outcome Fault Metered :=
  if m.sleep then m.finishCall
  else match m.toWalker.skipHook with
    | some s => .ok { m with toWalker := s }
    | none =>
      (m.toWalker.instructionPhase.map fun s => { m with toWalker := s }).andThen finishCall

def host (m : Metered) (f : Walker → Walker) : Metered := { m with toWalker := f m.toWalker }

inductive Step : Metered → Event → Metered → Prop
  | call {m t : Metered} : m.runNextInstruction = .ok t → Step m .call t
  | setKeys (m : Metered) (input : Byte) : Step m (.setKeys input) (m.host (·.setKeys input))
  | quarterRTCInterrupt (m : Metered) :
      Step m .quarterRTCInterrupt (m.host (·.quarterRTCInterrupt))

def start (s : Walker) : Metered := { toWalker := s, cycleCount := 0 }

-- ---------------------------------------------------------------------------
-- The meter only watches
-- ---------------------------------------------------------------------------

theorem clockCycle_toMachine (m : Metered) :
    m.clockCycle.map toMachine = m.toMachine.clockCycle := by
  unfold clockCycle Machine.clockCycle
  dsimp only
  by_cases htick : (m.cycleCount + 1) % 4 = 0
  · simp only [htick, ↓reduceIte]
    cases m.toWalker.ssuTick with
    | ok s =>
      simp only [Outcome.map_ok, Outcome.andThen_ok]
      split <;> rfl
    | error s => rfl
    | fault e => rfl
  · simp only [htick, ↓reduceIte, Outcome.andThen_ok]
    split <;> rfl

theorem finishCall_toMachine (m : Metered) :
    m.finishCall.map toMachine = m.toMachine.finishCall := by
  unfold finishCall
  rw [Outcome.map_andThen fun t _ => t.clockCycle_toMachine, clockCycle_toMachine]
  rfl

theorem runNextInstruction_toMachine (m : Metered) :
    m.runNextInstruction.map toMachine = m.toMachine.runNextInstruction := by
  unfold runNextInstruction Machine.runNextInstruction
  cases m.sleep with
  | true => exact m.finishCall_toMachine
  | false =>
    simp only [Bool.false_eq_true, ↓reduceIte]
    cases m.toWalker.skipHook with
    | some s => rfl
    | none =>
      refine (Outcome.map_andThen fun t _ => t.finishCall_toMachine).trans ?_
      exact congrArg (Outcome.andThen · Machine.finishCall) (Outcome.map_map _ _ _)

theorem call_of_machine {m : Metered} {t : Machine} (h : m.toMachine.runNextInstruction = .ok t) :
    ∃ u : Metered, m.runNextInstruction = .ok u ∧ u.toMachine = t := by
  rw [← m.runNextInstruction_toMachine] at h
  exact Outcome.map_eq_ok.mp h

-- ---------------------------------------------------------------------------
-- The readings
-- ---------------------------------------------------------------------------

/-- The multiples of 112 that a 64-bit count from 0 meets in `n` increments. At
each wrap it meets 0. -/
def subClocksBy (n : Nat) : Nat := n / 2 ^ 64 * (2 ^ 64 / 112 + 1) + n % 2 ^ 64 / 112

theorem subClocksBy_succ (n : Nat) : subClocksBy (n + 1) =
    subClocksBy n + if (n + 1) % 2 ^ 64 % 112 = 0 then 1 else 0 := by
  unfold subClocksBy
  split <;> omega

theorem subClockAt_ofNat (n : Nat) :
    Machine.SubClockAt (BitVec.ofNat 64 n) ↔ n % 2 ^ 64 % 112 = 0 := by
  rw [Machine.subClockAt_iff, BitVec.toNat_ofNat]

/-- After `n` cycles the meter has been read at 0, 1, ..., `n`. -/
structure ReadTo (m : Metered) (n : Nat) : Prop where
  cycles : m.cycleCount = BitVec.ofNat 64 n
  subClocks : m.subClocks = subClocksBy n
  readings : m.readings = (List.range (n + 1)).map subClocksBy

theorem ReadTo.start (s : Walker) : (start s).ReadTo 0 := ⟨rfl, rfl, rfl⟩

theorem ReadTo.mono {m t : Metered} (h : m.ReadTo n) (hc : t.cycleCount = m.cycleCount)
    (hs : t.subClocks = m.subClocks) (hr : t.readings = m.readings) : t.ReadTo n :=
  ⟨hc.trans h.cycles, hs.trans h.subClocks, hr.trans h.readings⟩

theorem ReadTo.clockCycle {m t : Metered} (h : m.ReadTo n) (ht : m.clockCycle = .ok t) :
    t.ReadTo (n + 1) := by
  have hcount : m.cycleCount + 1 = BitVec.ofNat 64 (n + 1) := by
    rw [h.cycles, BitVec.ofNat_add]
    rfl
  unfold Metered.clockCycle at ht
  obtain ⟨c, hc, ht⟩ := Outcome.andThen_eq_ok.mp ht
  -- the SSU tick does not touch the meter
  have hticked : c.cycleCount = BitVec.ofNat 64 (n + 1) ∧ c.subClocks = m.subClocks ∧
      c.readings = m.readings := by
    dsimp only at hc
    split at hc
    · obtain ⟨s, -, rfl⟩ := Outcome.map_eq_ok.mp hc
      exact ⟨hcount, rfl, rfl⟩
    · cases hc
      exact ⟨hcount, rfl, rfl⟩
  obtain ⟨hcycles, hsub, hread⟩ := hticked
  have hnext : (List.range (n + 1 + 1)).map subClocksBy = m.readings ++ [subClocksBy (n + 1)] := by
    rw [List.range_succ, List.map_append, h.readings]
    rfl
  rw [subClocksBy_succ, ← h.subClocks] at hnext
  split at ht
  · rename_i hdue
    have hdue : (n + 1) % 2 ^ 64 % 112 = 0 := (subClockAt_ofNat _).mp (hcycles ▸ hdue)
    cases ht
    rw [if_pos hdue] at hnext
    refine ⟨hcycles, ?_, ?_⟩
    · rw [subClocksBy_succ, if_pos hdue, ← h.subClocks, hsub]
    · rw [hnext, hsub, hread]
  · rename_i hdue
    have hdue : ¬ (n + 1) % 2 ^ 64 % 112 = 0 :=
      fun h => hdue (hcycles ▸ (subClockAt_ofNat _).mpr h)
    cases ht
    rw [if_neg hdue] at hnext
    refine ⟨hcycles, ?_, ?_⟩
    · rw [subClocksBy_succ, if_neg hdue, ← h.subClocks, hsub, Nat.add_zero]
    · rw [hnext, hsub, hread, Nat.add_zero]

theorem ReadTo.finishCall {m t : Metered} (h : m.ReadTo n) (ht : m.finishCall = .ok t) :
    t.ReadTo (n + 2) := by
  obtain ⟨u, hu, ht⟩ := Outcome.andThen_eq_ok.mp ht
  have hdispatched := h.mono (t := { m with toWalker := m.interruptHandling }) rfl rfl rfl
  exact (hdispatched.clockCycle hu).clockCycle ht

theorem ReadTo.call {m t : Metered} (h : m.ReadTo n) (ht : m.runNextInstruction = .ok t) :
    t.ReadTo n ∨ t.ReadTo (n + 2) := by
  unfold Metered.runNextInstruction at ht
  split at ht
  · exact .inr (h.finishCall ht)
  · split at ht
    · cases ht
      exact .inl (h.mono rfl rfl rfl)
    · obtain ⟨u, hu, ht⟩ := Outcome.andThen_eq_ok.mp ht
      obtain ⟨s, -, rfl⟩ := Outcome.map_eq_ok.mp hu
      have hinstruction := h.mono (t := { m with toWalker := s }) rfl rfl rfl
      exact .inr (hinstruction.finishCall ht)

theorem readTo_run {s : Walker} {es : List Event} {t : Metered}
    (h : Runs Step (Metered.start s) es t) : ∃ n, t.ReadTo n := by
  refine h.invariant (I := fun u => ∃ n, u.ReadTo n) ?_ ⟨0, .start s⟩
  rintro m e u hstep ⟨n, hm⟩
  cases hstep with
  | call hcall => exact (hm.call hcall).elim (fun h => ⟨n, h⟩) fun h => ⟨n + 2, h⟩
  | setKeys input => exact ⟨n, hm.mono rfl rfl rfl⟩
  | quarterRTCInterrupt => exact ⟨n, hm.mono rfl rfl rfl⟩

theorem ReadTo.reading {m : Metered} (h : m.ReadTo n) {i k : Nat} (hk : m.readings[i]? = some k) :
    k = subClocksBy i := by
  rw [h.readings, List.getElem?_map] at hk
  obtain ⟨j, hj, rfl⟩ := Option.map_eq_some_iff.mp hk
  obtain ⟨hi, rfl⟩ := List.getElem?_eq_some_iff.mp hj
  rw [List.getElem_range]

-- ---------------------------------------------------------------------------
-- The rate
-- ---------------------------------------------------------------------------

/-- The division by 112 where the clocks have the quotient 112.5: `n` cycles
hold too many subclocks once the halves have added up. -/
theorem subClocksBy_exact (n : Nat) :
    subClocksBy n = n * SUB_CLOCK_CYCLES_PER_SECOND / SYSTEM_CLOCK_CYCLES_PER_SECOND ↔
      n / 112 ≤ 2 * (n % 112) := by
  unfold subClocksBy SUB_CLOCK_CYCLES_PER_SECOND SYSTEM_CLOCK_CYCLES_PER_SECOND
  rcases Nat.lt_or_ge n (2 ^ 64) with hfirst | hwrapped
  · rw [Nat.div_eq_of_lt hfirst, Nat.mod_eq_of_lt hfirst, Nat.zero_mul, Nat.zero_add]
    constructor
    · intro h
      omega
    · intro h
      omega
  · omega

/-- The calls of `runSubClock` by cycle `n` of a run are the subclocks in `n`
cycles exactly where the lost halves have not yet made one. No `n` from 24976 on
is such. -/
theorem subClock_rate {s : Walker} {es : List Event} {t : Metered} {n k : Nat}
    (h : Runs Step (start s) es t) (hk : t.readings[n]? = some k) :
    k = n * SUB_CLOCK_CYCLES_PER_SECOND / SYSTEM_CLOCK_CYCLES_PER_SECOND ↔
      n / 112 ≤ 2 * (n % 112) := by
  obtain ⟨last, hread⟩ := readTo_run h
  rw [hread.reading hk]
  exact subClocksBy_exact n

-- ---------------------------------------------------------------------------
-- An idle second
-- ---------------------------------------------------------------------------

theorem ReadTo.two {m t : Metered} (h : m.ReadTo n) (ht : m.runNextInstruction = .ok t)
    (hcount : t.cycleCount = m.cycleCount + 2) : t.ReadTo (n + 2) := by
  rcases h.call ht with hskip | hread
  · have hsame : t.cycleCount = m.cycleCount := hskip.cycles.trans h.cycles.symm
    bv_omega
  · exact hread

theorem idle_run (n : Nat) : ∃ t : Metered,
    Runs Step (start Machine.sleeper.toWalker) (List.replicate (n + 1) .call) t ∧
      t.Idle ∧ t.ReadTo (2 * (n + 1)) := by
  induction n with
  | zero =>
    obtain ⟨_, hcall, hidle, hcount⟩ := Machine.sleeper_idles
    obtain ⟨t, ht, rfl⟩ := call_of_machine (m := start Machine.sleeper.toWalker) hcall
    exact ⟨t, .single (.call ht), hidle, (ReadTo.start _).two ht hcount⟩
  | succ n ih =>
    obtain ⟨m, hrun, hidle, hread⟩ := ih
    obtain ⟨_, hcall, hidle', hcount⟩ := Machine.call_idle hidle
    obtain ⟨t, ht, rfl⟩ := call_of_machine hcall
    refine ⟨t, ?_, hidle', hread.two ht hcount⟩
    rw [List.replicate_succ']
    exact hrun.append (.single (.call ht))

/-- The 56th call of a sleeping walker ends in a subclock half a cycle early. -/
theorem subClock_rate_sleeper : ∃ (t : Metered) (k : Nat), t.readings[113]? = some k ∧
    (k = 113 * SUB_CLOCK_CYCLES_PER_SECOND / SYSTEM_CLOCK_CYCLES_PER_SECOND ↔
      113 / 112 ≤ 2 * (113 % 112)) := by
  obtain ⟨t, hrun, -, hread⟩ := idle_run 56
  have hk : t.readings[113]? = some (subClocksBy 113) := by
    rw [hread.readings]
    rfl
  exact ⟨t, _, hk, subClock_rate hrun hk⟩

/-- One second asleep: 32914 subclocks instead of 32768. -/
theorem subClock_drift : ¬ ∀ (s : Walker) (es : List Event) (t : Metered) (n k : Nat),
    Runs Step (start s) es t → t.readings[n]? = some k →
      k = n * SUB_CLOCK_CYCLES_PER_SECOND / SYSTEM_CLOCK_CYCLES_PER_SECOND := by
  intro claim
  obtain ⟨t, hrun, -, hread⟩ := idle_run 1843199
  have hk : t.readings[3686400]? = some 32914 := by
    rw [hread.readings, List.getElem?_map, List.getElem?_range (by decide)]
    rfl
  exact absurd (claim _ _ _ _ _ hrun hk) (by decide)

end Metered

end PokeStroller
