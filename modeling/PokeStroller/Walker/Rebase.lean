import Mathlib.Data.List.Induction
import PokeStroller.Walker.Idle

/-!
# Rebasing the cycle count

WinMain takes a quarter of a second off the count when it gets there, and the
smoke test lets it grow. A quarter second is 921600 cycles: a multiple of 4,
so the SSU keeps its phase, but not of 112.
-/

namespace PokeStroller

def TICKS_PER_SEC : Nat := 4

def QUARTER : BitVec 64 := BitVec.ofNat 64 (SYSTEM_CLOCK_CYCLES_PER_SECOND / TICKS_PER_SEC)

inductive Turn
  | setKeys (input : Byte)
  | call
  | quarter
  deriving DecidableEq

namespace Machine

/-- The loop of WinMain, which goes on as long as the calls return 0. -/
inductive WinMain : Machine → Turn → Machine → Prop
  | setKeys (m : Machine) (input : Byte) : WinMain m (.setKeys input) (m.host (·.setKeys input))
  | call {m t : Machine} :
      m.runNextInstruction = .ok t → ¬ QUARTER ≤ t.cycleCount → WinMain m .call t
  | quarter {m t : Machine} : m.runNextInstruction = .ok t → QUARTER ≤ t.cycleCount →
      WinMain m .quarter
        ({ t with cycleCount := t.cycleCount - QUARTER }.host (·.quarterRTCInterrupt))

/-- The loop of smoke.c, made to follow the same turns. -/
inductive Smoke : Machine → Turn → Machine → Prop
  | setKeys (m : Machine) (input : Byte) : Smoke m (.setKeys input) (m.host (·.setKeys input))
  | call {m t : Machine} : m.runNextInstruction = .ok t → Smoke m .call t
  | quarter {m t : Machine} : m.runNextInstruction = .ok t →
      Smoke m .quarter (t.host (·.quarterRTCInterrupt))

def atZero (s : Walker) : Machine := { toWalker := s, cycleCount := 0 }

-- ---------------------------------------------------------------------------
-- A call at another count
-- ---------------------------------------------------------------------------

def delay (m : Machine) (d : BitVec 64) : Machine := { m with cycleCount := m.cycleCount + d }

/-- Neither cycle of a call sees the delay. -/
structure InPhase (m : Machine) (d : BitVec 64) : Prop where
  ssu : d.toNat % 4 = 0
  first : SubClockAt (m.cycleCount + 1 + d) ↔ SubClockAt (m.cycleCount + 1)
  second : SubClockAt (m.cycleCount + 1 + 1 + d) ↔ SubClockAt (m.cycleCount + 1 + 1)

theorem clockCycle_delay {m : Machine} {d : BitVec 64} (hssu : d.toNat % 4 = 0)
    (hsub : SubClockAt (m.cycleCount + 1 + d) ↔ SubClockAt (m.cycleCount + 1)) :
    (m.delay d).clockCycle = m.clockCycle.map (·.delay d) := by
  have hcount : m.cycleCount + d + 1 = m.cycleCount + 1 + d := by ac_rfl
  have htick : (m.cycleCount + 1 + d) % 4 = 0 ↔ (m.cycleCount + 1) % 4 = 0 := by
    rw [← BitVec.toNat_inj, ← BitVec.toNat_inj, BitVec.toNat_umod, BitVec.toNat_umod,
      BitVec.toNat_add _ d]
    change (_ + _) % 2 ^ 64 % 4 = 0 ↔ _ % 4 = 0
    omega
  unfold SubClockAt at hsub
  unfold clockCycle delay
  dsimp only
  rw [hcount]
  by_cases h : (m.cycleCount + 1) % 4 = 0
  · simp only [h, htick.mpr h, ↓reduceIte]
    cases m.toWalker.ssuTick with
    | ok s =>
      simp only [Outcome.map_ok, Outcome.andThen_ok, hsub]
      split <;> rfl
    | error s => rfl
    | fault e => rfl
  · simp only [h, htick.not.mpr h, ↓reduceIte, Outcome.andThen_ok, hsub]
    split <;> rfl

theorem finishCall_delay {m : Machine} {d : BitVec 64} (h : m.InPhase d) :
    (m.delay d).finishCall = m.finishCall.map (·.delay d) := by
  let c : Machine := { m with toWalker := m.toWalker.interruptHandling }
  have hfirst : (c.delay d).clockCycle = c.clockCycle.map (·.delay d) :=
    clockCycle_delay h.ssu h.first
  change (c.delay d).clockCycle.andThen clockCycle = (c.clockCycle.andThen clockCycle).map _
  rw [hfirst]
  refine (Outcome.map_andThen fun t ht => (clockCycle_delay h.ssu ?_).symm).symm
  obtain ⟨-, -, -, hcount⟩ := clockCycle_ok ht
  rw [hcount]
  exact h.second

theorem call_delay {m : Machine} {d : BitVec 64} (h : ¬ m.Skips → m.InPhase d) :
    (m.delay d).runNextInstruction = m.runNextInstruction.map (·.delay d) := by
  unfold runNextInstruction
  cases hsleep : m.sleep with
  | true =>
    have hphase : m.InPhase d := h fun hs => by simp [Skips, hsleep] at hs
    rw [show (m.delay d).sleep = true from hsleep]
    exact finishCall_delay hphase
  | false =>
    rw [show (m.delay d).sleep = false from hsleep,
      show (m.delay d).toWalker = m.toWalker from rfl]
    simp only [Bool.false_eq_true, ↓reduceIte]
    cases hskip : m.toWalker.skipHook with
    | some s => rfl
    | none =>
      have hphase : m.InPhase d := h fun hs => by simp [Skips, hskip] at hs
      cases m.toWalker.instructionPhase with
      | ok s => exact finishCall_delay (m := { m with toWalker := s }) ⟨hphase.1, hphase.2, hphase.3⟩
      | error s => rfl
      | fault e => rfl

-- ---------------------------------------------------------------------------
-- What a call adds to the subclock
-- ---------------------------------------------------------------------------

theorem clockCycle_subClock {m t : Machine} (h : m.clockCycle = .ok t) :
    (SubClockAt (m.cycleCount + 1) ∧ t.subClockCyclesEllapsed = m.subClockCyclesEllapsed + 1) ∨
    (¬ SubClockAt (m.cycleCount + 1) ∧ t.subClockCyclesEllapsed = m.subClockCyclesEllapsed) := by
  have hssu {u : Walker} (hu : Walker.SsuFrame m.toWalker u) :
      u.subClockCyclesEllapsed = m.subClockCyclesEllapsed :=
    (congrArg (·.subClockCyclesEllapsed) hu.offBus :
      u.offBus.subClockCyclesEllapsed = m.offBus.subClockCyclesEllapsed)
  rcases clockCycle_due h with ⟨hdue, u, hu, ht⟩ | ⟨hdue, hu⟩
  · refine .inl ⟨hdue, ?_⟩
    rw [ht, ← hssu hu]
    obtain ⟨memory, timerB, timerW, -, hsame | ⟨-, hentry⟩⟩ := Walker.runSubClock_eq
      { u with subClockCyclesEllapsed := u.subClockCyclesEllapsed + 1 }
    · rw [hsame]
    · rw [hentry]
      rfl
  · exact .inr ⟨hdue, hssu hu⟩

theorem Dispatches.subClock {m : Machine} (h : m.Dispatches s) :
    (m.dispatched s).subClockCyclesEllapsed = m.subClockCyclesEllapsed := by
  have hs : s.subClockCyclesEllapsed = m.subClockCyclesEllapsed := by
    cases h with
    | asleep => rfl
    | executed _ _ hi =>
      obtain ⟨u, hu, ht⟩ := Outcome.andThen_eq_ok.mp hi
      have hswitch := (Walker.opcodeSwitch_frame _ _).ok hu
      obtain ⟨buffer, hclean⟩ := u.ssuCleanup_eq
      obtain ⟨queue, memory, hhooks, -⟩ := m.toWalker.hooks_eq
      cases ht
      rw [hclean, hswitch, hhooks]
  rcases s.interruptHandling_cases with hkeep | ⟨-, vector, queue, hentry⟩
  · unfold dispatched
    rw [hkeep]
    exact hs
  · unfold dispatched
    rw [hentry]
    exact hs

theorem call_subClock {m t : Machine} (h : m.runNextInstruction = .ok t) (hs : ¬ m.Skips) :
    ∃ u : BitVec 64,
      ((SubClockAt (m.cycleCount + 1) ∧ u = m.subClockCyclesEllapsed + 1) ∨
        (¬ SubClockAt (m.cycleCount + 1) ∧ u = m.subClockCyclesEllapsed)) ∧
      ((SubClockAt (m.cycleCount + 1 + 1) ∧ t.subClockCyclesEllapsed = u + 1) ∨
        (¬ SubClockAt (m.cycleCount + 1 + 1) ∧ t.subClockCyclesEllapsed = u)) := by
  rcases runNextInstruction_cases (Outcome.leaves_of_ok h) with
    ⟨s, hd, -⟩ | ⟨hawake, s, hskip, -⟩ | ⟨hawake, hskip, s, hi, -⟩
  · rw [hd.run_clocks] at h
    obtain ⟨u, hu, ht⟩ := Outcome.andThen_eq_ok.mp h
    obtain ⟨-, -, -, hcount⟩ := clockCycle_ok hu
    have hfirst := clockCycle_subClock hu
    have hsecond := clockCycle_subClock ht
    rw [hd.subClock] at hfirst
    rw [hcount] at hsecond
    exact ⟨u.subClockCyclesEllapsed, hfirst, hsecond⟩
  · exact absurd ⟨hawake, by rw [hskip]; rfl⟩ hs
  · simp [runNextInstruction, hawake, hskip, hi] at h

-- ---------------------------------------------------------------------------
-- Until the phases slip
-- ---------------------------------------------------------------------------

def rebased (es : List Turn) : BitVec 64 := QUARTER * BitVec.ofNat 64 (es.count .quarter)

/-- Fewer than 921648 cycles, the first multiple of 112 after the first quarter. -/
def BeforeSlip (es : List Turn) (r : Machine) : Prop :=
  es.count .quarter = 0 ∨ (es.count .quarter = 1 ∧ r.cycleCount < 48)

theorem call_count {m t : Machine} (h : m.runNextInstruction = .ok t)
    (hm : m.cycleCount < QUARTER) :
    (m.Skips ∧ t.cycleCount.toNat = m.cycleCount.toNat) ∨
      (¬ m.Skips ∧ t.cycleCount.toNat = m.cycleCount.toNat + 2) := by
  by_cases hs : m.Skips
  · exact .inl ⟨hs, by rw [(call_skips h hs).1]⟩
  · refine .inr ⟨hs, ?_⟩
    have hlt : m.cycleCount.toNat < 921600 := BitVec.lt_def.mp hm
    rw [call_counts h hs, BitVec.toNat_add, show (2 : BitVec 64).toNat = 2 from rfl]
    omega

theorem WinMain.below {m t : Machine} {e : Turn} (h : WinMain m e t)
    (hm : m.cycleCount < QUARTER) : t.cycleCount < QUARTER := by
  cases h with
  | setKeys => exact hm
  | call _ hbelow => exact BitVec.not_le.mp hbelow
  | @quarter t hcall habove =>
    have hlt : m.cycleCount.toNat < 921600 := BitVec.lt_def.mp hm
    have hge : 921600 ≤ t.cycleCount.toNat := BitVec.le_def.mp habove
    have hcount := call_count hcall hm
    change t.cycleCount - QUARTER < QUARTER
    rw [BitVec.lt_def, BitVec.toNat_sub]
    change (2 ^ 64 - 921600 + _) % 2 ^ 64 < 921600
    omega

theorem winMain_below {s : Walker} (h : Runs WinMain (atZero s) es r) : r.cycleCount < QUARTER :=
  h.invariant (I := fun m => m.cycleCount < QUARTER) (fun _ _ _ hs => hs.below)
    (show (0 : BitVec 64) < QUARTER by decide)

theorem inPhase_early {m : Machine} (h : m.cycleCount.toNat + 2 < 48) : m.InPhase QUARTER := by
  have hone : (m.cycleCount + 1).toNat = m.cycleCount.toNat + 1 := by
    rw [BitVec.toNat_add, show (1 : BitVec 64).toNat = 1 from rfl]
    omega
  have htwo : (m.cycleCount + 1 + 1).toNat = m.cycleCount.toNat + 2 := by
    rw [BitVec.toNat_add, show (1 : BitVec 64).toNat = 1 from rfl]
    omega
  have hlate {c : BitVec 64} (hc : c.toNat < 48) : (c + QUARTER).toNat = c.toNat + 921600 := by
    rw [BitVec.toNat_add]
    exact Nat.mod_eq_of_lt (Nat.add_lt_of_lt_sub (hc.trans (by decide)))
  refine ⟨by decide, ?_, ?_⟩
  · rw [subClockAt_iff, subClockAt_iff, hlate (by omega), hone]
    omega
  · rw [subClockAt_iff, subClockAt_iff, hlate (by omega), htwo]
    omega

theorem inPhase_zero (m : Machine) : m.InPhase 0 := by
  refine ⟨rfl, ?_, ?_⟩
  · simp
  · simp

theorem BeforeSlip.before {es : List Turn} {m r : Machine} (h : BeforeSlip (es ++ [e]) r)
    (hstep : WinMain m e r) (hm : m.cycleCount < QUARTER) : BeforeSlip es m := by
  unfold BeforeSlip at h ⊢
  rw [List.count_append] at h
  cases hstep with
  | setKeys => exact h
  | call hcall _ =>
    refine h.imp id fun ⟨hone, hlt⟩ => ⟨hone, ?_⟩
    rw [BitVec.lt_def] at hlt ⊢
    rcases call_count hcall hm with ⟨-, hcount⟩ | ⟨-, hcount⟩ <;> omega
  | quarter =>
    rw [List.count_singleton_self] at h
    omega

theorem delay_skips (m : Machine) (d : BitVec 64) : (m.delay d).Skips ↔ m.Skips := .rfl

theorem delay_zero (m : Machine) : m.delay 0 = m := by
  unfold delay
  rw [show m.cycleCount + 0 = m.cycleCount by simp]

theorem rebased_append (es : List Turn) (h : e ≠ .quarter) : rebased (es ++ [e]) = rebased es := by
  unfold rebased
  rw [List.count_append, List.count_singleton, if_neg (by simpa using h), Nat.add_zero]

theorem BeforeSlip.inPhase {m t : Machine} {es : List Turn} (hb : BeforeSlip (es ++ [.call]) t)
    (hcall : m.runNextInstruction = .ok t) (hbelow : m.cycleCount < QUARTER) (hskip : ¬ m.Skips) :
    m.InPhase (rebased es) := by
  unfold BeforeSlip at hb
  rw [List.count_append] at hb
  rcases hb with hzero | ⟨hone, hlt⟩
  · have hnone : es.count .quarter = 0 := by omega
    rw [show rebased es = 0 by simp [rebased, hnone]]
    exact m.inPhase_zero
  · have hquarter : es.count .quarter = 1 := by simpa using hone
    rw [show rebased es = QUARTER by simp [rebased, hquarter]]
    refine inPhase_early ?_
    rcases call_count hcall hbelow with ⟨hs, -⟩ | ⟨-, hcount⟩
    · exact absurd hs hskip
    · rw [← hcount]
      exact BitVec.lt_def.mp hlt

/-- Up to the slip the two hosts are one quarter apart at most, and otherwise
the same. -/
theorem smoke_follows {s : Walker} {es : List Turn} {r : Machine}
    (h : Runs WinMain (atZero s) es r) (hb : BeforeSlip es r) :
    Runs Smoke (atZero s) es (r.delay (rebased es)) := by
  induction es using List.reverseRecOn generalizing r with
  | nil =>
    cases h
    rw [show rebased [] = 0 from rfl, delay_zero]
    exact .nil _
  | append_singleton es e ih =>
    obtain ⟨m, hm, hstep⟩ := h.last
    have hbelow := winMain_below hm
    have hrun := ih hm (hb.before hstep hbelow)
    refine hrun.append (.single ?_)
    cases hstep with
    | setKeys input =>
      rw [rebased_append es (by simp)]
      exact .setKeys _ input
    | call hcall _ =>
      rw [rebased_append es (by simp)]
      refine .call ?_
      rw [call_delay (hb.inPhase hcall hbelow), hcall]
      rfl
    | @quarter t hcall habove =>
      -- this is the first rebase
      have hzero : es.count .quarter = 0 := by
        unfold BeforeSlip at hb
        rw [List.count_append, List.count_singleton_self] at hb
        omega
      rw [show rebased es = 0 by simp [rebased, hzero], delay_zero]
      have hone : rebased (es ++ [Turn.quarter]) = QUARTER := by simp [rebased, hzero]
      have hquarter : ({ t with cycleCount := t.cycleCount - QUARTER }.host
          (·.quarterRTCInterrupt)).delay (rebased (es ++ [Turn.quarter])) =
          t.host (·.quarterRTCInterrupt) := by
        unfold delay host
        rw [hone, BitVec.sub_add_cancel]
      rw [hquarter]
      exact .quarter hcall

theorem Smoke.unique (m : Machine) (e : Turn) (t t' : Machine) (h : Smoke m e t)
    (h' : Smoke m e t') : t = t' := by
  cases h with
  | setKeys =>
    cases h'
    rfl
  | call h =>
    cases h' with
    | call h' => exact Outcome.ok.inj (h.symm.trans h')
  | quarter h =>
    cases h' with
    | quarter h' => rw [Outcome.ok.inj (h.symm.trans h')]

theorem subClock_46 : ¬ SubClockAt (46 + 1) ∧ ¬ SubClockAt (46 + 1 + 1) ∧
    ¬ SubClockAt (47 + 1) ∧ ¬ SubClockAt (47 + 1 + 1) := by
  unfold SubClockAt
  decide

theorem subClock_921646 : ¬ SubClockAt (46 + QUARTER + 1) ∧ SubClockAt (46 + QUARTER + 1 + 1) ∧
    SubClockAt (47 + QUARTER + 1) ∧ ¬ SubClockAt (47 + QUARTER + 1 + 1) := by
  unfold SubClockAt
  decide

/-- The call through cycle 921648, or 48 after the rebase: a subclock for one
host only. -/
theorem slip {m t t' : Machine} (hd : d = QUARTER) (hlt : m.cycleCount.toNat < 48)
    (hge : 48 ≤ t.cycleCount.toNat) (h : m.runNextInstruction = .ok t)
    (h' : (m.delay d).runNextInstruction = .ok t') : t'.toWalker ≠ t.toWalker := by
  have hbelow : m.cycleCount < QUARTER := by
    rw [BitVec.lt_def]
    change _ < 921600
    omega
  rcases call_count h hbelow with ⟨-, hcount⟩ | ⟨hskip, hcount⟩
  · omega
  intro hsame
  have hsub : t'.subClockCyclesEllapsed = t.subClockCyclesEllapsed :=
    congrArg Walker.subClockCyclesEllapsed hsame
  obtain ⟨u, hfirst, hsecond⟩ := call_subClock h hskip
  obtain ⟨u', hfirst', hsecond'⟩ := call_subClock h' ((m.delay_skips d).not.mpr hskip)
  rw [show (m.delay d).subClockCyclesEllapsed = m.subClockCyclesEllapsed from rfl] at hfirst'
  rw [show (m.delay d).cycleCount = m.cycleCount + d from rfl, hd] at hfirst' hsecond'
  have hcycle : m.cycleCount = 46 ∨ m.cycleCount = 47 := by
    have h46 : m.cycleCount.toNat = 46 ∨ m.cycleCount.toNat = 47 := by omega
    exact h46.imp BitVec.eq_of_toNat_eq BitVec.eq_of_toNat_eq
  rcases hcycle with hcycle | hcycle
  · rw [hcycle] at hfirst hsecond hfirst' hsecond'
    simp only [subClock_46, subClock_921646, false_and, not_false_iff, true_and, false_or,
      or_false, not_true] at hfirst hsecond hfirst' hsecond'
    rw [hsecond', hfirst', hsecond, hfirst] at hsub
    simp at hsub
  · rw [hcycle] at hfirst hsecond hfirst' hsecond'
    simp only [subClock_46, subClock_921646, false_and, not_false_iff, true_and, false_or,
      or_false, not_true] at hfirst hsecond hfirst' hsecond'
    rw [hsecond', hfirst', hsecond, hfirst] at hsub
    simp at hsub

/-- A run of WinMain past the slip comes through a state that the other host
does not have. -/
theorem slip_run {s : Walker} {es : List Turn} {r : Machine} (h : Runs WinMain (atZero s) es r)
    (hb : ¬ BeforeSlip es r) : ∃ es₁ es₂ r₁, es = es₁ ++ es₂ ∧ Runs WinMain (atZero s) es₁ r₁ ∧
      Runs WinMain r₁ es₂ r ∧ ∀ p, Runs Smoke (atZero s) es₁ p → p.toWalker ≠ r₁.toWalker := by
  induction es using List.reverseRecOn generalizing r with
  | nil => exact absurd (.inl rfl) hb
  | append_singleton es e ih =>
    obtain ⟨m, hm, hstep⟩ := h.last
    have hbelow := winMain_below hm
    by_cases hbefore : BeforeSlip es m
    · refine ⟨es ++ [e], [], r, (List.append_nil _).symm, h, .nil r, fun p hp => ?_⟩
      obtain ⟨n, hn, hstep'⟩ := hp.last
      cases Runs.unique Smoke.unique hn (smoke_follows hm hbefore)
      unfold BeforeSlip at hbefore hb
      rw [List.count_append] at hb
      cases hstep with
      | setKeys => exact absurd hbefore hb
      | call hcall _ =>
        have hone : es.count .quarter = 1 ∧ m.cycleCount < 48 :=
          hbefore.resolve_left fun hzero => hb (.inl (by simpa using hzero))
        have hlate : ¬ r.cycleCount < 48 := fun hlt => hb (.inr ⟨by simpa using hone.1, hlt⟩)
        rw [BitVec.lt_def] at hlate
        have hrebased : rebased es = QUARTER := by simp [rebased, hone.1]
        cases hstep' with
        | call hcall' =>
          exact slip hrebased (BitVec.lt_def.mp hone.2) (Nat.not_lt.mp hlate) hcall hcall'
      | @quarter t hcall habove =>
        -- the count after a rebase is 0 or 1
        rw [List.count_singleton_self] at hb
        have hge : 921600 ≤ t.cycleCount.toNat := BitVec.le_def.mp habove
        have hlt : m.cycleCount.toNat < 921600 := BitVec.lt_def.mp hbelow
        have hcount := call_count hcall hbelow
        rcases hbefore with hzero | ⟨-, hearly⟩
        · refine absurd (.inr ⟨by omega, ?_⟩) hb
          change t.cycleCount - QUARTER < 48
          rw [BitVec.lt_def, BitVec.toNat_sub]
          change (2 ^ 64 - 921600 + _) % 2 ^ 64 < 48
          omega
        · have hearly : m.cycleCount.toNat < 48 := BitVec.lt_def.mp hearly
          omega
    · obtain ⟨es₁, es₂, r₁, rfl, hr, hrest, hp⟩ := ih hm hbefore
      exact ⟨es₁, es₂ ++ [e], r₁, List.append_assoc _ _ _, hr, hrest.append (.single hstep), hp⟩

theorem BeforeSlip.earlier {s : Walker} {es₁ es₂ : List Turn} {r₁ r : Machine}
    (hr : Runs WinMain (atZero s) es₁ r₁) (h : Runs WinMain r₁ es₂ r)
    (hb : BeforeSlip (es₁ ++ es₂) r) : BeforeSlip es₁ r₁ := by
  induction es₂ generalizing es₁ r₁ with
  | nil =>
    cases h
    rwa [List.append_nil] at hb
  | cons e es₂ ih =>
    cases h with
    | @cons _ m _ _ _ hstep hrest =>
      have hm : Runs WinMain (atZero s) (es₁ ++ [e]) m := hr.append (.single hstep)
      rw [List.append_cons] at hb
      exact (ih hm hrest hb).before hstep (winMain_below hr)

-- ---------------------------------------------------------------------------
-- An idle quarter second
-- ---------------------------------------------------------------------------

theorem sleeper_first : ∃ t, Runs WinMain (atZero sleeper.toWalker) [.call] t ∧ t.Idle ∧
    t.cycleCount = 2 := by
  obtain ⟨t, hcall, hidle, hcount⟩ := sleeper_idles
  refine ⟨t, .single (.call hcall ?_), hidle, hcount⟩
  rw [hcount]
  decide

theorem idle_calls {m : Machine} (h : m.Idle) (n : Nat)
    (hn : m.cycleCount.toNat + 2 * n < 921600) : ∃ t,
      Runs WinMain m (List.replicate n .call) t ∧ t.Idle ∧
        t.cycleCount.toNat = m.cycleCount.toNat + 2 * n := by
  induction n with
  | zero => exact ⟨m, .nil m, h, rfl⟩
  | succ n ih =>
    obtain ⟨u, hrun, hidle, hcount⟩ := ih (by omega)
    obtain ⟨t, hcall, hidle', hcount'⟩ := call_idle hidle
    have htwo : t.cycleCount.toNat = m.cycleCount.toNat + 2 * (n + 1) := by
      rw [hcount', BitVec.toNat_add, hcount, show (2 : BitVec 64).toNat = 2 from rfl]
      omega
    refine ⟨t, ?_, hidle', htwo⟩
    rw [List.replicate_succ']
    refine hrun.append (.single (.call hcall ?_))
    rw [BitVec.le_def, htwo]
    change ¬ 921600 ≤ _
    omega

theorem idle_quarter {m : Machine} (h : m.Idle) (hcount : m.cycleCount.toNat = 921598) :
    ∃ t, WinMain m .quarter t ∧ t.Idle ∧ t.cycleCount = 0 := by
  obtain ⟨u, hcall, hidle, hcount'⟩ := call_idle h
  have hquarter : u.cycleCount = QUARTER := by
    rw [hcount', ← BitVec.toNat_inj, BitVec.toNat_add, hcount]
    rfl
  refine ⟨_, .quarter hcall ?_, hidle.quarterRTCInterrupt, ?_⟩
  · rw [hquarter]
    exact BitVec.le_refl _
  · change u.cycleCount - QUARTER = 0
    rw [hquarter]
    exact BitVec.sub_self _

theorem count_calls (n : Nat) : (List.replicate n Turn.call).count .quarter = 0 :=
  List.count_eq_zero.mpr fun h => by cases List.eq_of_mem_replicate h

theorem sleeper_quarter (hn : 2 * n < 921600) : ∃ es r,
    Runs WinMain (atZero sleeper.toWalker) es r ∧ es.count .quarter = 1 ∧
      r.cycleCount.toNat = 2 * n := by
  obtain ⟨m₁, hfirst, hidle₁, hcount₁⟩ := sleeper_first
  have hstart : m₁.cycleCount.toNat = 2 := congrArg BitVec.toNat hcount₁
  obtain ⟨m₂, hrun₂, hidle₂, hcount₂⟩ := idle_calls hidle₁ 460798 (by omega)
  obtain ⟨m₃, hrun₃, hidle₃, hcount₃⟩ := idle_quarter hidle₂ (by omega)
  have hzero : m₃.cycleCount.toNat = 0 := congrArg BitVec.toNat hcount₃
  obtain ⟨r, hrun, -, hcount⟩ := idle_calls hidle₃ n (by omega)
  refine ⟨_, r, ((hfirst.append hrun₂).append (.single hrun₃)).append hrun, ?_, by omega⟩
  rw [List.count_append, List.count_append, List.count_append, count_calls, count_calls]
  rfl

-- ---------------------------------------------------------------------------
-- Two hosts
-- ---------------------------------------------------------------------------

/-- Every state of a run of WinMain, from any walker at cycle 0, is the state
of the smoke test after the same turns, if and only if the run has not come to
the 48th cycle after its first rebase. -/
theorem rebase_phase {s : Walker} {es : List Turn} {r : Machine}
    (h : Runs WinMain (atZero s) es r) :
    (∀ es₁ es₂ r₁, es = es₁ ++ es₂ → Runs WinMain (atZero s) es₁ r₁ → Runs WinMain r₁ es₂ r →
      ∃ p, Runs Smoke (atZero s) es₁ p ∧ p.toWalker = r₁.toWalker) ↔
    BeforeSlip es r := by
  constructor
  · intro hsame
    by_contra hb
    obtain ⟨es₁, es₂, r₁, hes, hr, hrest, hdiffer⟩ := slip_run h hb
    obtain ⟨p, hp, hwalker⟩ := hsame es₁ es₂ r₁ hes hr hrest
    exact hdiffer p hp hwalker
  · rintro hb es₁ es₂ r₁ rfl hr hrest
    exact ⟨_, smoke_follows hr (hb.earlier hr hrest), rfl⟩

/-- A sleeper is in step until 40 cycles after its first rebase. -/
theorem rebase_phase_sleeper : ∃ es r, Runs WinMain (atZero sleeper.toWalker) es r ∧
    es.count .quarter = 1 ∧ r.cycleCount.toNat = 40 ∧
    ∀ es₁ es₂ r₁, es = es₁ ++ es₂ → Runs WinMain (atZero sleeper.toWalker) es₁ r₁ →
      Runs WinMain r₁ es₂ r →
        ∃ p, Runs Smoke (atZero sleeper.toWalker) es₁ p ∧ p.toWalker = r₁.toWalker := by
  obtain ⟨es, r, hrun, hone, hcount⟩ := sleeper_quarter (n := 20) (by omega)
  refine ⟨es, r, hrun, hone, hcount, (rebase_phase hrun).mpr (.inr ⟨hone, ?_⟩)⟩
  rw [BitVec.lt_def, hcount]
  decide

/-- Asleep for a quarter second and 48 cycles more, the two hosts differ. -/
theorem rebase_visible : ¬ ∀ (s : Walker) (es : List Turn) (r : Machine),
    Runs WinMain (atZero s) es r → ∃ p, Runs Smoke (atZero s) es p ∧ p.toWalker = r.toWalker := by
  intro claim
  obtain ⟨es, r, hrun, hone, hcount⟩ := sleeper_quarter (n := 24) (by omega)
  have hslip : ¬ BeforeSlip es r := by
    rintro (hnone | ⟨-, hlt⟩)
    · omega
    · have hlt : r.cycleCount.toNat < 48 := BitVec.lt_def.mp hlt
      omega
  obtain ⟨es₁, es₂, r₁, -, hr, -, hdiffer⟩ := slip_run hrun hslip
  obtain ⟨p, hp, hwalker⟩ := claim _ _ _ hr
  exact hdiffer p hp hwalker

end Machine

end PokeStroller
