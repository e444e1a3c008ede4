import PokeStroller.Adapter.Bursts
import PokeStroller.Lib.Until

/-!
# Slices

What one slice runs beyond its target is part of the next one, so however a
span of time is cut into calls of `pw_run`, the same machine is emulated. The
counters have 64 bits, and a target near their end may never be reached.
-/

namespace PokeStroller

/-- Exceptions have a message. -/
def Core.Explains (core : Core σ τ) : Prop :=
  ∀ now s calls error t, core.Cycle now s = (calls, .error error, t) → error ≠ ""

namespace Adapter

variable {core : Core σ τ} {pw pw' : Adapter σ τ}

-- ---------------------------------------------------------------------------
-- One pass
-- ---------------------------------------------------------------------------

def aim (target : BitVec 64) (pw : Adapter σ τ) : Adapter σ τ := { pw with target := target }

theorem onTransmitIR_aim (target : BitVec 64) (byte : Byte) (pw : Adapter σ τ) :
    onTransmitIR byte (aim target pw) =
      (aim target (onTransmitIR byte pw).1, (onTransmitIR byte pw).2) := by
  unfold onTransmitIR
  by_cases hfull : pw.ir.length = IR_QUEUE_SIZE
  · rw [if_pos hfull, if_pos (by exact hfull)]
    rfl
  · rw [if_neg hfull, if_neg (by exact hfull)]
    rfl

theorem transmitIR_aim (target : BitVec 64) (calls : List (Byte × σ)) (pw : Adapter σ τ) :
    transmitIR calls (aim target pw) =
      (aim target (transmitIR calls pw).1, (transmitIR calls pw).2) := by
  induction calls generalizing pw with
  | nil => rfl
  | cons call calls ih =>
    obtain ⟨byte, soc⟩ := call
    have hcall := onTransmitIR_aim target byte { pw with soc := soc }
    unfold transmitIR
    rw [show { aim target pw with soc := soc } = aim target { pw with soc := soc } from rfl, hcall]
    rcases onTransmitIR byte { pw with soc := soc } with ⟨q, _ | error⟩
    · exact ih q
    · rfl

theorem buzzerLoop_aim (target : BitVec 64) (passes : Nat) (pw : Adapter σ τ) :
    buzzerLoop core passes (aim target pw) = aim target (buzzerLoop core passes pw) := by
  induction passes generalizing pw with
  | zero => rfl
  | succ passes ih =>
    unfold buzzerLoop
    by_cases hmore : PHI_CLK ≤ pw.buzzer_cycles.toNat
    · rw [if_pos hmore, if_pos (by exact hmore)]
      exact ih (onSamplePushed core _ { pw with buzzer_cycles := _ })
    · rw [if_neg hmore, if_neg (by exact hmore)]

theorem buzzerCycle_aim (target : BitVec 64) (elapsed : Byte) (pw : Adapter σ τ) :
    buzzerCycle core elapsed (aim target pw) = aim target (buzzerCycle core elapsed pw) :=
  buzzerLoop_aim target _ { pw with buzzer_cycles := _ }

theorem Cycle_aim (target wall : BitVec 64) (pw : Adapter σ τ) :
    (aim target pw).Cycle core wall =
      (aim target (pw.Cycle core wall).1, (pw.Cycle core wall).2) := by
  unfold Adapter.Cycle
  have hcore : core.Cycle ((aim target pw).Now wall) (aim target pw).soc =
      core.Cycle (pw.Now wall) pw.soc := rfl
  rw [hcore]
  rcases core.Cycle (pw.Now wall) pw.soc with ⟨calls, result, soc⟩
  dsimp only
  rw [transmitIR_aim]
  rcases transmitIR calls pw with ⟨q, _ | error⟩
  · cases result with
    | error error => rfl
    | ok elapsed =>
      dsimp only
      rw [← buzzerCycle_aim]
      rfl
  · rfl

theorem transmitIR_explains (calls : List (Byte × σ)) (pw : Adapter σ τ) :
    (transmitIR calls pw).2 ≠ some "" := by
  induction calls generalizing pw with
  | nil => nofun
  | cons call calls ih =>
    obtain ⟨byte, soc⟩ := call
    unfold transmitIR onTransmitIR
    by_cases hfull : pw.ir.length = IR_QUEUE_SIZE
    · simp [hfull]
    · simp only [hfull, ↓reduceIte]
      exact ih _

theorem transmitIR_error (calls : List (Byte × σ)) (pw : Adapter σ τ) :
    (transmitIR calls pw).1.error = pw.error ∧
      (transmitIR calls pw).1.clock_origin = pw.clock_origin ∧
      (transmitIR calls pw).2 ≠ some "" := by
  obtain ⟨_, _, _, _, heq⟩ := transmitIR_eq calls pw
  rw [heq]
  exact ⟨rfl, rfl, transmitIR_explains calls pw⟩

theorem Cycle_error (hcore : core.Explains) (wall : BitVec 64) (pw : Adapter σ τ) :
    (pw.Cycle core wall).1.error = pw.error ∧
      (pw.Cycle core wall).1.clock_origin = pw.clock_origin ∧
      (pw.Cycle core wall).2 ≠ some "" := by
  unfold Adapter.Cycle
  rcases hcycle : core.Cycle (pw.Now wall) pw.soc with ⟨calls, result, soc⟩
  dsimp only
  have hcalls := transmitIR_error calls pw
  rcases hcall : transmitIR calls pw with ⟨q, _ | error⟩
  all_goals rw [hcall] at hcalls
  · cases result with
    | error error =>
      refine ⟨hcalls.1, hcalls.2.1, ?_⟩
      simpa using hcore _ _ _ _ _ hcycle
    | ok elapsed =>
      obtain ⟨buzzer_cycles, sound, audio, heq⟩ := buzzerCycle_eq core elapsed
        { q with soc := soc, cycles := q.cycles + elapsed.setWidth 64
                 log := q.log ++ [.elapsed elapsed] }
      dsimp only
      rw [heq]
      exact ⟨hcalls.1, hcalls.2.1, nofun⟩
  · exact hcalls

theorem Cycle_target (core : Core σ τ) (wall : BitVec 64) (pw : Adapter σ τ) :
    (pw.Cycle core wall).1.target = pw.target := by
  have h : (aim pw.target pw).Cycle core wall =
      (aim pw.target (pw.Cycle core wall).1, (pw.Cycle core wall).2) := Cycle_aim _ _ _
  rw [show aim pw.target pw = pw from rfl] at h
  rw [h]
  rfl

theorem Cycle_wall (hclock : pw.clock_origin.slt 0 = false) (wall : BitVec 64) :
    pw.Cycle core wall = pw.Cycle core 0 := by
  unfold Adapter.Cycle Now
  simp only [hclock, Bool.false_eq_true, ↓reduceIte]

-- ---------------------------------------------------------------------------
-- One slice
-- ---------------------------------------------------------------------------

/-- The passes of an emulated clock until the cycles reach a limit. -/
abbrev Loop (core : Core σ τ) (limit : Nat) : Adapter σ τ → Adapter σ τ × Option String → Prop :=
  Until (fun pw => pw.Cycle core 0) (fun pw => pw.cycles.toNat) limit

def outcome : Adapter σ τ × Option String → Adapter σ τ × Bool
  | (pw, none) => (pw, true)
  | (pw, some error) => ({ pw with error := error }, false)

/-- The call returns this, given enough readings of the wall clock and whatever
they are. -/
def Returns (core : Core σ τ) (pw : Adapter σ τ) (n : BitVec 32) (r : Adapter σ τ × Bool) : Prop :=
  ∃ passes, ∀ walls : List (BitVec 64), passes ≤ walls.length → pw.pw_run core walls n = some r

theorem Loop.runLoop (h : Loop core limit pw r) (hlimit : pw.target.toNat = limit)
    (hcore : core.Explains) (hclock : pw.clock_origin.slt 0 = false) :
    ∃ passes, ∀ walls, passes ≤ walls.length →
      pw.runLoop core walls = some (outcome r) := by
  induction h with
  | done hdone =>
    rename_i pw
    have hless : ¬ pw.cycles < pw.target := by
      rw [BitVec.lt_def]
      omega
    refine ⟨0, fun walls _ => ?_⟩
    cases walls with
    | nil => simp [Adapter.runLoop, hless, outcome]
    | cons => simp [Adapter.runLoop, hless, outcome]
  | stop hless hcycle =>
    rename_i pw q error
    have hless : pw.cycles < pw.target := by
      rw [BitVec.lt_def]
      omega
    refine ⟨1, fun walls hwalls => ?_⟩
    cases walls with
    | nil => cases hwalls
    | cons wall walls =>
      unfold Adapter.runLoop
      rw [if_pos hless, Cycle_wall hclock, hcycle]
      rfl
  | next hless hcycle hrest ih =>
    rename_i pw q r
    have hless : pw.cycles < pw.target := by
      rw [BitVec.lt_def]
      omega
    have hkept := Cycle_error hcore 0 pw
    have htarget := Cycle_target core 0 pw
    rw [hcycle] at hkept htarget
    obtain ⟨passes, hpasses⟩ := ih (htarget ▸ hlimit) (hkept.2.1 ▸ hclock)
    refine ⟨passes + 1, fun walls hwalls => ?_⟩
    cases walls with
    | nil => cases hwalls
    | cons wall walls =>
      unfold Adapter.runLoop
      rw [if_pos hless, Cycle_wall hclock, hcycle]
      exact hpasses walls (Nat.le_of_succ_le_succ hwalls)

/-- An emulator with an emulated clock and no error, far enough from the end of
the 64-bit counters to run this long. -/
structure Ready (pw : Adapter σ τ) (span : Nat) : Prop where
  error : pw.error = ""
  clock : pw.clock_origin.slt 0 = false
  far : pw.target.toNat + span + 254 < UInt64.size

theorem Ready.mono (h : pw.Ready span) (hspan : span' ≤ span) : pw.Ready span' :=
  ⟨h.error, h.clock, Nat.lt_of_le_of_lt (by omega) h.far⟩

theorem Ready.target {n : BitVec 32} (h : pw.Ready n.toNat) :
    (pw.target + n.setWidth 64).toNat = pw.target.toNat + n.toNat := by
  have hfar := h.far
  unfold UInt64.size at hfar
  bv_omega

theorem Cycle_advances (hcore : core.Advances) (hfar : limit + 254 < UInt64.size)
    (hless : pw.cycles.toNat < limit) (hcycle : pw.Cycle core wall = (pw', none)) :
    pw.cycles.toNat < pw'.cycles.toNat ∧ pw'.cycles.toNat ≤ pw.cycles.toNat + 255 := by
  obtain ⟨calls, elapsed, soc, hcall, hcycles, -⟩ := Cycle_clock hcycle
  have hpos := hcore _ _ _ _ _ hcall
  rw [hcycles]
  unfold UInt64.size at hfar
  bv_omega

structure Ends (pw : Adapter σ τ) (limit : Nat) (q : Adapter σ τ) (e : Option String) : Prop where
  error : q.error = ""
  clock : q.clock_origin.slt 0 = false
  target : q.target = pw.target
  message : e ≠ some ""
  reached : e = none → limit ≤ q.cycles.toNat
  overshoot : e = none → pw.cycles.toNat < limit → q.cycles.toNat < limit + 255

theorem Ready.loop (h : pw.Ready span) (hcore : core.Advances) (hexplains : core.Explains) :
    ∃ q e, Loop core (pw.target.toNat + span) pw (q, e) ∧ pw.Ends (pw.target.toNat + span) q e := by
  have hstep (s t : Adapter σ τ) (hs : s.cycles.toNat < pw.target.toNat + span)
      (hnext : s.Cycle core 0 = (t, none)) := Cycle_advances hcore h.far hs hnext
  obtain ⟨⟨q, e⟩, hloop⟩ := Until.exists_of_lt (fun s t hs hnext => (hstep s t hs hnext).1) pw
  have hkept : q.error = pw.error ∧ q.clock_origin = pw.clock_origin ∧ q.target = pw.target := by
    refine Until.invariant (I := fun s => s.error = pw.error ∧ s.clock_origin = pw.clock_origin ∧
      s.target = pw.target) (fun s hs => ?_) hloop ⟨rfl, rfl, rfl⟩
    obtain ⟨herror, hclock, -⟩ := Cycle_error hexplains 0 s
    exact ⟨herror.trans hs.1, hclock.trans hs.2.1, (Cycle_target core 0 s).trans hs.2.2⟩
  refine ⟨q, e, hloop, hkept.1.trans h.error, hkept.2.1 ▸ h.clock, hkept.2.2, ?_, ?_, ?_⟩
  · rintro rfl
    obtain ⟨s, hs⟩ := hloop.raised
    have hmessage := (Cycle_error hexplains 0 s).2.2
    rw [hs] at hmessage
    exact hmessage rfl
  · rintro rfl
    exact hloop.reached
  · rintro rfl hless
    exact hloop.overshoot hless fun s t hs hnext => (hstep s t hs hnext).2

/-- A slice of a ready emulator is its loop. -/
theorem Ready.returns {n : BitVec 32} (h : pw.Ready n.toNat) (hexplains : core.Explains)
    (hloop : Loop core (pw.target.toNat + n.toNat) pw (q, e)) :
    Returns core pw n (outcome (aim (pw.target + n.setWidth 64) q, e)) := by
  have haim : Loop core (pw.target.toNat + n.toNat) (aim (pw.target + n.setWidth 64) pw)
      (aim (pw.target + n.setWidth 64) q, e) :=
    hloop.map (fun s => Cycle_aim _ 0 s) fun _ => rfl
  obtain ⟨passes, hpasses⟩ := haim.runLoop h.target hexplains h.clock
  refine ⟨passes, fun walls hwalls => ?_⟩
  unfold Adapter.pw_run
  rw [if_neg (not_not.mpr h.error)]
  exact hpasses walls hwalls

theorem Returns.unique (h₁ : Returns core pw n r₁) (h₂ : Returns core pw n r₂) : r₁ = r₂ := by
  obtain ⟨p₁, h₁⟩ := h₁
  obtain ⟨p₂, h₂⟩ := h₂
  have hr₁ := h₁ (List.replicate (p₁ + p₂) 0) (by simp)
  have hr₂ := h₂ (List.replicate (p₁ + p₂) 0) (by simp)
  exact Option.some.inj (hr₁.symm.trans hr₂)

theorem pw_run_failed (core : Core σ τ) (h : pw.error ≠ "") (walls : List (BitVec 64))
    (n : BitVec 32) : pw.pw_run core walls n = some (pw, false) := if_pos h

theorem returns_failed (core : Core σ τ) (h : pw.error ≠ "") (n : BitVec 32) :
    Returns core pw n (pw, false) := ⟨0, fun walls _ => pw_run_failed core h walls n⟩

-- ---------------------------------------------------------------------------
-- Many slices
-- ---------------------------------------------------------------------------

def Slice (core : Core σ τ) (pw : Adapter σ τ) (n : BitVec 32) (pw' : Adapter σ τ) : Prop :=
  ∃ ok, Returns core pw n (pw', ok)

def total : List (BitVec 32) → Nat
  | [] => 0
  | n :: ns => n.toNat + total ns

theorem Ends.ready {n : BitVec 32} (h : pw.Ends limit q e) (hpw : pw.Ready (n.toNat + span)) :
    (aim (pw.target + n.setWidth 64) q).Ready span where
  error := h.error
  clock := h.clock
  far := by
    have hfar := hpw.far
    have htarget := (hpw.mono (Nat.le_add_right _ _)).target
    change (pw.target + n.setWidth 64).toNat + span + 254 < _
    omega

theorem slices_failed (core : Core σ τ) (h : pw.error ≠ "") (ns : List (BitVec 32)) :
    Runs (Slice core) pw ns pw := by
  induction ns with
  | nil => exact .nil pw
  | cons n ns ih => exact .cons ⟨false, returns_failed core h n⟩ ih

/-- Slices one after the other are one loop up to the last target, which may
have stopped early. -/
theorem Ready.slices {ns : List (BitVec 32)} (h : pw.Ready (total ns)) (hcore : core.Advances)
    (hexplains : core.Explains) (hns : ns ≠ [] ∨ pw.target.toNat ≤ pw.cycles.toNat) :
    ∃ sliced q e, Runs (Slice core) pw ns sliced ∧
      Loop core (pw.target.toNat + total ns) pw (q, e) ∧
      ∀ target : BitVec 64, target.toNat = pw.target.toNat + total ns →
        aim target sliced = (outcome (aim target q, e)).1 ∧ (e = none → sliced = aim target q) := by
  induction ns generalizing pw with
  | nil =>
    have hdone : pw.target.toNat ≤ pw.cycles.toNat := hns.resolve_left (fun h => h rfl)
    refine ⟨pw, pw, none, .nil pw, .done hdone, fun target htarget => ?_⟩
    obtain rfl : target = pw.target := BitVec.eq_of_toNat_eq htarget
    exact ⟨rfl, fun _ => rfl⟩
  | cons n ns ih =>
    have hfirst : pw.Ready n.toNat := h.mono (Nat.le_add_right _ _)
    obtain ⟨q, e, hloop, hends⟩ := hfirst.loop hcore hexplains
    have hreturns := hfirst.returns hexplains hloop
    have htotal : pw.target.toNat + n.toNat + total ns = pw.target.toNat + total (n :: ns) :=
      Nat.add_assoc _ _ _
    cases e with
    | some error =>
      have hstuck : (outcome (aim (pw.target + n.setWidth 64) q, some error)).1.error ≠ "" :=
        fun hempty => hends.message (congrArg some hempty)
      refine ⟨_, q, some error, .cons ⟨_, hreturns⟩ (slices_failed core hstuck ns), ?_, ?_⟩
      · exact hloop.stopped (by omega)
      · exact fun target _ => ⟨rfl, nofun⟩
    | none =>
      have hnext : (aim (pw.target + n.setWidth 64) q).target.toNat = pw.target.toNat + n.toNat :=
        hfirst.target
      have hdone := hends.reached rfl
      obtain ⟨sliced, last, e, hruns, hrest, hlast⟩ := ih (hends.ready h) (.inr (by
        rw [hnext]
        exact hdone))
      have hback := hrest.map (fun s => Cycle_aim pw.target 0 s) fun _ => rfl
      rw [show aim pw.target (aim (pw.target + n.setWidth 64) q) = q by
        rw [← hends.target]; rfl, hnext, htotal] at hback
      refine ⟨sliced, aim pw.target last, e, .cons ⟨_, hreturns⟩ hruns, ?_, ?_⟩
      · exact hloop.append (by omega) hback
      · intro target htarget
        exact hlast target (by omega)

theorem total_append (pre ns : List (BitVec 32)) : total (pre ++ ns) = total pre + total ns := by
  induction pre with
  | nil => exact (Nat.zero_add _).symm
  | cons n pre ih => rw [List.cons_append, total, total, ih, Nat.add_assoc]

theorem Slice.failed (h : Slice core pw n pw') (hpw : pw.error ≠ "") : pw' = pw := by
  obtain ⟨ok, hok⟩ := h
  exact congrArg Prod.fst (hok.unique (returns_failed core hpw n))

theorem Ready.between {ns : List (BitVec 32)} (hcore : core.Advances) (hexplains : core.Explains)
    (h : Runs (Slice core) pw ns pw') (hpw : pw.error ≠ "" ∨ pw.Ready (total ns + span)) :
    pw'.error ≠ "" ∨ pw'.Ready span := by
  induction h with
  | nil pw =>
    unfold total at hpw
    rwa [Nat.zero_add] at hpw
  | cons hslice _ ih =>
    rename_i pw next last n ns _
    rcases hpw with herror | hready
    · refine ih (.inl ?_)
      rw [hslice.failed herror]
      exact herror
    · have hspan : total (n :: ns) + span = n.toNat + (total ns + span) := Nat.add_assoc _ _ _
      rw [hspan] at hready
      have hfirst : pw.Ready n.toNat := hready.mono (Nat.le_add_right _ _)
      obtain ⟨q, e, hloop, hends⟩ := hfirst.loop hcore hexplains
      obtain ⟨ok, hok⟩ := hslice
      have hnext := congrArg Prod.fst (hok.unique (hfirst.returns hexplains hloop))
      subst hnext
      cases e with
      | some error => exact ih (.inl fun hempty => hends.message (congrArg some hempty))
      | none => exact ih (.inr (hends.ready hready))

/-- However a span is cut, the slices leave the emulator as one call does, but
for the target after an exception. -/
theorem slices_equal (hcore : core.Advances) (hexplains : core.Explains) (herror : pw.error = "")
    (hclock : pw.clock_origin.slt 0 = false) (ns : List (BitVec 32))
    (hsum : total ns < UInt32.size) (hfar : pw.target.toNat + total ns + 254 < UInt64.size)
    (hns : ns ≠ [] ∨ pw.target ≤ pw.cycles) :
    (∃ sliced whole ok, Runs (Slice core) pw ns sliced ∧
      Returns core pw (BitVec.ofNat 32 (total ns)) (whole, ok) ∧
      { sliced with target := whole.target } = whole ∧ (ok = true → sliced = whole)) ∧
    ∀ pre n post mid, ns = pre ++ n :: post → Runs (Slice core) pw pre mid →
      ∃ next ok, Returns core mid n (next, ok) ∧
        (mid.error = "" → ok = true → mid.cycles < mid.target + n.setWidth 64 →
          next.target ≤ next.cycles ∧ next.cycles.toNat < next.target.toNat + 255) ∧
        (ok = false → ∀ walls m, next.pw_run core walls m = some (next, false)) := by
  have hready : pw.Ready (total ns) := ⟨herror, hclock, hfar⟩
  have hwhole : (BitVec.ofNat 32 (total ns)).toNat = total ns := by
    rw [BitVec.toNat_ofNat]
    exact Nat.mod_eq_of_lt hsum
  refine ⟨?_, ?_⟩
  · obtain ⟨sliced, q, e, hruns, hloop, hlast⟩ := hready.slices hcore hexplains hns
    rw [← hwhole] at hready hloop
    have hreturns := hready.returns hexplains hloop
    obtain ⟨hsame, hok⟩ := hlast _ (hready.target.trans (by rw [hwhole]))
    refine ⟨sliced, _, _, hruns, hreturns, ?_, ?_⟩
    · cases e with
      | none => exact hsame
      | some error => exact hsame
    · intro htrue
      cases e with
      | none => exact hok rfl
      | some error => cases htrue
  · rintro pre n post mid rfl hruns
    rw [total_append] at hready
    rcases Ready.between hcore hexplains hruns (.inr hready) with hfailed | hmid
    · exact ⟨mid, false, returns_failed core hfailed n, fun hempty => absurd hempty hfailed,
        fun _ walls m => pw_run_failed core hfailed walls m⟩
    · have hmid : mid.Ready n.toNat := hmid.mono (Nat.le_add_right _ _)
      obtain ⟨q, e, hloop, hends⟩ := hmid.loop hcore hexplains
      refine ⟨_, _, hmid.returns hexplains hloop, ?_, ?_⟩
      · intro _ hok hless
        cases e with
        | some error => cases hok
        | none =>
          rw [BitVec.lt_def, hmid.target] at hless
          have hreached := hends.reached rfl
          have hover := hends.overshoot rfl hless
          change mid.target + n.setWidth 64 ≤ q.cycles ∧
            q.cycles.toNat < (mid.target + n.setWidth 64).toNat + 255
          rw [BitVec.le_def, hmid.target]
          exact ⟨hreached, hover⟩
      · intro hfalse walls m
        cases e with
        | none => cases hfalse
        | some error =>
          exact pw_run_failed core (fun hempty => hends.message (congrArg some hempty)) walls m

def steadyCore : Core Unit Unit where
  Cycle _ _ := ([], .ok 250, ())
  CTS _ := false
  GRA _ := 0
  GRB _ := 0
  GRC _ := 0
  synthesize _ _ := ((), 0)

theorem steadyCore_advances : steadyCore.Advances := by
  intro now s calls elapsed t h
  cases h
  decide

theorem steadyCore_explains : steadyCore.Explains := by
  intro now s calls error t h
  cases h

theorem slices_equal_two : ∃ sliced whole ok,
    Runs (Slice steadyCore) (created () () 0) [100, 600] sliced ∧
    Returns steadyCore (created () () 0) 700 (whole, ok) ∧
    { sliced with target := whole.target } = whole ∧ (ok = true → sliced = whole) :=
  (slices_equal steadyCore_advances steadyCore_explains rfl (by decide) [100, 600] (by decide)
    (by decide) (.inl (by simp))).1

theorem Cycle_steadyCore (wall : BitVec 64) (pw : Adapter Unit Unit) :
    ∃ q, pw.Cycle steadyCore wall = (q, none) ∧ q.cycles = pw.cycles + 250 ∧
      q.target = pw.target := by
  obtain ⟨q, hcycle⟩ : ∃ q, pw.Cycle steadyCore wall = (q, none) := ⟨_, rfl⟩
  obtain ⟨calls, elapsed, soc, hcall, hcycles, htarget⟩ := Cycle_clock hcycle
  cases hcall
  exact ⟨q, hcycle, hcycles, htarget⟩

/-- With an even count, a target of 2^64 − 1 is never reached in steps of 250. -/
theorem runLoop_wraps (walls : List (BitVec 64)) (pw : Adapter Unit Unit)
    (htarget : pw.target = -1) (heven : pw.cycles.toNat % 2 = 0) :
    pw.runLoop steadyCore walls = none := by
  have hless : pw.cycles < pw.target := by
    rw [htarget]
    bv_omega
  induction walls generalizing pw with
  | nil => exact if_pos hless
  | cons wall walls ih =>
    obtain ⟨q, hcycle, hcycles, hkept⟩ := Cycle_steadyCore wall pw
    have hq : q.cycles.toNat % 2 = 0 := by
      rw [hcycles]
      bv_omega
    unfold runLoop
    rw [if_pos hless, hcycle]
    refine ih q (hkept.trans htarget) hq ?_
    rw [hkept, htarget]
    bv_omega

/-- A target at the end of the counter is never reached, and no slice at all is
not a slice of length 0 if the cycles are behind the target. -/
theorem slices_wrap :
    let far : Adapter Unit Unit := { created () () 0 with cycles := -2, target := -2 }
    let behind : Adapter Unit Unit := { created () () 0 with target := 1 }
    steadyCore.Advances ∧ steadyCore.Explains ∧
      (∀ walls, far.pw_run steadyCore walls 1 = none) ∧
      ∃ whole, behind.pw_run steadyCore [0] 0 = some whole ∧ whole.1.cycles ≠ behind.cycles := by
  intro far behind
  refine ⟨steadyCore_advances, steadyCore_explains, fun walls => ?_, ?_⟩
  · unfold pw_run
    rw [if_neg (by simp [far, created])]
    exact runLoop_wraps walls _ rfl (by decide)
  · have hrun : (behind.pw_run steadyCore [0] 0).any (fun r => decide (r.1.cycles = 250)) =
        true := by
      decide
    obtain ⟨whole, hwhole, hcycles⟩ := (Option.any_eq_true _ _).mp hrun
    refine ⟨whole, hwhole, ?_⟩
    rw [of_decide_eq_true hcycles]
    decide

end Adapter

end PokeStroller
