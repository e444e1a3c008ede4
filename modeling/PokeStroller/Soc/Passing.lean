import PokeStroller.Lib.Trace
import PokeStroller.Soc.Emulator

/-!
# Time and what happens in no time

A call is a chain of cycles, each of which ends with the timers, and of changes that
take no time. In between the timers change only where the firmware writes them.
-/

namespace PokeStroller.Soc

open Exec

variable {localtime : BitVec 64 → Tm} {synthesize : BuzzerInformation → τ → τ × BitVec 16}
  {pw pw' : Adapter H838606 τ} {s t : H838606}

-- ---------------------------------------------------------------------------
-- The timers
-- ---------------------------------------------------------------------------

/-- The timers that are not in memory, and what they depend on and act on. -/
structure Timed where
  interrupts : Interrupts
  timer_b1 : TimerB1
  rtc : RTC
  CKSTPR1 : Byte

def H838606.timed (s : H838606) : Timed := ⟨s.interrupts, s.timer_b1, s.rtc, s.CKSTPR1⟩

def Event.written : Event → Option (IoRegister × Byte)
  | write r value => some (r, value)
  | _ => none

/-- What a write handler can do to the timers. -/
def Timed.Write (x : Timed) (w : IoRegister × Byte) (y : Timed) : Prop :=
  ∃ s : H838606, s.timed = x ∧ (w.1.write w.2 s).timed = y

/-- The timers change only by writes. -/
abbrev Untimed : H838606 → H838606 → Prop :=
  Traced H838606.log H838606.timed Event.written Timed.Write

theorem write_untimed (r : IoRegister) (value : Byte) (s : H838606) :
    Untimed s (r.write value s) := by
  have hstep : Timed.Write s.timed (r, value) (r.write value s).timed := ⟨s, rfl, rfl⟩
  rcases onWrite_log r value (record (.write r value) s) with hlog | hlog
  · exact .event (e := .write r value) hlog rfl hstep
  · refine ⟨[.write r value, .clearIR], ?_, .single hstep⟩
    rw [IoRegister.write, hlog, record_log, List.append_assoc]
    rfl

theorem BusMove.untimed (h : BusMove s t) : Untimed s t := by
  cases h with
  | read r _ =>
    refine .other (e := .read r (r.value s)) ?_ rfl ?_
    · rw [IoRegister.read, record_log, onRead_log]
    · cases r <;> rfl
  | write r value _ => exact write_untimed r value s
  | _ => exact .quiet rfl rfl

theorem Peripheral.Receive_timed {p : Peripheral} (h : p.Receive data s = some t) :
    t.timed = s.timed := by
  rw [Receive_frame h]
  rfl

theorem Peripheral.reply_timed {p : Peripheral} (h : p.reply s = some (data, t)) :
    t.timed = s.timed := by
  rw [reply_frame h]
  rfl

theorem SsuMove.untimed (h : SsuMove s t) : Untimed s t := by
  cases h with
  | bus h => exact h.untimed
  | reset p _ =>
    refine .other (e := .reset p) (by simp [Peripheral.Reset_log]) rfl ?_
    cases p <;> rfl
  | @receive p _ _ _ _ h =>
    have hkept := Peripheral.Receive_timed h
    exact .other (e := .receive p s.ssu.SSTDR)
      (by simp [SSU.transmitted, Peripheral.Receive_log h]) rfl hkept
  | @transmit data p _ _ _ _ h =>
    have hkept := Peripheral.reply_timed h
    exact .other (e := .transmit p data) (by simp [SSU.received, Peripheral.reply_log h]) rfl hkept
  | _ => exact .quiet rfl rfl

theorem EarlyMove.untimed (h : EarlyMove s t) : Untimed s t := by
  cases h with
  | ssu h => exact h.untimed
  | transmitIR _ _ _ => exact .other (e := .transmitIR s.sci3.TDR) rfl rfl rfl
  | @takeIR data rest _ _ _ _ _ => exact .other (e := .takeIR data) rfl rfl rfl
  | _ => exact .quiet rfl rfl

theorem EarlyMoves.untimed (h : EarlyMoves s t) : Untimed s t :=
  .moves (fun _ _ => EarlyMove.untimed) h

def Leaves (own : IoRegister → Bool) (es : List Event) : Prop :=
  ∀ r value, .write r value ∈ es → own r = false

theorem leaves_append {own : IoRegister → Bool} :
    Leaves own (es ++ fs) ↔ Leaves own es ∧ Leaves own fs := by
  constructor
  · rintro h
    exact ⟨fun r value he => h r value (List.mem_append_left _ he),
      fun r value he => h r value (List.mem_append_right _ he)⟩
  · rintro ⟨hes, hfs⟩ r value he
    exact (List.mem_append.mp he).elim (hes r value) (hfs r value)

/-- A part of the timers that depends on these registers only. -/
theorem Untimed.keeps {f : Timed → α} {own : IoRegister → Bool} (h : Untimed s t)
    (hlog : t.log = s.log ++ es) (hes : Leaves own es)
    (hf : ∀ r value (s : H838606), own r = false → f (r.write value s).timed = f s.timed) :
    f t.timed = f s.timed := by
  refine (h.runs hlog).invariant_of (I := fun x => f x = f s.timed) (fun x w y hw hstep hx => ?_) rfl
  obtain ⟨e, he, hwritten⟩ := List.mem_filterMap.mp hw
  obtain ⟨u, rfl, rfl⟩ := hstep
  cases e with
  | write r value =>
    cases hwritten
    exact (hf r value u (hes r value he)).trans hx
  | _ => cases hwritten

-- ---------------------------------------------------------------------------
-- Passes
-- ---------------------------------------------------------------------------

/-- A pass of the loop of `pw_run` that takes time: what `std::time` returns in it, and the
cycles it reports. -/
structure Pass where
  wall : BitVec 64
  elapsed : Byte
  deriving DecidableEq, Repr

def duration (passes : List Pass) : Nat := (passes.map (·.elapsed.toNat)).sum

@[simp] theorem duration_nil : duration [] = 0 := rfl

theorem duration_append (ps qs : List Pass) : duration (ps ++ qs) = duration ps + duration qs := by
  simp [duration]

theorem duration_concat (ps : List Pass) (pass : Pass) :
    duration (ps ++ [pass]) = duration ps + pass.elapsed.toNat := by
  simp [duration]

def reportOf : IrEvent → Option Byte
  | .elapsed cycles => some cycles
  | _ => none

def reported (log : List IrEvent) : List Byte := log.filterMap reportOf

theorem reported_append (log es : List IrEvent) :
    reported (log ++ es) = reported log ++ reported es := List.filterMap_append

theorem emulatedCycles_eq (log : List IrEvent) :
    emulatedCycles log = ((reported log).map BitVec.toNat).sum := by
  induction log with
  | nil => rfl
  | cons e log ih =>
    cases e with
    | elapsed cycles => exact congrArg (cycles.toNat + ·) ih
    | _ => exact (Nat.zero_add _).trans ih

/-- The passes of a call, from what `std::time` returns in turn and the history of the
emulator in the call. -/
def passesOf (walls : List (BitVec 64)) (log : List IrEvent) : List Pass :=
  List.zipWith Pass.mk walls (reported log)

theorem passesOf_none (walls : List (BitVec 64)) (h : reported log = []) :
    passesOf walls log = [] := by
  rw [passesOf, h]
  exact List.zipWith_nil_right

theorem passesOf_wall {pass : Pass} {walls : List (BitVec 64)} (h : pass ∈ passesOf walls log) :
    pass.wall ∈ walls := by
  obtain ⟨i, hi, rfl⟩ := List.getElem_of_mem h
  simp [passesOf]

/-- A call, with its passes. -/
inductive EmulatesAt (localtime : BitVec 64 → Tm)
    (synthesize : BuzzerInformation → τ → τ × BitVec 16) :
    Adapter H838606 τ → Call × List Pass → Adapter H838606 τ → Prop
  | run {pw pw' : Adapter H838606 τ} {n : BitVec 32} {walls : List (BitVec 64)} :
      pw.pw_run (core localtime synthesize) walls n = some (pw', ok) → pw'.log = pw.log ++ fs →
      EmulatesAt localtime synthesize pw (.host (.run n), passesOf walls fs) pw'
  | other {pw pw' : Adapter H838606 τ} : (∀ n, c ≠ .host (.run n)) →
      Emulates localtime synthesize pw c pw' → EmulatesAt localtime synthesize pw (c, []) pw'

-- ---------------------------------------------------------------------------
-- Changes
-- ---------------------------------------------------------------------------

/-- One change of an emulator: a cycle that returns, or what takes no time. The origin of the
clock may be `fixed`. -/
inductive Change (localtime : BitVec 64 → Tm) (fixed : Prop) :
    Adapter H838606 τ → List Pass → Adapter H838606 τ → Prop
  | cycle {pw pw' : Adapter H838606 τ} (pass : Pass) :
      H838606.Cycle (localtime (pw.Now pass.wall)) pw.soc = .ok (pass.elapsed, calls) pw'.soc →
      pw'.cycles = pw.cycles + pass.elapsed.setWidth 64 → pw'.clock_origin = pw.clock_origin →
      pw'.log = pw.log ++ fs → reported fs = [pass.elapsed] → Change localtime fixed pw [pass] pw'
  | between {pw pw' : Adapter H838606 τ} : Untimed pw.soc pw'.soc → pw'.cycles = pw.cycles →
      (fixed → pw'.clock_origin = pw.clock_origin) → pw'.log = pw.log ++ fs → reported fs = [] →
      Change localtime fixed pw [] pw'

inductive Changes (localtime : BitVec 64 → Tm) (fixed : Prop) :
    Adapter H838606 τ → List Pass → Adapter H838606 τ → Prop
  | refl (pw : Adapter H838606 τ) : Changes localtime fixed pw [] pw
  | tail {pw q q' : Adapter H838606 τ} : Changes localtime fixed pw ps q →
      Change localtime fixed q qs q' → Changes localtime fixed pw (ps ++ qs) q'

namespace Changes

variable {fixed : Prop}

theorem single (h : Change localtime fixed pw ps pw') : Changes localtime fixed pw ps pw' :=
  .tail (.refl pw) h

theorem trans {q : Adapter H838606 τ} (h : Changes localtime fixed pw ps q)
    (h' : Changes localtime fixed q qs pw') : Changes localtime fixed pw (ps ++ qs) pw' := by
  induction h' with
  | refl =>
    rw [List.append_nil]
    exact h
  | tail _ hchange ih =>
    rw [← List.append_assoc]
    exact .tail (ih h) hchange

/-- The clock of the emulator counts the passes. -/
theorem cycles (h : Changes localtime fixed pw ps pw') :
    pw'.cycles = pw.cycles + BitVec.ofNat 64 (duration ps) := by
  induction h with
  | refl => simp
  | tail _ hchange ih =>
    rw [duration_append]
    cases hchange with
    | cycle pass _ hcycles _ _ _ =>
      rw [hcycles, ih, ← List.nil_append [pass], duration_concat, duration_nil]
      bv_omega
    | between _ hcycles _ _ _ => rw [hcycles, ih, duration_nil, Nat.add_zero]

end Changes

theorem transmitIR_change {bytes : List (Byte × H838606)} (hcalls : Called pw.soc bytes after)
    (h : Adapter.transmitIR bytes pw = (pw', result)) :
    pw'.cycles = pw.cycles ∧ pw'.clock_origin = pw.clock_origin ∧ Untimed pw.soc pw'.soc ∧
      ∃ fs, pw'.log = pw.log ++ fs ∧ reported fs = [] := by
  cases hcalls with
  | none =>
    cases h
    exact ⟨rfl, rfl, .refl _, [], (List.append_nil _).symm, rfl⟩
  | one hu _ =>
    simp only [Adapter.transmitIR, Adapter.onTransmitIR] at h
    by_cases hfull : pw.ir.length = IR_QUEUE_SIZE
    · simp only [hfull, ↓reduceIte] at h
      cases h
      exact ⟨rfl, rfl, hu.untimed, [_], rfl, rfl⟩
    · simp only [hfull, ↓reduceIte] at h
      cases h
      exact ⟨rfl, rfl, hu.untimed, [_], rfl, rfl⟩

theorem pass_change (localtime : BitVec 64 → Tm) (fixed : Prop)
    (synthesize : BuzzerInformation → τ → τ × BitVec 16) (wall : BitVec 64)
    (pw : Adapter H838606 τ) :
    ∃ fs, (pw.Cycle (core localtime synthesize) wall).1.log = pw.log ++ fs ∧
      Change localtime fixed pw (passesOf [wall] fs) (pw.Cycle (core localtime synthesize) wall).1 ∧
      match (pw.Cycle (core localtime synthesize) wall).2 with
      | some _ => reported fs = []
      | none => ∃ elapsed, reported fs = [elapsed] := by
  unfold Adapter.Cycle
  rcases hcore : (core localtime synthesize).Cycle (pw.Now wall) pw.soc with ⟨calls, result, t⟩
  dsimp only
  cases result with
  | error error =>
    obtain ⟨fault, hcycle, -, rfl⟩ := core_error hcore
    exact ⟨[], (List.append_nil _).symm,
      .between (Soc.Cycle_error hcycle).1.untimed rfl (fun _ => rfl) (List.append_nil _).symm rfl,
      rfl⟩
  | ok elapsed =>
    have hcycle := core_ok hcore
    rcases hcalls : Adapter.transmitIR calls pw with ⟨q, _ | error⟩
    · obtain ⟨hcycles, horigin, -, fs, hlog, hnone⟩ := transmitIR_change (Cycle_calls hcycle) hcalls
      obtain ⟨buzzer_cycles, sound, audio, heq⟩ := Adapter.buzzerCycle_eq
        (core localtime synthesize) elapsed
        { q with soc := t, cycles := q.cycles + elapsed.setWidth 64
                 log := q.log ++ [.elapsed elapsed] }
      have hlog' : q.log ++ [.elapsed elapsed] = pw.log ++ (fs ++ [.elapsed elapsed]) := by
        rw [hlog, List.append_assoc]
      have hone : reported (fs ++ [.elapsed elapsed]) = [elapsed] := by
        rw [reported_append, hnone]
        rfl
      dsimp only
      rw [heq]
      refine ⟨_, hlog', ?_, elapsed, hone⟩
      rw [passesOf, hone]
      exact .cycle ⟨wall, elapsed⟩ hcycle (congrArg (· + _) hcycles) horigin hlog' hone
    · obtain ⟨hcycles, horigin, huntimed, fs, hlog, hnone⟩ :=
        transmitIR_change (Cycle_calls hcycle) hcalls
      refine ⟨fs, hlog, ?_, hnone⟩
      rw [passesOf, hnone]
      exact .between huntimed hcycles (fun _ => horigin) hlog hnone

theorem runLoop_changes (fixed : Prop) {walls : List (BitVec 64)}
    (h : pw.runLoop (core localtime synthesize) walls = some (pw', ok)) :
    ∃ fs, pw'.log = pw.log ++ fs ∧ Changes localtime fixed pw (passesOf walls fs) pw' := by
  induction walls generalizing pw with
  | nil =>
    unfold Adapter.runLoop at h
    split at h
    · cases h
    · cases h
      exact ⟨[], (List.append_nil _).symm, .refl _⟩
  | cons wall walls ih =>
    obtain ⟨fs, hlog, hchange, hreported⟩ := pass_change localtime fixed synthesize wall pw
    unfold Adapter.runLoop at h
    split at h
    · split at h
      · rename_i hcycle
        rw [hcycle] at hlog hchange hreported
        cases h
        rw [passesOf_none _ hreported] at hchange
        refine ⟨fs, hlog, ?_⟩
        rw [passesOf_none _ hreported]
        refine Changes.trans (.single hchange) (.single ?_)
        exact .between (.refl _) rfl (fun _ => rfl) (List.append_nil _).symm rfl
      · rename_i hcycle
        rw [hcycle] at hlog hchange hreported
        obtain ⟨elapsed, hone⟩ := hreported
        obtain ⟨fs', hlog', hrest⟩ := ih h
        refine ⟨fs ++ fs', by rw [hlog', hlog, List.append_assoc], ?_⟩
        have hall := (Changes.single hchange).trans hrest
        rw [passesOf, hone] at hall
        rw [passesOf, reported_append, hone]
        exact hall
    · cases h
      exact ⟨[], (List.append_nil _).symm, .refl _⟩

def Call.setsOrigin : Call → Bool
  | .clockOrigin _ => true
  | _ => false

theorem ReceiveIR_untimed (data : Byte) (s : H838606) :
    Untimed s (left (SCI3.ReceiveIR data s)) := by
  unfold SCI3.ReceiveIR
  rw [bind_ok (get_apply s)]
  by_cases hIRE : s.sci3.IRCR.getLsbD IRCR_t.IRE = true
  · rw [Exec.ite_pos hIRE]
    by_cases hfull : IR_RECEIVE_QUEUE_SIZE ≤ s.sci3.receive_queue.length
    · rw [Exec.ite_pos hfull]
      exact .refl s
    · rw [Exec.ite_neg hfull]
      exact .other (e := .receiveIR data) rfl rfl rfl
  · rw [Exec.ite_neg hIRE]
    exact .refl s

instance : IsPreorder H838606 Untimed where
  refl := .refl
  trans _ _ _ := .trans

theorem receiveAll_untimed (bytes : List Byte) : Along Untimed (receiveAll bytes) := by
  induction bytes with
  | nil => exact .pure _
  | cons byte bytes ih => exact .bind (ReceiveIR_untimed byte) fun _ => ih

theorem receive_change (fixed : Prop) (bytes : List Byte) (pw : Adapter H838606 τ) :
    Change localtime fixed pw [] (pw_ir_receive bytes pw).1 := by
  have huntimed := receiveAll_untimed bytes pw.soc
  unfold pw_ir_receive
  split
  · rename_i h
    rw [h] at huntimed
    exact .between huntimed rfl (fun _ => rfl) (List.append_nil _).symm rfl
  · rename_i h
    rw [h] at huntimed
    exact .between huntimed rfl (fun _ => rfl) (List.append_nil _).symm rfl

theorem Emulates.change {fixed : Prop} (h : Emulates localtime synthesize pw c pw')
    (hrun : ∀ n, c ≠ .host (.run n)) (hfixed : fixed → c.setsOrigin = false) :
    Change localtime fixed pw [] pw' := by
  have hnone : ∀ pw' : Adapter H838606 τ, Untimed pw.soc pw'.soc → pw'.cycles = pw.cycles →
      pw'.clock_origin = pw.clock_origin → pw'.log = pw.log → Change localtime fixed pw [] pw' :=
    fun pw' hsoc hcycles horigin hlog =>
      .between hsoc hcycles (fun _ => horigin) (hlog.trans (List.append_nil _).symm) rfl
  cases h with
  | host h =>
    cases h with
    | run _ => exact absurd rfl (hrun _)
    | audio n => exact hnone _ (.refl _) rfl rfl rfl
    | transmit _ n =>
      unfold Adapter.pw_ir_transmit
      split
      · exact .between (.refl _) rfl (fun _ => rfl) rfl rfl
      · exact .between (.refl _) rfl (fun _ => rfl) rfl rfl
  | button h =>
    have hbus : BusMoves pw.soc _ := (pw_button_onBus _ _).along.of_ok h
    exact hnone _ hbus.onSsu.early.untimed rfl rfl rfl
  | walk enabled => exact hnone _ (.quiet rfl rfl) rfl rfl rfl
  | receive bytes => exact receive_change fixed bytes pw
  | clear => exact hnone _ (.other (e := .clearIR) rfl rfl rfl) rfl rfl rfl
  | clockOrigin origin =>
    exact .between (.refl _) rfl (fun h => nomatch hfixed h) (List.append_nil _).symm rfl

theorem pw_run_changes (fixed : Prop) {walls : List (BitVec 64)} {n : BitVec 32}
    (h : pw.pw_run (core localtime synthesize) walls n = some (pw', ok)) :
    ∃ fs, pw'.log = pw.log ++ fs ∧ Changes localtime fixed pw (passesOf walls fs) pw' := by
  unfold Adapter.pw_run at h
  split at h
  · cases h
    refine ⟨[], (List.append_nil _).symm, ?_⟩
    rw [passesOf_none walls rfl]
    exact .refl _
  · obtain ⟨fs, hlog, hloop⟩ := runLoop_changes fixed h
    have hstart : Change localtime fixed pw [] { pw with target := pw.target + n.setWidth 64 } :=
      .between (.refl _) rfl (fun _ => rfl) (List.append_nil _).symm rfl
    exact ⟨fs, hlog, Changes.trans (.single hstart) hloop⟩

/-- What a call does, unless it sets the origin of a clock that is fixed. -/
theorem EmulatesAt.changes {fixed : Prop} {c : Call × List Pass}
    (h : EmulatesAt localtime synthesize pw c pw') (hfixed : fixed → c.1.setsOrigin = false) :
    Changes localtime fixed pw c.2 pw' := by
  cases h with
  | run hrun hlog =>
    obtain ⟨fs, hlog', hchanges⟩ := pw_run_changes fixed hrun
    obtain rfl := List.append_cancel_left (hlog.symm.trans hlog')
    exact hchanges
  | other hrun h => exact .single (h.change hrun hfixed)

theorem emulatesAt_changes {fixed : Prop} {calls : List (Call × List Pass)}
    (h : Runs (EmulatesAt localtime synthesize) pw calls pw')
    (hfixed : fixed → ∀ c ∈ calls, c.1.setsOrigin = false) :
    Changes localtime fixed pw (calls.flatMap Prod.snd) pw' := by
  induction h with
  | nil => exact .refl _
  | cons hstep _ ih =>
    rw [List.flatMap_cons]
    exact (hstep.changes fun h => hfixed h _ (.head _)).trans
      (ih fun h c hc => hfixed h c (.tail _ hc))

theorem Emulates.at (h : Emulates localtime synthesize pw c pw') :
    ∃ ps, EmulatesAt localtime synthesize pw (c, ps) pw' := by
  by_cases hrun : ∃ n, c = .host (.run n)
  · obtain ⟨n, rfl⟩ := hrun
    cases h with
    | host h =>
      cases h with
      | run hrun =>
        obtain ⟨fs, hlog, -⟩ := pw_run_changes False hrun
        exact ⟨_, .run hrun hlog⟩
  · exact ⟨[], .other (not_exists.mp hrun) h⟩

theorem emulates_changes (h : Runs (Emulates localtime synthesize) pw calls pw') :
    ∃ ps, Changes localtime False pw ps pw' := by
  induction h with
  | nil => exact ⟨[], .refl _⟩
  | cons hstep _ ih =>
    obtain ⟨ps, hfirst⟩ := hstep.at
    obtain ⟨qs, hrest⟩ := ih
    exact ⟨ps ++ qs, (hfirst.changes False.elim).trans hrest⟩

/-- What cycles and the changes between them make of an emulator. -/
theorem changes_history {own : IoRegister → Bool} {K : Adapter H838606 τ → List Pass → Prop}
    {fixed : Prop} (h : Changes localtime fixed pw ps pw') (hstart : K pw [])
    (hcycle : ∀ q q' before es pass calls, K q before →
      H838606.Cycle (localtime (q.Now pass.wall)) q.soc = .ok (pass.elapsed, calls) q'.soc →
      q'.cycles = q.cycles + pass.elapsed.setWidth 64 → q'.clock_origin = q.clock_origin →
      q'.soc.log = q.soc.log ++ es → Leaves own es → K q' (before ++ [pass]))
    (hbetween : ∀ q q' before es, K q before → Untimed q.soc q'.soc → q'.cycles = q.cycles →
      (fixed → q'.clock_origin = q.clock_origin) → q'.soc.log = q.soc.log ++ es →
      Leaves own es → K q' before) :
    ∃ es fs, pw'.soc.log = pw.soc.log ++ es ∧ pw'.log = pw.log ++ fs ∧
      emulatedCycles fs = duration ps ∧ (Leaves own es → K pw' ps) := by
  induction h with
  | refl => exact ⟨[], [], (List.append_nil _).symm, (List.append_nil _).symm, rfl, fun _ => hstart⟩
  | @tail _ _ _ q q' _ hchange ih =>
    obtain ⟨es, fs, hlog, htime, hduration, hkept⟩ := ih hstart
    cases hchange with
    | @cycle calls fs' _ _ pass hsoc hcycles horigin htime' hreported =>
      obtain ⟨-, u, hearly, hlate⟩ := Cycle_ok hsoc
      obtain ⟨es', hulog, -⟩ := hearly.untimed
      have hlog' : q'.soc.log = q.soc.log ++ es' := by rw [hlate, lateDevices_log, hulog]
      refine ⟨es ++ es', fs ++ fs', by rw [hlog', hlog, List.append_assoc],
        by rw [htime', htime, List.append_assoc], ?_, fun hes => ?_⟩
      · rw [emulatedCycles_append, hduration, duration_concat, emulatedCycles_eq, hreported]
        rfl
      · obtain ⟨hes, hes'⟩ := leaves_append.mp hes
        exact hcycle q q' _ es' pass calls (hkept hes) hsoc hcycles horigin hlog' hes'
    | @between fs' _ _ huntimed hcycles horigin htime' hreported =>
      obtain ⟨es', hlog', -⟩ := id huntimed
      rw [List.append_nil]
      refine ⟨es ++ es', fs ++ fs', by rw [hlog', hlog, List.append_assoc],
        by rw [htime', htime, List.append_assoc], ?_, fun hes => ?_⟩
      · rw [emulatedCycles_append, hduration, emulatedCycles_eq, hreported]
        rfl
      · obtain ⟨hes, hes'⟩ := leaves_append.mp hes
        exact hbetween q q' _ es' (hkept hes) huntimed hcycles horigin hlog' hes'

/-- An emulator after a slice that returns, on a host without sound. -/
def sliced (localtime : BitVec 64 → Tm) (n : BitVec 32) (pw : Adapter H838606 Unit) :
    Adapter H838606 Unit :=
  ((pw.pw_run (core localtime fun _ _ => ((), 0)) (List.replicate n.toNat 0) n).getD (pw, false)).1

theorem sliced_emulates {pw : Adapter H838606 Unit} {n : BitVec 32}
    (h : (pw.pw_run (core localtime fun _ _ => ((), 0)) (List.replicate n.toNat 0) n).isSome) :
    Emulates localtime (fun _ _ => ((), 0)) pw (.host (.run n)) (sliced localtime n pw) := by
  obtain ⟨r, hr⟩ := Option.isSome_iff_exists.mp h
  rw [sliced, hr]
  exact .host (.run hr)

end PokeStroller.Soc
