import PokeStroller.Lib.Fifo
import PokeStroller.Adapter.Model

/-!
# Infrared bursts

The queue hands out the emitted bytes in order, and none of them while the
burst may still go on: `pw_ir_transmit` waits for 250 µs of emulated time
without an emission.
-/

namespace PokeStroller

-- ---------------------------------------------------------------------------
-- Histories
-- ---------------------------------------------------------------------------

namespace IrEvent

def queue : IrEvent → Option (FifoEvent Byte)
  | emitted byte => some (.put [byte])
  | returned bytes => some (.take bytes)
  | _ => none

def isEmission : IrEvent → Bool
  | emitted _ => true
  | _ => false

def duration : IrEvent → Nat
  | elapsed cycles => cycles.toNat
  | _ => 0

end IrEvent

def emittedBytes (log : List IrEvent) : List Byte :=
  log.flatMap fun | .emitted byte => [byte] | .overflow byte => [byte] | _ => []

def returnedBytes (log : List IrEvent) : List Byte :=
  log.flatMap fun | .returned bytes => bytes | _ => []

def emulatedCycles : List IrEvent → Nat
  | [] => 0
  | e :: log => e.duration + emulatedCycles log

def idleCycles (log : List IrEvent) : Nat := emulatedCycles (log.rtakeWhile (!·.isEmission))

theorem emulatedCycles_append (log es : List IrEvent) :
    emulatedCycles (log ++ es) = emulatedCycles log + emulatedCycles es := by
  induction log with
  | nil => simp [emulatedCycles]
  | cons e log ih => simp [emulatedCycles, ih, Nat.add_assoc]

theorem idleCycles_emitted (log : List IrEvent) (byte : Byte) :
    idleCycles (log ++ [.emitted byte]) = 0 := by
  simp [idleCycles, IrEvent.isEmission, emulatedCycles]

theorem idleCycles_concat (log : List IrEvent) {e : IrEvent} (h : e.isEmission = false) :
    idleCycles (log ++ [e]) = idleCycles log + e.duration := by
  rw [idleCycles, List.rtakeWhile_concat_pos _ _ _ (by simp [h]), emulatedCycles_append]
  rfl

/-- Between two emissions the idle time is what has passed since the first. -/
theorem idleCycles_burst (pre mid : List IrEvent) (byte : Byte)
    (h : ∀ e ∈ mid, e.isEmission = false) :
    idleCycles (pre ++ .emitted byte :: mid) = emulatedCycles mid := by
  induction mid using List.reverseRecOn with
  | nil => exact idleCycles_emitted pre byte
  | append_singleton mid e ih =>
    have hmid := ih fun x hx => h x (List.mem_append_left _ hx)
    have he := h e (by simp)
    rw [show pre ++ .emitted byte :: (mid ++ [e]) = pre ++ .emitted byte :: mid ++ [e] by simp,
      idleCycles_concat _ he, hmid, emulatedCycles_append]
    rfl

/-- Bytes are returned only after enough idle time. -/
def Gapped (log : List IrEvent) : Prop :=
  ∀ pre bytes post, log = pre ++ .returned bytes :: post → bytes ≠ [] →
    PW_CLOCK / 4000 ≤ idleCycles pre % UInt64.size

theorem Gapped.concat {log : List IrEvent} (h : Gapped log) {e : IrEvent}
    (he : ∀ bytes, e = .returned bytes → bytes ≠ [] → PW_CLOCK / 4000 ≤ idleCycles log % UInt64.size) :
    Gapped (log ++ [e]) := by
  intro pre bytes post hlog hbytes
  rcases List.eq_nil_or_concat post with rfl | ⟨post, x, rfl⟩
  · obtain ⟨rfl, hlast⟩ := List.append_inj' hlog rfl
    exact he bytes (List.singleton_inj.mp hlast) hbytes
  · have hsplit : log ++ [e] = (pre ++ .returned bytes :: post) ++ [x] := by simpa using hlog
    obtain ⟨rfl, -⟩ := List.append_inj' hsplit rfl
    exact h pre bytes post rfl hbytes

-- ---------------------------------------------------------------------------
-- The invariant
-- ---------------------------------------------------------------------------

/-- The fields are what the history says. -/
structure Adapter.Tracks (pw : Adapter σ τ) : Prop where
  queue : Runs Fifo.Step [] (pw.log.filterMap IrEvent.queue) pw.ir
  clock : pw.cycles - pw.last_ir_cycle = BitVec.ofNat 64 (idleCycles pw.log)
  gapped : Gapped pw.log

namespace Adapter

variable {core : Core σ τ} {pw pw' : Adapter σ τ}

theorem Tracks.onTransmitIR (h : pw.Tracks) (byte : Byte) : (pw.onTransmitIR byte).1.Tracks := by
  unfold Adapter.onTransmitIR
  split
  · refine ⟨?_, ?_, h.gapped.concat nofun⟩
    · exact h.queue.append_filterMap (.nil _)
    · rw [idleCycles_concat _ rfl]
      exact h.clock
  · refine ⟨?_, ?_, h.gapped.concat nofun⟩
    · exact h.queue.append_filterMap (.single (.put _ _))
    · rw [idleCycles_emitted]
      exact BitVec.sub_self _

theorem Tracks.transmitIR (h : pw.Tracks) (calls : List (Byte × σ)) :
    (transmitIR calls pw).1.Tracks := by
  induction calls generalizing pw with
  | nil => exact h
  | cons call calls ih =>
    obtain ⟨byte, soc⟩ := call
    have hsoc : Tracks { pw with soc := soc } := ⟨h.queue, h.clock, h.gapped⟩
    have hnext := hsoc.onTransmitIR byte
    unfold Adapter.transmitIR
    split
    · rename_i hcall
      rw [hcall] at hnext
      exact hnext
    · rename_i hcall
      rw [hcall] at hnext
      exact ih hnext

theorem transmitIR_eq (calls : List (Byte × σ)) (pw : Adapter σ τ) :
    ∃ soc ir last_ir_cycle log, (Adapter.transmitIR calls pw).1 =
      { pw with soc := soc, ir := ir, last_ir_cycle := last_ir_cycle, log := log } := by
  induction calls generalizing pw with
  | nil => exact ⟨_, _, _, _, rfl⟩
  | cons call calls ih =>
    obtain ⟨byte, soc⟩ := call
    unfold Adapter.transmitIR Adapter.onTransmitIR
    by_cases hfull : pw.ir.length = IR_QUEUE_SIZE
    · simp only [hfull, ↓reduceIte]
      exact ⟨_, _, _, _, rfl⟩
    · simp only [hfull, ↓reduceIte]
      obtain ⟨soc', ir, last_ir_cycle, log, heq⟩ := ih
        { pw with
          soc := soc, ir := pw.ir ++ [byte], last_ir_cycle := pw.cycles
          log := pw.log ++ [.emitted byte] }
      exact ⟨soc', ir, last_ir_cycle, log, heq⟩

theorem buzzerLoop_eq (core : Core σ τ) (passes : Nat) (pw : Adapter σ τ) :
    ∃ buzzer_cycles sound audio, buzzerLoop core passes pw =
      { pw with buzzer_cycles := buzzer_cycles, sound := sound, audio := audio } := by
  induction passes generalizing pw with
  | zero => exact ⟨_, _, _, rfl⟩
  | succ passes ih =>
    unfold buzzerLoop
    split
    · obtain ⟨buzzer_cycles, sound, audio, h⟩ := ih _
      exact ⟨buzzer_cycles, sound, audio, h.trans rfl⟩
    · exact ⟨_, _, _, rfl⟩

theorem buzzerCycle_eq (core : Core σ τ) (elapsed : Byte) (pw : Adapter σ τ) :
    ∃ buzzer_cycles sound audio, buzzerCycle core elapsed pw =
      { pw with buzzer_cycles := buzzer_cycles, sound := sound, audio := audio } := by
  obtain ⟨buzzer_cycles, sound, audio, h⟩ := buzzerLoop_eq core _ _
  exact ⟨buzzer_cycles, sound, audio, h.trans rfl⟩

theorem Tracks.buzzerCycle (h : pw.Tracks) (elapsed : Byte) :
    (buzzerCycle core elapsed pw).Tracks := by
  obtain ⟨buzzer_cycles, sound, audio, heq⟩ := buzzerCycle_eq core elapsed pw
  rw [heq]
  exact ⟨h.queue, h.clock, h.gapped⟩

theorem Tracks.elapsed (h : pw.Tracks) (soc : σ) (elapsed : Byte) :
    Tracks { pw with soc := soc, cycles := pw.cycles + elapsed.setWidth 64,
                     log := pw.log ++ [.elapsed elapsed] } := by
  refine ⟨?_, ?_, h.gapped.concat nofun⟩
  · exact h.queue.append_filterMap (.nil _)
  · rw [idleCycles_concat _ rfl, BitVec.ofNat_add, ← h.clock]
    have hduration : BitVec.ofNat 64 (IrEvent.elapsed elapsed).duration = elapsed.setWidth 64 :=
      BitVec.eq_of_toNat_eq (by simp [IrEvent.duration])
    rw [hduration]
    bv_omega

theorem Tracks.Cycle (h : pw.Tracks) (wall : BitVec 64) : (pw.Cycle core wall).1.Tracks := by
  unfold Adapter.Cycle
  split
  rename_i calls result soc _
  have hcalls := h.transmitIR calls
  split
  · rename_i hthrown
    rw [hthrown] at hcalls
    exact hcalls
  rename_i hcall
  rw [hcall] at hcalls
  split
  · exact ⟨hcalls.queue, hcalls.clock, hcalls.gapped⟩
  · exact (hcalls.elapsed soc _).buzzerCycle _

theorem Tracks.runLoop (h : pw.Tracks) (hrun : pw.runLoop core walls = some (pw', result)) :
    pw'.Tracks := by
  induction walls generalizing pw with
  | nil =>
    unfold Adapter.runLoop at hrun
    split at hrun
    · cases hrun
    · cases hrun
      exact h
  | cons wall walls ih =>
    have hcycle : (pw.Cycle core wall).1.Tracks := h.Cycle wall
    unfold Adapter.runLoop at hrun
    split at hrun
    · split at hrun
      · rename_i hcall
        rw [hcall] at hcycle
        cases hrun
        exact ⟨hcycle.queue, hcycle.clock, hcycle.gapped⟩
      · rename_i hcall
        rw [hcall] at hcycle
        exact ih hcycle hrun
    · cases hrun
      exact h

theorem Tracks.pw_run (h : pw.Tracks) (hrun : pw.pw_run core walls n = some (pw', result)) :
    pw'.Tracks := by
  unfold Adapter.pw_run at hrun
  split at hrun
  · cases hrun
    exact h
  · have htarget : Tracks { pw with target := pw.target + n.setWidth 64 } :=
      ⟨h.queue, h.clock, h.gapped⟩
    exact htarget.runLoop hrun

/-- The test of `pw_ir_transmit` on the idle time, in 64 bits. -/
theorem waiting_iff (k : Nat) :
    BitVec.ofNat 64 k < BitVec.ofNat 64 (PW_CLOCK / 4000) ↔ k % UInt64.size < PW_CLOCK / 4000 := by
  simp [BitVec.lt_def, PW_CLOCK]

theorem Tracks.pw_ir_transmit (h : pw.Tracks) (n : Nat) : (pw.pw_ir_transmit n).1.Tracks := by
  unfold Adapter.pw_ir_transmit
  split
  · refine ⟨?_, ?_, h.gapped.concat fun bytes he hbytes => ?_⟩
    · exact h.queue.append_filterMap (.single (.take [] pw.ir))
    · rw [idleCycles_concat _ rfl]
      exact h.clock
    · cases he
      exact absurd rfl hbytes
  · rename_i hidle
    refine ⟨?_, ?_, h.gapped.concat fun _ _ _ => ?_⟩
    · exact h.queue.append_filterMap (.single (.front _ _))
    · rw [idleCycles_concat _ rfl]
      exact h.clock
    · rw [h.clock, waiting_iff] at hidle
      omega

-- ---------------------------------------------------------------------------
-- Runs
-- ---------------------------------------------------------------------------

inductive HostCall
  | run (cycles : BitVec 32)
  | audio (capacity : Nat)
  | transmit (capacity : Nat)
  deriving DecidableEq, Repr

inductive Step (core : Core σ τ) : Adapter σ τ → HostCall → Adapter σ τ → Prop
  | run {pw pw' : Adapter σ τ} {n : BitVec 32} : pw.pw_run core walls n = some (pw', result) →
      Step core pw (.run n) pw'
  | audio (pw : Adapter σ τ) (n : Nat) : Step core pw (.audio n) (pw.pw_audio n).1
  | transmit (pw : Adapter σ τ) (n : Nat) : Step core pw (.transmit n) (pw.pw_ir_transmit n).1

theorem Step.tracks (hstep : Step core pw call pw') (h : pw.Tracks) : pw'.Tracks := by
  cases hstep with
  | run hrun => exact h.pw_run hrun
  | audio _ n => exact ⟨h.queue, h.clock, h.gapped⟩
  | transmit _ n => exact h.pw_ir_transmit n

/-- An emulator as `pw_create` returns it, or with its clock set. -/
def created (soc : σ) (sound : τ) (clock_origin : BitVec 64) : Adapter σ τ :=
  { soc := soc, sound := sound, clock_origin := clock_origin }

theorem tracks_created (soc : σ) (sound : τ) (clock_origin : BitVec 64) :
    (created soc sound clock_origin).Tracks where
  queue := .nil _
  clock := by simp [created, idleCycles, emulatedCycles]
  gapped := by
    intro pre bytes post hlog
    simp [created] at hlog

theorem Tracks.conserved (h : pw.Tracks) (hfull : ∀ byte, .overflow byte ∉ pw.log) :
    returnedBytes pw.log ++ pw.ir = emittedBytes pw.log := by
  have hreset : .reset ∉ pw.log.filterMap IrEvent.queue := fun hmem => by
    obtain ⟨e, -, he⟩ := List.mem_filterMap.mp hmem
    cases e <;> cases he
  have hflow := Fifo.takes_append h.queue hreset
  have htakes : Fifo.takes (pw.log.filterMap IrEvent.queue) = returnedBytes pw.log :=
    Fifo.flatMap_filterMap (fun e => by cases e <;> rfl) _
  have hputs : Fifo.puts (pw.log.filterMap IrEvent.queue) = emittedBytes pw.log := by
    rw [Fifo.puts, Fifo.flatMap_filterMap fun _ => rfl]
    refine List.flatMap_congr fun e he => ?_
    cases e with
    | overflow byte => exact absurd he (hfull byte)
    | _ => rfl
  rw [htakes, hputs] at hflow
  exact hflow

theorem Tracks.burst (h : pw.Tracks)
    (hlog : pw.log = pre ++ .emitted b₁ :: mid ++ .emitted b₂ :: post)
    (hmid : ∀ byte, .emitted byte ∉ mid) (hburst : emulatedCycles mid < PW_CLOCK / 4000)
    (hreturned : .returned bytes ∈ mid) : bytes = [] := by
  by_contra hbytes
  obtain ⟨mid₁, mid₂, rfl⟩ := List.append_of_mem hreturned
  have hgap := h.gapped (pre ++ .emitted b₁ :: mid₁) bytes (mid₂ ++ .emitted b₂ :: post)
    (by simpa using hlog) hbytes
  rw [idleCycles_burst] at hgap
  · rw [emulatedCycles_append] at hburst
    have := Nat.mod_le (emulatedCycles mid₁) UInt64.size
    omega
  · intro e he
    cases e with
    | emitted byte => exact absurd (List.mem_append_left _ he) (hmid byte)
    | _ => rfl

theorem Tracks.idle {n : Nat} (h : pw.Tracks)
    (hidle : PW_CLOCK / 4000 ≤ idleCycles pw.log % UInt64.size) (hn : pw.ir.length ≤ n) :
    (pw.pw_ir_transmit n).2 = pw.ir ∧ (pw.pw_ir_transmit n).1.ir = [] := by
  have hwaited : ¬ pw.cycles - pw.last_ir_cycle < BitVec.ofNat 64 (PW_CLOCK / 4000) := by
    rw [h.clock, waiting_iff]
    omega
  unfold Adapter.pw_ir_transmit
  rw [if_neg hwaited]
  simp [drain, Nat.min_eq_left hn]

/-- In every run of slices, audio and transmit calls with no overflow: the
bytes returned and the queue are the bytes emitted, in order; between two
emissions less than 250 µs apart nothing is returned; and after 250 µs without
an emission, counted in 64 bits, a call with room for the queue returns it. -/
theorem bursts_whole (core : Core σ τ) (soc : σ) (sound : τ) (clock_origin : BitVec 64)
    (h : Runs (Step core) (created soc sound clock_origin) calls pw)
    (hfull : ∀ byte, .overflow byte ∉ pw.log) :
    returnedBytes pw.log ++ pw.ir = emittedBytes pw.log ∧
    (∀ pre b₁ mid b₂ post, pw.log = pre ++ .emitted b₁ :: mid ++ .emitted b₂ :: post →
      (∀ byte, .emitted byte ∉ mid) → emulatedCycles mid < PW_CLOCK / 4000 →
      ∀ bytes, .returned bytes ∈ mid → bytes = []) ∧
    (∀ n, PW_CLOCK / 4000 ≤ idleCycles pw.log % UInt64.size → pw.ir.length ≤ n →
      (pw.pw_ir_transmit n).2 = pw.ir ∧ (pw.pw_ir_transmit n).1.ir = []) := by
  have htracks := h.invariant (fun _ _ _ hstep => hstep.tracks)
    (tracks_created soc sound clock_origin)
  refine ⟨htracks.conserved hfull, ?_, fun n => htracks.idle⟩
  intro pre b₁ mid b₂ post hlog hmid hburst bytes hreturned
  exact htracks.burst hlog hmid hburst hreturned

-- ---------------------------------------------------------------------------
-- Slices return
-- ---------------------------------------------------------------------------

theorem Cycle_clock (h : pw.Cycle core wall = (pw', none)) :
    ∃ calls elapsed soc, core.Cycle (pw.Now wall) pw.soc = (calls, .ok elapsed, soc) ∧
      pw'.cycles = pw.cycles + elapsed.setWidth 64 ∧ pw'.target = pw.target := by
  unfold Adapter.Cycle at h
  split at h
  rename_i calls result soc hcore
  obtain ⟨_, _, _, _, hsent⟩ := transmitIR_eq calls pw
  split at h
  · cases h
  rename_i hcalls
  rw [hcalls] at hsent
  cases hsent
  split at h
  · cases h
  · rename_i elapsed
    obtain ⟨buzzer_cycles, sound, audio, heq⟩ := buzzerCycle_eq core elapsed _
    rw [heq] at h
    cases h
    exact ⟨calls, _, soc, hcore, rfl, rfl⟩

theorem runLoop_returns (hcore : core.Advances) (hfar : pw.target.toNat + 255 < UInt64.size)
    (hpasses : pw.target.toNat - pw.cycles.toNat ≤ walls.length) :
    ∃ r, pw.runLoop core walls = some r := by
  induction walls generalizing pw with
  | nil =>
    unfold Adapter.runLoop
    have hdone : ¬ pw.cycles < pw.target := by
      rw [List.length_nil] at hpasses
      bv_omega
    exact ⟨_, if_neg hdone⟩
  | cons wall walls ih =>
    unfold Adapter.runLoop
    split
    · rename_i hless
      split
      · exact ⟨_, rfl⟩
      · rename_i q hcycle
        obtain ⟨calls, elapsed, soc, hcall, hcycles, htarget⟩ := Cycle_clock hcycle
        have hpos := hcore _ _ _ _ _ hcall
        refine ih (by rw [htarget]; exact hfar) ?_
        rw [htarget, hcycles]
        rw [List.length_cons] at hpasses
        unfold UInt64.size at hfar
        bv_omega
    · exact ⟨_, rfl⟩

theorem pw_run_returns (hcore : core.Advances) (n : BitVec 32)
    (hfar : pw.target.toNat + n.toNat + 255 < UInt64.size) :
    ∃ passes, ∀ walls, passes ≤ walls.length → ∃ r, pw.pw_run core walls n = some r := by
  refine ⟨(pw.target + n.setWidth 64).toNat - pw.cycles.toNat, fun walls hpasses => ?_⟩
  unfold Adapter.pw_run
  split
  · exact ⟨_, rfl⟩
  · refine runLoop_returns hcore ?_ hpasses
    change (pw.target + n.setWidth 64).toNat + 255 < UInt64.size
    bv_omega

theorem buzzerLoop_done (core : Core σ τ) (passes : Nat) (pw : Adapter σ τ)
    (hpasses : pw.buzzer_cycles.toNat / PHI_CLK ≤ passes) :
    (buzzerLoop core passes pw).buzzer_cycles.toNat < PHI_CLK := by
  induction passes generalizing pw with
  | zero =>
    unfold buzzerLoop PHI_CLK at *
    omega
  | succ passes ih =>
    unfold buzzerLoop
    split
    · rename_i hmore
      refine ih _ ?_
      unfold PHI_CLK at *
      change (pw.buzzer_cycles - _).toNat / _ ≤ _
      bv_omega
    · rename_i hless
      exact Nat.lt_of_not_le hless

theorem buzzerCycle_done (core : Core σ τ) (elapsed : Byte) (pw : Adapter σ τ) :
    (buzzerCycle core elapsed pw).buzzer_cycles.toNat < PHI_CLK :=
  buzzerLoop_done core _ _ (Nat.le_refl _)

-- ---------------------------------------------------------------------------
-- A run
-- ---------------------------------------------------------------------------

/-- The calls of a host in order, each slice with these times. -/
def play (core : Core σ τ) (walls : List (BitVec 64)) :
    List HostCall → Adapter σ τ → Option (Adapter σ τ)
  | [], pw => some pw
  | .run n :: calls, pw => (pw.pw_run core walls n).bind fun r => play core walls calls r.1
  | .audio n :: calls, pw => play core walls calls (pw.pw_audio n).1
  | .transmit n :: calls, pw => play core walls calls (pw.pw_ir_transmit n).1

theorem play_runs (h : play core walls calls pw = some pw') : Runs (Step core) pw calls pw' := by
  induction calls generalizing pw with
  | nil =>
    cases h
    exact .nil _
  | cons call calls ih =>
    cases call with
    | run n =>
      obtain ⟨r, hrun, h⟩ := Option.bind_eq_some_iff.mp h
      exact .cons (.run hrun) (ih h)
    | audio n => exact .cons (.audio _ n) (ih h)
    | transmit n => exact .cons (.transmit _ n) (ih h)

/-- A silent core that follows a script of emissions and then idles. -/
def scriptedCore : Core (List (Byte × Byte)) Unit where
  Cycle
    | _, [] => ([], .ok 250, [])
    | _, (byte, elapsed) :: rest => ([(byte, rest)], .ok elapsed, rest)
  CTS _ := false
  GRA _ := 0
  GRB _ := 0
  GRC _ := 0
  synthesize _ _ := ((), 0)

/-- A slice ends inside a burst of two bytes, and the call after it returns
nothing; after an idle time a call with room for one byte returns the first. -/
theorem bursts_whole_split : ∃ pw : Adapter (List (Byte × Byte)) Unit,
    pw.log = [.emitted 0xfc, .elapsed 160, .returned [], .emitted 0xfa, .elapsed 160,
      .elapsed 250, .elapsed 250, .elapsed 250, .elapsed 250, .returned [0xfc]] ∧
    [0xfc] ++ pw.ir = emittedBytes pw.log ∧ (pw.pw_ir_transmit 8).2 = pw.ir := by
  have run : (play scriptedCore (List.replicate 8 0)
      [.run 160, .transmit 8, .run 160, .run 1000, .transmit 1]
      (created [(0xfc, 160), (0xfa, 160)] () 0)).any (fun pw => decide (pw.ir = [0xfa] ∧
        pw.log = [.emitted 0xfc, .elapsed 160, .returned [], .emitted 0xfa, .elapsed 160,
          .elapsed 250, .elapsed 250, .elapsed 250, .elapsed 250, .returned [0xfc]])) = true := by
    decide
  obtain ⟨pw, hplay, h⟩ := (Option.any_eq_true _ _).mp run
  obtain ⟨hir, hlog⟩ := of_decide_eq_true h
  obtain ⟨hconserved, -, hidle⟩ := bursts_whole _ _ _ _ (play_runs hplay) (by simp [hlog])
  have hreturned : returnedBytes pw.log = [0xfc] := by rw [hlog]; rfl
  have hwaited : PW_CLOCK / 4000 ≤ idleCycles pw.log % UInt64.size := by rw [hlog]; decide
  exact ⟨pw, hlog, hreturned ▸ hconserved, (hidle 8 hwaited (by simp [hir])).1⟩

end Adapter

end PokeStroller
