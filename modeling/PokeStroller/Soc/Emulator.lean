import Mathlib.Data.List.GetD
import PokeStroller.Soc.Moves

/-!
# The emulator on its core

What is promised of the core for the run loop holds of the core of third_party/pocketwalker,
so `pw_run` returns whatever firmware it runs. Any sequence of calls is a chain of
moves of the SoC.
-/

namespace PokeStroller.Soc

open Exec

variable {localtime : BitVec 64 → Tm} {synthesize : BuzzerInformation → τ → τ × BitVec 16}
  {pw pw' : Adapter H838606 τ}

-- ---------------------------------------------------------------------------
-- The run loop
-- ---------------------------------------------------------------------------

theorem core_ok (h : (core localtime synthesize).Cycle now s = (calls, .ok elapsed, t)) :
    H838606.Cycle (localtime now) s = .ok (elapsed, calls) t := by
  simp only [core] at h
  split at h
  · rename_i heq
    cases h
    exact heq
  · cases h

theorem core_error (h : (core localtime synthesize).Cycle now s = (calls, .error error, t)) :
    ∃ fault, H838606.Cycle (localtime now) s = .error fault t ∧ error = fault.what ∧
      calls = [] := by
  simp only [core] at h
  split at h
  · cases h
  · rename_i fault _ heq
    cases h
    exact ⟨fault, heq, rfl, rfl⟩

theorem core_advances : (core localtime synthesize).Advances := by
  intro now s calls elapsed t h
  exact (Cycle_ok (core_ok h)).1.1

theorem core_explains : (core localtime synthesize).Explains := by
  intro now s calls error t h
  obtain ⟨fault, hcycle, rfl, -⟩ := core_error h
  exact Cycle_throws _ s fault t hcycle

/-- A slice runs less than this beyond its target. -/
def overshoot : Nat := 22

/-- What a slice with this target has done when it returns. -/
structure Sliced (pw : Adapter H838606 τ) (target : BitVec 64) (pw' : Adapter H838606 τ)
    (ok : Bool) : Prop where
  aimed : pw'.target = target
  failed : ok = false → pw'.error ≠ ""
  kept : ok = true → pw'.error = pw.error
  reached : ok = true → target ≤ pw'.cycles
  near : ok = true → pw.cycles.toNat < target.toNat + overshoot →
    pw'.cycles.toNat < target.toNat + overshoot

theorem Sliced.done (h : ¬pw.cycles < pw.target) : Sliced pw pw.target pw true :=
  ⟨rfl, nofun, fun _ => rfl, fun _ => BitVec.not_lt.mp h, fun _ h => h⟩

theorem Cycle_message (localtime : BitVec 64 → Tm)
    (synthesize : BuzzerInformation → τ → τ × BitVec 16) (wall : BitVec 64)
    (pw : Adapter H838606 τ) :
    (pw.Cycle (core localtime synthesize) wall).1.error = pw.error ∧
      (pw.Cycle (core localtime synthesize) wall).2 ≠ some "" := by
  obtain ⟨herror, -, hmessage⟩ := Adapter.Cycle_error (@core_explains τ localtime synthesize) wall pw
  exact ⟨herror, hmessage⟩

theorem Cycle_pass (hless : pw.cycles < pw.target)
    (h : pw.Cycle (core localtime synthesize) wall = (pw', none)) :
    pw'.cycles.toNat < pw.target.toNat + overshoot ∧
      pw'.error = pw.error ∧ pw'.target = pw.target := by
  obtain ⟨calls, elapsed, soc, hcore, hcycles, htarget⟩ := Adapter.Cycle_clock h
  have hcost := (Cycle_ok (core_ok hcore)).1.2
  have herror := (Cycle_message localtime synthesize wall pw).1
  rw [h] at herror
  refine ⟨?_, herror, htarget⟩
  rw [hcycles]
  unfold overshoot
  bv_omega

theorem runLoop_sliced {walls : List (BitVec 64)}
    (h : pw.runLoop (core localtime synthesize) walls = some (pw', ok)) :
    Sliced pw pw.target pw' ok := by
  induction walls generalizing pw with
  | nil =>
    unfold Adapter.runLoop at h
    split at h
    · cases h
    · rename_i hdone
      cases h
      exact .done hdone
  | cons wall walls ih =>
    unfold Adapter.runLoop at h
    split at h
    · rename_i hless
      split at h
      · rename_i pw₁ error hcycle
        cases h
        have hmessage := (Cycle_message localtime synthesize wall pw).2
        have htarget := Adapter.Cycle_target (core localtime synthesize) wall pw
        rw [hcycle] at hmessage htarget
        exact ⟨htarget, fun _ hempty => hmessage (congrArg some hempty), nofun, nofun, nofun⟩
      · rename_i pw₁ hcycle
        obtain ⟨hnear, herror, htarget⟩ := Cycle_pass hless hcycle
        have hrest := ih h
        rw [htarget] at hrest
        refine ⟨hrest.aimed, hrest.failed, fun hok => ?_, hrest.reached,
          fun hok _ => hrest.near hok hnear⟩
        exact (hrest.kept hok).trans herror
    · rename_i hdone
      cases h
      exact .done hdone

-- ---------------------------------------------------------------------------
-- Calls
-- ---------------------------------------------------------------------------

/-- The calls of emulator.h that change an emulator. -/
inductive Call
  | host (call : Adapter.HostCall)
  | button (mask : Byte) (down : Bool)
  | walk (enabled : Bool)
  | receive (bytes : List Byte)
  | clear
  | clockOrigin (origin : BitVec 64)
  deriving DecidableEq, Repr

def pw_clock_origin (origin : BitVec 64) (pw : Adapter H838606 τ) : Adapter H838606 τ :=
  { pw with clock_origin := origin }

inductive Emulates (localtime : BitVec 64 → Tm)
    (synthesize : BuzzerInformation → τ → τ × BitVec 16) :
    Adapter H838606 τ → Call → Adapter H838606 τ → Prop
  | host {pw pw' : Adapter H838606 τ} :
      Adapter.Step (core localtime synthesize) pw c pw' →
      Emulates localtime synthesize pw (.host c) pw'
  | button {pw : Adapter H838606 τ} : pw_button mask down pw.soc = .ok ⟨⟩ soc →
      Emulates localtime synthesize pw (.button mask down) { pw with soc := soc }
  | walk (enabled : Bool) (pw : Adapter H838606 τ) :
      Emulates localtime synthesize pw (.walk enabled) { pw with soc := pw_walk enabled pw.soc }
  | receive (bytes : List Byte) (pw : Adapter H838606 τ) :
      Emulates localtime synthesize pw (.receive bytes) (pw_ir_receive bytes pw).1
  | clear (pw : Adapter H838606 τ) :
      Emulates localtime synthesize pw .clear (pw_ir_clear pw)
  | clockOrigin (origin : BitVec 64) (pw : Adapter H838606 τ) :
      Emulates localtime synthesize pw (.clockOrigin origin) (pw_clock_origin origin pw)

def Call.requested : Call → Nat
  | .host (.run cycles) => cycles.toNat
  | _ => 0

def requested (calls : List Call) : Nat := (calls.map Call.requested).sum

@[simp] theorem requested_nil : requested [] = 0 := rfl

theorem requested_concat (calls : List Call) (c : Call) :
    requested (calls ++ [c]) = requested calls + c.requested := by
  simp [requested]

-- ---------------------------------------------------------------------------
-- Time
-- ---------------------------------------------------------------------------

/-- The time of an emulator that was asked for this many cycles. -/
structure InTime (asked : Nat) (pw : Adapter H838606 τ) : Prop where
  target : pw.target.toNat ≤ asked
  exact : pw.error = "" → pw.target.toNat = asked
  reached : pw.error = "" → pw.target ≤ pw.cycles
  near : pw.error = "" → pw.cycles.toNat < asked + overshoot

theorem InTime.pw_run {n : BitVec 32} (h : InTime asked pw)
    (hfar : asked + n.toNat + 255 < UInt64.size)
    (hrun : pw.pw_run (core localtime synthesize) walls n = some (pw', ok)) :
    InTime (asked + n.toNat) pw' := by
  have hkept := h.target
  unfold Adapter.pw_run at hrun
  split at hrun
  · rename_i herror
    cases hrun
    exact ⟨by omega, fun h => absurd h herror, fun h => absurd h herror, fun h => absurd h herror⟩
  · rename_i herror
    have herror : pw.error = "" := not_not.mp herror
    have htarget : (pw.target + n.setWidth 64).toNat = pw.target.toNat + n.toNat := by
      unfold UInt64.size at hfar
      bv_omega
    have hexact := h.exact herror
    have hnear := h.near herror
    have hslice := runLoop_sliced hrun
    cases ok with
    | true =>
      refine ⟨?_, fun _ => ?_, fun _ => ?_, fun _ => ?_⟩
      · rw [hslice.aimed, htarget]
        omega
      · rw [hslice.aimed, htarget]
        omega
      · rw [hslice.aimed]
        exact hslice.reached rfl
      · have hnear' := hslice.near rfl (by dsimp only; omega)
        dsimp only at hnear'
        omega
    | false =>
      have hfailed := hslice.failed rfl
      refine ⟨?_, fun h => absurd h hfailed, fun h => absurd h hfailed, fun h => absurd h hfailed⟩
      rw [hslice.aimed, htarget]
      omega

theorem InTime.receive (h : InTime asked pw) (bytes : List Byte) :
    InTime asked (pw_ir_receive bytes pw).1 := by
  unfold pw_ir_receive
  split
  · exact ⟨h.target, h.exact, h.reached, h.near⟩
  · rename_i fault soc hthrown
    have hmessage : fault.what ≠ "" := (receiveAll_byMoves bytes).throws _ _ _ hthrown
    exact ⟨h.target, fun h => absurd h hmessage, fun h => absurd h hmessage,
      fun h => absurd h hmessage⟩

theorem InTime.step (h : InTime asked pw) (hfar : asked + c.requested + 255 < UInt64.size)
    (hstep : Emulates localtime synthesize pw c pw') : InTime (asked + c.requested) pw' := by
  have hkeep {pw' : Adapter H838606 τ} (htarget : pw'.target = pw.target)
      (hcycles : pw'.cycles = pw.cycles) (herror : pw'.error = pw.error) : InTime asked pw' := by
    refine ⟨htarget ▸ h.target, fun he => ?_, fun he => ?_, fun he => ?_⟩
    · exact htarget ▸ h.exact (herror ▸ he)
    · exact htarget ▸ hcycles ▸ h.reached (herror ▸ he)
    · exact hcycles ▸ h.near (herror ▸ he)
  cases hstep with
  | host hhost =>
    cases hhost with
    | run hrun => exact h.pw_run hfar hrun
    | audio _ n => exact hkeep rfl rfl rfl
    | transmit _ n =>
      refine hkeep ?_ ?_ ?_ <;> (unfold Adapter.pw_ir_transmit; split <;> rfl)
  | button _ => exact hkeep rfl rfl rfl
  | walk enabled _ => exact hkeep rfl rfl rfl
  | receive bytes _ => exact h.receive bytes
  | clear _ => exact hkeep rfl rfl rfl
  | clockOrigin origin _ => exact hkeep rfl rfl rfl

theorem emulates_inTime
    (h : Runs (Emulates localtime synthesize) (Adapter.created soc sound origin) calls pw)
    (hfar : requested calls + 255 < UInt64.size) : InTime (requested calls) pw := by
  have htrace : requested calls + 255 < UInt64.size → InTime (requested calls) pw := by
    refine h.trace_invariant (I := fun calls pw => requested calls + 255 < UInt64.size →
      InTime (requested calls) pw) (fun calls pw c pw' hpw hstep hfar => ?_) fun _ => ?_
    · rw [requested_concat] at hfar ⊢
      exact (hpw (by omega)).step hfar hstep
    · exact ⟨Nat.le_refl 0, fun _ => rfl, fun _ => by simp [Adapter.created],
        fun _ => by simp [Adapter.created, overshoot]⟩
  exact htrace hfar

/-- Whatever the firmware does, a slice returns, and as long as nothing has failed the
emulated time is less than 22 cycles ahead of the time asked for. -/
theorem emulation_in_time
    (h : Runs (Emulates localtime synthesize) (Adapter.created soc sound origin) calls pw)
    (hfar : requested calls + 255 < UInt64.size) :
    (∀ n : BitVec 32, requested calls + n.toNat + 255 < UInt64.size →
      ∃ passes, ∀ walls : List (BitVec 64), passes ≤ walls.length →
        ∃ r, pw.pw_run (core localtime synthesize) walls n = some r) ∧
    (pw.error = "" → pw.target.toNat = requested calls ∧ requested calls ≤ pw.cycles.toNat ∧
      pw.cycles.toNat < requested calls + 22) := by
  have htime := emulates_inTime h hfar
  refine ⟨fun n hn => Adapter.pw_run_returns core_advances n ?_, fun herror => ?_⟩
  · have htarget := htime.target
    omega
  · have hexact := htime.exact herror
    have hreached := htime.reached herror
    rw [BitVec.le_def, hexact] at hreached
    exact ⟨hexact, hreached, htime.near herror⟩

/-- `pw_create` returns an emulator for buffers of the sizes its error names, and this one. -/
theorem pw_create_eq_ok {sound : τ} {known : Bool} : pw_create sound rom eeprom = .ok (pw, known) ↔
    ∃ code data, rom = some code ∧ eeprom = some data ∧
      (code.length = PW_ROM_SIZE ∨ code.length = 65536) ∧ data.length = PW_EEPROM_SIZE ∧
      pw = .created (.reset (fun i => code.getD i 0) fun i => data.getD i.toNat 0) sound (-1) ∧
      known = decide (fingerprint (code.take PW_ROM_SIZE) = 0x4fb3ade124517802) := by
  constructor
  · intro h
    unfold pw_create at h
    split at h
    case h_2 => cases h
    rename_i code data
    split at h
    · cases h
    · rename_i hsize
      obtain ⟨rfl, rfl⟩ := Prod.mk.inj (Except.ok.inj h)
      exact ⟨code, data, rfl, rfl, by omega, by omega, rfl, rfl⟩
  · rintro ⟨code, data, rfl, rfl, hcode, hdata, rfl, rfl⟩
    exact if_neg (by omega)

/-- With a firmware of zeros. -/
def blank : Adapter H838606 Unit := .created (.reset (fun _ => 0) fun _ => 0xFF) () (-1)

theorem pw_create_blank : ∃ known, pw_create () (some (List.replicate PW_ROM_SIZE 0))
    (some (List.replicate PW_EEPROM_SIZE 0xFF)) = .ok (blank, known) := by
  refine ⟨_, pw_create_eq_ok.mpr ⟨_, _, rfl, rfl, .inl List.length_replicate,
    List.length_replicate, ?_, rfl⟩⟩
  have hrom (i : Fin ROM_SIZE) : (List.replicate PW_ROM_SIZE (0 : Byte)).getD i 0 = 0 := by
    exact List.getD_replicate _ i.isLt
  have hdata (i : BitVec 16) :
      (List.replicate PW_EEPROM_SIZE (0xFF : Byte)).getD i.toNat 0 = 0xFF := by
    exact List.getD_replicate _ i.isLt
  simp only [blank, hrom, hdata]

theorem blank_slice : ∃ pw, Runs (Emulates (fun _ => {}) (fun _ _ => ((), 0))) blank
    [.host (.run 100)] pw ∧ pw.error = "" := by
  have hslice : (blank.pw_run (core (fun _ => {}) fun _ _ => ((), 0))
      (List.replicate 100 0) 100).any (·.1.error == "") = true := by
    decide +kernel
  obtain ⟨⟨pw, ok⟩, hrun, herror⟩ := (Option.any_eq_true _ _).mp hslice
  exact ⟨pw, .single (.host (.run hrun)), eq_of_beq herror⟩

theorem emulation_in_time_blank : ∃ pw₀ pw known,
    pw_create () (some (List.replicate PW_ROM_SIZE 0))
      (some (List.replicate PW_EEPROM_SIZE 0xFF)) = .ok (pw₀, known) ∧
    Runs (Emulates (fun _ => {}) (fun _ _ => ((), 0))) pw₀ [.host (.run 100)] pw ∧
    pw.error = "" ∧ pw.target.toNat = 100 ∧ 100 ≤ pw.cycles.toNat ∧ pw.cycles.toNat < 122 := by
  obtain ⟨known, hcreate⟩ := pw_create_blank
  obtain ⟨pw, hruns, herror⟩ := blank_slice
  exact ⟨blank, pw, known, hcreate, hruns, herror,
    (emulation_in_time hruns (by decide)).2 herror⟩

-- ---------------------------------------------------------------------------
-- The SoC along a run
-- ---------------------------------------------------------------------------

def accepted (log : List IrEvent) : List Byte :=
  log.filterMap fun | .emitted byte => some byte | _ => none

/-- What an emulator keeps between two calls. -/
structure Follows (pw pw' : Adapter H838606 τ) : Prop where
  moves : Moves pw.soc pw'.soc
  sent : sent pw.soc.log = accepted pw.log → sent pw'.soc.log = accepted pw'.log

namespace Follows

theorem refl (pw : Adapter H838606 τ) : Follows pw pw := ⟨.refl, id⟩

theorem trans {pw'' : Adapter H838606 τ} (h : Follows pw pw') (h' : Follows pw' pw'') :
    Follows pw pw'' := ⟨h.moves.trans h'.moves, fun hsent => h'.sent (h.sent hsent)⟩

theorem calls {bytes : List (Byte × H838606)}
    (hcalls : Called pw.soc bytes (Soc.sent t.log)) (hmoves : Moves pw.soc t)
    (q : Adapter H838606 τ) :
    (∀ error, Adapter.transmitIR bytes pw = (q, some error) → Follows pw q) ∧
      (Adapter.transmitIR bytes pw = (q, none) → Follows pw { q with soc := t }) := by
  generalize hafter : Soc.sent t.log = after at hcalls
  cases hcalls with
  | none =>
    constructor
    · rintro error h
      cases h
    · rintro h
      cases h
      exact ⟨hmoves, fun hsent => hafter.trans hsent⟩
  | one hu hkept =>
    simp only [Adapter.transmitIR, Adapter.onTransmitIR]
    by_cases hfull : pw.ir.length = IR_QUEUE_SIZE
    · simp only [hfull, ↓reduceIte]
      constructor
      · rintro error h
        cases h
        refine ⟨hu.moves, fun hsent => ?_⟩
        simpa [accepted] using hkept.trans hsent
      · rintro h
        cases h
    · simp only [hfull, ↓reduceIte]
      constructor
      · rintro error h
        cases h
      · rintro h
        cases h
        refine ⟨hmoves, fun hsent => ?_⟩
        simp [hafter, hsent, accepted]

theorem pass (localtime : BitVec 64 → Tm) (synthesize : BuzzerInformation → τ → τ × BitVec 16)
    (wall : BitVec 64) (pw : Adapter H838606 τ) :
    Follows pw (pw.Cycle (core localtime synthesize) wall).1 := by
  unfold Adapter.Cycle
  rcases hcore : (core localtime synthesize).Cycle (pw.Now wall) pw.soc with ⟨calls, result, t⟩
  dsimp only
  cases result with
  | error error =>
    obtain ⟨fault, hcycle, -, rfl⟩ := core_error hcore
    obtain ⟨hmoves, hkept⟩ := Soc.Cycle_error hcycle
    exact ⟨hmoves.moves, fun hsent => hkept.trans hsent⟩
  | ok elapsed =>
    have hcycle := core_ok hcore
    have hmoves : Moves pw.soc t := by
      obtain ⟨-, u, hearly, rfl⟩ := Cycle_ok hcycle
      exact hearly.moves.trans (lateDevices_moves _ _ u)
    rcases hcalls : Adapter.transmitIR calls pw with ⟨q, _ | error⟩
    · obtain ⟨buzzer_cycles, sound, audio, heq⟩ := Adapter.buzzerCycle_eq
        (core localtime synthesize) elapsed
        { q with soc := t, cycles := q.cycles + elapsed.setWidth 64
                 log := q.log ++ [.elapsed elapsed] }
      dsimp only
      rw [heq]
      refine ((Follows.calls (Cycle_calls hcycle) hmoves q).2 hcalls).trans ⟨.refl, fun hsent => ?_⟩
      simpa [accepted] using hsent
    · exact (Follows.calls (Cycle_calls hcycle) hmoves q).1 error hcalls

theorem runLoop {walls : List (BitVec 64)}
    (h : pw.runLoop (core localtime synthesize) walls = some (pw', ok)) : Follows pw pw' := by
  induction walls generalizing pw with
  | nil =>
    unfold Adapter.runLoop at h
    split at h
    · cases h
    · cases h
      exact refl _
  | cons wall walls ih =>
    have hpass := pass localtime synthesize wall pw
    unfold Adapter.runLoop at h
    split at h
    · split at h
      · rename_i hcycle
        rw [hcycle] at hpass
        cases h
        exact ⟨hpass.moves, hpass.sent⟩
      · rename_i hcycle
        rw [hcycle] at hpass
        exact hpass.trans (ih h)
    · cases h
      exact refl _

theorem receive (bytes : List Byte) (pw : Adapter H838606 τ) :
    Follows pw (pw_ir_receive bytes pw).1 := by
  have hmoves := (receiveAll_byMoves bytes).along pw.soc
  have hkept := receiveAll_sent bytes pw.soc
  unfold pw_ir_receive
  split
  · rename_i h
    rw [h] at hmoves hkept
    exact ⟨hmoves, fun hsent => hkept.trans hsent⟩
  · rename_i h
    rw [h] at hmoves hkept
    exact ⟨hmoves, fun hsent => hkept.trans hsent⟩

theorem step (h : Emulates localtime synthesize pw c pw') : Follows pw pw' := by
  cases h with
  | host h =>
    cases h with
    | run hrun =>
      unfold Adapter.pw_run at hrun
      split at hrun
      · cases hrun
        exact refl pw
      · have hloop := runLoop hrun
        exact ⟨hloop.moves, hloop.sent⟩
    | audio n => exact ⟨.refl, id⟩
    | transmit n =>
      unfold Adapter.pw_ir_transmit
      split
      · exact ⟨.refl, fun hsent => by simpa [accepted] using hsent⟩
      · exact ⟨.refl, fun hsent => by simpa [accepted] using hsent⟩
  | button h =>
    have hbus : BusMoves pw.soc _ := (pw_button_onBus _ _).along.of_ok h
    exact ⟨hbus.onSsu.early.moves, fun hsent => hbus.onSsu.sent.trans hsent⟩
  | walk enabled => exact ⟨.single (.walk enabled pw.soc), id⟩
  | receive bytes => exact receive bytes pw
  | clear =>
    exact ⟨.single (.clearIR pw.soc), fun hsent => (sent_concat _ rfl).trans hsent⟩
  | clockOrigin origin => exact ⟨.refl, id⟩

end Follows

/-- Whatever the host calls, what happens to the SoC is a chain of moves. -/
theorem emulates_follows (h : Runs (Emulates localtime synthesize) pw calls pw') :
    Follows pw pw' :=
  h.invariant (I := fun q => Follows pw q) (fun _ _ _ hstep hpw => hpw.trans (.step hstep))
    (.refl pw)

end PokeStroller.Soc
