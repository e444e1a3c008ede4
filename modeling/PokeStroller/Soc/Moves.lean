import PokeStroller.Soc.Accesses
import PokeStroller.Soc.Costs

/-!
# What a cycle does to the SoC

A cycle is a chain of moves: accesses by the processor, and what the devices do
when their time has come. What every move keeps, every cycle keeps, also one that
ends with an exception.
-/

namespace PokeStroller.Soc

open Exec

-- ---------------------------------------------------------------------------
-- Moves
-- ---------------------------------------------------------------------------

/-- One change of the SoC by the processor or on the serial bus. -/
inductive SsuMove : H838606 → H838606 → Prop
  | bus {s t : H838606} : BusMove s t → SsuMove s t
  | accelerometerTime (cycles : Byte) (s : H838606) :
      SsuMove s { s with accelerometer := (s.accelerometer.Cycle cycles).1 }
  | sample {s : H838606} : s.accelerometer.setSample x y z = some a →
      SsuMove s { s with accelerometer := a }
  | ssuTime (s : H838606) (ssu_cycles : BitVec 32) :
      SsuMove s { s with ssu.ssu_cycles := ssu_cycles }
  | reset (p : Peripheral) (s : H838606) : SsuMove s (record (.reset p) (p.Reset s))
  | pin (value : Bool) (s : H838606) : SsuMove s { s with lcd := s.lcd.onInputPin value }
  | ssuEnd {s : H838606} : s.ssu.SSER.getLsbD SSER_t.TE = true →
      s.ssu.SSSR.getLsbD SSSR_t.TDRE = true →
      SsuMove s { s with ssu.SSSR := withBit s.ssu.SSSR SSSR_t.TEND true }
  | receive {p : Peripheral} {s t : H838606} : s.ssu.SSER.getLsbD SSER_t.TE = true →
      s.ssu.SSSR.getLsbD SSSR_t.TDRE = false → p.Receive s.ssu.SSTDR s = some t →
      SsuMove s (SSU.transmitted p s.ssu.SSTDR t)
  | transmit {p : Peripheral} {s t : H838606} : s.ssu.SSER.getLsbD SSER_t.RE = true →
      s.ssu.SSSR.getLsbD SSSR_t.RDRF = false → p.reply s = some (data, t) →
      SsuMove s (SSU.received p data t)

/-- One change of the SoC before the timers have their turn. -/
inductive EarlyMove : H838606 → H838606 → Prop
  | ssu {s t : H838606} : SsuMove s t → EarlyMove s t
  | sci3Time (s : H838606) (sci3_cycles : BitVec 32) :
      EarlyMove s { s with sci3.sci3_cycles := sci3_cycles }
  | sci3End {s : H838606} : s.sci3.SCR.getLsbD SCR_t.TE = true →
      s.sci3.SSR.getLsbD SSR_t.TDRE = true →
      EarlyMove s { s with sci3.SSR := withBit s.sci3.SSR SSR_t.TEND true }
  | transmitIR {s : H838606} : s.sci3.SCR.getLsbD SCR_t.TE = true →
      s.sci3.SSR.getLsbD SSR_t.TDRE = false → s.sci3.IRCR.getLsbD IRCR_t.IRE = true →
      EarlyMove s (SCI3.transmitted s)
  | takeIR {s : H838606} : s.sci3.SCR.getLsbD SCR_t.RE = true →
      s.sci3.SSR.getLsbD SSR_t.RDRF = false → s.sci3.receive_queue = data :: rest →
      s.sci3.IRCR.getLsbD IRCR_t.IRE = true → EarlyMove s (SCI3.received data rest s)

/-- One change of the SoC, by itself or by the host. -/
inductive Move : H838606 → H838606 → Prop
  | early {s t : H838606} : EarlyMove s t → Move s t
  | timerB1 (cycles : Byte) (s : H838606) : Move s (TimerB1.Cycle cycles s)
  | timerW (cycles : Byte) (s : H838606) : Move s (TimerW.Cycle cycles s)
  | rtc (now : Tm) (cycles : Byte) (s : H838606) : Move s (RTC.Cycle now cycles s)
  | adc (s : H838606) : Move s (ADC.Cycle s)
  | walk (enabled : Bool) (s : H838606) : Move s (pw_walk enabled s)
  | receiveIR (data : Byte) {s : H838606} : s.sci3.IRCR.getLsbD IRCR_t.IRE = true →
      s.sci3.receive_queue.length < IR_RECEIVE_QUEUE_SIZE → Move s (SCI3.queued data s)
  | clearIR (s : H838606) : Move s (clearReceiveIR s)

abbrev SsuMoves : H838606 → H838606 → Prop := Relation.ReflTransGen SsuMove

abbrev EarlyMoves : H838606 → H838606 → Prop := Relation.ReflTransGen EarlyMove

abbrev Moves : H838606 → H838606 → Prop := Relation.ReflTransGen Move

/-- An execution that is a chain of moves. -/
abbrev ByMoves (x : Exec α) : Prop := Tame Moves Explained x

theorem BusMoves.onSsu {s t : H838606} (h : BusMoves s t) : SsuMoves s t := by
  induction h with
  | refl => exact .refl
  | tail _ hmove ih => exact ih.tail (.bus hmove)

theorem SsuMoves.early {s t : H838606} (h : SsuMoves s t) : EarlyMoves s t := by
  induction h with
  | refl => exact .refl
  | tail _ hmove ih => exact ih.tail (.ssu hmove)

theorem EarlyMoves.moves {s t : H838606} (h : EarlyMoves s t) : Moves s t := by
  induction h with
  | refl => exact .refl
  | tail _ hmove ih => exact ih.tail (.early hmove)

abbrev OnSsu (x : Exec α) : Prop := Tame SsuMoves Explained x

abbrev Early (x : Exec α) : Prop := Tame EarlyMoves Explained x

theorem OnBus.onSsu {x : Exec α} (h : OnBus x) : OnSsu x :=
  h.mono (fun _ _ => BusMoves.onSsu) fun _ => And.left

theorem OnSsu.early {x : Exec α} (h : OnSsu x) : Early x :=
  h.mono (fun _ _ => SsuMoves.early) fun _ => id

theorem Early.byMoves {x : Exec α} (h : Early x) : ByMoves x :=
  h.mono (fun _ _ => EarlyMoves.moves) fun _ => id

theorem onSsu_modify {f : H838606 → H838606} (h : ∀ s, SsuMove s (f s)) :
    OnSsu (modify f : Exec PUnit) := .modify fun s => .single (h s)

/-- The same as `Tame`, from one state. -/
structure TameAt (R : H838606 → H838606 → Prop) (x : Exec α) (s : H838606) : Prop where
  along : R s (left (x s))
  throws : ∀ fault t, x s = .error fault t → fault.what ≠ ""

namespace TameAt

variable {R : H838606 → H838606 → Prop} {s t : H838606}

theorem tame {x : Exec α} (h : ∀ s, TameAt R x s) : Tame R Explained x :=
  ⟨fun s => (h s).along, fun s => (h s).throws⟩

theorem of_tame {x : Exec α} (h : Tame R Explained x) : TameAt R x s := ⟨h.along s, h.throws s⟩

theorem of_ok {x : Exec α} (h : x s = .ok a t) (hst : R s t) : TameAt R x s := by
  constructor
  · rw [h]
    exact hst
  · intro fault u herror
    rw [h] at herror
    cases herror

theorem ite {p : Prop} [Decidable p] {x y : Exec α} (hx : TameAt R x s) (hy : TameAt R y s) :
    TameAt R (if p then x else y) s := by
  split
  · exact hx
  · exact hy

theorem set (h : R s t) : TameAt R (set t) s := of_ok (set_apply t s) h

variable [IsPreorder H838606 R]

theorem pure (a : α) : TameAt R (pure a) s := of_ok (pure_apply a s) (refl_of R s)

/-- What follows a program that ends well starts where it ends. -/
theorem bind_ok {x : Exec α} {f : α → Exec β} (h : x s = .ok a t) (hst : R s t)
    (hf : TameAt R (f a) t) : TameAt R (x >>= f) s := by
  constructor
  · rw [Exec.bind_ok h]
    exact trans_of R hst hf.along
  · intro fault u herror
    rw [Exec.bind_ok h] at herror
    exact hf.throws fault u herror

theorem get_bind {f : H838606 → Exec α} (h : TameAt R (f s) s) : TameAt R (get >>= f) s :=
  bind_ok (get_apply s) (refl_of R s) h

theorem set_bind {f : PUnit → Exec α} (h : R s t) (hf : TameAt R (f ⟨⟩) t) :
    TameAt R (MonadStateOf.set t >>= f) s := bind_ok (set_apply t s) h hf

theorem checked_bind {array : HostArray} {x : Option α} {f : α → Exec β}
    (h : ∀ a, x = some a → TameAt R (f a) s) : TameAt R (checked array x >>= f) s := by
  cases x with
  | some a => exact bind_ok (pure_apply a s) (refl_of R s) (h a rfl)
  | none =>
    have herror : (checked array none >>= f : Exec β) s = .error (.undefined array) s :=
      bind_error (throw_apply _ s)
    constructor
    · rw [herror]
      exact refl_of R s
    · intro fault t h
      rw [herror] at h
      cases h
      exact (by decide : ("undefined" : String) ≠ "")

end TameAt

-- ---------------------------------------------------------------------------
-- The serial bus
-- ---------------------------------------------------------------------------

theorem onOutputPin_onBus (value : Bool) : OnBus (SSU.onOutputPin value) :=
  .bind (Read8_onBus _) fun _ => Write8_onBus _ _

theorem cyclePeripherals_onSsu (cycles : Byte) : OnSsu (SSU.cyclePeripherals cycles) := by
  have htime : OnSsu (SSU.cycleAccelerometer cycles) :=
    TameAt.tame fun s => .get_bind (.set_bind (.single (.accelerometerTime cycles s)) (.pure _))
  refine .bind htime fun pulse => .ite ?_ (.pure _)
  exact .bind (onOutputPin_onBus _).onSsu fun _ => (onOutputPin_onBus _).onSsu

theorem selectAmong_onSsu (ps : List Peripheral) : OnSsu (SSU.selectAmong ps) := by
  induction ps with
  | nil => exact .pure _
  | cons p ps ih =>
    refine .bind (Read8_onBus _).onSsu fun port => .ite ?_ ?_
    · exact .bind (onSsu_modify fun s => .reset p s) fun _ => ih
    · refine .bind ?_ fun _ => .pure _
      refine .ite ?_ (.pure _)
      exact .bind (Read8_onBus _).onSsu fun _ => onSsu_modify fun s => .pin _ s

theorem transmitByte_onSsu (p : Peripheral) : OnSsu (SSU.transmitByte p) := by
  refine TameAt.tame fun s => .get_bind ?_
  split
  · rename_i hTE
    split
    · rename_i hTDRE
      exact .set (.single (.ssuEnd hTE hTDRE))
    · rename_i hTDRE
      exact .checked_bind fun t ht => .set (.single (.receive hTE (by simpa using hTDRE) ht))
  · exact .pure _

theorem GetSample_onBus : OnBus Peripheral.GetSample := by
  refine .bind (Read8_onBus _) fun sample_count => Tame.ite ?_ (.pure _)
  exact .bind (Write8_onBus _ _) fun _ => .pure _

theorem sample_onSsu (p : Peripheral) : OnSsu p.sample := by
  have hstore (x y z : Byte) : OnSsu (Peripheral.storeSample x y z) :=
    TameAt.tame fun s => .get_bind (.checked_bind fun a ha => .set (.single (.sample ha)))
  cases p with
  | accelerometer =>
    refine .bind .get fun s => .ite ?_ (.pure _)
    exact .bind GetSample_onBus.onSsu fun sample => hstore sample.1 sample.2.1 sample.2.2
  | eeprom => exact .pure _
  | lcd => exact .pure _

theorem GetSample_ssu (s : H838606) :
    ∃ sample t, Peripheral.GetSample s = .ok sample t ∧ t.ssu = s.ssu := by
  unfold Peripheral.GetSample
  rw [bind_ok (Read8_ram (by decide) s)]
  split
  · rw [bind_ok (Write8_ram (by decide) 0 s)]
    exact ⟨_, _, rfl, rfl⟩
  · exact ⟨_, _, rfl, rfl⟩

theorem sample_ssu (p : Peripheral) (s : H838606) :
    ∃ t, p.sample s = .ok ⟨⟩ t ∧ t.ssu = s.ssu := by
  cases p with
  | accelerometer =>
    rw [Peripheral.sample, bind_ok (get_apply s)]
    by_cases hwants : (s.accelerometer.wantsSample && s.steps.is_enabled) = true
    · obtain ⟨sample, t, hsample, hssu⟩ := GetSample_ssu s
      rw [Exec.ite_pos hwants, bind_ok hsample]
      exact ⟨_, rfl, hssu⟩
    · rw [Exec.ite_neg hwants]
      exact ⟨s, rfl, rfl⟩
  | eeprom => exact ⟨s, rfl, rfl⟩
  | lcd => exact ⟨s, rfl, rfl⟩

theorem answer_onSsu (p : Peripheral) {s : H838606} (hRE : s.ssu.SSER.getLsbD SSER_t.RE = true)
    (hRDRF : s.ssu.SSSR.getLsbD SSSR_t.RDRF = false) : TameAt SsuMoves (SSU.answer p) s :=
  .get_bind (.checked_bind fun _ hreply => .set (.single (.transmit hRE hRDRF hreply)))

theorem receiveByte_onSsu (p : Peripheral) : OnSsu (SSU.receiveByte p) := by
  refine TameAt.tame fun s => .get_bind ?_
  split
  · rename_i hready
    simp only [Bool.and_eq_true, Bool.not_eq_true'] at hready
    obtain ⟨t, hsample, hssu⟩ := sample_ssu p s
    refine .bind_ok hsample ((sample_onSsu p).along.of_ok hsample) (answer_onSsu p ?_ ?_)
    · rw [hssu]
      exact hready.1
    · rw [hssu]
      exact hready.2
  · exact .pure _

theorem tick_onSsu : OnSsu SSU.tick := by
  refine .bind (selectAmong_onSsu _) fun p => ?_
  split
  · exact .pure _
  · exact .bind (transmitByte_onSsu _) fun _ => receiveByte_onSsu _

theorem SSU_Cycle_onSsu (cycles : Byte) : OnSsu (SSU.Cycle cycles) := by
  refine .bind (cyclePeripherals_onSsu _) fun _ => TameAt.tame fun s => .get_bind ?_
  exact .ite (.set (.single (.ssuTime s _))) (.set_bind (.single (.ssuTime s _)) (.of_tame tick_onSsu))

-- ---------------------------------------------------------------------------
-- Infrared
-- ---------------------------------------------------------------------------

theorem SCI3_transmitByte_early : Early SCI3.transmitByte := by
  refine TameAt.tame fun s => .get_bind ?_
  split
  · rename_i hTE
    split
    · rename_i hTDRE
      exact .set_bind (.single (.sci3End hTE hTDRE)) (.pure _)
    · rename_i hTDRE
      split
      · rename_i hIRE
        exact .set_bind (.single (.transmitIR hTE (by simpa using hTDRE) hIRE)) (.pure _)
      · exact .of_tame (.throw (by decide))
  · exact .pure _

theorem SCI3_receiveByte_early : Early SCI3.receiveByte := by
  refine TameAt.tame fun s => .get_bind ?_
  split
  · rename_i hready
    simp only [Bool.and_eq_true, Bool.not_eq_true'] at hready
    split
    · exact .pure _
    · rename_i data rest hqueue
      split
      · rename_i hIRE
        exact .set (.single (.takeIR hready.1 hready.2 hqueue hIRE))
      · exact .of_tame (.throw (by decide))
  · exact .pure _

theorem SCI3_Cycle_early (cycles : Byte) : Early (SCI3.Cycle cycles) := by
  refine TameAt.tame fun s => .get_bind ?_
  refine .ite (.set_bind (.single (.sci3Time s _)) (.of_tame ?_)) (.set_bind (.single (.sci3Time s _)) (.pure _))
  exact .bind SCI3_transmitByte_early fun _ => .bind SCI3_receiveByte_early fun _ => .pure _

-- ---------------------------------------------------------------------------
-- Calls
-- ---------------------------------------------------------------------------

def Event.sent : Event → Option Byte
  | transmitIR data => some data
  | _ => none

def sent (log : List Event) : List Byte := log.filterMap Event.sent

theorem sent_concat (log : List Event) {e : Event} (h : e.sent = none) :
    sent (log ++ [e]) = sent log := by
  simp [sent, h]

@[simp] theorem record_log (e : Event) (s : H838606) : (record e s).log = s.log ++ [e] := rfl

@[simp] theorem onRead_log (r : IoRegister) (s : H838606) : (r.onRead s).log = s.log := by
  cases r <;> rfl

theorem onWrite_log (r : IoRegister) (value : Byte) (s : H838606) :
    (r.onWrite value s).log = s.log ∨ (r.onWrite value s).log = s.log ++ [.clearIR] := by
  cases r with
  | IRCR =>
    simp only [IoRegister.onWrite]
    split
    · exact .inl rfl
    · exact .inr rfl
  | SSR =>
    simp only [IoRegister.onWrite]
    split <;> exact .inl rfl
  | _ => exact .inl rfl

theorem BusMove.sent {s t : H838606} (h : BusMove s t) : sent t.log = sent s.log := by
  cases h with
  | read r _ => simp [IoRegister.read, Soc.sent, Event.sent]
  | write r value _ =>
    rcases onWrite_log r value (record (.write r value) s) with h | h
    · simp [IoRegister.write, h, Soc.sent, Event.sent]
    · simp [IoRegister.write, h, Soc.sent, Event.sent]
  | _ => rfl

theorem Peripheral.Receive_frame {p : Peripheral} {s t : H838606}
    (h : p.Receive data s = some t) :
    t = { s with accelerometer := t.accelerometer, eeprom := t.eeprom, lcd := t.lcd } := by
  cases p with
  | accelerometer =>
    obtain ⟨a, -, rfl⟩ := Option.map_eq_some_iff.mp h
    rfl
  | eeprom =>
    cases h
    rfl
  | lcd =>
    obtain ⟨lcd, -, rfl⟩ := Option.map_eq_some_iff.mp h
    rfl

theorem Peripheral.reply_frame {p : Peripheral} {s t : H838606}
    (h : p.reply s = some (data, t)) :
    t = { s with accelerometer := t.accelerometer, eeprom := t.eeprom, lcd := t.lcd } := by
  cases p with
  | accelerometer =>
    obtain ⟨⟨data', a⟩, -, heq⟩ := Option.map_eq_some_iff.mp h
    cases heq
    rfl
  | eeprom =>
    cases h
    rfl
  | lcd =>
    cases h
    rfl

theorem Peripheral.Reset_frame (p : Peripheral) (s : H838606) :
    p.Reset s = { s with
      accelerometer := (p.Reset s).accelerometer, eeprom := (p.Reset s).eeprom
      lcd := (p.Reset s).lcd } := by
  cases p <;> rfl

theorem Peripheral.Receive_log {p : Peripheral} {s t : H838606} (h : p.Receive data s = some t) :
    t.log = s.log := by
  rw [Receive_frame h]

theorem Peripheral.reply_log {p : Peripheral} {s t : H838606} (h : p.reply s = some (data, t)) :
    t.log = s.log := by
  rw [reply_frame h]

theorem Peripheral.Reset_log (p : Peripheral) (s : H838606) : (p.Reset s).log = s.log := by
  rw [Reset_frame]

theorem SsuMove.sent {s t : H838606} (h : SsuMove s t) : sent t.log = sent s.log := by
  cases h with
  | bus h => exact h.sent
  | reset p _ => simp [Peripheral.Reset_log, Soc.sent, Event.sent]
  | receive _ _ h =>
    simp [SSU.transmitted, Peripheral.Receive_log h, Soc.sent, Event.sent]
  | transmit _ _ h =>
    simp [SSU.received, Peripheral.reply_log h, Soc.sent, Event.sent]
  | _ => rfl

theorem SsuMoves.sent {s t : H838606} (h : SsuMoves s t) : sent t.log = sent s.log := by
  induction h with
  | refl => rfl
  | tail _ hmove ih => exact hmove.sent.trans ih

/-- The calls of the callback on the way from `s`, and the bytes sent after them. -/
inductive Called (s : H838606) : List (Byte × H838606) → List Byte → Prop
  | none : Called s [] (sent s.log)
  | one : EarlyMoves s u → sent u.log = sent s.log → Called s [(byte, u)] (sent s.log ++ [byte])

theorem Called.head {s t : H838606} (h : Called t calls bytes) (hmoves : EarlyMoves s t)
    (hsent : sent t.log = sent s.log) : Called s calls bytes := by
  cases h with
  | none => exact hsent ▸ .none
  | one hu hkept =>
    rw [hsent] at hkept ⊢
    exact .one (hmoves.trans hu) hkept

theorem SCI3_transmitByte_ok {s t : H838606} (h : SCI3.transmitByte s = .ok calls t) :
    calls = [] ∧ sent t.log = sent s.log ∨
      calls = [(s.sci3.TDR, s)] ∧ s.sci3.IRCR.getLsbD IRCR_t.IRE = true ∧
        t = SCI3.transmitted s := by
  unfold SCI3.transmitByte at h
  rw [bind_ok (get_apply s)] at h
  split at h
  · split at h
    · rw [bind_ok (set_apply _ _), pure_apply] at h
      cases h
      exact .inl ⟨rfl, rfl⟩
    · split at h
      · rename_i hIRE
        rw [bind_ok (set_apply _ _), pure_apply] at h
        cases h
        exact .inr ⟨rfl, hIRE, rfl⟩
      · rw [throw_apply] at h
        cases h
  · rw [pure_apply] at h
    cases h
    exact .inl ⟨rfl, rfl⟩

theorem SCI3_transmitByte_calls {s t : H838606} (h : SCI3.transmitByte s = .ok calls t) :
    Called s calls (sent t.log) := by
  rcases SCI3_transmitByte_ok h with ⟨rfl, hkept⟩ | ⟨rfl, -, rfl⟩
  · rw [hkept]
    exact .none
  · simp only [SCI3.transmitted, record_log, sent, List.filterMap_append]
    exact .one .refl rfl

theorem SCI3_transmitByte_error {s t : H838606} (h : SCI3.transmitByte s = .error fault t) :
    sent t.log = sent s.log := by
  unfold SCI3.transmitByte at h
  rw [bind_ok (get_apply s)] at h
  split at h
  · split at h
    · rw [bind_ok (set_apply _ _), pure_apply] at h
      cases h
    · split at h
      · rw [bind_ok (set_apply _ _), pure_apply] at h
        cases h
      · rw [throw_apply] at h
        cases h
        rfl
  · rw [pure_apply] at h
    cases h

theorem SCI3_receiveByte_error {s t : H838606} (h : SCI3.receiveByte s = .error fault t) :
    s.sci3.IRCR.getLsbD IRCR_t.IRE = false := by
  by_contra hIRE
  simp only [Bool.not_eq_false] at hIRE
  unfold SCI3.receiveByte at h
  rw [bind_ok (get_apply s)] at h
  split at h
  · cases hqueue : s.sci3.receive_queue with
    | nil =>
      rw [hqueue] at h
      cases h
    | cons data rest =>
      rw [hqueue] at h
      dsimp only at h
      rw [set_apply] at h
      cases h
  · rw [pure_apply] at h
    cases h

theorem SCI3_receiveByte_sent (s : H838606) :
    sent (left (SCI3.receiveByte s)).log = sent s.log := by
  unfold SCI3.receiveByte
  rw [bind_ok (get_apply s)]
  by_cases hready : (s.sci3.SCR.getLsbD SCR_t.RE && !s.sci3.SSR.getLsbD SSR_t.RDRF) = true
  · rw [Exec.ite_pos hready]
    cases s.sci3.receive_queue with
    | nil => rfl
    | cons data rest =>
      dsimp only
      by_cases hIRE : s.sci3.IRCR.getLsbD IRCR_t.IRE = true
      · rw [Exec.ite_pos hIRE, set_apply]
        simp [SCI3.received, sent, Event.sent]
      · rw [Exec.ite_neg hIRE]
        rfl
  · rw [Exec.ite_neg hready]
    rfl

theorem SCI3_Cycle_calls {s t : H838606} (h : SCI3.Cycle cycles s = .ok calls t) :
    Called s calls (sent t.log) := by
  unfold SCI3.Cycle at h
  rw [bind_ok (get_apply s)] at h
  split at h
  · rw [bind_ok (set_apply _ _)] at h
    obtain ⟨calls', u, htransmit, h⟩ := bind_eq_ok.mp h
    obtain ⟨_, v, hreceive, h⟩ := bind_eq_ok.mp h
    cases h
    have hkept := SCI3_receiveByte_sent u
    rw [hreceive, left_ok] at hkept
    rw [hkept]
    exact (SCI3_transmitByte_calls htransmit).head (.single (.sci3Time s _)) rfl
  · rw [bind_ok (set_apply _ _), pure_apply] at h
    cases h
    exact .none

/-- An exception of the interface needs `IRCR.IRE` clear, a call needs it set. -/
theorem SCI3_Cycle_error {s t : H838606} (h : SCI3.Cycle cycles s = .error fault t) :
    sent t.log = sent s.log := by
  unfold SCI3.Cycle at h
  rw [bind_ok (get_apply s)] at h
  split at h
  · rw [bind_ok (set_apply _ _)] at h
    rcases bind_eq_error.mp h with h | ⟨calls, u, htransmit, h⟩
    · rw [SCI3_transmitByte_error h]
    rcases bind_eq_error.mp h with h | ⟨_, v, -, h⟩
    · have hclear := SCI3_receiveByte_error h
      have hkept := SCI3_receiveByte_sent u
      rw [h, left_error] at hkept
      rw [hkept]
      rcases SCI3_transmitByte_ok htransmit with ⟨-, hsent⟩ | ⟨-, hIRE, rfl⟩
      · exact hsent
      · exact absurd (hIRE.symm.trans hclear) nofun
    · rw [pure_apply] at h
      cases h
  · rw [bind_ok (set_apply _ _), pure_apply] at h
    cases h

-- ---------------------------------------------------------------------------
-- The whole
-- ---------------------------------------------------------------------------

theorem lateDevices_moves (now : Tm) (cycles : Byte) (s : H838606) :
    Moves s (s.lateDevices now cycles) := by
  have hstep {p : Prop} [Decidable p] {f : H838606 → H838606} (hf : ∀ s, Move s (f s))
      (s : H838606) : Moves s (if p then f s else s) := by
    split
    · exact .single (hf s)
    · exact .refl
  unfold H838606.lateDevices
  exact (hstep (.timerB1 cycles) _).trans <| (hstep (.timerW cycles) _).trans <|
    (hstep (.rtc now cycles) _).trans <| hstep .adc _

theorem ssuCycle_onSsu (cycles : Byte) : OnSsu (H838606.ssuCycle cycles) :=
  .bind .get fun _ => .ite (SSU_Cycle_onSsu _) (.pure _)

theorem sci3Cycle_early (cycles : Byte) : Early (H838606.sci3Cycle cycles) :=
  .bind .get fun _ => .ite (SCI3_Cycle_early _) (.pure _)

/-- A cycle with an exception ends before the timers and sends nothing. -/
theorem Cycle_error {s t : H838606} (h : H838606.Cycle now s = .error fault t) :
    EarlyMoves s t ∧ sent t.log = sent s.log := by
  have hssu {u : H838606} (hmoves : SsuMoves s u) : EarlyMoves s u ∧ sent u.log = sent s.log :=
    ⟨hmoves.early, hmoves.sent⟩
  rcases bind_eq_error.mp h with h | ⟨cycles, s₁, hcpu, h⟩
  · exact hssu (CPU.Cycle_onBus.onSsu.along.of_error h)
  have h₁ : SsuMoves s s₁ := CPU.Cycle_onBus.onSsu.along.of_ok hcpu
  rcases bind_eq_error.mp h with h | ⟨_, s₂, hinterrupt, h⟩
  · exact hssu (h₁.trans (Interrupts.Cycle_onBus.onSsu.along.of_error h))
  have h₂ : SsuMoves s s₂ := h₁.trans (Interrupts.Cycle_onBus.onSsu.along.of_ok hinterrupt)
  rcases bind_eq_error.mp h with h | ⟨_, s₃, hserial, h⟩
  · exact hssu (h₂.trans ((ssuCycle_onSsu _).along.of_error h))
  have h₃ : SsuMoves s s₃ := h₂.trans ((ssuCycle_onSsu _).along.of_ok hserial)
  rcases bind_eq_error.mp h with h | ⟨_, s₄, -, h⟩
  · refine ⟨h₃.early.trans ((sci3Cycle_early _).along.of_error h), ?_⟩
    unfold H838606.sci3Cycle at h
    rw [bind_ok (get_apply _)] at h
    split at h
    · exact (SCI3_Cycle_error h).trans h₃.sent
    · cases h
  · cases h

theorem Cycle_ok {s t : H838606} (h : H838606.Cycle now s = .ok (cycles, calls) t) :
    Cost cycles ∧ ∃ u, EarlyMoves s u ∧ t = u.lateDevices now cycles := by
  obtain ⟨elapsed, s₁, hcpu, h⟩ := bind_eq_ok.mp h
  obtain ⟨_, s₂, hinterrupt, h⟩ := bind_eq_ok.mp h
  obtain ⟨_, s₃, hssu, h⟩ := bind_eq_ok.mp h
  obtain ⟨_, s₄, hsci3, h⟩ := bind_eq_ok.mp h
  cases h
  refine ⟨CPU.Cycle_cost _ _ _ hcpu, s₄, ?_, rfl⟩
  exact ((CPU.Cycle_onBus.onSsu.early.along.of_ok hcpu).trans
    (Interrupts.Cycle_onBus.onSsu.early.along.of_ok hinterrupt)).trans <|
      ((ssuCycle_onSsu _).early.along.of_ok hssu).trans ((sci3Cycle_early _).along.of_ok hsci3)

/-- The states are the same but for what `patch` takes from the second one. -/
structure Only (patch : H838606 → H838606 → H838606) (s t : H838606) : Prop where
  eq : t = patch s t

theorem Only.ite {patch : H838606 → H838606 → H838606} {p : Prop} [Decidable p] {s t u : H838606}
    (h : Only patch s t) (h' : Only patch s u) : Only patch s (if p then t else u) := by
  split
  · exact h
  · exact h'

theorem TimerB1_only (cycles : Byte) (s : H838606) :
    Only (fun s t => { s with
      timer_b1 := t.timer_b1, interrupts.IRR2 := t.interrupts.IRR2 }) s
      (TimerB1.Cycle cycles s) :=
  .ite (.ite (.ite ⟨rfl⟩ ⟨rfl⟩) ⟨rfl⟩) ⟨rfl⟩

theorem TimerW_only (cycles : Byte) (s : H838606) :
    Only (fun s t => { s with
      io_low := t.io_low, timer_w := t.timer_w, interrupts.TSRW := t.interrupts.TSRW }) s
      (TimerW.Cycle cycles s) := by
  have hcount (s : H838606) : Only (fun s t => { s with
      io_low := t.io_low, interrupts.TSRW := t.interrupts.TSRW }) s (TimerW.count s) :=
    .ite ⟨rfl⟩ ⟨rfl⟩
  have hcompare (s : H838606) : Only (fun s t => { s with
      io_low := t.io_low, interrupts.TSRW := t.interrupts.TSRW }) s (TimerW.compareA s) := by
    refine .ite ⟨?_⟩ ⟨rfl⟩
    unfold TimerW.request
    split <;> rfl
  refine .ite (.ite ⟨?_⟩ ⟨rfl⟩) ⟨rfl⟩
  rw [(hcompare _).eq, (hcount _).eq]

theorem RTC_only (now : Tm) (cycles : Byte) (s : H838606) :
    Only (fun s t => { s with rtc := t.rtc, interrupts.RTCFLG := t.interrupts.RTCFLG }) s
      (RTC.Cycle now cycles s) :=
  .ite (.ite (.ite ⟨rfl⟩ ⟨rfl⟩) ⟨rfl⟩) ⟨rfl⟩

theorem ADC_only (s : H838606) :
    Only (fun s t => { s with io_high := t.io_high, adc := t.adc }) s (ADC.Cycle s) :=
  .ite ⟨rfl⟩ ⟨rfl⟩

structure LateFrame (s t : H838606) : Prop where
  eq : t = { s with
    io_low := t.io_low, io_high := t.io_high, interrupts := t.interrupts, timer_b1 := t.timer_b1
    timer_w := t.timer_w, rtc := t.rtc, adc := t.adc }

theorem LateFrame.refl (s : H838606) : LateFrame s s := ⟨rfl⟩

theorem LateFrame.trans {s t u : H838606} (h : LateFrame s t) (h' : LateFrame t u) :
    LateFrame s u := by
  constructor
  rw [h'.eq, h.eq]

theorem TimerB1_frame (cycles : Byte) (s : H838606) : LateFrame s (TimerB1.Cycle cycles s) :=
  ⟨by rw [(TimerB1_only cycles s).eq]⟩

theorem TimerW_frame (cycles : Byte) (s : H838606) : LateFrame s (TimerW.Cycle cycles s) :=
  ⟨by rw [(TimerW_only cycles s).eq]⟩

theorem RTC_frame (now : Tm) (cycles : Byte) (s : H838606) :
    LateFrame s (RTC.Cycle now cycles s) := ⟨by rw [(RTC_only now cycles s).eq]⟩

theorem ADC_frame (s : H838606) : LateFrame s (ADC.Cycle s) := ⟨by rw [(ADC_only s).eq]⟩

theorem lateDevices_frame (now : Tm) (cycles : Byte) (s : H838606) :
    LateFrame s (s.lateDevices now cycles) := by
  have hstep {p : Prop} [Decidable p] {f : H838606 → H838606} (hf : ∀ s, LateFrame s (f s))
      (s : H838606) : LateFrame s (if p then f s else s) := by
    split
    · exact hf s
    · exact .refl s
  unfold H838606.lateDevices
  exact (hstep (TimerB1_frame cycles) _).trans <| (hstep (TimerW_frame cycles) _).trans <|
    (hstep (RTC_frame now cycles) _).trans <| hstep ADC_frame _

theorem lateDevices_log (now : Tm) (cycles : Byte) (s : H838606) :
    (s.lateDevices now cycles).log = s.log := by
  rw [(lateDevices_frame now cycles s).eq]

/-- At most one byte is sent in a cycle, and its call finds the SoC on its way. -/
theorem Cycle_calls {s t : H838606} (h : H838606.Cycle now s = .ok (cycles, calls) t) :
    Called s calls (sent t.log) := by
  obtain ⟨elapsed, s₁, hcpu, h⟩ := bind_eq_ok.mp h
  obtain ⟨_, s₂, hinterrupt, h⟩ := bind_eq_ok.mp h
  obtain ⟨_, s₃, hssu, h⟩ := bind_eq_ok.mp h
  obtain ⟨_, s₄, hsci3, h⟩ := bind_eq_ok.mp h
  cases h
  have hbefore : SsuMoves s s₃ := (CPU.Cycle_onBus.onSsu.along.of_ok hcpu).trans <|
    (Interrupts.Cycle_onBus.onSsu.along.of_ok hinterrupt).trans <|
      (ssuCycle_onSsu _).along.of_ok hssu
  rw [lateDevices_log]
  refine Called.head ?_ hbefore.early hbefore.sent
  unfold H838606.sci3Cycle at hsci3
  rw [bind_ok (get_apply _)] at hsci3
  split at hsci3
  · exact SCI3_Cycle_calls hsci3
  · rw [pure_apply] at hsci3
    cases hsci3
    exact .none

/-- However a cycle ends, what it has done is a chain of moves. -/
theorem Cycle_moves (now : Tm) (s : H838606) : Moves s (left (H838606.Cycle now s)) := by
  cases h : H838606.Cycle now s with
  | ok result t =>
    obtain ⟨-, u, hearly, rfl⟩ := Cycle_ok h
    exact hearly.moves.trans (lateDevices_moves now _ u)
  | error fault t => exact (Cycle_error h).1.moves

theorem Cycle_throws (now : Tm) : Throws Explained (H838606.Cycle now) :=
  CPU.Cycle_onBus.onSsu.throws.bind fun _ => Interrupts.Cycle_onBus.onSsu.throws.bind fun _ =>
    (ssuCycle_onSsu _).early.throws.bind fun _ => (sci3Cycle_early _).throws.bind fun _ =>
      (Throws.modify _).bind fun _ => .pure _

theorem pw_button_onBus (mask : Byte) (down : Bool) : OnBus (pw_button mask down) :=
  .bind (Read8_onBus _) fun _ => Write8_onBus _ _

theorem ReceiveIR_byMoves (data : Byte) : ByMoves (SCI3.ReceiveIR data) := by
  refine TameAt.tame fun s => .get_bind ?_
  split
  · rename_i hIRE
    split
    · exact .of_tame (.throw (by decide))
    · rename_i hroom
      exact .set (.single (.receiveIR data hIRE (by omega)))
  · exact .pure _

theorem receiveAll_byMoves (bytes : List Byte) : ByMoves (receiveAll bytes) := by
  induction bytes with
  | nil => exact .pure _
  | cons byte bytes ih => exact .bind (ReceiveIR_byMoves byte) fun _ => ih

theorem ReceiveIR_sent (data : Byte) (s : H838606) :
    sent (left (SCI3.ReceiveIR data s)).log = sent s.log := by
  unfold SCI3.ReceiveIR
  rw [bind_ok (get_apply s)]
  split
  · by_cases hfull : IR_RECEIVE_QUEUE_SIZE ≤ s.sci3.receive_queue.length
    · rw [Exec.ite_pos hfull]
      rfl
    · rw [Exec.ite_neg hfull, set_apply]
      exact sent_concat _ rfl
  · rfl

theorem receiveAll_sent (bytes : List Byte) (s : H838606) :
    sent (left (receiveAll bytes s)).log = sent s.log := by
  induction bytes generalizing s with
  | nil => rfl
  | cons byte bytes ih =>
    have hfirst := ReceiveIR_sent byte s
    unfold receiveAll
    cases h : SCI3.ReceiveIR byte s with
    | ok _ t =>
      rw [h] at hfirst
      rw [bind_ok h]
      exact (ih t).trans hfirst
    | error fault t =>
      rw [h] at hfirst
      rw [bind_error h]
      exact hfirst

end PokeStroller.Soc
