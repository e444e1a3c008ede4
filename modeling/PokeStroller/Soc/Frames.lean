import PokeStroller.Soc.Moves

/-!
# What each move can touch

The processor reaches the peripherals over the serial bus only, and the timers
do not reach them at all. So what a move does to a peripheral is what the
peripheral does itself.
-/

namespace PokeStroller.Soc

/-- The ROM, the peripherals and the samples for them are the same. -/
structure SameBoard (s t : H838606) : Prop where
  rom : t.rom = s.rom
  accelerometer : t.accelerometer = s.accelerometer
  steps : t.steps = s.steps
  eeprom : t.eeprom = s.eeprom
  lcd : t.lcd = s.lcd

theorem SameBoard.of_eq {s t : H838606}
    (h : (t.rom, t.accelerometer, t.steps, t.eeprom, t.lcd) =
      (s.rom, s.accelerometer, s.steps, s.eeprom, s.lcd)) : SameBoard s t := by
  simp only [Prod.mk.injEq] at h
  obtain ⟨h₁, h₂, h₃, h₄, h₅⟩ := h
  exact ⟨h₁, h₂, h₃, h₄, h₅⟩

theorem SameBoard.ite {p : Prop} [Decidable p] {s t u : H838606} (h : SameBoard s t)
    (h' : SameBoard s u) : SameBoard s (if p then t else u) := by
  split
  · exact h
  · exact h'

theorem onRead_board (r : IoRegister) (s : H838606) : SameBoard s (r.onRead s) := by
  cases r <;> exact .of_eq rfl

theorem onWrite_board (r : IoRegister) (value : Byte) (s : H838606) :
    SameBoard s (r.onWrite value s) := by
  cases r with
  | IRCR => exact .ite (.of_eq rfl) (.of_eq rfl)
  | SSR => exact .ite (.of_eq rfl) (.of_eq rfl)
  | _ => exact .of_eq rfl

theorem BusMove.board {s t : H838606} (h : BusMove s t) : SameBoard s t := by
  cases h with
  | cpu _ _ => exact .of_eq rfl
  | ram _ _ => exact .of_eq rfl
  | io _ _ _ => exact .of_eq rfl
  | read r _ =>
    obtain ⟨h₁, h₂, h₃, h₄, h₅⟩ := onRead_board r s
    exact ⟨h₁, h₂, h₃, h₄, h₅⟩
  | write r value _ =>
    obtain ⟨h₁, h₂, h₃, h₄, h₅⟩ := onWrite_board r value (record (.write r value) s)
    exact ⟨h₁, h₂, h₃, h₄, h₅⟩

theorem LateFrame.board {s t : H838606} (h : LateFrame s t) : SameBoard s t := by
  rw [h.eq]
  exact .of_eq rfl

theorem Move.lcd {s t : H838606} (h : Move s t) :
    t.lcd = s.lcd ∨ (∃ value, t.lcd = s.lcd.onInputPin value) ∨
      ∃ data, s.lcd.Receive data = some t.lcd := by
  cases h with
  | early h =>
    cases h with
    | ssu h =>
      cases h with
      | bus h => exact .inl h.board.lcd
      | reset p _ => cases p <;> exact .inl rfl
      | pin value _ => exact .inr (.inl ⟨value, rfl⟩)
      | @receive p _ t _ _ h =>
        cases p with
        | accelerometer =>
          obtain ⟨a, -, rfl⟩ := Option.map_eq_some_iff.mp h
          exact .inl rfl
        | eeprom =>
          cases h
          exact .inl rfl
        | lcd =>
          obtain ⟨lcd, hlcd, rfl⟩ := Option.map_eq_some_iff.mp h
          exact .inr (.inr ⟨_, hlcd⟩)
      | @transmit data p _ t _ _ h =>
        cases p with
        | accelerometer =>
          obtain ⟨a, -, heq⟩ := Option.map_eq_some_iff.mp h
          cases heq
          exact .inl rfl
        | eeprom =>
          cases h
          exact .inl rfl
        | lcd =>
          cases h
          exact .inl rfl
      | _ => exact .inl rfl
    | _ => exact .inl rfl
  | timerB1 cycles _ => exact .inl (TimerB1_frame cycles s).board.lcd
  | timerW cycles _ => exact .inl (TimerW_frame cycles s).board.lcd
  | rtc now cycles _ => exact .inl (RTC_frame now cycles s).board.lcd
  | adc _ => exact .inl (ADC_frame s).board.lcd
  | _ => exact .inl rfl

-- ---------------------------------------------------------------------------
-- Acts
-- ---------------------------------------------------------------------------

/-- What the history tells of, and what decides about it. -/
structure Lines where
  eeprom : M95512
  SSTDR : Byte
  SSRDR : Byte
  SSER : Byte
  ssuTDRE : Bool
  ssuRDRF : Bool
  TDR : Byte
  RDR : Byte
  SCR : Byte
  IRCR : Byte
  sci3TDRE : Bool
  sci3RDRF : Bool
  receive_queue : List Byte

def H838606.lines (s : H838606) : Lines where
  eeprom := s.eeprom
  SSTDR := s.ssu.SSTDR
  SSRDR := s.ssu.SSRDR
  SSER := s.ssu.SSER
  ssuTDRE := s.ssu.SSSR.getLsbD SSSR_t.TDRE
  ssuRDRF := s.ssu.SSSR.getLsbD SSSR_t.RDRF
  TDR := s.sci3.TDR
  RDR := s.sci3.RDR
  SCR := s.sci3.SCR
  IRCR := s.sci3.IRCR
  sci3TDRE := s.sci3.SSR.getLsbD SSR_t.TDRE
  sci3RDRF := s.sci3.SSR.getLsbD SSR_t.RDRF
  receive_queue := s.sci3.receive_queue

structure Quiet (s t : H838606) : Prop where
  log : t.log = s.log
  lines : t.lines = s.lines

inductive Act : H838606 → H838606 → Prop
  | read (r : IoRegister) (s : H838606) : Act s (r.read s)
  | write (r : IoRegister) (value : Byte) (s : H838606) : Act s (r.write value s)
  | reset (p : Peripheral) (s : H838606) : Act s (record (.reset p) (p.Reset s))
  | receive {p : Peripheral} {s t : H838606} : s.lines.ssuTDRE = false →
      p.Receive s.ssu.SSTDR s = some t → Act s (SSU.transmitted p s.ssu.SSTDR t)
  | transmit {p : Peripheral} {s t : H838606} : s.lines.ssuRDRF = false →
      p.reply s = some (data, t) → Act s (SSU.received p data t)
  | transmitIR {s : H838606} : s.lines.sci3TDRE = false → Act s (SCI3.transmitted s)
  | takeIR {s : H838606} : s.lines.sci3RDRF = false → s.sci3.receive_queue = data :: rest →
      Act s (SCI3.received data rest s)
  | receiveIR (data : Byte) {s : H838606} : s.sci3.receive_queue.length < IR_RECEIVE_QUEUE_SIZE →
      Act s (SCI3.queued data s)
  | clearIR (s : H838606) : Act s (clearReceiveIR s)

theorem LateFrame.quiet {s t : H838606} (h : LateFrame s t) : Quiet s t := by
  rw [h.eq]
  exact ⟨rfl, rfl⟩

theorem Move.act_or_quiet {s t : H838606} (h : Move s t) : Act s t ∨ Quiet s t := by
  cases h with
  | early h =>
    cases h with
    | ssu h =>
      cases h with
      | bus h =>
        cases h with
        | cpu _ _ => exact .inr ⟨rfl, rfl⟩
        | ram _ _ => exact .inr ⟨rfl, rfl⟩
        | io _ _ _ => exact .inr ⟨rfl, rfl⟩
        | read r _ => exact .inl (.read r s)
        | write r value _ => exact .inl (.write r value s)
      | reset p _ => exact .inl (.reset p s)
      | ssuEnd _ _ =>
        refine .inr ⟨rfl, ?_⟩
        simp only [H838606.lines]
        rw [getLsbD_withBit_ne _ _ (by decide), getLsbD_withBit_ne _ _ (by decide)]
      | receive _ hTDRE h => exact .inl (.receive hTDRE h)
      | transmit _ hRDRF h => exact .inl (.transmit hRDRF h)
      | _ => exact .inr ⟨rfl, rfl⟩
    | sci3Time _ _ => exact .inr ⟨rfl, rfl⟩
    | sci3End _ _ =>
      refine .inr ⟨rfl, ?_⟩
      simp only [H838606.lines]
      rw [getLsbD_withBit_ne _ _ (by decide), getLsbD_withBit_ne _ _ (by decide)]
    | transmitIR _ hTDRE _ => exact .inl (.transmitIR hTDRE)
    | takeIR _ hRDRF hqueue _ => exact .inl (.takeIR hRDRF hqueue)
  | timerB1 cycles _ => exact .inr (TimerB1_frame cycles s).quiet
  | timerW cycles _ => exact .inr (TimerW_frame cycles s).quiet
  | rtc now cycles _ => exact .inr (RTC_frame now cycles s).quiet
  | adc _ => exact .inr (ADC_frame s).quiet
  | walk _ _ => exact .inr ⟨rfl, rfl⟩
  | receiveIR data _ hroom => exact .inl (.receiveIR data hroom)
  | clearIR _ => exact .inl (.clearIR s)

end PokeStroller.Soc
