import PokeStroller.Lib.Fifo
import PokeStroller.Lib.Mailbox
import PokeStroller.Lib.Trace
import PokeStroller.Soc.Emulator
import PokeStroller.Soc.Frames

/-!
# The data registers

The serial bus and the infrared interface have a register with a flag in each
direction. A firmware that acts when it has read the flag to be its turn, and does
not write the flags itself, hands over every byte exactly once.
-/

namespace PokeStroller.Soc

-- ---------------------------------------------------------------------------
-- Events
-- ---------------------------------------------------------------------------

namespace Event

/-- From the processor to the peripherals. -/
def ssuSend : Event → Option (MailEvent Byte)
  | read .SSSR value => some (.poll !value.getLsbD SSSR_t.TDRE)
  | write .SSTDR value => some (.put value)
  | write .SSSR value => some (if value.getLsbD SSSR_t.TDRE then .clear else .force)
  | receive _ data => some (.take data)
  | _ => none

/-- From the peripherals to the processor. -/
def ssuReceive : Event → Option (MailEvent Byte)
  | read .SSSR value => some (.poll (value.getLsbD SSSR_t.RDRF))
  | read .SSRDR value => some (.take value)
  | write .SSSR value => if value.getLsbD SSSR_t.RDRF then none else some .force
  | transmit _ data => some (.put data)
  | _ => none

/-- From the processor to the infrared callback. -/
def sci3Send : Event → Option (MailEvent Byte)
  | read .SSR value => some (.poll !value.getLsbD SSR_t.TDRE)
  | write .TDR value => some (.put value)
  | write .SSR _ => some .clear
  | transmitIR data => some (.take data)
  | _ => none

/-- From the infrared queue to the processor. -/
def sci3Receive : Event → Option (MailEvent Byte)
  | read .SSR value => some (.poll (value.getLsbD SSR_t.RDRF))
  | read .RDR value => some (.take value)
  | takeIR data => some (.put data)
  | clearIR => some .force
  | _ => none

/-- From the host to the infrared interface. -/
def queue : Event → Option (FifoEvent Byte)
  | receiveIR data => some (.put [data])
  | takeIR data => some (.take [data])
  | clearIR => some .reset
  | _ => none

end Event

namespace H838606

def ssuSend (s : H838606) : Mailbox Byte := ⟨!s.lines.ssuTDRE, s.lines.SSTDR⟩
def ssuReceive (s : H838606) : Mailbox Byte := ⟨s.lines.ssuRDRF, s.lines.SSRDR⟩
def sci3Send (s : H838606) : Mailbox Byte := ⟨!s.lines.sci3TDRE, s.lines.TDR⟩
def sci3Receive (s : H838606) : Mailbox Byte := ⟨s.lines.sci3RDRF, s.lines.RDR⟩

end H838606

section

variable {s t : H838606}

theorem sci3Send_congr (hSSR : t.sci3.SSR = s.sci3.SSR) (hTDR : t.sci3.TDR = s.sci3.TDR) :
    t.sci3Send = s.sci3Send := by
  simp only [H838606.sci3Send, H838606.lines, hSSR, hTDR]

theorem sci3Receive_congr (hSSR : t.sci3.SSR = s.sci3.SSR) (hRDR : t.sci3.RDR = s.sci3.RDR) :
    t.sci3Receive = s.sci3Receive := by
  simp only [H838606.sci3Receive, H838606.lines, hSSR, hRDR]

end

-- ---------------------------------------------------------------------------
-- Registers
-- ---------------------------------------------------------------------------

theorem Peripheral.Receive_rest {p : Peripheral} {s t : H838606} (h : p.Receive data s = some t) :
    t.ssu = s.ssu ∧ t.sci3 = s.sci3 := by
  rw [Receive_frame h]
  exact ⟨rfl, rfl⟩

theorem Peripheral.reply_rest {p : Peripheral} {s t : H838606} (h : p.reply s = some (data, t)) :
    t.ssu = s.ssu ∧ t.sci3 = s.sci3 := by
  rw [reply_frame h]
  exact ⟨rfl, rfl⟩

theorem Peripheral.Reset_rest (p : Peripheral) (s : H838606) :
    (p.Reset s).ssu = s.ssu ∧ (p.Reset s).sci3 = s.sci3 := by
  cases p <;> exact ⟨rfl, rfl⟩

-- ---------------------------------------------------------------------------
-- The serial bus
-- ---------------------------------------------------------------------------

abbrev SsuSends : H838606 → H838606 → Prop :=
  Traced H838606.log H838606.ssuSend Event.ssuSend Mailbox.Sends

theorem read_ssuSends (r : IoRegister) (s : H838606) : SsuSends s (r.read s) := by
  cases r with
  | SSSR =>
    refine .event (e := .read .SSSR s.ssu.SSSR) rfl rfl ?_
    exact .poll s.ssuSend
  | SSRDR =>
    refine .other (e := .read .SSRDR s.ssu.SSRDR) rfl rfl ?_
    simp only [H838606.ssuSend, H838606.lines, IoRegister.read, record, IoRegister.onRead]
    rw [getLsbD_withBit_ne _ _ (by decide)]
  | _ => exact .other rfl rfl rfl

/-- `SSSR.VALUE &= value; if (!SSER.TE) SSSR.TDRE = true;`. -/
theorem write_SSSR (value : Byte) (s : H838606) :
    (IoRegister.SSSR.write value s).lines.ssuTDRE =
      (!s.ssu.SSER.getLsbD SSER_t.TE || (s.lines.ssuTDRE && value.getLsbD SSSR_t.TDRE)) ∧
    (IoRegister.SSSR.write value s).lines.ssuRDRF =
      (s.lines.ssuRDRF && value.getLsbD SSSR_t.RDRF) := by
  cases hTE : s.ssu.SSER.getLsbD SSER_t.TE with
  | true => simp [H838606.lines, IoRegister.write, record, IoRegister.onWrite, hTE]
  | false =>
    simp only [H838606.lines, IoRegister.write, record, IoRegister.onWrite, hTE,
      Bool.false_eq_true, if_false]
    rw [getLsbD_withBit_self _ (by decide), getLsbD_withBit_ne _ _ (by decide)]
    simp

theorem write_IRCR_set (h : value.getLsbD IRCR_t.IRE = true) (s : H838606) :
    IoRegister.IRCR.write value s =
      { record (.write .IRCR value) s with sci3.IRCR := value } := if_pos h

theorem write_IRCR_clear (h : ¬value.getLsbD IRCR_t.IRE = true) (s : H838606) :
    IoRegister.IRCR.write value s = record .clearIR { record (.write .IRCR value) s with
      sci3 := SCI3.ClearReceiveIR { s.sci3 with IRCR := value } } := if_neg h

theorem write_SSR_on (h : s.sci3.SCR.getLsbD SCR_t.TE = true) (value : Byte) :
    IoRegister.SSR.write value s = record (.write .SSR value) s := if_pos h

theorem write_SSR_off (h : ¬s.sci3.SCR.getLsbD SCR_t.TE = true) (value : Byte) :
    IoRegister.SSR.write value s = { record (.write .SSR value) s with
      sci3.SSR := withBit s.sci3.SSR SSR_t.TDRE true } := if_neg h

theorem write_ssuSends (r : IoRegister) (value : Byte) (s : H838606) :
    SsuSends s (r.write value s) := by
  cases r with
  | SSTDR =>
    refine .event (e := .write .SSTDR value) rfl rfl ?_
    have hfull : (IoRegister.SSTDR.write value s).ssuSend = ⟨true, value⟩ := by
      simp only [H838606.ssuSend, H838606.lines, IoRegister.write, record, IoRegister.onWrite]
      rw [getLsbD_withBit_ne _ _ (by decide), getLsbD_withBit_self _ (by decide)]
      rfl
    rw [hfull]
    exact .put value s.ssuSend
  | SSSR =>
    cases hvalue : value.getLsbD SSSR_t.TDRE with
    | true =>
      refine .event (e := .write .SSSR value) rfl (by simp [Event.ssuSend, hvalue]) (.clear ?_)
      intro hempty
      have hTDRE := (write_SSSR value s).1
      simp only [H838606.ssuSend, Bool.not_eq_false'] at hempty ⊢
      rw [hTDRE, hempty, hvalue]
      simp
    | false =>
      exact .event (e := .write .SSSR value) rfl (by simp [Event.ssuSend, hvalue]) (.force _ _)
  | IRCR =>
    by_cases hIRE : value.getLsbD IRCR_t.IRE = true
    · rw [write_IRCR_set hIRE]
      exact .other rfl rfl rfl
    · rw [write_IRCR_clear hIRE]
      exact .trans (t := record (.write .IRCR value) s) (.other rfl rfl rfl) (.other rfl rfl rfl)
  | SSR =>
    by_cases hTE : s.sci3.SCR.getLsbD SCR_t.TE = true
    · rw [write_SSR_on hTE]
      exact .other rfl rfl rfl
    · rw [write_SSR_off hTE]
      exact .other rfl rfl rfl
  | _ => exact .other rfl rfl rfl

theorem Act.ssuSends {s t : H838606} (h : Act s t) : SsuSends s t := by
  cases h with
  | read r _ => exact read_ssuSends r s
  | write r value _ => exact write_ssuSends r value s
  | reset p _ =>
    refine .other (e := .reset p) (by simp [Peripheral.Reset_log]) rfl ?_
    simp only [H838606.ssuSend, H838606.lines, record, (p.Reset_rest s).1]
  | @receive p _ t hTDRE h =>
    have hlog := Peripheral.Receive_log h
    obtain ⟨hssu, -⟩ := Peripheral.Receive_rest h
    refine .event (e := .receive p s.ssu.SSTDR) (by simp [SSU.transmitted, hlog]) rfl ?_
    have hempty : (SSU.transmitted p s.ssu.SSTDR t).ssuSend = ⟨false, s.ssu.SSTDR⟩ := by
      simp only [H838606.ssuSend, H838606.lines, SSU.transmitted, record]
      rw [getLsbD_withBit_ne _ _ (by decide), getLsbD_withBit_self _ (by decide), hssu]
      rfl
    rw [hempty]
    exact .take (m := s.ssuSend) (by simp [H838606.ssuSend, hTDRE])
  | @transmit data p _ t hRDRF h =>
    have hlog := Peripheral.reply_log h
    obtain ⟨hssu, -⟩ := Peripheral.reply_rest h
    refine .other (e := .transmit p data) (by simp [SSU.received, hlog]) rfl ?_
    simp only [H838606.ssuSend, H838606.lines, SSU.received, record]
    rw [getLsbD_withBit_ne _ _ (by decide), hssu]
  | _ => exact .other rfl rfl rfl

theorem Moves.ssuSends {s t : H838606} (h : Moves s t) : SsuSends s t := by
  refine Traced.moves (fun s t hmove => ?_) h
  rcases hmove.act_or_quiet with hact | hquiet
  · exact hact.ssuSends
  · refine .quiet hquiet.log ?_
    unfold H838606.ssuSend
    rw [hquiet.lines]

abbrev SsuReceives : H838606 → H838606 → Prop :=
  Traced H838606.log H838606.ssuReceive Event.ssuReceive Mailbox.Receives

theorem read_ssuReceives (r : IoRegister) (s : H838606) : SsuReceives s (r.read s) := by
  cases r with
  | SSSR => exact .event (e := .read .SSSR s.ssu.SSSR) rfl rfl (.poll s.ssuReceive)
  | SSRDR =>
    refine .event (e := .read .SSRDR s.ssu.SSRDR) rfl rfl ?_
    have hempty : (IoRegister.SSRDR.read s).ssuReceive = ⟨false, s.ssu.SSRDR⟩ := by
      simp only [H838606.ssuReceive, H838606.lines, IoRegister.read, record, IoRegister.onRead]
      rw [getLsbD_withBit_self _ (by decide)]
    rw [hempty]
    exact .take s.ssuReceive
  | _ => exact .other rfl rfl rfl

theorem write_ssuReceives (r : IoRegister) (value : Byte) (s : H838606) :
    SsuReceives s (r.write value s) := by
  cases r with
  | SSTDR =>
    refine .other (e := .write .SSTDR value) rfl rfl ?_
    simp only [H838606.ssuReceive, H838606.lines, IoRegister.write, record, IoRegister.onWrite]
    rw [getLsbD_withBit_ne _ _ (by decide), getLsbD_withBit_ne _ _ (by decide)]
  | SSSR =>
    cases hvalue : value.getLsbD SSSR_t.RDRF with
    | true =>
      refine .other (e := .write .SSSR value) rfl (by simp [Event.ssuReceive, hvalue]) ?_
      have hRDRF := (write_SSSR value s).2
      rw [hvalue, Bool.and_true] at hRDRF
      simp only [H838606.ssuReceive, hRDRF]
      rfl
    | false =>
      exact .event (e := .write .SSSR value) rfl (by simp [Event.ssuReceive, hvalue]) (.force _ _)
  | IRCR =>
    by_cases hIRE : value.getLsbD IRCR_t.IRE = true
    · rw [write_IRCR_set hIRE]
      exact .other rfl rfl rfl
    · rw [write_IRCR_clear hIRE]
      exact .trans (t := record (.write .IRCR value) s) (.other rfl rfl rfl) (.other rfl rfl rfl)
  | SSR =>
    by_cases hTE : s.sci3.SCR.getLsbD SCR_t.TE = true
    · rw [write_SSR_on hTE]
      exact .other rfl rfl rfl
    · rw [write_SSR_off hTE]
      exact .other rfl rfl rfl
  | _ => exact .other rfl rfl rfl

theorem Act.ssuReceives {s t : H838606} (h : Act s t) : SsuReceives s t := by
  cases h with
  | read r _ => exact read_ssuReceives r s
  | write r value _ => exact write_ssuReceives r value s
  | reset p _ =>
    refine .other (e := .reset p) (by simp [Peripheral.Reset_log]) rfl ?_
    simp only [H838606.ssuReceive, H838606.lines, record, (p.Reset_rest s).1]
  | @receive p _ t hTDRE h =>
    have hlog := Peripheral.Receive_log h
    obtain ⟨hssu, -⟩ := Peripheral.Receive_rest h
    refine .other (e := .receive p s.ssu.SSTDR) (by simp [SSU.transmitted, hlog]) rfl ?_
    simp only [H838606.ssuReceive, H838606.lines, SSU.transmitted, record]
    rw [getLsbD_withBit_ne _ _ (by decide), getLsbD_withBit_ne _ _ (by decide), hssu]
  | @transmit data p _ t hRDRF h =>
    have hlog := Peripheral.reply_log h
    refine .event (e := .transmit p data) (by simp [SSU.received, hlog]) rfl ?_
    have hfull : (SSU.received p data t).ssuReceive = ⟨true, data⟩ := by
      simp only [H838606.ssuReceive, H838606.lines, SSU.received, record]
      rw [getLsbD_withBit_self _ (by decide)]
    rw [hfull]
    exact .put data hRDRF
  | _ => exact .other rfl rfl rfl

theorem Moves.ssuReceives {s t : H838606} (h : Moves s t) : SsuReceives s t := by
  refine Traced.moves (fun s t hmove => ?_) h
  rcases hmove.act_or_quiet with hact | hquiet
  · exact hact.ssuReceives
  · refine .quiet hquiet.log ?_
    unfold H838606.ssuReceive
    rw [hquiet.lines]

-- ---------------------------------------------------------------------------
-- Infrared
-- ---------------------------------------------------------------------------

abbrev Sci3Sends : H838606 → H838606 → Prop :=
  Traced H838606.log H838606.sci3Send Event.sci3Send Mailbox.Sends

theorem read_sci3Sends (r : IoRegister) (s : H838606) : Sci3Sends s (r.read s) := by
  cases r with
  | SSR => exact .event (e := .read .SSR s.sci3.SSR) rfl rfl (.poll s.sci3Send)
  | RDR =>
    refine .other (e := .read .RDR s.sci3.RDR) rfl rfl ?_
    simp only [H838606.sci3Send, H838606.lines, IoRegister.read, record, IoRegister.onRead]
    rw [getLsbD_withBit_ne _ _ (by decide)]
  | _ => exact .other rfl rfl rfl

theorem clear_sci3Send (s : H838606) : (clearReceiveIR s).sci3Send = s.sci3Send := by
  simp only [H838606.sci3Send, H838606.lines, clearReceiveIR, record, SCI3.ClearReceiveIR]
  rw [getLsbD_withBit_ne _ _ (by decide)]

theorem write_sci3Sends (r : IoRegister) (value : Byte) (s : H838606) :
    Sci3Sends s (r.write value s) := by
  cases r with
  | TDR =>
    refine .event (e := .write .TDR value) rfl rfl ?_
    have hfull : (IoRegister.TDR.write value s).sci3Send = ⟨true, value⟩ := by
      simp only [H838606.sci3Send, H838606.lines, IoRegister.write, record, IoRegister.onWrite]
      rw [getLsbD_withBit_ne _ _ (by decide), getLsbD_withBit_self _ (by decide)]
      rfl
    rw [hfull]
    exact .put value s.sci3Send
  | IRCR =>
    by_cases hIRE : value.getLsbD IRCR_t.IRE = true
    · rw [write_IRCR_set hIRE]
      exact .other rfl rfl (sci3Send_congr rfl rfl)
    · rw [write_IRCR_clear hIRE]
      refine .trans (t := { record (.write .IRCR value) s with sci3.IRCR := value })
        (.other rfl rfl (sci3Send_congr rfl rfl)) (.other rfl rfl ?_)
      exact clear_sci3Send { record (.write .IRCR value) s with sci3.IRCR := value }
  | SSR =>
    refine .event (e := .write .SSR value) ?_ rfl (.clear ?_)
    · by_cases hTE : s.sci3.SCR.getLsbD SCR_t.TE = true
      · rw [write_SSR_on hTE]
        rfl
      · rw [write_SSR_off hTE]
        rfl
    · intro hempty
      by_cases hTE : s.sci3.SCR.getLsbD SCR_t.TE = true
      · rw [write_SSR_on hTE]
        exact hempty
      · rw [write_SSR_off hTE]
        simp only [H838606.sci3Send, H838606.lines]
        rw [getLsbD_withBit_self _ (by decide)]
        rfl
  | SSTDR => exact .other rfl rfl (sci3Send_congr rfl rfl)
  | SSSR => exact .other (e := .write .SSSR value) rfl rfl (sci3Send_congr rfl rfl)
  | PDRB => exact .other rfl rfl (sci3Send_congr rfl rfl)
  | _ => exact .other rfl rfl rfl

theorem Act.sci3Sends {s t : H838606} (h : Act s t) : Sci3Sends s t := by
  cases h with
  | read r _ => exact read_sci3Sends r s
  | write r value _ => exact write_sci3Sends r value s
  | reset p _ =>
    refine .other (e := .reset p) (by simp [Peripheral.Reset_log]) rfl ?_
    simp only [H838606.sci3Send, H838606.lines, record, (p.Reset_rest s).2]
  | @receive p _ t hTDRE h =>
    have hlog := Peripheral.Receive_log h
    refine .other (e := .receive p s.ssu.SSTDR) (by simp [SSU.transmitted, hlog]) rfl ?_
    simp only [H838606.sci3Send, H838606.lines, SSU.transmitted, record,
      (Peripheral.Receive_rest h).2]
  | @transmit data p _ t hRDRF h =>
    have hlog := Peripheral.reply_log h
    refine .other (e := .transmit p data) (by simp [SSU.received, hlog]) rfl ?_
    simp only [H838606.sci3Send, H838606.lines, SSU.received, record, (Peripheral.reply_rest h).2]
  | transmitIR hTDRE =>
    refine .event (e := .transmitIR s.sci3.TDR) rfl rfl ?_
    have hempty : (SCI3.transmitted s).sci3Send = ⟨false, s.sci3.TDR⟩ := by
      simp only [H838606.sci3Send, H838606.lines, SCI3.transmitted, record]
      rw [getLsbD_withBit_ne _ _ (by decide), getLsbD_withBit_self _ (by decide)]
      rfl
    rw [hempty]
    exact .take (m := s.sci3Send) (by simp [H838606.sci3Send, hTDRE])
  | @takeIR data rest _ hRDRF hqueue =>
    refine .other (e := .takeIR data) rfl rfl ?_
    simp only [H838606.sci3Send, H838606.lines, SCI3.received, record]
    rw [getLsbD_withBit_ne _ _ (by decide)]
  | receiveIR data _ => exact .other rfl rfl rfl
  | clearIR _ => exact .other rfl rfl (clear_sci3Send s)

theorem Moves.sci3Sends {s t : H838606} (h : Moves s t) : Sci3Sends s t := by
  refine Traced.moves (fun s t hmove => ?_) h
  rcases hmove.act_or_quiet with hact | hquiet
  · exact hact.sci3Sends
  · refine .quiet hquiet.log ?_
    unfold H838606.sci3Send
    rw [hquiet.lines]

abbrev Sci3Receives : H838606 → H838606 → Prop :=
  Traced H838606.log H838606.sci3Receive Event.sci3Receive Mailbox.Receives

theorem read_sci3Receives (r : IoRegister) (s : H838606) : Sci3Receives s (r.read s) := by
  cases r with
  | SSR => exact .event (e := .read .SSR s.sci3.SSR) rfl rfl (.poll s.sci3Receive)
  | RDR =>
    refine .event (e := .read .RDR s.sci3.RDR) rfl rfl ?_
    have hempty : (IoRegister.RDR.read s).sci3Receive = ⟨false, s.sci3.RDR⟩ := by
      simp only [H838606.sci3Receive, H838606.lines, IoRegister.read, record, IoRegister.onRead]
      rw [getLsbD_withBit_self _ (by decide)]
    rw [hempty]
    exact .take s.sci3Receive
  | _ => exact .other rfl rfl rfl

theorem write_sci3Receives (r : IoRegister) (value : Byte) (s : H838606) :
    Sci3Receives s (r.write value s) := by
  cases r with
  | TDR =>
    refine .other (e := .write .TDR value) rfl rfl ?_
    simp only [H838606.sci3Receive, H838606.lines, IoRegister.write, record, IoRegister.onWrite]
    rw [getLsbD_withBit_ne _ _ (by decide), getLsbD_withBit_ne _ _ (by decide)]
  | IRCR =>
    by_cases hIRE : value.getLsbD IRCR_t.IRE = true
    · rw [write_IRCR_set hIRE]
      exact .other rfl rfl (sci3Receive_congr rfl rfl)
    · rw [write_IRCR_clear hIRE]
      exact .trans (t := { record (.write .IRCR value) s with sci3.IRCR := value })
        (.other rfl rfl (sci3Receive_congr rfl rfl)) (.event (e := .clearIR) rfl rfl (.force _ _))
  | SSR =>
    by_cases hTE : s.sci3.SCR.getLsbD SCR_t.TE = true
    · rw [write_SSR_on hTE]
      exact .other rfl rfl rfl
    · rw [write_SSR_off hTE]
      refine .other (e := .write .SSR value) rfl rfl ?_
      simp only [H838606.sci3Receive, H838606.lines]
      rw [getLsbD_withBit_ne _ _ (by decide)]
      rfl
  | SSTDR => exact .other rfl rfl (sci3Receive_congr rfl rfl)
  | SSSR => exact .other (e := .write .SSSR value) rfl rfl (sci3Receive_congr rfl rfl)
  | PDRB => exact .other rfl rfl (sci3Receive_congr rfl rfl)
  | _ => exact .other rfl rfl rfl

theorem Act.sci3Receives {s t : H838606} (h : Act s t) : Sci3Receives s t := by
  cases h with
  | read r _ => exact read_sci3Receives r s
  | write r value _ => exact write_sci3Receives r value s
  | reset p _ =>
    refine .other (e := .reset p) (by simp [Peripheral.Reset_log]) rfl ?_
    simp only [H838606.sci3Receive, H838606.lines, record, (p.Reset_rest s).2]
  | @receive p _ t hTDRE h =>
    have hlog := Peripheral.Receive_log h
    refine .other (e := .receive p s.ssu.SSTDR) (by simp [SSU.transmitted, hlog]) rfl ?_
    simp only [H838606.sci3Receive, H838606.lines, SSU.transmitted, record,
      (Peripheral.Receive_rest h).2]
  | @transmit data p _ t hRDRF h =>
    have hlog := Peripheral.reply_log h
    refine .other (e := .transmit p data) (by simp [SSU.received, hlog]) rfl ?_
    simp only [H838606.sci3Receive, H838606.lines, SSU.received, record,
      (Peripheral.reply_rest h).2]
  | transmitIR _ =>
    refine .other (e := .transmitIR s.sci3.TDR) rfl rfl ?_
    simp only [H838606.sci3Receive, H838606.lines, SCI3.transmitted, record]
    rw [getLsbD_withBit_ne _ _ (by decide), getLsbD_withBit_ne _ _ (by decide)]
  | @takeIR data rest _ hRDRF hqueue =>
    refine .event (e := .takeIR data) rfl rfl ?_
    have hfull : (SCI3.received data rest s).sci3Receive = ⟨true, data⟩ := by
      simp only [H838606.sci3Receive, H838606.lines, SCI3.received, record]
      rw [getLsbD_withBit_self _ (by decide)]
    rw [hfull]
    exact .put data hRDRF
  | receiveIR data _ => exact .other rfl rfl rfl
  | clearIR _ => exact .event (e := .clearIR) rfl rfl (.force _ _)

theorem Moves.sci3Receives {s t : H838606} (h : Moves s t) : Sci3Receives s t := by
  refine Traced.moves (fun s t hmove => ?_) h
  rcases hmove.act_or_quiet with hact | hquiet
  · exact hact.sci3Receives
  · refine .quiet hquiet.log ?_
    unfold H838606.sci3Receive
    rw [hquiet.lines]

-- ---------------------------------------------------------------------------
-- The queue
-- ---------------------------------------------------------------------------

abbrev Queued : H838606 → H838606 → Prop :=
  Traced H838606.log (·.sci3.receive_queue) Event.queue Fifo.Step

theorem write_queued (r : IoRegister) (value : Byte) (s : H838606) :
    Queued s (r.write value s) := by
  cases r with
  | IRCR =>
    by_cases hIRE : value.getLsbD IRCR_t.IRE = true
    · rw [write_IRCR_set hIRE]
      exact .other rfl rfl rfl
    · rw [write_IRCR_clear hIRE]
      exact .trans (t := { record (.write .IRCR value) s with sci3.IRCR := value })
        (.other rfl rfl rfl) (.event (e := .clearIR) rfl rfl (.reset _))
  | SSR =>
    by_cases hTE : s.sci3.SCR.getLsbD SCR_t.TE = true
    · rw [write_SSR_on hTE]
      exact .other rfl rfl rfl
    · rw [write_SSR_off hTE]
      exact .other rfl rfl rfl
  | _ => exact .other rfl rfl rfl

theorem Act.queued {s t : H838606} (h : Act s t) : Queued s t := by
  cases h with
  | read r _ => cases r <;> exact .other rfl rfl rfl
  | write r value _ => exact write_queued r value s
  | reset p _ =>
    refine .other (e := .reset p) (by simp [Peripheral.Reset_log]) rfl ?_
    exact congrArg SCI3.receive_queue (p.Reset_rest s).2
  | @receive p _ t hTDRE h =>
    refine .other (e := .receive p s.ssu.SSTDR)
      (by simp [SSU.transmitted, Peripheral.Receive_log h]) rfl ?_
    exact congrArg SCI3.receive_queue (Peripheral.Receive_rest h).2
  | @transmit data p _ t hRDRF h =>
    refine .other (e := .transmit p data)
      (by simp [SSU.received, Peripheral.reply_log h]) rfl ?_
    exact congrArg SCI3.receive_queue (Peripheral.reply_rest h).2
  | transmitIR _ => exact .other rfl rfl rfl
  | @takeIR data rest _ hRDRF hqueue =>
    refine .event (e := .takeIR data) rfl rfl ?_
    simp only [SCI3.received, record, hqueue]
    exact .take [data] rest
  | receiveIR data _ => exact .event (e := .receiveIR data) rfl rfl (.put _ _)
  | clearIR _ => exact .event (e := .clearIR) rfl rfl (.reset _)

theorem Moves.queued {s t : H838606} (h : Moves s t) : Queued s t := by
  refine Traced.moves (fun s t hmove => ?_) h
  rcases hmove.act_or_quiet with hact | hquiet
  · exact hact.queued
  · exact .quiet hquiet.log (congrArg Lines.receive_queue hquiet.lines)

end PokeStroller.Soc
