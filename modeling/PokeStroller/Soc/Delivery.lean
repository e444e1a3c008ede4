import PokeStroller.Soc.Mail

/-!
# Delivery

With a firmware that acts in turn every byte it sends arrives once, and it reads
every byte that arrives once.
-/

namespace PokeStroller.Soc

-- ---------------------------------------------------------------------------
-- Bytes
-- ---------------------------------------------------------------------------

namespace Event

def toSSTDR : Event → Option Byte
  | write .SSTDR value => some value
  | _ => none

def toPeripheral : Event → Option Byte
  | receive _ data => some data
  | _ => none

def fromPeripheral : Event → Option Byte
  | transmit _ data => some data
  | _ => none

def fromSSRDR : Event → Option Byte
  | read .SSRDR value => some value
  | _ => none

def toTDR : Event → Option Byte
  | write .TDR value => some value
  | _ => none

def toQueue : Event → Option Byte
  | receiveIR data => some data
  | _ => none

def fromQueue : Event → Option Byte
  | takeIR data => some data
  | _ => none

def fromRDR : Event → Option Byte
  | read .RDR value => some value
  | _ => none

end Event

/-- What a channel of the history puts in and takes out. -/
structure Carries (channel : Event → Option (MailEvent Byte)) (put take : Event → Option Byte) :
    Prop where
  put : ∀ e, (channel e).bind MailEvent.putOf = put e
  take : ∀ e, (channel e).bind MailEvent.takeOf = take e

theorem filterMap_bind {f : δ → Option ε} {g : ε → Option α} {h : δ → Option α}
    (hfg : ∀ e, (f e).bind g = h e) (es : List δ) :
    (es.filterMap f).filterMap g = es.filterMap h := by
  rw [List.filterMap_filterMap]
  exact List.filterMap_congr fun e _ => hfg e

theorem Carries.of_cases {channel : Event → Option (MailEvent Byte)} {put take : Event → Option Byte}
    (h : ∀ e, (channel e).bind MailEvent.putOf = put e ∧
      (channel e).bind MailEvent.takeOf = take e) : Carries channel put take :=
  ⟨fun e => (h e).1, fun e => (h e).2⟩

theorem ssuSend_carries : Carries Event.ssuSend Event.toSSTDR Event.toPeripheral := by
  refine .of_cases fun e => ?_
  cases e with
  | read r value => cases r <;> exact ⟨rfl, rfl⟩
  | write r value =>
    cases r with
    | SSSR =>
      simp only [Event.ssuSend]
      split <;> exact ⟨rfl, rfl⟩
    | _ => exact ⟨rfl, rfl⟩
  | _ => exact ⟨rfl, rfl⟩

theorem ssuReceive_carries : Carries Event.ssuReceive Event.fromPeripheral Event.fromSSRDR := by
  refine .of_cases fun e => ?_
  cases e with
  | read r value => cases r <;> exact ⟨rfl, rfl⟩
  | write r value =>
    cases r with
    | SSSR =>
      simp only [Event.ssuReceive]
      split <;> exact ⟨rfl, rfl⟩
    | _ => exact ⟨rfl, rfl⟩
  | _ => exact ⟨rfl, rfl⟩

theorem sci3Send_carries : Carries Event.sci3Send Event.toTDR Event.sent := by
  refine .of_cases fun e => ?_
  cases e with
  | read r value => cases r <;> exact ⟨rfl, rfl⟩
  | write r value => cases r <;> exact ⟨rfl, rfl⟩
  | _ => exact ⟨rfl, rfl⟩

theorem sci3Receive_carries : Carries Event.sci3Receive Event.fromQueue Event.fromRDR := by
  refine .of_cases fun e => ?_
  cases e with
  | read r value => cases r <;> exact ⟨rfl, rfl⟩
  | write r value => cases r <;> exact ⟨rfl, rfl⟩
  | _ => exact ⟨rfl, rfl⟩

-- ---------------------------------------------------------------------------
-- The serial bus
-- ---------------------------------------------------------------------------

variable {s t : H838606} {es : List Event}

/-- Whatever the other devices and the host do: if the firmware writes `SSTDR`, and `SSSR` with
`TDRE` left in, only when it has read `TDRE` set since it last wrote `SSTDR`, the bytes it writes
are the bytes the peripherals receive, in order and once, and one that is still in `SSTDR`. -/
theorem ssu_sends_once (h : Moves s t) (hlog : t.log = s.log ++ es)
    (hTDRE : s.ssu.SSSR.getLsbD SSSR_t.TDRE = true)
    (hpolite : MailEvent.Polite MailEvent.sending true (es.filterMap Event.ssuSend)) :
    es.filterMap Event.toSSTDR = es.filterMap Event.toPeripheral ++
      if t.ssu.SSSR.getLsbD SSSR_t.TDRE then [] else [t.ssu.SSTDR] := by
  have hempty : s.ssuSend.full = false := by
    simp only [H838606.ssuSend, H838606.lines, hTDRE]
    rfl
  have honce := Mailbox.Sends.exactly_once (h.ssuSends.runs hlog) (by rwa [hempty])
  rw [filterMap_bind ssuSend_carries.put, filterMap_bind ssuSend_carries.take,
    Mailbox.content_empty hempty, List.nil_append] at honce
  rw [honce]
  cases hfull : t.ssu.SSSR.getLsbD SSSR_t.TDRE <;>
    simp [Mailbox.content, H838606.ssuSend, H838606.lines, hfull]

/-- Two bytes, of which the second is still in the register. -/
theorem ssu_sends_once_two : ∃ s t : H838606, Moves s t ∧
    ([0xAB, 0xCD] : List Byte) =
      [0xAB] ++ if t.ssu.SSSR.getLsbD SSSR_t.TDRE then [] else [t.ssu.SSTDR] := by
  let s : H838606 := { H838606.reset (fun _ => 0) (fun _ => 0xFF) with
    ssu.SSER := 0x80, ssu.SSSR := 0x04 }
  let s₁ := IoRegister.SSTDR.write 0xAB s
  let s₂ := SSU.transmitted .eeprom 0xAB { s₁ with eeprom := s₁.eeprom.Receive 0xAB }
  let s₃ := IoRegister.SSSR.read s₂
  let t := IoRegister.SSTDR.write 0xCD s₃
  have hmoves : Moves s t :=
    .tail (.tail (.tail (.single (.early (.ssu (.bus (.write .SSTDR 0xAB s)))))
      (.early (.ssu (@SsuMove.receive .eeprom s₁ _ (by decide) (by decide) rfl))))
        (.early (.ssu (.bus (.read .SSSR s₂))))) (.early (.ssu (.bus (.write .SSTDR 0xCD s₃))))
  have hlog : t.log = s.log ++ [.write .SSTDR 0xAB, .receive .eeprom 0xAB,
      .read .SSSR (withBit (withBit (withBit (withBit 0x04 2 false) 3 false) 2 true) 3 false),
      .write .SSTDR 0xCD] := rfl
  have hTDRE : s.ssu.SSSR.getLsbD SSSR_t.TDRE = true := show (0x04#8).getLsbD _ = _ by decide
  exact ⟨s, t, hmoves, ssu_sends_once hmoves hlog hTDRE (by decide)⟩

/-- The same towards the firmware: if it reads `SSRDR` only when it has read `RDRF` set since
it last did, and does not clear `RDRF` itself, it reads every answer in order and once, but
for one that is still in `SSRDR`. -/
theorem ssu_receives_once (h : Moves s t) (hlog : t.log = s.log ++ es)
    (hRDRF : s.ssu.SSSR.getLsbD SSSR_t.RDRF = false)
    (hpolite : MailEvent.Polite MailEvent.receiving false (es.filterMap Event.ssuReceive)) :
    es.filterMap Event.fromPeripheral = es.filterMap Event.fromSSRDR ++
      if t.ssu.SSSR.getLsbD SSSR_t.RDRF then [t.ssu.SSRDR] else [] := by
  have hempty : s.ssuReceive.full = false := hRDRF
  have honce := Mailbox.Receives.exactly_once (h.ssuReceives.runs hlog) (by rwa [hempty])
  rw [filterMap_bind ssuReceive_carries.put, filterMap_bind ssuReceive_carries.take,
    Mailbox.content_empty hempty, List.nil_append] at honce
  rw [honce]
  cases hfull : t.ssu.SSSR.getLsbD SSSR_t.RDRF <;>
    simp [Mailbox.content, H838606.ssuReceive, H838606.lines, hfull]

/-- Two answers, of which the second is still in the register. -/
theorem ssu_receives_once_two : ∃ s t : H838606, Moves s t ∧
    ([0x5A, 0xFF] : List Byte) =
      [0x5A] ++ if t.ssu.SSSR.getLsbD SSSR_t.RDRF then [t.ssu.SSRDR] else [] := by
  let s : H838606 := { H838606.reset (fun _ => 0) (fun _ => 0xFF) with
    ssu.SSER := 0x40, ssu.SSSR := 0, eeprom.state := .STATUS, eeprom.status := 0x5A }
  let s₁ := SSU.received .eeprom 0x5A { s with eeprom := s.eeprom.Transmit.2 }
  let s₂ := IoRegister.SSSR.read s₁
  let s₃ := IoRegister.SSRDR.read s₂
  let t := SSU.received .eeprom 0xFF { s₃ with eeprom := s₃.eeprom.Transmit.2 }
  have hRE : s.ssu.SSER.getLsbD SSER_t.RE = true := show (0x40#8).getLsbD _ = _ by decide
  have hRDRF : s.ssu.SSSR.getLsbD SSSR_t.RDRF = false := show (0#8).getLsbD _ = _ by decide
  have hread : s₃.ssu.SSSR.getLsbD SSSR_t.RDRF = false :=
    show (withBit (withBit 0#8 1 true) 1 false).getLsbD _ = _ by decide
  have hmoves : Moves s t :=
    .tail (.tail (.tail (.single (.early (.ssu (.transmit hRE hRDRF rfl))))
      (.early (.ssu (.bus (.read .SSSR s₁))))) (.early (.ssu (.bus (.read .SSRDR s₂)))))
        (.early (.ssu (@SsuMove.transmit _ .eeprom s₃ _ hRE hread rfl)))
  have hlog : t.log = s.log ++ [.transmit .eeprom 0x5A, .read .SSSR (withBit 0 1 true),
      .read .SSRDR 0x5A, .transmit .eeprom 0xFF] := rfl
  exact ⟨s, t, hmoves, ssu_receives_once hmoves hlog hRDRF (by decide)⟩

-- ---------------------------------------------------------------------------
-- Infrared
-- ---------------------------------------------------------------------------

/-- What is in `TDR` and not yet with the callback. -/
def SCI3.unsent (sci3 : SCI3) : List Byte := if sci3.SSR.getLsbD SSR_t.TDRE then [] else [sci3.TDR]

/-- What is in `RDR` and not yet read. -/
def SCI3.unread (sci3 : SCI3) : List Byte := if sci3.SSR.getLsbD SSR_t.RDRF then [sci3.RDR] else []

theorem sci3Send_content (s : H838606) : s.sci3Send.content.toList = s.sci3.unsent := by
  cases hfull : s.sci3.SSR.getLsbD SSR_t.TDRE <;>
    simp [Mailbox.content, H838606.sci3Send, H838606.lines, SCI3.unsent, hfull]

theorem sci3Receive_content (s : H838606) : s.sci3Receive.content.toList = s.sci3.unread := by
  cases hfull : s.sci3.SSR.getLsbD SSR_t.RDRF <;>
    simp [Mailbox.content, H838606.sci3Receive, H838606.lines, SCI3.unread, hfull]

/-- If the firmware writes `TDR` only when it has read `TDRE` set since it last did, the
bytes it writes are the bytes the callback gets, in order and once, after and before the one
in `TDR`. -/
theorem sci3_sends_once (h : Moves s t) (hlog : t.log = s.log ++ es)
    (hpolite : MailEvent.Polite MailEvent.sending (s.sci3.SSR.getLsbD SSR_t.TDRE)
      (es.filterMap Event.sci3Send)) :
    s.sci3.unsent ++ es.filterMap Event.toTDR = sent es ++ t.sci3.unsent := by
  have hseen : (!s.sci3Send.full) = s.sci3.SSR.getLsbD SSR_t.TDRE := Bool.not_not _
  have honce := Mailbox.Sends.exactly_once (h.sci3Sends.runs hlog) (by rwa [hseen])
  rw [filterMap_bind sci3Send_carries.put, filterMap_bind sci3Send_carries.take,
    sci3Send_content, sci3Send_content] at honce
  exact honce

/-- What the queue was given and what was taken, while it is not cleared. -/
theorem queue_once (h : Moves s t) (hlog : t.log = s.log ++ es) (hclear : .clearIR ∉ es) :
    s.sci3.receive_queue ++ es.filterMap Event.toQueue =
      es.filterMap Event.fromQueue ++ t.sci3.receive_queue := by
  have hreset : .reset ∉ es.filterMap Event.queue := by
    intro hmem
    obtain ⟨e, he, hevent⟩ := List.mem_filterMap.mp hmem
    cases e <;> cases hevent
    exact hclear he
  have hflow := Fifo.takes_append (h.queued.runs hlog) hreset
  have htakes : Fifo.takes (es.filterMap Event.queue) = es.filterMap Event.fromQueue := by
    have hremoved : ∀ e, (Event.queue e).elim [] FifoEvent.removed = e.fromQueue.toList := by
      intro e
      cases e <;> rfl
    rw [@List.filterMap_eq_flatMap_toList _ _ Event.fromQueue]
    exact Fifo.flatMap_filterMap hremoved es
  have hputs : Fifo.puts (es.filterMap Event.queue) = es.filterMap Event.toQueue := by
    have hadded : ∀ e, (Event.queue e).elim [] FifoEvent.added = e.toQueue.toList := by
      intro e
      cases e <;> rfl
    rw [@List.filterMap_eq_flatMap_toList _ _ Event.toQueue]
    exact Fifo.flatMap_filterMap hadded es
  rw [htakes, hputs] at hflow
  exact hflow.symm

theorem polite_no_force {log : List (MailEvent Byte)} {seen : Bool}
    (h : MailEvent.Polite MailEvent.receiving seen log) : .force ∉ log := by
  induction log generalizing seen with
  | nil => nofun
  | cons e log ih =>
    obtain ⟨seen', hnext, hrest⟩ := h.cons
    intro hmem
    rcases List.mem_cons.mp hmem with rfl | hmem
    · cases seen <;> cases hnext
    · exact ih hrest hmem

/-- If the queue is not cleared and the firmware reads `RDR` only when it has read `RDRF`
set since it last did, then a byte in `RDR` and what the host has put into the queue is what
the firmware has read, in order and once, then a byte in `RDR`, and what is still in the
queue. -/
theorem sci3_receives_once (h : Moves s t) (hlog : t.log = s.log ++ es)
    (hpolite : MailEvent.Polite MailEvent.receiving (s.sci3.SSR.getLsbD SSR_t.RDRF)
      (es.filterMap Event.sci3Receive)) :
    s.sci3.unread ++ s.sci3.receive_queue ++ es.filterMap Event.toQueue =
      es.filterMap Event.fromRDR ++ t.sci3.unread ++ t.sci3.receive_queue := by
  have hclear : .clearIR ∉ es := fun hmem =>
    polite_no_force hpolite (List.mem_filterMap.mpr ⟨.clearIR, hmem, rfl⟩)
  have honce := Mailbox.Receives.exactly_once (h.sci3Receives.runs hlog) hpolite
  rw [filterMap_bind sci3Receive_carries.put, filterMap_bind sci3Receive_carries.take,
    sci3Receive_content, sci3Receive_content] at honce
  rw [List.append_assoc, queue_once h hlog hclear, ← List.append_assoc, honce]

end PokeStroller.Soc
