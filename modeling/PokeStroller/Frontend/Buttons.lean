import Mathlib.Data.List.Induction
import PokeStroller.Frontend.WalkerApp

/-!
# Held keys and running pulses

Which buttons the emulated port shows after any events. A button is to be shown
as long as its key is held or its pulse runs.
-/

namespace PokeStroller

theorem Button.getLsbD_tag (b b' : Button) : b.tag.getLsbD b'.bit = decide (b' = b) := by
  cases b <;> cases b' <;> decide

namespace WalkerApp

def holds (app : WalkerApp) (b : Button) : Bool := app.heldKeys.getLsbD b.bit

def pulses (app : WalkerApp) (b : Button) : Bool :=
  app.pulseKeys.getLsbD b.bit && app.pulseTicks != 0

/-- The port shows the buttons that are held or pulse, and its other bits are as
they were after the load. -/
def ShowsButtons (app : WalkerApp) : Prop :=
  ∃ port, app.port = some port ∧
    (∀ b, port.getLsbD b.bit = (app.holds b || app.pulses b)) ∧
    ∀ i, (∀ b : Button, i ≠ b.bit) → port.getLsbD i = PDRB.getLsbD i

/-- The event is a key-up that the monitor acts on, of a button whose pulse runs. -/
def cutsPulse (app : WalkerApp) : AppEvent → Bool
  | .key event =>
    !app.ignores event && !event.isARepeat && !event.down && event.input?.any app.pulses
  | _ => false

def Settled (app : WalkerApp) : Prop := app.pulseTicks = 0 → app.pulseKeys = 0

-- ---------------------------------------------------------------------------
-- The port
-- ---------------------------------------------------------------------------

theorem buttons_bit (b : Button) : (PW_CENTER ||| PW_LEFT ||| PW_RIGHT).getLsbD b.bit = true := by
  cases b <;> decide

theorem buttons_other {i : Nat} (h : ∀ b : Button, i ≠ b.bit) :
    (PW_CENTER ||| PW_LEFT ||| PW_RIGHT).getLsbD i = false := by
  have hcenter : i ≠ 0 := h .center
  have hleft : i ≠ 2 := h .left
  have hright : i ≠ 4 := h .right
  rcases Nat.lt_or_ge i 8 with hi | hi
  · have hall : ∀ i < 8, i ≠ 0 → i ≠ 2 → i ≠ 4 →
        (PW_CENTER ||| PW_LEFT ||| PW_RIGHT).getLsbD i = false := by decide
    exact hall i hi hcenter hleft hright
  · exact BitVec.getLsbD_of_ge _ _ hi

theorem getLsbD_clear (x y : Byte) (i : Nat) :
    (x &&& ~~~y).getLsbD i = (x.getLsbD i && !y.getLsbD i) := by
  rcases Nat.lt_or_ge i 8 with hi | hi
  · rw [BitVec.getLsbD_and, BitVec.getLsbD_not, decide_eq_true hi, Bool.true_and]
  · rw [BitVec.getLsbD_of_ge _ _ hi, BitVec.getLsbD_of_ge _ _ hi, Bool.false_and]

theorem pw_button_port {app : WalkerApp} {port : Byte} (h : app.port = some port) (mask : Byte)
    (down : Bool) : ∃ port', (app.pw_button mask down).port = some port' ∧
      (∀ b : Button, port'.getLsbD b.bit =
        if mask.getLsbD b.bit then down else port.getLsbD b.bit) ∧
      ∀ i, (∀ b : Button, i ≠ b.bit) → port'.getLsbD i = port.getLsbD i := by
  have hmask (i : Nat) : (mask &&& (PW_CENTER ||| PW_LEFT ||| PW_RIGHT)).getLsbD i =
      (mask.getLsbD i && (PW_CENTER ||| PW_LEFT ||| PW_RIGHT).getLsbD i) := BitVec.getLsbD_and
  generalize hbuttons : mask &&& (PW_CENTER ||| PW_LEFT ||| PW_RIGHT) = buttons at hmask
  have hport : (app.pw_button mask down).port =
      some (if down then port ||| buttons else port &&& ~~~buttons) := by
    unfold pw_button
    rw [h, hbuttons]
    rfl
  have hbit (i : Nat) : (if down then port ||| buttons else port &&& ~~~buttons).getLsbD i =
      if buttons.getLsbD i then down else port.getLsbD i := by
    cases down with
    | true =>
      rw [if_pos rfl, BitVec.getLsbD_or]
      cases buttons.getLsbD i <;> simp
    | false =>
      rw [if_neg (by simp), getLsbD_clear]
      cases buttons.getLsbD i <;> simp
  refine ⟨_, hport, fun b => ?_, fun i hi => ?_⟩
  · rw [hbit, hmask, buttons_bit, Bool.and_true]
  · rw [hbit, hmask, buttons_other hi, Bool.and_false, if_neg (by simp)]

/-- It is enough to say what happens at the buttons. -/
theorem ShowsButtons.pw_button {app t : WalkerApp} (h : app.ShowsButtons) (mask : Byte)
    (down : Bool) (ht : t.port = (app.pw_button mask down).port)
    (hbits : ∀ b : Button, (if mask.getLsbD b.bit then down else app.holds b || app.pulses b) =
      (t.holds b || t.pulses b)) : t.ShowsButtons := by
  obtain ⟨port, hport, hbutton, hother⟩ := h
  obtain ⟨port', hport', hbutton', hother'⟩ := pw_button_port hport mask down
  refine ⟨port', ht.trans hport', fun b => ?_, fun i hi => (hother' i hi).trans (hother i hi)⟩
  rw [hbutton', hbutton, hbits]

theorem ShowsButtons.of_same {app t : WalkerApp} (h : app.ShowsButtons) (hport : t.port = app.port)
    (hheld : t.heldKeys = app.heldKeys) (hpulses : ∀ b, t.pulses b = app.pulses b) :
    t.ShowsButtons := by
  obtain ⟨port, hp, hbutton, hother⟩ := h
  refine ⟨port, hport.trans hp, fun b => ?_, hother⟩
  rw [hbutton, hpulses, holds, holds, hheld]

-- ---------------------------------------------------------------------------
-- One event
-- ---------------------------------------------------------------------------

variable {app : WalkerApp}

theorem pulses_of_counting (h : (app.pulseTicks != 0) = true) (b : Button) :
    app.pulses b = app.pulseKeys.getLsbD b.bit := by
  rw [pulses, h, Bool.and_true]

theorem Settled.pulses (hs : app.Settled) (b : Button) :
    app.pulses b = app.pulseKeys.getLsbD b.bit := by
  cases hcount : app.pulseTicks != 0 with
  | true => exact pulses_of_counting hcount b
  | false =>
    have hzero : app.pulseTicks = 0 := by simpa using hcount
    rw [WalkerApp.pulses, hcount, Bool.and_false, hs hzero]
    exact BitVec.getLsbD_zero.symm

theorem loadROM_shows (app : WalkerApp) : app.loadROM.ShowsButtons ∧ app.loadROM.Settled :=
  ⟨⟨PDRB, rfl, fun b => by simp [holds, pulses, loadROM, PDRB], fun _ _ => rfl⟩, fun _ => rfl⟩

theorem eventMonitor_shows (h : app.ShowsButtons) {event : NSEvent}
    (hcut : app.cutsPulse (.key event) = false) : (app.eventMonitor event).ShowsButtons := by
  unfold eventMonitor
  split
  · exact h
  rename_i hheard
  split
  · exact h
  rename_i input hinput
  split
  · rename_i hfirst
    cases hdown : event.down with
    | true =>
      refine h.pw_button input.tag true rfl fun b => ?_
      change _ = ((app.heldKeys ||| input.tag).getLsbD b.bit || app.pulses b)
      rw [BitVec.getLsbD_or, Button.getLsbD_tag]
      by_cases hb : b = input
      · simp [hb]
      · simp [hb, holds]
    | false =>
      have hquiet : app.pulses input = false := by
        simpa [cutsPulse, hheard, hfirst, hdown, hinput] using hcut
      refine h.pw_button input.tag false rfl fun b => ?_
      change _ = ((app.heldKeys &&& ~~~input.tag).getLsbD b.bit || app.pulses b)
      rw [getLsbD_clear, Button.getLsbD_tag]
      by_cases hb : b = input
      · simp [hb, hquiet]
      · simp [hb, holds]
  · exact h

theorem pressKey_shows (h : app.ShowsButtons) (hs : app.Settled) (sender : Button) :
    (app.pressKey sender).ShowsButtons := by
  unfold pressKey
  split
  · exact h
  · refine h.pw_button sender.tag true rfl fun b => ?_
    have hcount : ((if sender.tag = PW_CENTER then 60 else 6 : BitVec 64) != 0) = true := by
      split <;> rfl
    change _ = (app.holds b || ((app.pulseKeys ||| sender.tag).getLsbD b.bit &&
      (if sender.tag = PW_CENTER then 60 else 6 : BitVec 64) != 0))
    rw [hcount, Bool.and_true, BitVec.getLsbD_or, Button.getLsbD_tag, hs.pulses]
    by_cases hb : b = sender
    · simp [hb]
    · simp [hb]

theorem releaseKeys_shows (h : app.ShowsButtons) : app.releaseKeys.ShowsButtons := by
  refine h.pw_button (PW_LEFT ||| PW_CENTER ||| PW_RIGHT) false rfl fun b => ?_
  have hall : (PW_LEFT ||| PW_CENTER ||| PW_RIGHT).getLsbD b.bit = true := by
    cases b <;> decide
  rw [if_pos hall]
  simp [releaseKeys, holds, pulses]

/-- The end of a pulse leaves a held button as it is. -/
theorem tickPulse_shows (h : app.ShowsButtons) : app.tickPulse.ShowsButtons := by
  unfold tickPulse
  split
  · rename_i hcount
    dsimp only
    split
    · refine h.pw_button (app.pulseKeys &&& ~~~app.heldKeys) false rfl fun b => ?_
      change _ = (app.holds b || ((0 : Byte).getLsbD b.bit && _))
      have hover : (0 : Byte).getLsbD b.bit = false := BitVec.getLsbD_zero
      rw [getLsbD_clear, pulses_of_counting hcount, hover, Bool.false_and, Bool.or_false, holds]
      cases app.heldKeys.getLsbD b.bit <;> cases app.pulseKeys.getLsbD b.bit <;> rfl
    · rename_i hmore
      refine h.of_same rfl rfl fun b => ?_
      rw [pulses_of_counting hcount]
      exact pulses_of_counting (by simpa using hmore) b
  · exact h

/-- What the buttons see of a tick is the end of a pulse. -/
theorem tick_fields (app : WalkerApp) (calls : TickCalls) : app.tick calls = app ∨
    ((app.tick calls).port = app.tickPulse.port ∧
      (app.tick calls).heldKeys = app.tickPulse.heldKeys ∧
      (app.tick calls).pulseKeys = app.tickPulse.pulseKeys ∧
      (app.tick calls).pulseTicks = app.tickPulse.pulseTicks) := by
  have hfields (failed : Bool) : { app with failed }.tickPulse.port = app.tickPulse.port ∧
      { app with failed }.tickPulse.heldKeys = app.tickPulse.heldKeys ∧
      { app with failed }.tickPulse.pulseKeys = app.tickPulse.pulseKeys ∧
      { app with failed }.tickPulse.pulseTicks = app.tickPulse.pulseTicks := by
    unfold tickPulse
    split
    · dsimp only
      split
      · exact ⟨rfl, rfl, rfl, rfl⟩
      · exact ⟨rfl, rfl, rfl, rfl⟩
    · exact ⟨rfl, rfl, rfl, rfl⟩
  have hslices : ∃ failed, (if (List.range 10).all calls.pw_run then app
      else { app with failed := true }) = { app with failed } := by
    split
    · exact ⟨app.failed, rfl⟩
    · exact ⟨true, rfl⟩
  obtain ⟨failed, hslices⟩ := hslices
  unfold tick
  split
  · exact .inl rfl
  · rw [hslices]
    dsimp only
    split
    · exact .inr (hfields failed)
    · exact .inr (hfields failed)

theorem tick_shows (h : app.ShowsButtons) (calls : TickCalls) : (app.tick calls).ShowsButtons := by
  obtain heq | ⟨hport, hheld, hkeys, hticks⟩ := tick_fields app calls
  · rwa [heq]
  · exact (tickPulse_shows h).of_same hport hheld fun b => by rw [pulses, pulses, hkeys, hticks]

theorem tickPulse_settled (hs : app.Settled) : app.tickPulse.Settled := by
  unfold tickPulse
  split
  · dsimp only
    split
    · exact fun _ => rfl
    · rename_i hmore
      exact fun hzero => absurd hzero hmore
  · exact hs

theorem handle_settled (hs : app.Settled) (event : AppEvent) : (app.handle event).Settled := by
  cases event with
  | key event =>
    change (app.eventMonitor event).Settled
    unfold eventMonitor
    split
    · exact hs
    split
    · exact hs
    split
    · cases event.down with
      | true => exact hs
      | false => exact hs
    · exact hs
  | pressKey sender =>
    change (app.pressKey sender).Settled
    unfold pressKey
    split
    · exact hs
    · intro hzero
      have hcount : (if sender.tag = PW_CENTER then 60 else 6 : BitVec 64) ≠ 0 := by
        split <;> decide
      exact absurd hzero hcount
  | tick calls =>
    change (app.tick calls).Settled
    obtain heq | ⟨-, -, hkeys, hticks⟩ := tick_fields app calls
    · rwa [heq]
    · intro hzero
      rw [hkeys]
      exact tickPulse_settled hs (hticks.symm.trans hzero)
  | windowDidResignKey => exact fun _ => rfl
  | togglePause =>
    change app.togglePause.Settled
    unfold togglePause
    split
    · exact hs
    · exact fun _ => rfl

theorem handle_shows (h : app.ShowsButtons) (hs : app.Settled) {event : AppEvent}
    (hcut : app.cutsPulse event = false) : (app.handle event).ShowsButtons := by
  cases event with
  | key event => exact eventMonitor_shows h hcut
  | pressKey sender => exact pressKey_shows h hs sender
  | tick calls => exact tick_shows h calls
  | windowDidResignKey => exact releaseKeys_shows h
  | togglePause =>
    change app.togglePause.ShowsButtons
    unfold togglePause
    split
    · exact h
    · exact releaseKeys_shows (h.of_same rfl rfl fun _ => rfl)

theorem cut_shows_not {event : AppEvent} (hcut : app.cutsPulse event = true) :
    ¬ (app.handle event).ShowsButtons := by
  cases event with
  | key event =>
    have hheard : app.ignores event = false ∧ event.isARepeat = false ∧ event.down = false ∧
        ∃ input, event.input? = some input ∧ app.pulses input = true := by
      simpa [cutsPulse, Option.any_eq_true, and_assoc] using hcut
    obtain ⟨hignores, hfirst, hup, input, hinput, hpulse⟩ := hheard
    have hevent : app.handle (.key event) =
        { app with heldKeys := app.heldKeys &&& ~~~input.tag }.pw_button input.tag false := by
      simp [handle, eventMonitor, hignores, hfirst, hup, hinput]
    rintro ⟨port', hport', hshows, -⟩
    rw [hevent] at hport' hshows
    cases hport : app.port with
    | none => simp [WalkerApp.pw_button, hport] at hport'
    | some port =>
      have hbefore : { app with heldKeys := app.heldKeys &&& ~~~input.tag }.port = some port :=
        hport
      obtain ⟨cleared, hcleared, hbit, -⟩ := pw_button_port hbefore input.tag false
      have hsame : cleared = port' := Option.some.inj (hcleared.symm.trans hport')
      have hoff : port'.getLsbD input.bit = false := by
        rw [← hsame, hbit, if_pos (by simp [Button.getLsbD_tag])]
      have hon : port'.getLsbD input.bit = true := by
        rw [hshows]
        exact Bool.or_eq_true_iff.mpr (.inr hpulse)
      exact Bool.false_ne_true (hoff.symm.trans hon)
  | pressKey _ => exact absurd hcut Bool.false_ne_true
  | tick _ => exact absurd hcut Bool.false_ne_true
  | windowDidResignKey => exact absurd hcut Bool.false_ne_true
  | togglePause => exact absurd hcut Bool.false_ne_true

-- ---------------------------------------------------------------------------
-- A run
-- ---------------------------------------------------------------------------

theorem run_concat (app : WalkerApp) (events : List AppEvent) (event : AppEvent) :
    app.run (events ++ [event]) = (app.run events).handle event := by
  rw [run, List.foldl_append, List.foldl_cons, List.foldl_nil, run]

theorem run_shows {events : List AppEvent} (h : app.ShowsButtons) (hs : app.Settled)
    (hcut : ∀ pre event, pre ++ [event] <+: events → (app.run pre).cutsPulse event = false) :
    (app.run events).ShowsButtons ∧ (app.run events).Settled := by
  induction events using List.reverseRecOn with
  | nil => exact ⟨h, hs⟩
  | append_singleton events event ih =>
    obtain ⟨hshows, hsettled⟩ := ih fun pre e hpre =>
      hcut pre e (hpre.trans (List.prefix_append events [event]))
    rw [run_concat]
    exact ⟨handle_shows hshows hsettled (hcut events event (List.prefix_refl _)),
      handle_settled hsettled event⟩

/-- After a load, the port shows the buttons all along exactly when no key-up
comes during the pulse of its button. -/
theorem buttons_shown_iff (app : WalkerApp) (events : List AppEvent) :
    (∀ pre, pre <+: events → (app.loadROM.run pre).ShowsButtons) ↔
      ∀ pre event, pre ++ [event] <+: events →
        (app.loadROM.run pre).cutsPulse event = false := by
  constructor
  · intro hshows pre event hpre
    by_contra hcut
    refine cut_shows_not (eq_true_of_ne_false hcut) ?_
    rw [← run_concat]
    exact hshows _ hpre
  · intro hcut pre hpre
    obtain ⟨hshows, hsettled⟩ := loadROM_shows app
    exact (run_shows hshows hsettled fun pre' event hpre' =>
      hcut pre' event (hpre'.trans hpre)).1

/-- A click on ◀, and the key Z typed before its pulse has run out: six ticks are
left, and the button is up. -/
theorem typed_key_cuts_click :
    let z : Bool → AppEvent := fun down => .key
      { down, inWindow := true, modalWindow := false, modifierFlags := 0, key := "z", keyCode := 6,
        isARepeat := false }
    let app := ({} : WalkerApp).loadROM.run [.pressKey .left, z true, z false]
    app.pulses .left = true ∧ app.port = some 0 ∧ ¬ app.ShowsButtons := by
  intro z app
  have hpulse : app.pulses .left = true := by decide
  have hport : app.port = some 0 := by decide
  refine ⟨hpulse, hport, ?_⟩
  rintro ⟨port, hp, hshows, -⟩
  obtain rfl : 0 = port := Option.some.inj (hport.symm.trans hp)
  have hleft := hshows .left
  rw [hpulse, Bool.or_true] at hleft
  exact Bool.false_ne_true hleft

end WalkerApp

end PokeStroller
