import PokeStroller.Lib.Bytes

/-!
# The buttons of the macOS front end

The event handlers of WalkerApp, with the state that they share: the keys that
are held, the buttons of a click while its pulse runs, and the port of the
emulator, to which only `pw_button` writes.
-/

namespace PokeStroller

abbrev PW_CENTER : Byte := 1
abbrev PW_LEFT : Byte := 4
abbrev PW_RIGHT : Byte := 16

def PDRB : Byte := 0

inductive Button
  | center
  | left
  | right
  deriving DecidableEq, Repr

def Button.tag : Button → Byte
  | center => PW_CENTER
  | left => PW_LEFT
  | right => PW_RIGHT

def Button.bit : Button → Nat
  | center => 0
  | left => 2
  | right => 4

structure WalkerApp where
  loaded : Bool := false
  paused : Bool := false
  failed : Bool := false
  /-- The port of `self.emulator`, which is NULL before the first load. -/
  port : Option Byte := none
  heldKeys : Byte := 0
  pulseKeys : Byte := 0
  pulseTicks : BitVec 64 := 0
  ticks : BitVec 64 := 0

structure NSEvent where
  /-- `event.type == NSEventTypeKeyDown` -/
  down : Bool
  /-- `event.window == app.window` -/
  inWindow : Bool
  modalWindow : Bool
  modifierFlags : BitVec 64
  /-- `event.charactersIgnoringModifiers.lowercaseString` -/
  key : String
  keyCode : BitVec 16
  isARepeat : Bool

abbrev NSEventModifierFlagControl : BitVec 64 := 1 <<< 18
abbrev NSEventModifierFlagOption : BitVec 64 := 1 <<< 19
abbrev NSEventModifierFlagCommand : BitVec 64 := 1 <<< 20

structure TickCalls where
  modalWindow : Bool
  pw_run : Nat → Bool
  saveSession : Bool

def NSEvent.input? (event : NSEvent) : Option Button :=
  if event.key = "z" ∨ event.keyCode = 123 then some .left
  else if event.key = "x" ∨ event.keyCode = 124 then some .right
  else if event.key = " " ∨ event.keyCode = 36 then some .center
  else none

namespace WalkerApp

def pw_button (app : WalkerApp) (mask : Byte) (down : Bool) : WalkerApp :=
  let mask := mask &&& (PW_CENTER ||| PW_LEFT ||| PW_RIGHT)
  { app with port := app.port.map fun value => if down then value ||| mask else value &&& ~~~mask }

def loadROM (app : WalkerApp) : WalkerApp :=
  { app with
    port := some PDRB
    ticks := 0, heldKeys := 0, pulseKeys := 0, pulseTicks := 0
    loaded := true, failed := false, paused := false }

/-- The monitor passes the event on without looking at the key. -/
def ignores (app : WalkerApp) (event : NSEvent) : Bool :=
  !app.loaded || app.paused || app.failed || !event.inWindow || event.modalWindow ||
    event.modifierFlags &&& (NSEventModifierFlagCommand ||| NSEventModifierFlagControl |||
      NSEventModifierFlagOption) != 0

def eventMonitor (app : WalkerApp) (event : NSEvent) : WalkerApp :=
  if app.ignores event then app
  else match event.input? with
    | none => app
    | some input =>
      if !event.isARepeat then
        let app := if event.down then { app with heldKeys := app.heldKeys ||| input.tag }
          else { app with heldKeys := app.heldKeys &&& ~~~input.tag }
        app.pw_button input.tag event.down
      else app

/-- The end of a tick's pulse: `--self.pulseTicks==0`. -/
def tickPulse (app : WalkerApp) : WalkerApp :=
  if app.pulseTicks != 0 then
    let app := { app with pulseTicks := app.pulseTicks - 1 }
    if app.pulseTicks = 0 then
      { app.pw_button (app.pulseKeys &&& ~~~app.heldKeys) false with pulseKeys := 0 }
    else app
  else app

/-- `tick:`. The first slice that fails ends the loop over the slices, not the
tick. -/
def tick (app : WalkerApp) (calls : TickCalls) : WalkerApp :=
  if !app.loaded || app.paused || app.failed || calls.modalWindow then app
  else
    let app := if (List.range 10).all calls.pw_run then app else { app with failed := true }
    let app := app.tickPulse
    let app := { app with ticks := app.ticks + 1 }
    if app.ticks % 300 = 0 && !calls.saveSession then { app with paused := true } else app

def pressKey (app : WalkerApp) (sender : Button) : WalkerApp :=
  if !app.loaded || app.paused || app.failed then app
  else
    let app := { app with
      pulseKeys := app.pulseKeys ||| sender.tag
      pulseTicks := if sender.tag = PW_CENTER then 60 else 6 }
    app.pw_button sender.tag true

def releaseKeys (app : WalkerApp) : WalkerApp :=
  { app.pw_button (PW_LEFT ||| PW_CENTER ||| PW_RIGHT) false with
    heldKeys := 0, pulseKeys := 0, pulseTicks := 0 }

def togglePause (app : WalkerApp) : WalkerApp :=
  if !app.loaded || app.failed then app
  else releaseKeys { app with paused := !app.paused }

end WalkerApp

inductive AppEvent
  | key (event : NSEvent)
  | pressKey (sender : Button)
  | tick (calls : TickCalls)
  | windowDidResignKey
  | togglePause

def WalkerApp.handle (app : WalkerApp) : AppEvent → WalkerApp
  | .key event => app.eventMonitor event
  | .pressKey sender => app.pressKey sender
  | .tick calls => app.tick calls
  | .windowDidResignKey => app.releaseKeys
  | .togglePause => app.togglePause

def WalkerApp.run (app : WalkerApp) (events : List AppEvent) : WalkerApp :=
  events.foldl WalkerApp.handle app

end PokeStroller
