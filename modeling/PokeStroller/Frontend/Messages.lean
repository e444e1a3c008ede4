import PokeStroller.Walker.Rebase

/-!
# The window messages of an iteration

The inner loop of WinMain, from `newInput = 0` until the message queue is empty.
-/

namespace PokeStroller

abbrev WM_CLOSE : BitVec 32 := 0x0010
abbrev WM_QUIT : BitVec 32 := 0x0012
abbrev WM_KEYDOWN : BitVec 32 := 0x0100

abbrev VK_SPACE : BitVec 64 := 0x20
-- the codes of letter keys are those of the capital letters
abbrev VK_Z : BitVec 64 := BitVec.ofNat 64 'Z'.toNat
abbrev VK_X : BitVec 64 := BitVec.ofNat 64 'X'.toNat

structure Msg where
  message : BitVec 32
  wParam : BitVec 64
  lParam : BitVec 64

/-- `walkerRunning` and `newInput`, the walker, and the arguments of `setKeys` so
far. -/
structure MessageLoop where
  walkerRunning : Bool
  newInput : Byte
  walker : Walker
  calls : List Byte := []

namespace MessageLoop

def setKeys (s : MessageLoop) (input : Byte) : MessageLoop :=
  { s with walker := s.walker.setKeys input, calls := s.calls ++ [input] }

def press (s : MessageLoop) (input : Byte) : MessageLoop :=
  let s := { s with newInput := s.newInput ||| input }
  s.setKeys s.newInput

def WindowProc (s : MessageLoop) (uMsg : BitVec 32) : MessageLoop :=
  if uMsg = WM_CLOSE then { s with walkerRunning := false } else s

def process (s : MessageLoop) (msg : Msg) : MessageLoop :=
  let key := msg.wParam
  if msg.message = WM_KEYDOWN then
    let wasDown := msg.lParam &&& ((1 : BitVec 64) <<< 30) != 0
    if !wasDown then
      let s := if key = VK_SPACE then s.press ENTER else s
      let s := if key = VK_Z then s.press LEFT else s
      if key = VK_X then s.press RIGHT else s
    else s
  else if msg.message = WM_QUIT then { s with walkerRunning := false }
  else s.WindowProc msg.message

def iteration (s : MessageLoop) (batch : List Msg) : MessageLoop :=
  batch.foldl process { s with newInput := 0, calls := [] }

end MessageLoop

/-- The bit of a fresh key-down of Space, Z or X. -/
def Msg.key? (msg : Msg) : Option Byte :=
  if msg.message = WM_KEYDOWN ∧ msg.lParam &&& ((1 : BitVec 64) <<< 30) = 0 then
    if msg.wParam = VK_SPACE then some ENTER
    else if msg.wParam = VK_Z then some LEFT
    else if msg.wParam = VK_X then some RIGHT
    else none
  else none

def pressedKeys (batch : List Msg) : List Byte := batch.filterMap Msg.key?

def inputs (newInput : Byte) : List Byte → List Byte
  | [] => []
  | key :: keys => (newInput ||| key) :: inputs (newInput ||| key) keys

theorem key?_mem {msg : Msg} (h : msg.key? = some key) : key ∈ [ENTER, LEFT, RIGHT] := by
  unfold Msg.key? at h
  repeat' split at h
  all_goals cases h
  all_goals decide

namespace MessageLoop

-- ---------------------------------------------------------------------------
-- One message
-- ---------------------------------------------------------------------------

theorem process_fresh (s : MessageLoop) {msg : Msg} (hmessage : msg.message = WM_KEYDOWN)
    (hfresh : msg.lParam &&& ((1 : BitVec 64) <<< 30) = 0) : s.process msg =
      let s := if msg.wParam = VK_SPACE then s.press ENTER else s
      let s := if msg.wParam = VK_Z then s.press LEFT else s
      if msg.wParam = VK_X then s.press RIGHT else s := by
  unfold process
  rw [if_pos hmessage, hfresh]
  rfl

theorem process_key (s : MessageLoop) {msg : Msg} (h : msg.key? = some key) :
    s.process msg = s.press key := by
  unfold Msg.key? at h
  split at h
  · rename_i hmsg
    rw [s.process_fresh hmsg.1 hmsg.2]
    split at h
    · rename_i hspace
      cases h
      rw [hspace]
      rfl
    split at h
    · rename_i hz
      cases h
      rw [hz]
      rfl
    split at h
    · rename_i hx
      cases h
      rw [hx]
      rfl
    · cases h
  · cases h

theorem process_other (s : MessageLoop) {msg : Msg} (h : msg.key? = none) :
    (s.process msg).newInput = s.newInput ∧ (s.process msg).walker = s.walker ∧
      (s.process msg).calls = s.calls := by
  unfold Msg.key? at h
  split at h
  · rename_i hmsg
    repeat' split at h
    all_goals cases h
    rename_i hspace hz hx
    rw [s.process_fresh hmsg.1 hmsg.2]
    simp only [hspace, hz, hx, ↓reduceIte, and_self]
  · rename_i hmsg
    unfold process WindowProc
    dsimp only
    split
    · rename_i hmessage
      rw [if_neg (by simpa [hmessage] using hmsg)]
      exact ⟨rfl, rfl, rfl⟩
    · repeat' split
      all_goals exact ⟨rfl, rfl, rfl⟩

-- ---------------------------------------------------------------------------
-- A batch
-- ---------------------------------------------------------------------------

/-- What a batch calls, and that the walker gets the calls in order. -/
theorem process_batch (s : MessageLoop) (batch : List Msg) :
    (batch.foldl process s).calls = s.calls ++ inputs s.newInput (pressedKeys batch) ∧
    (batch.foldl process s).walker =
      (inputs s.newInput (pressedKeys batch)).foldl Walker.setKeys s.walker := by
  induction batch generalizing s with
  | nil => exact ⟨(List.append_nil _).symm, rfl⟩
  | cons msg batch ih =>
    obtain ⟨hcalls, hwalker⟩ := ih (s.process msg)
    rw [List.foldl_cons, hcalls, hwalker]
    cases hkey : msg.key? with
    | none =>
      obtain ⟨hinput, hwalker, hcalls⟩ := s.process_other hkey
      have hkeys : pressedKeys (msg :: batch) = pressedKeys batch := List.filterMap_cons_none hkey
      rw [hinput, hwalker, hcalls, hkeys]
      exact ⟨rfl, rfl⟩
    | some key =>
      have hkeys : pressedKeys (msg :: batch) = key :: pressedKeys batch :=
        List.filterMap_cons_some hkey
      rw [s.process_key hkey, hkeys, inputs, List.append_cons]
      exact ⟨rfl, rfl⟩

/-- Each call of an iteration has the bits of all the keys so far. -/
theorem iteration_calls (s : MessageLoop) (batch : List Msg) :
    (s.iteration batch).calls = inputs 0 (pressedKeys batch) :=
  (process_batch { s with newInput := 0, calls := [] } batch).1

theorem setKeys_turns (walker : Walker) (calls : List Byte) (cycleCount : BitVec 64) :
    Runs Machine.WinMain { toWalker := walker, cycleCount := cycleCount } (calls.map .setKeys)
      { toWalker := calls.foldl Walker.setKeys walker, cycleCount := cycleCount } := by
  induction calls generalizing walker with
  | nil => exact .nil _
  | cons input calls ih => exact .cons (.setKeys _ input) (ih (walker.setKeys input))

/-- The calls of an iteration are turns of WinMain. -/
theorem iteration_turns (s : MessageLoop) (batch : List Msg) (cycleCount : BitVec 64) :
    Runs Machine.WinMain { toWalker := s.walker, cycleCount := cycleCount }
      ((s.iteration batch).calls.map .setKeys)
      { toWalker := (s.iteration batch).walker, cycleCount := cycleCount } := by
  obtain ⟨-, hwalker⟩ := process_batch { s with newInput := 0, calls := [] } batch
  have hend : (s.iteration batch).walker = _ := hwalker
  rw [hend, s.iteration_calls]
  exact setKeys_turns s.walker _ cycleCount

end MessageLoop

theorem inputs_eq_iff {first : Byte} (hfirst : first ∈ [ENTER, LEFT, RIGHT]) {keys : List Byte}
    (hkeys : ∀ key ∈ keys, key ∈ [ENTER, LEFT, RIGHT]) :
    inputs first keys = keys ↔ ∀ key ∈ keys, key = first := by
  induction keys with
  | nil => simp [inputs]
  | cons key keys ih =>
    have hbits : ∀ a ∈ [ENTER, LEFT, RIGHT], ∀ b ∈ [ENTER, LEFT, RIGHT],
        a ||| b = b ↔ b = a := by decide
    have hkey := hkeys key List.mem_cons_self
    have ih := ih fun key hkey => hkeys key (List.mem_cons_of_mem _ hkey)
    rw [inputs, List.cons_eq_cons, List.forall_mem_cons, hbits first hfirst key hkey]
    refine and_congr_right fun hsame => ?_
    rw [(hbits first hfirst key hkey).mpr hsame, hsame, ih]

/-- Each key is delivered by a call of its own, with its bit alone, exactly if all
of the batch are the same key. -/
theorem deliveredOnce_iff (s : MessageLoop) (batch : List Msg) :
    (s.iteration batch).calls = pressedKeys batch ↔
      ∀ key ∈ pressedKeys batch, ∀ key' ∈ pressedKeys batch, key = key' := by
  have hbits : ∀ key ∈ pressedKeys batch, key ∈ [ENTER, LEFT, RIGHT] := by
    intro key hkey
    obtain ⟨msg, -, hmsg⟩ := List.mem_filterMap.mp hkey
    exact key?_mem hmsg
  rw [s.iteration_calls]
  cases hkeys : pressedKeys batch with
  | nil => simp [inputs]
  | cons first keys =>
    rw [hkeys] at hbits
    have hfirst := hbits first List.mem_cons_self
    have hzero : (0 : Byte) ||| first = first := BitVec.zero_or
    rw [inputs, hzero, List.cons_eq_cons, and_iff_right rfl,
      inputs_eq_iff hfirst fun key hkey => hbits key (List.mem_cons_of_mem _ hkey)]
    constructor
    · intro hall key hkey key' hkey'
      have hsame : ∀ key ∈ first :: keys, key = first := List.forall_mem_cons.mpr ⟨rfl, hall⟩
      rw [hsame key hkey, hsame key' hkey']
    · exact fun hall key hkey => hall key (List.mem_cons_of_mem _ hkey) first List.mem_cons_self

/-- Space and Z in one batch, while interrupts are not masked: Z comes as Space and
Z together, which requests IRQ0 once more, and is not queued. -/
theorem press_merged :
    let space : Msg := { message := WM_KEYDOWN, wParam := VK_SPACE, lParam := 0x00390001 }
    let z : Msg := { message := WM_KEYDOWN, wParam := VK_Z, lParam := 0x002c0001 }
    let s : MessageLoop := { walkerRunning := true, newInput := 0, walker := { memory := fun _ => 0 } }
    pressedKeys [space, z] = [ENTER, LEFT] ∧
      (s.iteration [space, z]).calls = [ENTER, ENTER ||| LEFT] ∧
      (s.iteration [space, z]).walker.inputQueue = [] ∧
      ([ENTER, LEFT].foldl Walker.setKeys s.walker).inputQueue = [(LEFT.toNat : Int), 0] := by
  intro space z s
  have hkeys : pressedKeys [space, z] = [ENTER, LEFT] := by decide
  obtain ⟨hcalls, hwalker⟩ :=
    MessageLoop.process_batch { s with newInput := 0, calls := [] } [space, z]
  rw [hkeys] at hcalls hwalker
  refine ⟨hkeys, hcalls.trans (by decide), ?_, by decide⟩
  change (List.foldl MessageLoop.process _ _).walker.inputQueue = []
  rw [hwalker]
  decide

end PokeStroller
