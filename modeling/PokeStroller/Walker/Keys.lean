import PokeStroller.Lib.Fifo
import PokeStroller.Walker.Session

/-!
# Key events

The input queue between its two producers, `setKeys` and the IRQ0 entry, and
its one consumer, the hook at 0x9b84. The firmware gets every accepted key,
and its release after it, in the order in which they were accepted.
-/

namespace PokeStroller

inductive KeyEvent
  /-- by `setKeys` into the queue, or `ENTER` by IRQ0 -/
  | accepted (key : Int)
  /-- by the hook at 0x9b84 -/
  | popped (value : Int)
  deriving DecidableEq, Repr

def KeyEvent.queue : KeyEvent → FifoEvent Int
  | accepted key => .put [key, 0]
  | popped value => .take [value]

def acceptedKeys (log : List KeyEvent) : List Int :=
  log.filterMap fun | .accepted key => some key | _ => none

def poppedValues (log : List KeyEvent) : List Int :=
  log.filterMap fun | .popped value => some value | _ => none

def withReleases (keys : List Int) : List Int := keys.flatMap fun key => [key, 0]

namespace Walker

def popped (s : Walker) : Option Int := if s.pc = 0x9b84 then s.inputQueue.head? else none

def queues (s : Walker) (input : Byte) : Bool := !(!s.flags.I && input.has ENTER)

def entersIRQ0 (s : Walker) : Bool :=
  !s.flags.I && (s.memory IRQ_IRR1).has IRRI0 && (s.memory IRQ_IENR1).has IEN0

end Walker

namespace Machine

def dispatching (m : Machine) : Option Walker :=
  if m.sleep then some m.toWalker
  else match m.toWalker.skipHook with
    | some _ => none
    | none =>
      match m.toWalker.instructionPhase with
      | .ok s => some s
      | _ => none

/-- What a call does to the queue: a pop before its instruction, and a key at
its dispatch. -/
def callKeys (m : Machine) : List KeyEvent :=
  (if m.executes.isSome then m.toWalker.popped.toList.map .popped else []) ++
    if m.dispatching.any (·.entersIRQ0) then [.accepted ENTER.toNat] else []

def keyEvents (m : Machine) : Event → List KeyEvent
  | .call => m.callKeys
  | .setKeys input => if m.toWalker.queues input then [.accepted input.toNat] else []
  | .quarterRTCInterrupt => []

def KeyStep (m : Machine) (events : List KeyEvent) (t : Machine) : Prop :=
  ∃ e, Step m e t ∧ events = m.keyEvents e

end Machine

-- ---------------------------------------------------------------------------
-- The queue in each part of a step
-- ---------------------------------------------------------------------------

namespace Walker

theorem keyHook_cases (s : Walker) :
    (s.popped = none ∧ s.keyHook = s) ∨
    ∃ value rest, s.popped = some value ∧ s.inputQueue = value :: rest ∧
      s.keyHook = { s with
        inputQueue := rest, memory := setMemory8 s.memory 0xffde (BitVec.ofInt 8 value) } := by
  unfold popped keyHook
  by_cases hpc : s.pc = 0x9b84
  · rw [if_pos hpc]
    cases hqueue : s.inputQueue with
    | nil => simp [isEmpty]
    | cons value rest => exact .inr ⟨value, rest, rfl, rfl, by simp [hpc, isEmpty, popElement]⟩
  · exact .inl ⟨if_neg hpc, if_neg fun h => hpc h.1⟩

theorem instructionPhase_inputQueue {s t : Walker} (h : s.instructionPhase.Leaves t) :
    t.inputQueue = s.keyHook.inputQueue := by
  obtain ⟨memory, hwatts, -⟩ := s.keyHook.wattsHook_eq
  have hphase : s.instructionPhase.Holds fun t => t.inputQueue = s.keyHook.inputQueue := by
    have hswitch := opcodeSwitch_frame s.keyHook.wattsHook s.keyHook.fetch
    rw [hwatts] at hswitch
    unfold instructionPhase
    dsimp only
    rw [hwatts]
    refine hswitch.andThen (fun u hu => ?_) fun u hu => ?_
    · rw [hu]
    · obtain ⟨buffer, hclean⟩ := u.ssuCleanup_eq
      rw [hclean, hu]
      rfl
  exact hphase.leaves h

theorem interruptHandling_inputQueue (s : Walker) :
    s.interruptHandling.inputQueue =
      s.inputQueue ++ if s.entersIRQ0 then [(ENTER.toNat : Int), 0] else [] := by
  unfold interruptHandling entersIRQ0
  cases s.flags.I with
  | true => exact (List.append_nil _).symm
  | false =>
    simp only [Bool.false_eq_true, ↓reduceIte, Bool.not_false, Bool.true_and]
    split
    · simp [addElement, enterInterrupt]
    · rw [List.append_nil]
      repeat' split
      all_goals rfl

theorem setKeys_inputQueue (s : Walker) (input : Byte) :
    (s.setKeys input).inputQueue =
      s.inputQueue ++ if s.queues input then [(input.toNat : Int), 0] else [] := by
  unfold setKeys queues
  cases !s.flags.I && input.has ENTER with
  | true => exact (List.append_nil _).symm
  | false => simp [addElement]

theorem ite_inputQueue {c : Prop} [Decidable c] {s t : Walker} (hs : s.inputQueue = queue)
    (ht : t.inputQueue = queue) : (if c then s else t).inputQueue = queue := by
  split
  · exact hs
  · exact ht

theorem runSubClock_inputQueue (s : Walker) : s.runSubClock.inputQueue = s.inputQueue := by
  obtain ⟨memory, timerB, timerW, -, h | ⟨-, h⟩⟩ := s.runSubClock_eq
  · rw [h]
  · rw [h]
    rfl

theorem SsuFrame.inputQueue {s t : Walker} (h : SsuFrame s t) : t.inputQueue = s.inputQueue :=
  (congrArg Walker.inputQueue h.offBus : t.offBus.inputQueue = s.offBus.inputQueue)

end Walker

namespace Machine

theorem clockCycle_inputQueue (m : Machine) :
    m.clockCycle.Holds fun t => t.inputQueue = m.inputQueue := by
  refine m.clockCycle_cycle.mono ?_
  rintro t ⟨hcycle, -⟩
  cases hcycle with
  | plain h => exact h.inputQueue
  | subClock _ h ht =>
    rw [← ht]
    exact (Walker.runSubClock_inputQueue _).trans h.inputQueue

theorem finishCall_inputQueue {m t : Machine} (h : m.finishCall.Leaves t) :
    t.inputQueue = m.toWalker.interruptHandling.inputQueue := by
  have hfinish : m.finishCall.Holds fun t =>
      t.inputQueue = m.toWalker.interruptHandling.inputQueue :=
    (clockCycle_inputQueue _).andThen (fun _ h => h) fun u hu =>
      (clockCycle_inputQueue u).mono fun _ ht => ht.trans hu
  exact hfinish.leaves h

-- ---------------------------------------------------------------------------
-- One step
-- ---------------------------------------------------------------------------

theorem runs_popped (s : Walker) :
    Runs Fifo.Step s.inputQueue ((s.popped.toList.map KeyEvent.popped).map KeyEvent.queue)
      s.keyHook.inputQueue := by
  rcases s.keyHook_cases with ⟨hnone, hhook⟩ | ⟨value, rest, hsome, hqueue, hhook⟩
  · rw [hnone, hhook]
    exact .nil _
  · rw [hsome, hhook, hqueue]
    exact .single (.take [value] rest)

theorem runs_dispatched (s : Walker) :
    Runs Fifo.Step s.inputQueue
      ((if s.entersIRQ0 then [KeyEvent.accepted ENTER.toNat] else []).map KeyEvent.queue)
      s.interruptHandling.inputQueue := by
  rw [s.interruptHandling_inputQueue]
  cases s.entersIRQ0 with
  | true => exact .single (.put _ _)
  | false =>
    rw [if_neg nofun, if_neg nofun, List.append_nil]
    exact .nil _

theorem call_fifo {m t : Machine} (h : m.runNextInstruction.Leaves t) :
    Runs Fifo.Step m.inputQueue (m.callKeys.map KeyEvent.queue) t.inputQueue := by
  unfold callKeys
  rw [List.map_append]
  rcases runNextInstruction_cases h with ⟨s, hs, ht⟩ | ⟨hawake, s, hskip, rfl⟩ |
    ⟨hawake, hskip, s, hs, rfl⟩
  · have hdispatch := runs_dispatched s
    have hqueue : t.inputQueue = s.interruptHandling.inputQueue := finishCall_inputQueue ht
    rw [← hqueue] at hdispatch
    cases hs with
    | asleep hasleep =>
      have hnone : m.executes = none := by simp [executes, hasleep]
      have hsome : m.dispatching = some m.toWalker := if_pos hasleep
      rw [hnone, hsome]
      exact hdispatch
    | executed hawake hskip hphase =>
      have hsome : m.executes.isSome = true := by
        rw [executes_eq_some.mpr ⟨hawake, hskip, rfl⟩]
        rfl
      have hdispatching : m.dispatching = some s := by simp [dispatching, hawake, hskip, hphase]
      have hpop := runs_popped m.toWalker
      rw [← Walker.instructionPhase_inputQueue (Outcome.leaves_of_ok hphase)] at hpop
      rw [if_pos hsome, hdispatching]
      exact hpop.append hdispatch
  · have hnone : m.executes = none := by simp [executes, hawake, hskip]
    have hdispatching : m.dispatching = none := by simp [dispatching, hawake, hskip]
    have hqueue := congrArg Walker.inputQueue (Walker.skipHook_eq hskip)
    rw [hnone, hdispatching]
    change Runs Fifo.Step m.inputQueue [] s.inputQueue
    rw [hqueue]
    exact .nil _
  · have hsome : m.executes.isSome = true := by
      rw [executes_eq_some.mpr ⟨hawake, hskip, rfl⟩]
      rfl
    have hdispatching : m.dispatching = none := by simp [dispatching, hawake, hskip, hs]
    have hpop := runs_popped m.toWalker
    have hleaves : m.toWalker.instructionPhase.Leaves s := by
      rw [hs]
      rfl
    rw [← Walker.instructionPhase_inputQueue hleaves] at hpop
    rw [if_pos hsome, hdispatching]
    exact hpop.append (.nil _)

theorem KeyStep.fifo {m t : Machine} (h : m.KeyStep events t) :
    Runs Fifo.Step m.inputQueue (events.map KeyEvent.queue) t.inputQueue := by
  obtain ⟨e, hstep, rfl⟩ := h
  cases hstep with
  | call hleaves => exact call_fifo hleaves
  | setKeys input =>
    change Runs Fifo.Step m.inputQueue
      ((if m.toWalker.queues input then [KeyEvent.accepted input.toNat] else []).map KeyEvent.queue)
      (m.toWalker.setKeys input).inputQueue
    rw [m.toWalker.setKeys_inputQueue]
    cases m.toWalker.queues input with
    | true => exact .single (.put _ _)
    | false =>
      rw [if_neg nofun, if_neg nofun, List.append_nil]
      exact .nil _
  | quarterRTCInterrupt =>
    have hqueue : m.toWalker.quarterRTCInterrupt.inputQueue = m.inputQueue :=
      Walker.ite_inputQueue (Walker.ite_inputQueue rfl rfl) (Walker.ite_inputQueue rfl rfl)
    change Runs Fifo.Step m.inputQueue [] m.toWalker.quarterRTCInterrupt.inputQueue
    rw [hqueue]
    exact .nil _

-- ---------------------------------------------------------------------------
-- Runs
-- ---------------------------------------------------------------------------

theorem runs_fifo {m t : Machine} (h : Runs KeyStep m steps t) :
    Runs Fifo.Step m.inputQueue (steps.flatten.map KeyEvent.queue) t.inputQueue := by
  induction h with
  | nil => exact .nil _
  | cons hstep _ ih =>
    rw [List.flatten_cons, List.map_append]
    exact hstep.fifo.append ih

theorem takes_queue (log : List KeyEvent) :
    Fifo.takes (log.map KeyEvent.queue) = poppedValues log := by
  induction log with
  | nil => rfl
  | cons e log ih =>
    cases e with
    | accepted key => exact ih
    | popped value => exact congrArg (value :: ·) ih

theorem puts_queue (log : List KeyEvent) :
    Fifo.puts (log.map KeyEvent.queue) = withReleases (acceptedKeys log) := by
  induction log with
  | nil => rfl
  | cons e log ih =>
    cases e with
    | accepted key => exact congrArg ([key, 0] ++ ·) ih
    | popped value => exact ih

theorem reset_notMem_queue (log : List KeyEvent) : .reset ∉ log.map KeyEvent.queue := by
  intro h
  obtain ⟨e, -, he⟩ := List.mem_map.mp h
  cases e with
  | accepted key => cases he
  | popped value => cases he

theorem fifo_poppedValues {log : List KeyEvent}
    (h : Runs Fifo.Step [] (log.map KeyEvent.queue) queue) :
    poppedValues log ++ queue = withReleases (acceptedKeys log) := by
  have happend := Fifo.takes_append h (reset_notMem_queue log)
  rwa [takes_queue, puts_queue, List.nil_append] at happend

theorem fifo_prefix {pre post : List KeyEvent}
    (h : Runs Fifo.Step [] ((pre ++ .popped value :: post).map KeyEvent.queue) queue) :
    ∃ rest, withReleases (acceptedKeys pre) = poppedValues pre ++ value :: rest := by
  rw [List.map_append] at h
  obtain ⟨before, hpre, hpop⟩ := h.split
  cases hpop with
  | cons htake _ =>
    generalize hevent : KeyEvent.queue (.popped value) = event at htake
    cases htake with
    | put => cases hevent
    | take xs rest =>
      cases hevent
      exact ⟨_, (fifo_poppedValues hpre).symm⟩
    | reset => cases hevent

theorem Loaded.inputQueue {m : Machine} (h : m.Loaded) : m.inputQueue = [] := by
  obtain ⟨s, rom, image, hload⟩ := h.images
  have hdrained : m.inputQueue = drainQueue s.inputQueue := congrArg Walker.inputQueue hload
  rw [hdrained, Walker.drainQueue_eq]

/-- In every run from a loaded walker the popped values and the queue are
together the accepted keys with their releases. A pop takes the oldest value
there is, and the hook puts that value, and nothing else, at 0xffde. -/
theorem keys_in_order {m₀ m : Machine} (h₀ : m₀.Loaded) (h : Runs KeyStep m₀ steps m) :
    poppedValues steps.flatten ++ m.inputQueue = withReleases (acceptedKeys steps.flatten) ∧
    (∀ pre value post, steps.flatten = pre ++ .popped value :: post →
      ∃ rest, withReleases (acceptedKeys pre) = poppedValues pre ++ value :: rest) ∧
    ((m.toWalker.popped = none ∧ m.toWalker.keyHook = m.toWalker) ∨
      ∃ value rest, m.toWalker.popped = some value ∧ m.inputQueue = value :: rest ∧
        m.toWalker.keyHook = { m.toWalker with
          inputQueue := rest,
          memory := setMemory8 m.memory 0xffde (BitVec.ofInt 8 value) }) := by
  have hfifo := runs_fifo h
  rw [h₀.inputQueue] at hfifo
  refine ⟨fifo_poppedValues hfifo, fun pre value post hlog => ?_, m.toWalker.keyHook_cases⟩
  rw [hlog] at hfifo
  exact fifo_prefix hfifo

def keyProgram : List (Nat × List Byte) := [(0x2c4, [0x5a, 0x00, 0x9b, 0x84])]

/-- Two keys after booting, of which the hook has taken the first. -/
def keySteps : List (List KeyEvent) := [[.accepted 4], [.accepted 16], [], [.popped 4]]

theorem keys_in_order_boot : ∃ m, Runs KeyStep (boot keyProgram) keySteps m ∧
    m.inputQueue = [0, 16, 0] ∧
    poppedValues keySteps.flatten ++ m.inputQueue = withReleases (acceptedKeys keySteps.flatten) := by
  let m := ((boot keyProgram).host (·.setKeys 4)).host (·.setKeys 16)
  have run : m.runNextInstruction.okWith (fun t => decide (m.callKeys = []) &&
      t.runNextInstruction.okWith fun u =>
        decide (t.callKeys = [.popped 4] ∧ u.inputQueue = [0, 16, 0])) = true := by
    decide +kernel
  obtain ⟨t, ht, h⟩ := Outcome.okWith_iff.mp run
  obtain ⟨hjump, h⟩ := Bool.and_eq_true_iff.mp h
  obtain ⟨u, hu, h⟩ := Outcome.okWith_iff.mp h
  obtain ⟨hpop, hqueue⟩ := of_decide_eq_true h
  have hruns : Runs KeyStep (boot keyProgram) keySteps u :=
    .cons ⟨.setKeys 4, .setKeys _ 4, by decide +kernel⟩
      (.cons ⟨.setKeys 16, .setKeys _ 16, by decide +kernel⟩
        (.cons ⟨.call, .call (Outcome.leaves_of_ok ht), (of_decide_eq_true hjump).symm⟩
          (.cons ⟨.call, .call (Outcome.leaves_of_ok hu), hpop.symm⟩ (.nil _))))
  exact ⟨u, hruns, hqueue, (keys_in_order (loaded_images _ _) hruns).1⟩

end Machine

end PokeStroller
