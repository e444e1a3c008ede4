import Mathlib.Data.List.ReduceOption
import PokeStroller.Audio.Model
import PokeStroller.Lib.Fifo

/-!
# The fates of samples

The places between the two counters are a queue of at most 8192 samples, also
when a counter wraps. What a submit takes in leaves it in order: rendered, or
discarded by a render that runs inactive.
-/

namespace PokeStroller

-- ---------------------------------------------------------------------------
-- Histories
-- ---------------------------------------------------------------------------

inductive RingEvent
  | submitted (samples accepted : List (BitVec 16))
  /-- what the buffer is made of, and the samples skipped -/
  | rendered (out : List (Option (BitVec 16))) (discarded : List (BitVec 16))
  /-- a change of `active` or of the volume -/
  | switched
  deriving DecidableEq, Repr

namespace RingEvent

def accepted : RingEvent → List (BitVec 16)
  | submitted _ samples => samples
  | _ => []

def departed : RingEvent → List (BitVec 16 × Bool)
  | rendered out discarded => out.reduceOption.map (·, true) ++ discarded.map (·, false)
  | _ => []

def queue : RingEvent → List (FifoEvent (BitVec 16))
  | submitted _ samples => [.put samples]
  | rendered out discarded => [.take out.reduceOption, .take discarded]
  | switched => []

theorem takes_queue (e : RingEvent) : Fifo.takes e.queue = e.departed.map Prod.fst := by
  cases e with
  | rendered out discarded =>
    simp [Fifo.takes, queue, departed, FifoEvent.removed, Function.comp_def]
  | _ => rfl

theorem puts_queue (e : RingEvent) : Fifo.puts e.queue = e.accepted := by
  cases e with
  | submitted samples accepted => exact List.append_nil _
  | _ => rfl

theorem reset_not_mem (e : RingEvent) : .reset ∉ e.queue := by
  cases e with
  | switched => exact List.not_mem_nil
  | _ => simp [queue]

end RingEvent

namespace PWAudio

/-- The samples that wait in the ring. -/
def unread (a : PWAudio ν) : List (BitVec 16) := RingBuffer.unread a.ring a.read a.write

/-- A complete call. What a submit took in is told by `write`. -/
inductive Step (vol : Volume ν) : PWAudio ν → RingEvent → PWAudio ν → Prop
  | submit (a : PWAudio ν) (samples : List (BitVec 16)) :
      Step vol a (.submitted samples
        (samples.take ((a.pw_audio_submit samples).write - a.write).toNat))
        (a.pw_audio_submit samples)
  | render (a : PWAudio ν) :
      Step vol a (.rendered a.renderSlots.2 (if a.active then [] else a.unread)) (a.render vol).1
  | active (a : PWAudio ν) (value : Bool) : Step vol a .switched (a.pw_audio_active value)
  | volume (a : PWAudio ν) (value : ν) : Step vol a .switched (a.pw_audio_volume vol value)

/-- What a call does, from what is in the ring before it. -/
def Explains (a : PWAudio ν) : RingEvent → Prop
  | .submitted samples accepted =>
    accepted = if a.active then samples.take (RING_SIZE - a.unread.length) else []
  | .rendered out discarded =>
    if a.active then
      out = (a.unread.take BUFFER_SAMPLES).map some ++
        List.replicate (BUFFER_SAMPLES - a.unread.length) none ∧ discarded = []
    else out = List.replicate BUFFER_SAMPLES none ∧ discarded = a.unread
  | .switched => True

-- ---------------------------------------------------------------------------
-- The loops
-- ---------------------------------------------------------------------------

theorem renderLoop_eq (ring : Fin RING_SIZE → BitVec 16) (write : BitVec 32) (passes : Nat)
    (read : BitVec 32) :
    (renderLoop ring write passes read).2 =
        ((RingBuffer.unread ring read write).take passes).map some ++
          List.replicate (passes - (RingBuffer.unread ring read write).length) none ∧
      RingBuffer.unread ring (renderLoop ring write passes read).1 write =
        (RingBuffer.unread ring read write).drop passes := by
  induction passes generalizing read with
  | zero => simp [renderLoop]
  | succ passes ih =>
    unfold renderLoop
    by_cases hne : read ≠ write
    · obtain ⟨hout, hread⟩ := ih (read + 1)
      rw [if_pos hne, RingBuffer.unread_pop hne]
      refine ⟨?_, hread⟩
      dsimp only
      rw [hout, List.length_cons, Nat.add_sub_add_right]
      rfl
    · obtain rfl := not_not.mp hne
      obtain ⟨hout, hread⟩ := ih read
      rw [RingBuffer.unread_self] at hout hread ⊢
      rw [List.drop_nil] at hread ⊢
      rw [if_neg hne]
      refine ⟨?_, hread⟩
      dsimp only
      rw [hout]
      simp [List.replicate_succ]

theorem submitLoop_eq (read : BitVec 32) (samples : List (BitVec 16))
    (ring : Fin RING_SIZE → BitVec 16) (write : BitVec 32)
    (h : (write - read).toNat ≤ RING_SIZE) :
    RingBuffer.unread (submitLoop read samples ring write).1 read
        (submitLoop read samples ring write).2 =
      RingBuffer.unread ring read write ++ samples.take (RING_SIZE - (write - read).toNat) := by
  induction samples generalizing ring write with
  | nil => simp [submitLoop]
  | cons sample samples ih =>
    unfold submitLoop
    by_cases hroom : write - read < BitVec.ofNat 32 RING_SIZE
    · have hlt : (write - read).toNat < RING_SIZE := hroom
      have hnext : (write + 1 - read).toNat = (write - read).toNat + 1 := by bv_omega
      have hpush : RingBuffer.unread (Function.update ring (RingBuffer.slot write) sample) read
          (write + 1) = RingBuffer.unread ring read write ++ [sample] :=
        RingBuffer.unread_push (by decide) hlt (by decide) sample
      have hleft : RING_SIZE - (write - read).toNat =
          RING_SIZE - (write + 1 - read).toNat + 1 := by omega
      rw [if_pos hroom, ih _ (write + 1) (by omega), hpush, hleft, List.take_succ_cons,
        List.append_assoc, List.singleton_append]
    · have hfull : RING_SIZE - (write - read).toNat = 0 := by
        have hge : ¬ (write - read).toNat < RING_SIZE := hroom
        omega
      rw [if_neg hroom, hfull, List.take_zero, List.append_nil]

-- ---------------------------------------------------------------------------
-- The calls
-- ---------------------------------------------------------------------------

variable {vol : Volume ν} {a b : PWAudio ν}

theorem length_unread (a : PWAudio ν) : a.unread.length = (a.write - a.read).toNat :=
  RingBuffer.length_unread _ _ _

theorem unread_submit (ha : a.unread.length ≤ RING_SIZE) (samples : List (BitVec 16)) :
    (a.pw_audio_submit samples).unread =
      a.unread ++ if a.active then samples.take (RING_SIZE - a.unread.length) else [] := by
  unfold pw_audio_submit
  cases hactive : a.active with
  | false => exact (List.append_nil _).symm
  | true =>
    have hloop := submitLoop_eq a.read samples a.ring a.write (a.length_unread ▸ ha)
    rw [← length_unread] at hloop
    exact hloop

theorem renderSlots_active (hactive : a.active = true) :
    a.renderSlots.2 = (a.unread.take BUFFER_SAMPLES).map some ++
        List.replicate (BUFFER_SAMPLES - a.unread.length) none ∧
      a.renderSlots.1.unread = a.unread.drop BUFFER_SAMPLES := by
  unfold renderSlots
  rw [hactive]
  exact renderLoop_eq a.ring a.write BUFFER_SAMPLES a.read

theorem renderSlots_inactive (hactive : a.active = false) :
    a.renderSlots.2 = List.replicate BUFFER_SAMPLES none ∧ a.renderSlots.1.unread = [] := by
  have hloop := renderLoop_eq a.ring a.write BUFFER_SAMPLES a.write
  rw [RingBuffer.unread_self, List.drop_nil] at hloop
  unfold renderSlots
  rw [hactive]
  exact hloop

theorem submit_read (samples : List (BitVec 16)) (a : PWAudio ν) :
    (a.pw_audio_submit samples).read = a.read := by
  unfold pw_audio_submit
  cases a.active with
  | false => rfl
  | true => rfl

theorem Step.bounded (h : Step vol a e b) (ha : a.unread.length ≤ RING_SIZE) :
    b.unread.length ≤ RING_SIZE := by
  cases h with
  | submit samples =>
    rw [unread_submit ha, List.length_append]
    split
    · rw [List.length_take]
      omega
    · exact ha
  | render =>
    change a.renderSlots.1.unread.length ≤ RING_SIZE
    cases hactive : a.active with
    | false =>
      rw [(renderSlots_inactive hactive).2]
      exact Nat.zero_le _
    | true =>
      rw [(renderSlots_active hactive).2, List.length_drop]
      omega
  | active value => exact ha
  | volume value => exact ha

theorem taken_submit (ha : a.unread.length ≤ RING_SIZE) (samples : List (BitVec 16)) :
    samples.take ((a.pw_audio_submit samples).write - a.write).toNat =
      if a.active then samples.take (RING_SIZE - a.unread.length) else [] := by
  cases hactive : a.active with
  | false =>
    have hsame : a.pw_audio_submit samples = a := by
      unfold pw_audio_submit
      rw [hactive]
      rfl
    rw [hsame, BitVec.sub_self]
    rfl
  | true =>
    have hunread : (a.pw_audio_submit samples).unread =
        a.unread ++ samples.take (RING_SIZE - a.unread.length) := by
      rw [unread_submit ha, hactive]
      rfl
    have hlength := congrArg List.length hunread
    have htake := List.length_take (i := RING_SIZE - a.unread.length) (l := samples)
    rw [List.length_append, length_unread, submit_read] at hlength
    have hmoved : ((a.pw_audio_submit samples).write - a.write).toNat =
        (samples.take (RING_SIZE - a.unread.length)).length := by
      rw [length_unread] at ha htake hlength ⊢
      bv_omega
    rw [hmoved]
    exact (List.prefix_iff_eq_take.mp (List.take_prefix _ samples)).symm

theorem reduceOption_silence (samples : List (BitVec 16)) (n : Nat) :
    (samples.map some ++ List.replicate n none).reduceOption = samples := by
  rw [List.reduceOption_append, List.reduceOption_replicate_none, List.append_nil]
  change (samples.map some).filterMap id = samples
  rw [List.filterMap_map]
  exact List.filterMap_some

theorem Step.queue (h : Step vol a e b) (ha : a.unread.length ≤ RING_SIZE) :
    Runs Fifo.Step a.unread e.queue b.unread := by
  cases h with
  | submit samples =>
    rw [taken_submit ha, unread_submit ha]
    exact .single (.put _ _)
  | render =>
    change Runs Fifo.Step a.unread _ a.renderSlots.1.unread
    cases hactive : a.active with
    | false =>
      obtain ⟨hout, hunread⟩ := renderSlots_inactive hactive
      rw [hout, hunread]
      change Runs Fifo.Step a.unread [.take (List.replicate _ none).reduceOption, .take a.unread] []
      have htake := Fifo.Step.take a.unread []
      rw [List.append_nil] at htake
      rw [List.reduceOption_replicate_none]
      exact .cons (.take [] _) (.single htake)
    | true =>
      obtain ⟨hout, hunread⟩ := renderSlots_active hactive
      rw [hout, hunread]
      change Runs Fifo.Step a.unread [.take (List.reduceOption (_ ++ _)), .take []] _
      rw [reduceOption_silence]
      exact .cons (.front _ _) (.single (.take [] _))
  | active value => exact .nil _
  | volume value => exact .nil _

-- ---------------------------------------------------------------------------
-- Runs
-- ---------------------------------------------------------------------------

end PWAudio

end PokeStroller
