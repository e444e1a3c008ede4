import PokeStroller.Adapter.Bursts

/-!
# The audio queue

Samples come in bursts of any size and are taken in portions of any size. They
leave the queue in the order in which they came, each either returned or
overwritten by a sample that found the queue full.
-/

namespace PokeStroller

-- ---------------------------------------------------------------------------
-- Histories
-- ---------------------------------------------------------------------------

inductive AudioEvent
  /-- a sample, and the unread one it pushed out -/
  | pushed (sample : BitVec 16) (oldest : Option (BitVec 16))
  /-- by a call of `pw_audio` -/
  | returned (samples : List (BitVec 16))
  /-- anything else -/
  | other
  deriving DecidableEq, Repr

namespace AudioEvent

def added : AudioEvent → List (BitVec 16)
  | pushed sample _ => [sample]
  | _ => []

def departed : AudioEvent → List (BitVec 16 × Bool)
  | pushed _ oldest => oldest.toList.map (·, false)
  | returned samples => samples.map (·, true)
  | other => []

def queue : AudioEvent → List (FifoEvent (BitVec 16))
  | pushed sample none => [.put [sample]]
  | pushed sample (some oldest) => [.take [oldest], .put [sample]]
  | returned samples => [.take samples]
  | other => []

end AudioEvent

def pushedSamples (events : List AudioEvent) : List (BitVec 16) :=
  events.flatMap AudioEvent.added

def returnedSamples (events : List AudioEvent) : List (BitVec 16) :=
  events.flatMap fun | .returned samples => samples | _ => []

def departedSamples (events : List AudioEvent) : List (BitVec 16 × Bool) :=
  events.flatMap AudioEvent.departed

namespace Adapter

def overwritten (pw : Adapter σ τ) : Option (BitVec 16) :=
  if pw.audio.length = PW_AUDIO_RATE / 2 then pw.audio.head? else none

/-- A call of the callback, a call of `pw_audio`, or what else leaves the queue
alone. -/
inductive AudioStep (core : Core σ τ) : Adapter σ τ → AudioEvent → Adapter σ τ → Prop
  | push (pw : Adapter σ τ) (info : BuzzerInformation) :
      AudioStep core pw (.pushed (core.synthesize info pw.sound).2 pw.overwritten)
        (onSamplePushed core info pw)
  | audio (pw : Adapter σ τ) (n : Nat) :
      AudioStep core pw (.returned (pw.pw_audio n).2) (pw.pw_audio n).1
  | other {pw pw' : Adapter σ τ} : pw'.audio = pw.audio → AudioStep core pw .other pw'

-- ---------------------------------------------------------------------------
-- One step
-- ---------------------------------------------------------------------------

variable {core : Core σ τ} {pw pw' : Adapter σ τ}

theorem overwritten_full (h : pw.audio.length = PW_AUDIO_RATE / 2) :
    ∃ oldest, pw.overwritten = some oldest ∧ pw.audio = oldest :: pw.audio.tail := by
  cases haudio : pw.audio with
  | nil =>
    rw [haudio] at h
    cases h
  | cons oldest rest =>
    refine ⟨oldest, ?_, rfl⟩
    unfold overwritten
    rw [if_pos h, haudio]
    rfl

theorem AudioStep.bounded (h : AudioStep core pw e pw')
    (hbound : pw.audio.length ≤ PW_AUDIO_RATE / 2) : pw'.audio.length ≤ PW_AUDIO_RATE / 2 := by
  cases h with
  | push info =>
    change ((if _ then _ else _) ++ [_]).length ≤ _
    split
    · rename_i hfull
      rw [List.length_append, List.length_tail, hfull, List.length_singleton]
      decide
    · rw [List.length_append, List.length_singleton]
      omega
  | audio n =>
    change (pw.audio.drop _).length ≤ _
    rw [List.length_drop]
    omega
  | other haudio => rwa [haudio]

theorem AudioStep.oldest_eq (h : AudioStep core pw (.pushed sample oldest) pw') :
    oldest = pw.overwritten := by
  cases h
  rfl

theorem AudioStep.queue (h : AudioStep core pw e pw') :
    Runs Fifo.Step pw.audio e.queue pw'.audio := by
  cases h with
  | push info =>
    by_cases hfull : pw.audio.length = PW_AUDIO_RATE / 2
    case neg =>
      have hnone : pw.overwritten = none := if_neg hfull
      have hkept : (onSamplePushed core info pw).audio =
          pw.audio ++ [(core.synthesize info pw.sound).2] := by
        change (if _ then _ else _) ++ _ = _
        rw [if_neg hfull]
      rw [hnone, hkept]
      exact .single (.put _ _)
    obtain ⟨oldest, hsome, hcons⟩ := overwritten_full hfull
    have htail : (onSamplePushed core info pw).audio =
        pw.audio.tail ++ [(core.synthesize info pw.sound).2] := by
      change (if _ then _ else _) ++ _ = _
      rw [if_pos hfull]
    rw [hsome, htail]
    refine .cons ?_ (.single (.put _ _))
    have htake := Fifo.Step.take [oldest] pw.audio.tail
    rwa [List.singleton_append, ← hcons] at htake
  | audio n => exact .single (.front _ _)
  | other haudio =>
    rw [haudio]
    exact .nil _

-- ---------------------------------------------------------------------------
-- Runs
-- ---------------------------------------------------------------------------

theorem audio_queue (h : Runs (AudioStep core) pw events pw') :
    Runs Fifo.Step pw.audio (events.flatMap AudioEvent.queue) pw'.audio := by
  induction h with
  | nil => exact .nil _
  | cons hstep _ ih =>
    rw [List.flatMap_cons]
    exact hstep.queue.append ih

theorem takes_queue (e : AudioEvent) : Fifo.takes e.queue = e.departed.map Prod.fst := by
  cases e with
  | pushed sample oldest => cases oldest <;> rfl
  | returned samples =>
    simp [Fifo.takes, AudioEvent.queue, AudioEvent.departed, FifoEvent.removed, Function.comp_def]
  | other => rfl

theorem puts_queue (e : AudioEvent) : Fifo.puts e.queue = e.added := by
  cases e with
  | pushed sample oldest => cases oldest <;> rfl
  | returned samples => rfl
  | other => rfl

theorem reset_not_mem (e : AudioEvent) : .reset ∉ e.queue := by
  cases e with
  | pushed sample oldest => cases oldest <;> simp [AudioEvent.queue]
  | returned samples => simp [AudioEvent.queue]
  | other => exact List.not_mem_nil

theorem returned_departed (events : List AudioEvent) :
    returnedSamples events = ((departedSamples events).filter Prod.snd).map Prod.fst := by
  unfold returnedSamples departedSamples
  rw [List.filter_flatMap, List.map_flatMap]
  refine List.flatMap_congr fun e _ => ?_
  cases e with
  | pushed sample oldest => cases oldest <;> rfl
  | returned samples => simp [AudioEvent.departed, List.filter_map, Function.comp_def]
  | other => rfl

/-- In any interleaving of samples and calls of `pw_audio`, from a queue that is
not too long: it stays so; samples leave it in the order in which they came in,
each once, and those that are returned are what `pw_audio` returns; and one that
is not was the oldest unread sample when another came and the queue was full. -/
theorem audio_fates (hbound : pw.audio.length ≤ PW_AUDIO_RATE / 2)
    (h : Runs (AudioStep core) pw events pw') :
    pw'.audio.length ≤ PW_AUDIO_RATE / 2 ∧
    (departedSamples events).map Prod.fst ++ pw'.audio = pw.audio ++ pushedSamples events ∧
    returnedSamples events = ((departedSamples events).filter Prod.snd).map Prod.fst ∧
    (returnedSamples events).Sublist (pw.audio ++ pushedSamples events) ∧
    ∀ before sample oldest after, events = before ++ .pushed sample (some oldest) :: after →
      ∃ q, Runs (AudioStep core) pw before q ∧ q.audio.length = PW_AUDIO_RATE / 2 ∧
        q.audio.head? = some oldest := by
  have hlength : pw'.audio.length ≤ PW_AUDIO_RATE / 2 :=
    h.invariant (I := fun q => q.audio.length ≤ PW_AUDIO_RATE / 2)
      (fun _ _ _ hstep hs => hstep.bounded hs) hbound
  have hfates : (departedSamples events).map Prod.fst ++ pw'.audio =
      pw.audio ++ pushedSamples events := by
    have htaken := Fifo.takes_flatMap (audio_queue h) reset_not_mem
    simp only [takes_queue, puts_queue] at htaken
    rwa [← List.map_flatMap] at htaken
  refine ⟨hlength, hfates, returned_departed events, ?_, ?_⟩
  · rw [returned_departed, ← hfates]
    exact (List.filter_sublist.map Prod.fst).trans (List.sublist_append_left _ _)
  · rintro before sample oldest after rfl
    obtain ⟨q, hbefore, hafter⟩ := h.split
    cases hafter with
    | cons hstep =>
      have hoverwritten : some oldest = q.overwritten := hstep.oldest_eq
      unfold overwritten at hoverwritten
      split at hoverwritten
      · rename_i hfull
        exact ⟨q, hbefore, hfull, hoverwritten.symm⟩
      · cases hoverwritten

/-- A sample finds a queue of 16000 samples, and a call takes one. -/
theorem audio_fates_full : ∃ pw' : Adapter (List (Byte × Byte)) Unit, ∃ rest events,
    departedSamples events = [(5, false), (6, true)] ∧ returnedSamples events = [6] ∧
      pw'.audio.length ≤ PW_AUDIO_RATE / 2 ∧ [5, 6] ++ pw'.audio = 5 :: 6 :: rest ++ [0] := by
  obtain ⟨rest, hrest⟩ : ∃ rest : List (BitVec 16), rest.length = 15998 :=
    ⟨List.replicate 15998 7, List.length_replicate⟩
  let pw : Adapter (List (Byte × Byte)) Unit := { created [] () 0 with audio := 5 :: 6 :: rest }
  let next := onSamplePushed scriptedCore { frequency := none, is_full_volume := false } pw
  have hfull : pw.audio.length = PW_AUDIO_RATE / 2 := by
    change rest.length + 1 + 1 = _
    rw [hrest]
    rfl
  have hlost : pw.overwritten = some 5 := if_pos hfull
  have hnext : next.audio = 6 :: (rest ++ [0]) := by
    change (if pw.audio.length = _ then pw.audio.tail else pw.audio) ++ [0] = _
    rw [if_pos hfull]
    rfl
  have hreturned : (next.pw_audio 1).2 = [6] := by
    change next.audio.take (min next.audio.length 1) = [6]
    rw [hnext, List.length_cons, Nat.min_eq_right (Nat.succ_le_succ (Nat.zero_le _))]
    rfl
  have hpush : AudioStep scriptedCore pw (.pushed 0 pw.overwritten) next := .push pw _
  have haudio : AudioStep scriptedCore next (.returned (next.pw_audio 1).2) _ := .audio next 1
  rw [hlost] at hpush
  rw [hreturned] at haudio
  obtain ⟨hlength, hfates, -, -, -⟩ :=
    audio_fates (Nat.le_of_eq hfull) (.cons hpush (.single haudio))
  exact ⟨(next.pw_audio 1).1, rest, [.pushed 0 (some 5), .returned [6]], rfl, rfl, hlength, hfates⟩

-- ---------------------------------------------------------------------------
-- Runs of a host
-- ---------------------------------------------------------------------------

theorem transmitIR_audio (calls : List (Byte × σ)) (pw : Adapter σ τ) :
    (transmitIR calls pw).1.audio = pw.audio := by
  obtain ⟨_, _, _, _, heq⟩ := transmitIR_eq calls pw
  rw [heq]

theorem other_runs {q : Adapter σ τ} (haudio : q.audio = pw.audio)
    (h : ∃ events, Runs (AudioStep core) q events pw') :
    ∃ events, Runs (AudioStep core) pw events pw' := by
  obtain ⟨events, hrest⟩ := h
  exact ⟨_, .cons (.other haudio) hrest⟩

theorem push_runs {info : BuzzerInformation}
    (h : ∃ events, Runs (AudioStep core) (onSamplePushed core info pw) events pw') :
    ∃ events, Runs (AudioStep core) pw events pw' := by
  obtain ⟨events, hrest⟩ := h
  exact ⟨_, .cons (.push _ _) hrest⟩

theorem buzzerLoop_audio (core : Core σ τ) (passes : Nat) (pw : Adapter σ τ) :
    ∃ events, Runs (AudioStep core) pw events (buzzerLoop core passes pw) := by
  induction passes generalizing pw with
  | zero => exact ⟨[], .nil _⟩
  | succ passes ih =>
    unfold buzzerLoop
    split
    · let later : Adapter σ τ :=
        { pw with buzzer_cycles := pw.buzzer_cycles - BitVec.ofNat 32 PHI_CLK }
      have hlater : later.audio = pw.audio := rfl
      exact other_runs hlater (push_runs (ih _))
    · exact ⟨[], .nil _⟩

theorem buzzerCycle_audio (core : Core σ τ) (elapsed : Byte) (pw : Adapter σ τ) :
    ∃ events, Runs (AudioStep core) pw events (buzzerCycle core elapsed pw) := by
  let later : Adapter σ τ :=
    { pw with
      buzzer_cycles := pw.buzzer_cycles + elapsed.setWidth 32 * BitVec.ofNat 32 PHI_W_CLK }
  have hlater : later.audio = pw.audio := rfl
  exact other_runs hlater (buzzerLoop_audio core _ later)

theorem Cycle_audio (core : Core σ τ) (wall : BitVec 64) (pw : Adapter σ τ) :
    ∃ events, Runs (AudioStep core) pw events (pw.Cycle core wall).1 := by
  unfold Adapter.Cycle
  split
  rename_i calls result soc _
  have hcalls := transmitIR_audio calls pw
  split
  · rename_i hthrown
    rw [hthrown] at hcalls
    exact ⟨_, .single (.other hcalls)⟩
  rename_i hcall
  rw [hcall] at hcalls
  split
  · exact ⟨_, .single (.other hcalls)⟩
  · refine other_runs ?_ (buzzerCycle_audio core _ _)
    exact hcalls

theorem runLoop_audio (hrun : pw.runLoop core walls = some (pw', result)) :
    ∃ events, Runs (AudioStep core) pw events pw' := by
  induction walls generalizing pw with
  | nil =>
    unfold Adapter.runLoop at hrun
    split at hrun
    · cases hrun
    · cases hrun
      exact ⟨[], .nil _⟩
  | cons wall walls ih =>
    obtain ⟨events, hcycle⟩ := Cycle_audio core wall pw
    unfold Adapter.runLoop at hrun
    split at hrun
    · split at hrun
      · rename_i hcall
        rw [hcall] at hcycle
        cases hrun
        exact ⟨_, hcycle.append (.single (.other rfl))⟩
      · rename_i hcall
        rw [hcall] at hcycle
        obtain ⟨later, hrest⟩ := ih hrun
        exact ⟨_, hcycle.append hrest⟩
    · cases hrun
      exact ⟨[], .nil _⟩

theorem pw_run_audio (hrun : pw.pw_run core walls n = some (pw', result)) :
    ∃ events, Runs (AudioStep core) pw events pw' := by
  unfold Adapter.pw_run at hrun
  split at hrun
  · cases hrun
    exact ⟨[], .nil _⟩
  · let aimed : Adapter σ τ := { pw with target := pw.target + n.setWidth 64 }
    have haimed : aimed.audio = pw.audio := rfl
    exact other_runs haimed (runLoop_audio hrun)

theorem pw_ir_transmit_audio (pw : Adapter σ τ) (n : Nat) :
    (pw.pw_ir_transmit n).1.audio = pw.audio := by
  unfold Adapter.pw_ir_transmit
  split
  · rfl
  · rfl

/-- What a host does is an interleaving of samples and calls of `pw_audio`. -/
theorem audio_runs (h : Runs (Step core) pw calls pw') :
    ∃ events, Runs (AudioStep core) pw events pw' := by
  induction h with
  | nil => exact ⟨[], .nil _⟩
  | cons hstep _ ih =>
    cases hstep with
    | run hrun =>
      obtain ⟨events, hslice⟩ := pw_run_audio hrun
      obtain ⟨later, hrest⟩ := ih
      exact ⟨_, hslice.append hrest⟩
    | audio _ n =>
      obtain ⟨later, hrest⟩ := ih
      exact ⟨_, .cons (.audio _ n) hrest⟩
    | transmit _ n => exact other_runs (pw_ir_transmit_audio _ n) ih

end Adapter

end PokeStroller
