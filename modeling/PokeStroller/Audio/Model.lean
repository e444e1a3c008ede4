import PokeStroller.Lib.RingBuffer
import PokeStroller.Lib.Runs

/-!
# The audio output

`PWAudio` of macos_audio.c, with each call as one step. Samples are opaque: the
product of a sample and the volume, in `float`, is a parameter, and so is what
`pw_audio_volume` makes of a value.
-/

namespace PokeStroller

abbrev RING_SIZE : Nat := 8192
abbrev BUFFER_SAMPLES : Nat := 512

instance : NeZero RING_SIZE := ⟨by decide⟩

structure Volume (ν : Type) where
  /-- `value<0?0:value>1?1:value` -/
  clamp : ν → ν
  /-- `(int16_t)(sample*volume)` -/
  scale : BitVec 16 → ν → BitVec 16

structure PWAudio (ν : Type) where
  ring : Fin RING_SIZE → BitVec 16
  read : BitVec 32
  write : BitVec 32
  active : Bool
  volume : ν

namespace PWAudio

/-- The loop of `render`, with its passes left. Each sample of the buffer is
made of the one in a place of the ring, or is silence. -/
def renderLoop (ring : Fin RING_SIZE → BitVec 16) (write : BitVec 32) :
    Nat → BitVec 32 → BitVec 32 × List (Option (BitVec 16))
  | 0, read => (read, [])
  | passes + 1, read =>
    if read ≠ write then
      let (last, out) := renderLoop ring write passes (read + 1)
      (last, some (ring (RingBuffer.slot read)) :: out)
    else
      let (last, out) := renderLoop ring write passes read
      (last, none :: out)

/-- `render` up to the scaling. -/
def renderSlots (a : PWAudio ν) : PWAudio ν × List (Option (BitVec 16)) :=
  let read := if a.active then a.read else a.write
  let (read, out) := renderLoop a.ring a.write BUFFER_SAMPLES read
  ({ a with read := read }, out)

def render (vol : Volume ν) (a : PWAudio ν) : PWAudio ν × List (BitVec 16) :=
  let (next, out) := a.renderSlots
  (next, out.map fun
    | some sample => vol.scale sample a.volume
    | none => 0)

def submitLoop (read : BitVec 32) :
    List (BitVec 16) → (Fin RING_SIZE → BitVec 16) → BitVec 32 →
      (Fin RING_SIZE → BitVec 16) × BitVec 32
  | [], ring, write => (ring, write)
  | sample :: samples, ring, write =>
    if write - read < BitVec.ofNat 32 RING_SIZE then
      submitLoop read samples (Function.update ring (RingBuffer.slot write) sample) (write + 1)
    else (ring, write)

def pw_audio_submit (samples : List (BitVec 16)) (a : PWAudio ν) : PWAudio ν :=
  if !a.active then a
  else
    let (ring, write) := submitLoop a.read samples a.ring a.write
    { a with ring := ring, write := write }

def pw_audio_active (value : Bool) (a : PWAudio ν) : PWAudio ν := { a with active := value }

def pw_audio_volume (vol : Volume ν) (value : ν) (a : PWAudio ν) : PWAudio ν :=
  { a with volume := vol.clamp value }

end PWAudio

end PokeStroller
