import Mathlib.Algebra.Order.Ring.Int
import PokeStroller.Adapter.Model

/-!
# The EEPROM snapshot

`pw_eeprom` of emulator.cpp: a copy of the EEPROM in which, for the firmware
that caches its health data in RAM, both stored copies of that data are the
cached one with its checksum.
-/

namespace PokeStroller

-- ---------------------------------------------------------------------------
-- Memory
-- ---------------------------------------------------------------------------

def PW_EEPROM_SIZE : Nat := 65536

def ROM_SIZE : Nat := 0xC000
def ROM_END : Nat := 0xBFFF
def RAM_SIZE : Nat := 0x800
def RAM_START : Nat := 0xF780
def RAM_END : Nat := 0xFF7F
def IO_LOW_START : Nat := 0xF020
def IO_LOW_END : Nat := 0xF100
def IO_HIGH_START : Nat := 0xFF80
def IO_HIGH_END : Nat := 0xFFFF

structure MemoryBus (ι : Type) where
  rom : Bytes ROM_SIZE
  ram : Bytes RAM_SIZE
  io : ι

structure SoC (ι ρ : Type) where
  memory : MemoryBus ι
  other : ρ

/-- `PWEmulator` with the fields that `pw_eeprom` reads. -/
structure Emulator (ι ρ τ : Type) extends PWEmulator (SoC ι ρ) τ where
  eeprom : Bytes PW_EEPROM_SIZE
  known_firmware : Bool := false

section

-- `IO::Read`, whose handlers may change the registers.
variable (ioRead : BitVec 16 → ι → Byte × ι)

def MemoryBus.Read8 (address : BitVec 16) (mem : MemoryBus ι) : Option (Byte × MemoryBus ι) :=
  if address.toNat ≤ ROM_END then (mem.rom.get? address.toNat).map (·, mem)
  else if RAM_START ≤ address.toNat ∧ address.toNat ≤ RAM_END then
    (mem.ram.get? (address.toNat - RAM_START)).map (·, mem)
  else if IO_LOW_START ≤ address.toNat ∧ address.toNat ≤ IO_LOW_END ∨
      IO_HIGH_START ≤ address.toNat ∧ address.toNat ≤ IO_HIGH_END then
    some ((ioRead address mem.io).1, { mem with io := (ioRead address mem.io).2 })
  else some (0xFF, mem)

-- ---------------------------------------------------------------------------
-- The snapshot
-- ---------------------------------------------------------------------------

def nintendo : List Byte := "nintendo".toList.map fun c => BitVec.ofNat 8 c.toNat

/-- The loop over the cache, with its passes left, and the checksum so far. -/
def flushLoop (base : Nat) : Nat → Bytes PW_EEPROM_SIZE → Byte → MemoryBus ι →
    Option (Bytes PW_EEPROM_SIZE × Byte × MemoryBus ι)
  | 0, bytes, checksum, mem => some (bytes, checksum, mem)
  | passes + 1, bytes, checksum, mem => do
    let i := 24 - (passes + 1)
    let (value, mem) ← mem.Read8 ioRead (BitVec.ofNat 16 (0xf780 + i))
    let bytes ← bytes.set? (base + i) value
    let stored ← bytes.get? (base + i)
    flushLoop base passes bytes (checksum + stored) mem

def flushAll : List Nat → Bytes PW_EEPROM_SIZE → MemoryBus ι →
    Option (Bytes PW_EEPROM_SIZE × MemoryBus ι)
  | [], bytes, mem => some (bytes, mem)
  | base :: bases, bytes, mem => do
    let (bytes, checksum, mem) ← flushLoop ioRead base 24 bytes 1 mem
    let bytes ← bytes.set? (base + 24) checksum
    flushAll bases bytes mem

def Emulator.pw_eeprom (pw : Emulator ι ρ τ) : Option (Emulator ι ρ τ × Bytes PW_EEPROM_SIZE) :=
  let bytes := pw.eeprom
  if pw.known_firmware ∧ BitVec.ofNat 64 PW_CLOCK ≤ pw.cycles ∧
      bytes.getAll? 0 8 = some nintendo then
    (flushAll ioRead [0x156, 0x256] bytes pw.soc.memory).map fun (bytes, memory) =>
      ({ pw with soc := { pw.soc with memory := memory } }, bytes)
  else some (pw, bytes)

end

-- ---------------------------------------------------------------------------
-- The cache
-- ---------------------------------------------------------------------------

/-- The 24 bytes at 0xF780, the first of the RAM. -/
def MemoryBus.healthData (mem : MemoryBus ι) : List Byte :=
  List.ofFn fun i : Fin 24 => mem.ram ⟨i, by unfold RAM_SIZE; omega⟩

def checksum (bytes : List Byte) : Byte := BitVec.ofNat 8 (1 + (bytes.map BitVec.toNat).sum)

def Emulator.Commits (pw : Emulator ι ρ τ) : Prop :=
  pw.known_firmware ∧ BitVec.ofNat 64 PW_CLOCK ≤ pw.cycles ∧
    pw.eeprom.getAll? 0 8 = some nintendo

variable {ioRead : BitVec 16 → ι → Byte × ι}

theorem MemoryBus.length_healthData (mem : MemoryBus ι) : mem.healthData.length = 24 :=
  List.length_ofFn

/-- Reads of the RAM do not reach the handlers. -/
theorem MemoryBus.read_healthData (mem : MemoryBus ι) (h : i < mem.healthData.length) :
    mem.Read8 ioRead (BitVec.ofNat 16 (0xf780 + i)) = some (mem.healthData[i], mem) := by
  have hi : i < 24 := mem.length_healthData ▸ h
  have haddress : (BitVec.ofNat 16 (0xf780 + i)).toNat = 0xf780 + i := by
    rw [BitVec.toNat_ofNat]
    omega
  have hrom : ¬ 0xf780 + i ≤ ROM_END := by
    unfold ROM_END
    omega
  have hram : RAM_START ≤ 0xf780 + i ∧ 0xf780 + i ≤ RAM_END := by
    unfold RAM_START RAM_END
    omega
  have hindex : 0xf780 + i - RAM_START = i := by
    unfold RAM_START
    omega
  have hsize : i < RAM_SIZE := by
    unfold RAM_SIZE
    omega
  unfold MemoryBus.Read8
  rw [haddress, if_neg hrom, if_pos hram, hindex, Bytes.get?_of_lt mem.ram hsize]
  simp only [healthData, List.getElem_ofFn, Option.map_some]

theorem checksum_nil : checksum [] = 1 := rfl

theorem checksum_concat (bytes : List Byte) (b : Byte) :
    checksum (bytes ++ [b]) = checksum bytes + b := by
  apply BitVec.eq_of_toNat_eq
  simp only [checksum, List.map_append, List.map_cons, List.map_nil, List.sum_append,
    List.sum_singleton, BitVec.toNat_add, BitVec.toNat_ofNat]
  omega

-- ---------------------------------------------------------------------------
-- The loops
-- ---------------------------------------------------------------------------

theorem flushLoop_eq {base passes : Nat} (hbase : base + 24 ≤ PW_EEPROM_SIZE)
    (hpasses : passes ≤ 24) (bytes : Bytes PW_EEPROM_SIZE) (mem : MemoryBus ι) :
    flushLoop ioRead base passes bytes (checksum (mem.healthData.take (24 - passes))) mem =
      (bytes.setAll? (base + (24 - passes)) (mem.healthData.drop (24 - passes))).map
        (·, checksum mem.healthData, mem) := by
  induction passes generalizing bytes with
  | zero =>
    have hlength : mem.healthData.length ≤ 24 := Nat.le_of_eq mem.length_healthData
    rw [Nat.sub_zero, List.take_of_length_le hlength, List.drop_of_length_le hlength]
    rfl
  | succ passes ih =>
    have hi : 24 - (passes + 1) < mem.healthData.length := by
      rw [mem.length_healthData]
      omega
    have hnext : 24 - passes = 24 - (passes + 1) + 1 := by omega
    have hsize : base + (24 - (passes + 1)) < PW_EEPROM_SIZE := by omega
    specialize ih (by omega)
    rw [hnext] at ih
    unfold flushLoop
    generalize 24 - (passes + 1) = i at hi hsize ih ⊢
    obtain ⟨stored, hstored⟩ : ∃ stored, bytes.set? (base + i) mem.healthData[i] = some stored :=
      ⟨_, Bytes.set?_of_lt bytes hsize _⟩
    have hdrop : mem.healthData.drop i = mem.healthData[i] :: mem.healthData.drop (i + 1) :=
      List.drop_eq_getElem_cons hi
    have hsum : checksum (mem.healthData.take i) + mem.healthData[i] =
        checksum (mem.healthData.take (i + 1)) := by
      rw [List.take_succ_eq_append_getElem hi, checksum_concat]
    have hget : stored.get? (base + i) = some mem.healthData[i] := Bytes.get?_set?_self hstored
    rw [hdrop, Bytes.setAll?, hstored, Option.bind_some, Nat.add_assoc, ← ih stored, ← hsum]
    simp only [mem.read_healthData hi, hstored, hget, Option.bind_eq_bind, Option.bind_some]

theorem flushAll_cons {base : Nat} (hbase : base + 25 ≤ PW_EEPROM_SIZE) (bases : List Nat)
    (bytes : Bytes PW_EEPROM_SIZE) (mem : MemoryBus ι) :
    ∃ stored, bytes.setAll? base (mem.healthData ++ [checksum mem.healthData]) = some stored ∧
      flushAll ioRead (base :: bases) bytes mem = flushAll ioRead bases stored mem := by
  obtain ⟨stored, hstored⟩ :
      ∃ stored, bytes.setAll? base (mem.healthData ++ [checksum mem.healthData]) = some stored :=
    bytes.setAll?_of_le (by
      rw [List.length_append, mem.length_healthData]
      exact hbase)
  refine ⟨stored, hstored, ?_⟩
  have hsize : base + 24 ≤ PW_EEPROM_SIZE := by omega
  have hloop : flushLoop ioRead base 24 bytes _ mem = _ :=
    flushLoop_eq hsize (Nat.le_refl 24) bytes mem
  rw [Bytes.setAll?_append, Option.bind_eq_some_iff] at hstored
  obtain ⟨block, hblock, hlast⟩ := hstored
  rw [mem.length_healthData, Bytes.setAll?, Option.bind_eq_some_iff] at hlast
  obtain ⟨_, hset, hdone⟩ := hlast
  cases hdone
  rw [Nat.sub_self, List.take_zero, List.drop_zero, checksum_nil, Nat.add_zero, hblock] at hloop
  rw [flushAll]
  simp only [hloop, hset, Option.map_some, Option.bind_eq_bind, Option.bind_some]

/-- The image in which both places hold the cache and its checksum. -/
structure Flushed (mem : MemoryBus ι) (eeprom bytes : Bytes PW_EEPROM_SIZE) : Prop where
  outside : ∀ j, ¬ (0x156 ≤ j ∧ j ≤ 0x16E) → ¬ (0x256 ≤ j ∧ j ≤ 0x26E) →
    bytes.get? j = eeprom.get? j
  blocks : ∀ base ∈ [0x156, 0x256],
    bytes.getAll? base 25 = some (mem.healthData ++ [checksum mem.healthData])

theorem flushAll_flushed (eeprom : Bytes PW_EEPROM_SIZE) (mem : MemoryBus ι) :
    ∃ bytes, flushAll ioRead [0x156, 0x256] eeprom mem = some (bytes, mem) ∧
      Flushed mem eeprom bytes := by
  have hlength : (mem.healthData ++ [checksum mem.healthData]).length = 25 := by
    rw [List.length_append, mem.length_healthData]
    rfl
  obtain ⟨first, hfirst, hrest⟩ : ∃ first, _ ∧ flushAll ioRead [0x156, 0x256] eeprom mem = _ :=
    flushAll_cons (by decide) [0x256] eeprom mem
  obtain ⟨bytes, hbytes, hnone⟩ : ∃ bytes, _ ∧ flushAll ioRead [0x256] first mem = _ :=
    flushAll_cons (by decide) [] first mem
  refine ⟨bytes, hrest.trans hnone, ?_, ?_⟩
  · intro j hone htwo
    rw [Bytes.get?_setAll?_outside hbytes (by omega), Bytes.get?_setAll?_outside hfirst (by omega)]
  · rintro base hbase
    have hcopy := Bytes.getAll?_setAll? hfirst
    have hlast := Bytes.getAll?_setAll? hbytes
    rw [hlength] at hcopy hlast
    rcases List.mem_cons.mp hbase with rfl | hbase
    · rw [← hcopy]
      refine Bytes.getAll?_congr fun j hj hjk => ?_
      exact Bytes.get?_setAll?_outside hbytes (by omega)
    · cases List.mem_singleton.mp hbase
      exact hlast

theorem flushAll_self {bytes : Bytes PW_EEPROM_SIZE} {mem : MemoryBus ι}
    (h : Flushed mem eeprom bytes) :
    flushAll ioRead [0x156, 0x256] bytes mem = some (bytes, mem) := by
  have hlength : (mem.healthData ++ [checksum mem.healthData]).length = 25 := by
    rw [List.length_append, mem.length_healthData]
    rfl
  have hself (base : Nat) (hbase : base ∈ [0x156, 0x256]) :
      bytes.setAll? base (mem.healthData ++ [checksum mem.healthData]) = some bytes :=
    Bytes.setAll?_getAll? (by rw [hlength, h.blocks base hbase])
  obtain ⟨first, hfirst, hrest⟩ : ∃ first, _ ∧ flushAll ioRead [0x156, 0x256] bytes mem = _ :=
    flushAll_cons (by decide) [0x256] bytes mem
  cases (hself 0x156 (by decide)).symm.trans hfirst
  obtain ⟨last, hlast, hnone⟩ : ∃ last, _ ∧ flushAll ioRead [0x256] bytes mem = _ :=
    flushAll_cons (by decide) [] bytes mem
  cases (hself 0x256 (by decide)).symm.trans hlast
  exact hrest.trans hnone

-- ---------------------------------------------------------------------------
-- Snapshots
-- ---------------------------------------------------------------------------

theorem pw_eeprom_of_flush {pw : Emulator ι ρ τ} {bytes : Bytes PW_EEPROM_SIZE} (h : pw.Commits)
    (hflush : flushAll ioRead [0x156, 0x256] pw.eeprom pw.soc.memory =
      some (bytes, pw.soc.memory)) : pw.pw_eeprom ioRead = some (pw, bytes) := by
  refine (if_pos h).trans ?_
  rw [hflush]
  rfl

theorem pw_eeprom_of_commits {pw : Emulator ι ρ τ} (h : pw.Commits) :
    ∃ bytes, pw.pw_eeprom ioRead = some (pw, bytes) ∧
      Flushed pw.soc.memory pw.eeprom bytes := by
  obtain ⟨bytes, hflush, hflushed⟩ :
      ∃ bytes, flushAll ioRead [0x156, 0x256] pw.eeprom pw.soc.memory = _ ∧ _ :=
    flushAll_flushed pw.eeprom pw.soc.memory
  exact ⟨bytes, pw_eeprom_of_flush h hflush, hflushed⟩

theorem pw_eeprom_of_not_commits {pw : Emulator ι ρ τ} (h : ¬ pw.Commits) :
    pw.pw_eeprom ioRead = some (pw, pw.eeprom) := if_neg h

/-- In any state of the emulator, a snapshot changes nothing in it; outside the
two places it is the EEPROM, and in them, if it is to hold the cache, the 24
bytes read from the RAM with their checksum, and the EEPROM otherwise; and a
snapshot of an emulator that has it as EEPROM, with the same cache, is the
same. -/
theorem pw_eeprom_snapshot (ioRead : BitVec 16 → ι → Byte × ι) (pw : Emulator ι ρ τ) :
    (∀ i (h : i < pw.soc.memory.healthData.length),
      pw.soc.memory.Read8 ioRead (BitVec.ofNat 16 (0xf780 + i)) =
        some (pw.soc.memory.healthData[i], pw.soc.memory)) ∧
    ∃ bytes, pw.pw_eeprom ioRead = some (pw, bytes) ∧
      (pw.Commits → Flushed pw.soc.memory pw.eeprom bytes) ∧
      (¬ pw.Commits → bytes = pw.eeprom) ∧
      ∀ next : Emulator ι ρ τ, next.eeprom = bytes →
        next.soc.memory.healthData = pw.soc.memory.healthData → (next.Commits → pw.Commits) →
        next.pw_eeprom ioRead = some (next, bytes) := by
  refine ⟨fun i h => MemoryBus.read_healthData _ h, ?_⟩
  by_cases hcommits : pw.Commits
  case neg =>
    refine ⟨pw.eeprom, pw_eeprom_of_not_commits hcommits, fun h => absurd h hcommits,
      fun _ => rfl, ?_⟩
    intro next heeprom _ hnext
    rw [pw_eeprom_of_not_commits fun h => hcommits (hnext h), heeprom]
  obtain ⟨bytes, hsnapshot, hflushed⟩ :
      ∃ bytes, pw.pw_eeprom ioRead = _ ∧ Flushed pw.soc.memory pw.eeprom bytes :=
    pw_eeprom_of_commits hcommits
  refine ⟨bytes, hsnapshot, fun _ => hflushed, fun h => absurd hcommits h, ?_⟩
  rintro next rfl hcache -
  by_cases hnext : next.Commits
  case neg => exact pw_eeprom_of_not_commits hnext
  have hsame : Flushed next.soc.memory pw.eeprom next.eeprom := by
    refine ⟨hflushed.outside, ?_⟩
    rw [hcache]
    exact hflushed.blocks
  exact pw_eeprom_of_flush hnext (flushAll_self hsame)

end PokeStroller
