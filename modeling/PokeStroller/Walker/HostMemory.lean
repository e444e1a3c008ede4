import PokeStroller.Lib.Wrapping
import PokeStroller.Lib.HostInt
import PokeStroller.Walker.Memory

/-!
# The memory bus on the host

`setMemory*` and `getMemory*` on an array of 64 KiB, with addresses in
`uint32_t` and what is shorter than `int` promoted to it.
-/

namespace PokeStroller

/-- `memory`, with the indices used so far. -/
structure HostMemory where
  bytes : Bytes MEM_SIZE
  used : List Nat := []

namespace HostMemory

-- ---------------------------------------------------------------------------
-- The bus
-- ---------------------------------------------------------------------------

def put (m : HostMemory) (index : BitVec 32) (value : Byte) : Option HostMemory :=
  (m.bytes.set? index.toNat value).map fun bytes =>
    { bytes := bytes, used := m.used ++ [index.toNat] }

def get (m : HostMemory) (index : BitVec 32) : Option (Byte × HostMemory) :=
  (m.bytes.get? index.toNat).map fun value => (value, { m with used := m.used ++ [index.toNat] })

def setMemory8 (m : HostMemory) (address : BitVec 32) (value : Byte) : Option HostMemory := do
  let address := address &&& 0x0000ffff
  m.put address value

/-- `value` is promoted, and is not negative. -/
def setMemory16 (m : HostMemory) (address : BitVec 32) (value : BitVec 16) :
    Option HostMemory := do
  let address := address &&& 0x0000ffff
  let value : BitVec 32 := value.setWidth 32
  let m ← m.put address ((value.sshiftRight 8).setWidth 8)
  m.put ((address + 1) &&& 0xffff) ((value &&& 0xFF).setWidth 8)

def setMemory32 (m : HostMemory) (address : BitVec 32) (value : BitVec 32) :
    Option HostMemory := do
  let address := address &&& 0x0000ffff
  let m ← m.put address ((value >>> 24).setWidth 8)
  let m ← m.put ((address + 1) &&& 0xffff) (((value >>> 16) &&& 0xFF).setWidth 8)
  let m ← m.put ((address + 2) &&& 0xffff) (((value >>> 8) &&& 0xFF).setWidth 8)
  m.put ((address + 3) &&& 0xffff) ((value &&& 0xFF).setWidth 8)

def getMemory8 (m : HostMemory) (address : BitVec 32) : Option (BitVec 16 × HostMemory) := do
  let address := address &&& 0x0000ffff
  let (value, m) ← m.get address
  return (value.setWidth 16, m)

/-- The shift is in `int`. -/
def getMemory16 (m : HostMemory) (address : BitVec 32) : Option (BitVec 16 × HostMemory) := do
  let address := address &&& 0x0000ffff
  let (high, m) ← m.get address
  let (low, m) ← m.get ((address + 1) &&& 0xffff)
  let high ← HostInt.shl (high.setWidth 32) 8
  return ((high ||| low.setWidth 32).setWidth 16, m)

/-- The shifts are in `uint32_t`. -/
def getMemory32 (m : HostMemory) (address : BitVec 32) : Option (BitVec 32 × HostMemory) := do
  let address := address &&& 0x0000ffff
  let (b₀, m) ← m.get address
  let (b₁, m) ← m.get ((address + 1) &&& 0xffff)
  let (b₂, m) ← m.get ((address + 2) &&& 0xffff)
  let (b₃, m) ← m.get ((address + 3) &&& 0xffff)
  return (b₀.setWidth 32 <<< 24 ||| b₁.setWidth 32 <<< 16 ||| b₂.setWidth 32 <<< 8 |||
    b₃.setWidth 32, m)

-- ---------------------------------------------------------------------------
-- The memory of the model
-- ---------------------------------------------------------------------------

def memory (m : HostMemory) : Memory := fun a => m.bytes a.toFin

def putAll (m : HostMemory) (ws : List (BitVec 16 × Byte)) : HostMemory :=
  ws.foldl (fun m w =>
    { bytes := Function.update m.bytes w.1.toFin w.2, used := m.used ++ [w.1.toNat] }) m

theorem memory_putAll (m : HostMemory) (ws : List (BitVec 16 × Byte)) :
    (m.putAll ws).memory = store m.memory ws := by
  induction ws generalizing m with
  | nil => rfl
  | cons w ws ih =>
    refine (ih _).trans (congrArg (store · ws) (funext fun a => ?_))
    change Function.update m.bytes w.1.toFin w.2 a.toFin = Function.update m.memory w.1 w.2 a
    by_cases ha : a = w.1
    · rw [ha, Function.update_self, Function.update_self]
    · have hfin : a.toFin ≠ w.1.toFin := fun h => ha (BitVec.toFin_inj.mp h)
      rw [Function.update_of_ne hfin, Function.update_of_ne ha]
      rfl

theorem used_putAll (m : HostMemory) (ws : List (BitVec 16 × Byte)) :
    (m.putAll ws).used = m.used ++ ws.map (·.1.toNat) := by
  induction ws generalizing m with
  | nil => exact (List.append_nil _).symm
  | cons w ws ih =>
    refine (ih _).trans ?_
    rw [List.map_cons, List.append_cons]

theorem masked_toNat (x : BitVec 32) : (x &&& 0xffff).toNat = (x.setWidth 16).toNat := by
  rw [BitVec.toNat_and, BitVec.toNat_setWidth]
  exact Nat.and_two_pow_sub_one_eq_mod _ 16

theorem put_masked (m : HostMemory) (x : BitVec 32) (value : Byte) :
    m.put (x &&& 0xffff) value = some (m.putAll [(x.setWidth 16, value)]) := by
  unfold put
  rw [masked_toNat, Bytes.set?_of_lt _ (x.setWidth 16).isLt, Option.map_some]
  rfl

theorem get_masked (m : HostMemory) (x : BitVec 32) :
    m.get (x &&& 0xffff) = some (m.memory (x.setWidth 16),
      { m with used := m.used ++ [(x.setWidth 16).toNat] }) := by
  unfold get
  rw [masked_toNat, Bytes.get?_of_lt _ (x.setWidth 16).isLt, Option.map_some]
  rfl

theorem offset_masked (address i : BitVec 32) :
    ((address &&& 0x0000ffff) + i).setWidth 16 = maskAddress address + i.setWidth 16 := by
  have hmask : (address &&& 0x0000ffff).setWidth 16 = address.setWidth 16 := by
    rw [← BitVec.toNat_inj, BitVec.toNat_setWidth, masked_toNat]
    exact Nat.mod_eq_of_lt (address.setWidth 16).isLt
  rw [BitVec.setWidth_add _ _ (by decide), hmask]
  rfl

theorem putAll_append (m : HostMemory) (ws vs : List (BitVec 16 × Byte)) :
    (m.putAll ws).putAll vs = m.putAll (ws ++ vs) := List.foldl_append.symm

-- ---------------------------------------------------------------------------
-- The stores
-- ---------------------------------------------------------------------------

theorem masked_byte (v : BitVec 32) : (v &&& 0xFF).setWidth 8 = v.setWidth 8 := by
  rw [BitVec.setWidth_and]
  exact BitVec.and_allOnes

theorem setMemory8_eq (m : HostMemory) (address : BitVec 32) (value : Byte) :
    m.setMemory8 address value =
      some (m.putAll (block (maskAddress address) (bigEndian 1 value))) := by
  rw [bigEndian_one, block_cons, BitVec.setWidth_eq]
  exact m.put_masked address value

theorem setMemory16_eq (m : HostMemory) (address : BitVec 32) (value : BitVec 16) :
    m.setMemory16 address value =
      some (m.putAll (block (maskAddress address) (bigEndian 2 value))) := by
  have hhigh : ((value.setWidth 32).sshiftRight 8).setWidth 8 = (value >>> 8).setWidth 8 := by
    rw [BitVec.sshiftRight_eq_of_msb_false (by simp [BitVec.msb_setWidth])]
    refine BitVec.eq_of_getLsbD_eq fun i hi => ?_
    simp [hi]
    omega
  have hlow : (value.setWidth 32 &&& 0xFF).setWidth 8 = value.setWidth 8 := by
    rw [masked_byte, BitVec.setWidth_setWidth_of_le _ (by decide)]
  unfold setMemory16
  simp only [put_masked, offset_masked, hhigh, hlow, Option.bind_eq_bind, Option.bind_some,
    putAll_append]
  rw [bigEndian_succ, bigEndian_one, block_cons]
  rfl

theorem setMemory32_eq (m : HostMemory) (address : BitVec 32) (value : BitVec 32) :
    m.setMemory32 address value =
      some (m.putAll (block (maskAddress address) (bigEndian 4 value))) := by
  unfold setMemory32
  simp only [put_masked, offset_masked, masked_byte, Option.bind_eq_bind, Option.bind_some,
    putAll_append]
  rw [bigEndian_succ, bigEndian_succ, bigEndian_succ, bigEndian_one, block_cons]
  rfl

-- ---------------------------------------------------------------------------
-- The loads
-- ---------------------------------------------------------------------------

def places (address : BitVec 32) (k : Nat) : List Nat :=
  (List.range k).map fun i => (address.toNat + i) % MEM_SIZE

theorem toNat_place (address : BitVec 32) (i : Nat) :
    (maskAddress address + BitVec.ofNat 16 i).toNat = (address.toNat + i) % MEM_SIZE := by
  rw [maskAddress, BitVec.toNat_add, BitVec.toNat_setWidth, BitVec.toNat_ofNat]
  exact (Nat.add_mod _ _ _).symm

theorem places_eq (address : BitVec 32) (k : Nat) : places address k =
    (List.range k).map fun i => (maskAddress address + BitVec.ofNat 16 i).toNat := by
  simp only [places, toNat_place]

theorem shl_byte (high low : Byte) : HostInt.shl (high.setWidth 32) 8 =
      some (high.setWidth 32 <<< 8) ∧
    ((high.setWidth 32 <<< 8 ||| low.setWidth 32).setWidth 16 : BitVec 16) = high ++ low := by
  constructor
  · refine HostInt.shl_of_fits ?_
    have hlt := high.isLt
    have hint : (high.setWidth 32).toInt = high.toNat := by
      rw [BitVec.toInt_eq_toNat_of_lt, BitVec.toNat_setWidth_of_le (by decide)]
      rw [BitVec.toNat_setWidth_of_le (by decide)]
      omega
    rw [hint]
    constructor <;> omega
  · refine BitVec.eq_of_getLsbD_eq fun i hi => ?_
    simp only [BitVec.getLsbD_setWidth, BitVec.getLsbD_or, BitVec.getLsbD_shiftLeft,
      BitVec.getLsbD_append]
    grind

theorem shl_bytes (a b c d : Byte) :
    a.setWidth 32 <<< 24 ||| b.setWidth 32 <<< 16 ||| c.setWidth 32 <<< 8 ||| d.setWidth 32 =
      a ++ b ++ c ++ d := by
  refine BitVec.eq_of_getLsbD_eq fun i hi => ?_
  simp only [BitVec.getLsbD_setWidth, BitVec.getLsbD_or, BitVec.getLsbD_shiftLeft,
    BitVec.getLsbD_append]
  grind

theorem getMemory8_eq (m : HostMemory) (address : BitVec 32) :
    m.getMemory8 address = some ((PokeStroller.getMemory8 m.memory address).setWidth 16,
      { m with used := m.used ++ places address 1 }) := by
  unfold getMemory8
  simp only [get_masked, Option.bind_eq_bind, Option.bind_some]
  simp [places_eq, maskAddress, PokeStroller.getMemory8]

theorem getMemory16_eq (m : HostMemory) (address : BitVec 32) :
    m.getMemory16 address = some (PokeStroller.getMemory16 m.memory address,
      { m with used := m.used ++ places address 2 }) := by
  have hused : m.used ++ [(address.setWidth 16).toNat] ++ [(maskAddress address + 1).toNat] =
      m.used ++ places address 2 := by
    simp [places_eq, List.range_succ, maskAddress]
  unfold getMemory16
  simp only [get_masked, offset_masked, Option.bind_eq_bind, Option.bind_some, (shl_byte _ 0).1,
    (shl_byte _ _).2]
  exact congrArg (fun used => some (_, { m with used := used })) hused

theorem getMemory32_eq (m : HostMemory) (address : BitVec 32) :
    m.getMemory32 address = some (PokeStroller.getMemory32 m.memory address,
      { m with used := m.used ++ places address 4 }) := by
  have hused : m.used ++ [(address.setWidth 16).toNat] ++ [(maskAddress address + 1).toNat] ++
      [(maskAddress address + 2).toNat] ++ [(maskAddress address + 3).toNat] =
        m.used ++ places address 4 := by
    simp [places_eq, List.range_succ, maskAddress]
  unfold getMemory32
  simp only [get_masked, offset_masked, Option.bind_eq_bind, Option.bind_some, shl_bytes]
  exact congrArg (fun used => some (_, { m with used := used })) hused

-- ---------------------------------------------------------------------------
-- The model of the bus
-- ---------------------------------------------------------------------------

theorem setMemory8_store (m : Memory) (address : BitVec 32) (value : Byte) :
    PokeStroller.setMemory8 m address value =
      store m (block (maskAddress address) (bigEndian 1 value)) := by
  rw [bigEndian_one, block_cons, BitVec.setWidth_eq]
  rfl

theorem setMemory16_store (m : Memory) (address : BitVec 32) (value : BitVec 16) :
    PokeStroller.setMemory16 m address value =
      store m (block (maskAddress address) (bigEndian 2 value)) := by
  rw [bigEndian_succ, bigEndian_one, block_cons]
  rfl

theorem setMemory32_store (m : Memory) (address : BitVec 32) (value : BitVec 32) :
    PokeStroller.setMemory32 m address value =
      store m (block (maskAddress address) (bigEndian 4 value)) := by
  rw [bigEndian_succ, bigEndian_succ, bigEndian_succ, bigEndian_one, block_cons]
  rfl

theorem load_one (m : Memory) (a : BitVec 16) : load m a 1 = [m a] := by simp [load]

theorem getMemory8_load (m : Memory) (address : BitVec 32) :
    bigEndian 1 (PokeStroller.getMemory8 m address) = load m (maskAddress address) 1 := by
  rw [bigEndian_one, load_one, BitVec.setWidth_eq]
  rfl

theorem getMemory16_load (m : Memory) (address : BitVec 32) :
    bigEndian 2 (PokeStroller.getMemory16 m address) = load m (maskAddress address) 2 := by
  refine (bigEndian_append (k := 1) (l := 1) _ rfl).trans ?_
  simp [bigEndian_one, load, List.range_succ]

theorem getMemory32_load (m : Memory) (address : BitVec 32) :
    bigEndian 4 (PokeStroller.getMemory32 m address) = load m (maskAddress address) 4 := by
  refine (bigEndian_append (k := 3) (l := 1) _ rfl).trans ?_
  have hthree : bigEndian 3 (m (maskAddress address) ++ m (maskAddress address + 1) ++
      m (maskAddress address + 2)) = _ ++ _ := bigEndian_append (k := 2) (l := 1) _ rfl
  have htwo : bigEndian 2 (m (maskAddress address) ++ m (maskAddress address + 1)) = _ ++ _ :=
    bigEndian_append (k := 1) (l := 1) _ rfl
  rw [hthree, htwo]
  simp [bigEndian_one, load, List.range_succ]

-- ---------------------------------------------------------------------------
-- The laws
-- ---------------------------------------------------------------------------

def setMemory (m : HostMemory) :
    (sz : Size) → BitVec 32 → BitVec sz.numberOfBits → Option HostMemory
  | .b, address, value => m.setMemory8 address value
  | .w, address, value => m.setMemory16 address value
  | .l, address, value => m.setMemory32 address value

def getMemory (m : HostMemory) : Size → BitVec 32 → Option (BitVec 32 × HostMemory)
  | .b, address => (m.getMemory8 address).map fun (value, m) => (value.setWidth 32, m)
  | .w, address => (m.getMemory16 address).map fun (value, m) => (value.setWidth 32, m)
  | .l, address => m.getMemory32 address

/-- The `k` bytes of `v` are at `address` and behind it, the highest first, and
nothing else is written. -/
structure Stored (m t : HostMemory) (address : BitVec 32) (k : Nat) (v : BitVec w) : Prop where
  used : t.used = m.used ++ places address k
  byte : ∀ i < k, t.bytes.get? ((address.toNat + i) % MEM_SIZE) =
    some ((v >>> (8 * (k - 1 - i))).setWidth 8)
  elsewhere : ∀ j, j ∉ places address k → t.bytes.get? j = m.bytes.get? j

/-- `v` is the `k` bytes at `address`, and nothing is written. -/
structure Loaded (m t : HostMemory) (address : BitVec 32) (k : Nat) (v : BitVec 32) : Prop where
  used : t.used = m.used ++ places address k
  bytes : t.bytes = m.bytes
  byte : ∀ i < k, m.bytes.get? ((address.toNat + i) % MEM_SIZE) =
    some ((v >>> (8 * (k - 1 - i))).setWidth 8)
  bound : v.toNat < 2 ^ (8 * k)

theorem setMemory_eq (m : HostMemory) (sz : Size) (address : BitVec 32)
    (value : BitVec sz.numberOfBits) : m.setMemory sz address value =
      some (m.putAll (block (maskAddress address) (bigEndian (sz.numberOfBits / 8) value))) := by
  cases sz with
  | b => exact m.setMemory8_eq address value
  | w => exact m.setMemory16_eq address value
  | l => exact m.setMemory32_eq address value

theorem getMemory_eq (m : HostMemory) (sz : Size) (address : BitVec 32) :
    ∃ v : BitVec sz.numberOfBits, m.getMemory sz address = some (v.setWidth 32,
        { m with used := m.used ++ places address (sz.numberOfBits / 8) }) ∧
      bigEndian (sz.numberOfBits / 8) v =
        load m.memory (maskAddress address) (sz.numberOfBits / 8) := by
  cases sz with
  | b =>
    refine ⟨PokeStroller.getMemory8 m.memory address, ?_, getMemory8_load _ _⟩
    have hwide : ((PokeStroller.getMemory8 m.memory address).setWidth 16).setWidth 32 =
        (PokeStroller.getMemory8 m.memory address).setWidth 32 := by
      rw [← BitVec.toNat_inj, BitVec.toNat_setWidth_of_le (by decide),
        BitVec.toNat_setWidth_of_le (by decide), BitVec.toNat_setWidth_of_le (by decide)]
    rw [getMemory, getMemory8_eq, Option.map_some]
    exact congrArg (fun v => some (v, _)) hwide
  | w =>
    refine ⟨PokeStroller.getMemory16 m.memory address, ?_, getMemory16_load _ _⟩
    rw [getMemory, getMemory16_eq, Option.map_some]
    rfl
  | l =>
    refine ⟨PokeStroller.getMemory32 m.memory address, ?_, getMemory32_load _ _⟩
    have hwide : PokeStroller.getMemory32 m.memory address =
        (PokeStroller.getMemory32 m.memory address).setWidth 32 := (BitVec.setWidth_eq _).symm
    rw [getMemory, getMemory32_eq]
    exact congrArg (fun v => some (v, _)) hwide

theorem get?_toNat (m : HostMemory) (a : BitVec 16) :
    m.bytes.get? a.toNat = some (m.memory a) := Bytes.get?_of_lt _ a.isLt

theorem get?_place (m : HostMemory) (address : BitVec 32) (i : Nat) :
    m.bytes.get? ((address.toNat + i) % MEM_SIZE) =
      some (m.memory (maskAddress address + BitVec.ofNat 16 i)) := by
  rw [← toNat_place, get?_toNat]

theorem putAll_stored (m : HostMemory) (address : BitVec 32) {k : Nat} (hk : k ≤ 2 ^ 16)
    (v : BitVec w) :
    m.Stored (m.putAll (block (maskAddress address) (bigEndian k v))) address k v where
  used := by
    have hfst := congrArg (·.map BitVec.toNat) (map_fst_block (maskAddress address) (bigEndian k v))
    rw [length_bigEndian, List.map_map, List.map_map] at hfst
    rw [used_putAll, places_eq]
    exact congrArg _ hfst
  byte i hi := by
    rw [get?_place, memory_putAll, Option.some.injEq]
    exact store_block_inside _ _ (by rwa [length_bigEndian]) (getElem?_bigEndian hi v)
  elsewhere j hj := by
    rcases Nat.lt_or_ge j MEM_SIZE with hlt | hge
    · obtain ⟨a, rfl⟩ : ∃ a : BitVec 16, a.toNat = j :=
        ⟨BitVec.ofNat 16 j, (BitVec.toNat_ofNat _ _).trans (Nat.mod_eq_of_lt hlt)⟩
      rw [get?_toNat, get?_toNat, memory_putAll, store_block_outside]
      intro i hi hplace
      rw [places_eq, hplace] at hj
      exact hj (List.mem_map.mpr ⟨i, by simpa using hi, rfl⟩)
    · rw [Bytes.get?_of_le _ hge, Bytes.get?_of_le _ hge]

theorem loaded_of_load (m : HostMemory) (address : BitVec 32) {k : Nat} {v : BitVec w}
    (hw : w = 8 * k) (hv : w ≤ 32)
    (h : bigEndian k v = load m.memory (maskAddress address) k) :
    m.Loaded { m with used := m.used ++ places address k } address k (v.setWidth 32) where
  used := rfl
  bytes := rfl
  byte i hi := by
    have hbyte := congrArg (·[i]?) h
    rw [getElem?_bigEndian hi, load, List.getElem?_map, List.getElem?_range hi,
      Option.map_some] at hbyte
    rw [get?_place, ← hbyte, Option.some.injEq]
    refine BitVec.eq_of_getLsbD_eq fun j hj => ?_
    have hlow : 8 * (k - 1 - i) + j < 32 := by omega
    simp [hlow]
  bound := by
    rw [BitVec.toNat_setWidth_of_le hv, ← hw]
    exact v.isLt

theorem bytes_inj {t u : HostMemory} (h : t.memory = u.memory) : t.bytes = u.bytes :=
  funext fun p => congrFun h (BitVec.ofFin p)

theorem length_word (sz : Size) :
    sz.numberOfBits = 8 * (sz.numberOfBits / 8) ∧ sz.numberOfBits / 8 ≤ 2 ^ 16 ∧
      sz.numberOfBits ≤ 32 := by
  cases sz <;> decide

theorem getMemory_putAll (m : HostMemory) (sz : Size) (address : BitVec 32)
    (value : BitVec sz.numberOfBits) :
    ∃ u, (m.putAll (block (maskAddress address)
      (bigEndian (sz.numberOfBits / 8) value))).getMemory sz address =
        some (value.setWidth 32, u) := by
  obtain ⟨hbits, hlen, -⟩ := length_word sz
  obtain ⟨v, hv, hload⟩ := getMemory_eq (m.putAll _) sz address
  have hsame : v = value := by
    have hstored := load_store m.memory (maskAddress address)
      (bigEndian (sz.numberOfBits / 8) value) (by rwa [length_bigEndian])
    rw [length_bigEndian, ← memory_putAll] at hstored
    exact bigEndian_inj hbits.le (hload.trans hstored)
  exact ⟨_, hsame ▸ hv⟩

theorem maskAddress_add (address : BitVec 32) :
    maskAddress (address + 2) = maskAddress address + BitVec.ofNat 16 2 := by
  rw [maskAddress, BitVec.setWidth_add _ _ (by decide)]
  rfl

theorem getMemory32_append (m : Memory) (address : BitVec 32) :
    PokeStroller.getMemory32 m address =
      PokeStroller.getMemory16 m address ++ PokeStroller.getMemory16 m (address + 2) := by
  refine bigEndian_inj (k := 4) (by decide) ?_
  have happend : bigEndian 4 (PokeStroller.getMemory16 m address ++
      PokeStroller.getMemory16 m (address + 2)) = _ ++ _ := bigEndian_append (k := 2) (l := 2) _ rfl
  rw [getMemory32_load, happend, getMemory16_load, getMemory16_load, maskAddress_add]
  exact load_append m (maskAddress address) 2 2

theorem places_append (address : BitVec 32) (k l : Nat) :
    places address (k + l) = places address k ++ places (address + BitVec.ofNat 32 k) l := by
  unfold places
  rw [List.range_add, List.map_append, List.map_map]
  refine congrArg _ (List.map_congr_left fun i _ => ?_)
  rw [Function.comp_apply, BitVec.toNat_add, BitVec.toNat_ofNat]
  unfold MEM_SIZE
  omega

theorem setMemory_comm (m : HostMemory) {sz sz' : Size} {address address' : BitVec 32}
    (value : BitVec sz.numberOfBits) (value' : BitVec sz'.numberOfBits)
    (h : (places address (sz.numberOfBits / 8)).Disjoint (places address' (sz'.numberOfBits / 8))) :
    ((m.setMemory sz address value).bind (·.setMemory sz' address' value')).map (·.bytes) =
      ((m.setMemory sz' address' value').bind (·.setMemory sz address value)).map (·.bytes) := by
  have hcomm := store_block_comm m.memory (a := maskAddress address) (b := maskAddress address')
    (bigEndian (sz.numberOfBits / 8) value) (bigEndian (sz'.numberOfBits / 8) value')
    fun i hi j hj hplace => ?_
  · simp only [setMemory_eq, Option.bind_some, Option.map_some, Option.some.injEq]
    refine bytes_inj ?_
    rw [memory_putAll, memory_putAll, memory_putAll, memory_putAll, hcomm]
  · rw [length_bigEndian] at hi hj
    rw [places_eq, places_eq] at h
    refine h (List.mem_map.mpr ⟨i, by simpa using hi, rfl⟩) ?_
    rw [hplace]
    exact List.mem_map.mpr ⟨j, by simpa using hj, rfl⟩

/-- The laws of the bus: each access uses the bytes at its address and behind it,
modulo 64 KiB, and no others; a load returns what was stored; words are
big-endian; and stores that do not meet commute. -/
theorem memory_bus (m : HostMemory) (sz : Size) (address : BitVec 32)
    (value : BitVec sz.numberOfBits) :
    (∃ t, m.setMemory sz address value = some t ∧
      m.Stored t address (sz.numberOfBits / 8) value ∧
      ∃ u, t.getMemory sz address = some (value.setWidth 32, u)) ∧
    (∃ v t, m.getMemory sz address = some (v, t) ∧
      m.Loaded t address (sz.numberOfBits / 8) v) ∧
    (∃ high low t u, m.getMemory16 address = some (high, t) ∧
      t.getMemory16 (address + 2) = some (low, u) ∧
      m.getMemory32 address = some (high ++ low, u)) ∧
    ∀ (sz' : Size) (address' : BitVec 32) (value' : BitVec sz'.numberOfBits),
      (places address (sz.numberOfBits / 8)).Disjoint (places address' (sz'.numberOfBits / 8)) →
      ((m.setMemory sz address value).bind (·.setMemory sz' address' value')).map (·.bytes) =
        ((m.setMemory sz' address' value').bind (·.setMemory sz address value)).map (·.bytes) := by
  obtain ⟨hbits, hlen, hwide⟩ := length_word sz
  obtain ⟨v, hv, hload⟩ := m.getMemory_eq sz address
  refine ⟨⟨_, m.setMemory_eq sz address value, m.putAll_stored address hlen value,
    m.getMemory_putAll sz address value⟩, ⟨_, _, hv, m.loaded_of_load address hbits hwide hload⟩,
    ?_, fun _ _ value' => m.setMemory_comm value value'⟩
  refine ⟨_, _, _, _, m.getMemory16_eq address, getMemory16_eq _ (address + 2), ?_⟩
  have hused :
      m.used ++ places address 2 ++ places (address + 2) 2 = m.used ++ places address 4 := by
    rw [List.append_assoc]
    exact congrArg _ (places_append address 2 2).symm
  rw [getMemory32_eq, getMemory32_append, ← hused]
  rfl

end HostMemory

end PokeStroller
