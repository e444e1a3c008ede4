import PokeStroller.Lib.Writes
import PokeStroller.Walker.Sequential

/-!
# Writing a page

A WRITE stays in the 128-byte page of its address if the page counter is part
of the address. The emulator counts the offset from the address in a page of
its own, so a transaction that passes the end of the page goes on behind it.
-/

namespace PokeStroller

-- ---------------------------------------------------------------------------
-- Places of data bytes
-- ---------------------------------------------------------------------------

def placed (place : Nat → Nat) (k : Nat) : List Byte → List (Fin WALKER_EEPROM_SIZE × Byte)
  | [] => []
  | byte :: bytes => (Fin.ofNat WALKER_EEPROM_SIZE (place k), byte) :: placed place (k + 1) bytes

theorem mem_placed {place : Nat → Nat} {bytes : List Byte}
    (h : w ∈ placed place k bytes) :
    ∃ i < bytes.length, w.1 = Fin.ofNat WALKER_EEPROM_SIZE (place (k + i)) ∧ w.2 ∈ bytes := by
  induction bytes generalizing k with
  | nil => cases h
  | cons byte bytes ih =>
    rcases List.mem_cons.mp h with rfl | h
    · exact ⟨0, Nat.zero_lt_succ _, rfl, List.mem_cons_self⟩
    · obtain ⟨i, hi, hplace, hbyte⟩ := ih h
      refine ⟨i + 1, Nat.succ_lt_succ hi, ?_, List.mem_cons_of_mem _ hbyte⟩
      rw [hplace, Nat.add_right_comm, Nat.add_assoc]

theorem placed_mem (place : Nat → Nat) (k : Nat) {bytes : List Byte} (hi : i < bytes.length) :
    (Fin.ofNat WALKER_EEPROM_SIZE (place (k + i)), bytes[i]) ∈ placed place k bytes := by
  induction bytes generalizing k i with
  | nil => cases hi
  | cons byte bytes ih =>
    cases i with
    | zero => exact List.mem_cons_self
    | succ i =>
      have hrest := ih (k + 1) (Nat.lt_of_succ_lt_succ hi)
      rw [Nat.add_right_comm, Nat.add_assoc] at hrest
      exact List.mem_cons_of_mem _ hrest

theorem placed_congr {place place' : Nat → Nat} {bytes : List Byte}
    (h : ∀ i < bytes.length, place (k + i) = place' (k + i)) :
    placed place k bytes = placed place' k bytes := by
  induction bytes generalizing k with
  | nil => rfl
  | cons byte bytes ih =>
    have hfirst : place k = place' k := h 0 (Nat.zero_lt_succ _)
    have hrest := ih (k := k + 1) fun i hi => by
      have hi' := h (i + 1) (Nat.succ_lt_succ hi)
      rwa [Nat.add_right_comm k 1 i]
    rw [placed, placed, hfirst, hrest]

/-- The place of the i-th data byte in the page of `a`, and that of the code. -/
def pagePlace (a : BitVec 16) (i : Nat) : Nat :=
  a.toNat / EEPROM_PAGE_SIZE * EEPROM_PAGE_SIZE +
    (a.toNat % EEPROM_PAGE_SIZE + i) % EEPROM_PAGE_SIZE

def offsetPlace (a : BitVec 16) (i : Nat) : Nat := a.toNat + i % EEPROM_PAGE_SIZE

/-- The bytes sent in a WRITE at `a` are in its page, and nothing else
changed. -/
def Walker.PageWritten (s : Walker) (a : BitVec 16) (bytes : List Byte) : Prop :=
  ∃ replies t, s.transact .transmit a bytes = .ok (replies, t) ∧
    t.eeprom.memory = store s.eeprom.memory (placed (pagePlace a) 0 bytes) ∧
    ∀ j : Fin WALKER_EEPROM_SIZE, j.val / EEPROM_PAGE_SIZE ≠ a.toNat / EEPROM_PAGE_SIZE →
      t.eeprom.memory j = s.eeprom.memory j

-- ---------------------------------------------------------------------------
-- What a transaction stores
-- ---------------------------------------------------------------------------

theorem Eeprom.At.transfer_memory {e e' : Eeprom} (hat : e.At a (k % EEPROM_PAGE_SIZE))
    (hin : offsetPlace a k < WALKER_EEPROM_SIZE) (h : e.transfer .transmit byte = .ok e') :
    e'.memory =
      Function.update e.memory (Fin.ofNat WALKER_EEPROM_SIZE (offsetPlace a k)) byte := by
  rw [transfer_data_write hat.state, hat.index] at h
  change a.toNat + k % EEPROM_PAGE_SIZE < WALKER_EEPROM_SIZE at hin
  rw [e.memory.set?_of_lt hin] at h
  cases h
  have hplace : Fin.ofNat WALKER_EEPROM_SIZE (offsetPlace a k) =
      ⟨a.toNat + k % EEPROM_PAGE_SIZE, hin⟩ := Fin.ext (Nat.mod_eq_of_lt hin)
  rw [hplace]

namespace Walker

theorem exchange_write {s : Walker} (hs : Serving .transmit s)
    (hat : s.eeprom.At a (k % EEPROM_PAGE_SIZE)) (bytes replies : List Byte)
    (hin : ∀ i < bytes.length, offsetPlace a (k + i) < WALKER_EEPROM_SIZE) :
    ∃ more t, exchange bytes (replies, s) = .ok (more, t) ∧
      t.eeprom.memory = store s.eeprom.memory (placed (offsetPlace a) k bytes) := by
  induction bytes generalizing s k replies with
  | nil => exact ⟨replies, s, rfl, rfl⟩
  | cons byte bytes ih =>
    have hfirst : offsetPlace a k < WALKER_EEPROM_SIZE := hin 0 (Nat.zero_lt_succ _)
    have hdata : s.eeprom.At a (k % Eeprom.period .transmit) := hat
    rcases hdata.step byte with ⟨-, e, htransfer, hnext, -⟩ | ⟨hout, -⟩
    · have hmemory := hat.transfer_memory hfirst htransfer
      obtain ⟨u, hu, rfl, hserving, -⟩ := hs.send_ok htransfer
      obtain ⟨more, t, ht, hstore⟩ := ih hserving hnext (replies ++ [u.memory SSRDR])
        fun i hi => by
          have hi' := hin (i + 1) (Nat.succ_lt_succ hi)
          rwa [Nat.add_right_comm k 1 i]
      refine ⟨more, t, (exchange_cons_ok hu).trans ht, ?_⟩
      rw [hstore, hmemory]
      rfl
    · exact absurd hfirst (Nat.not_lt.mpr hout)

theorem transact_write {s : Walker} (hs : Serving .transmit s) (hc : s.eeprom.Clean)
    (a : BitVec 16) (bytes : List Byte)
    (hin : ∀ i < bytes.length, offsetPlace a i < WALKER_EEPROM_SIZE) :
    ∃ replies t, s.transact .transmit a bytes = .ok (replies, t) ∧
      t.eeprom.memory = store s.eeprom.memory (placed (offsetPlace a) 0 bytes) := by
  obtain ⟨e₁, e₂, e₃, hcommand, hhi, hlo, hat, hmemory⟩ := Eeprom.transfer_header hc .transmit a
  obtain ⟨t₁, hsend₁, rfl, hs₁, -⟩ := hs.send_ok hcommand
  obtain ⟨t₂, hsend₂, rfl, hs₂, -⟩ := hs₁.send_ok hhi
  obtain ⟨t₃, hsend₃, rfl, hs₃, -⟩ := hs₂.send_ok hlo
  obtain ⟨replies, t, ht, hstore⟩ := exchange_write hs₃ hat bytes
    [t₁.memory SSRDR, t₂.memory SSRDR, t₃.memory SSRDR] fun i hi => by
      rw [Nat.zero_add]
      exact hin i hi
  refine ⟨replies, t, ?_, hmemory ▸ hstore⟩
  exact (exchange_cons_ok hsend₁).trans ((exchange_cons_ok hsend₂).trans
    ((exchange_cons_ok hsend₃).trans ht))

-- ---------------------------------------------------------------------------
-- Where the two places agree
-- ---------------------------------------------------------------------------

def InPage (a : BitVec 16) (n : Nat) : Prop :=
  a.toNat % EEPROM_PAGE_SIZE + min n EEPROM_PAGE_SIZE ≤ EEPROM_PAGE_SIZE

instance : Decidable (InPage a n) := inferInstanceAs (Decidable (_ ≤ _))

theorem InPage.place (h : InPage a n) (hi : i < n) :
    offsetPlace a i = pagePlace a i ∧ offsetPlace a i < WALKER_EEPROM_SIZE ∧
      offsetPlace a i / EEPROM_PAGE_SIZE = a.toNat / EEPROM_PAGE_SIZE := by
  have ha := a.isLt
  simp only [InPage, offsetPlace, pagePlace, EEPROM_PAGE_SIZE, WALKER_EEPROM_SIZE] at h ⊢
  omega

theorem pageWritten_of_inPage {s : Walker} (hs : Serving .transmit s) (hc : s.eeprom.Clean)
    (h : InPage a bytes.length) : s.PageWritten a bytes := by
  obtain ⟨replies, t, ht, hstore⟩ := transact_write hs hc a bytes fun i hi => (h.place hi).2.1
  refine ⟨replies, t, ht, ?_, fun j hj => ?_⟩
  · rw [hstore]
    exact congrArg _ (placed_congr fun i hi => by rw [Nat.zero_add, (h.place hi).1])
  · rw [hstore]
    refine store_of_notMem _ fun w hw hplace => hj ?_
    obtain ⟨i, hi, hw, -⟩ := mem_placed hw
    obtain ⟨-, hlt, hpage⟩ := h.place hi
    rw [Nat.zero_add] at hw
    rw [← hplace, hw, Fin.val_ofNat, Nat.mod_eq_of_lt hlt, hpage]

/-- Ones sent to an EEPROM of zeros, past the end of the page. -/
theorem not_pageWritten (h : ¬ InPage a n) :
    ¬ (serving .transmit).PageWritten a (List.replicate n 1) := by
  rintro ⟨replies, t, ht, -, hother⟩
  have hc : (serving .transmit).eeprom.Clean := ⟨rfl, rfl⟩
  rcases transact_cases (serving_serving .transmit) hc a (List.replicate n 1) with
    ⟨hin, -⟩ | ⟨-, hfault⟩
  · obtain ⟨replies', t', ht', hstore⟩ :=
      transact_write (serving_serving .transmit) hc a (List.replicate n 1) hin
    cases ht.symm.trans ht'
    -- the first byte behind the page
    let i := EEPROM_PAGE_SIZE - a.toNat % EEPROM_PAGE_SIZE
    have hi : i < n ∧ offsetPlace a i / EEPROM_PAGE_SIZE ≠ a.toNat / EEPROM_PAGE_SIZE := by
      simp only [InPage, offsetPlace, EEPROM_PAGE_SIZE, i] at h ⊢
      omega
    have hlength : i < (List.replicate n (1 : Byte)).length := by
      rw [List.length_replicate]
      exact hi.1
    have hlt : offsetPlace a i < WALKER_EEPROM_SIZE := hin i hlength
    have hmem := placed_mem (offsetPlace a) 0 hlength
    rw [Nat.zero_add, List.getElem_replicate] at hmem
    have hone := store_of_mem (serving .transmit).eeprom.memory hmem fun w hw _ => by
      obtain ⟨-, -, -, hbyte⟩ := mem_placed hw
      exact List.eq_of_mem_replicate hbyte
    have hzero := hother (Fin.ofNat WALKER_EEPROM_SIZE (offsetPlace a i)) (by
      rw [Fin.val_ofNat, Nat.mod_eq_of_lt hlt]
      exact hi.2)
    rw [hstore, hone] at hzero
    have hdiffers : (1 : Byte) ≠ 0 := by decide
    exact hdiffers hzero
  · rw [hfault] at ht
    cases ht

/-- Every WRITE of this length at `a` stays in its page exactly if it does not
pass the end of the page. -/
theorem page_iff (a : BitVec 16) (n : Nat) :
    (∀ (s : Walker) (bytes : List Byte), Serving .transmit s → s.eeprom.Clean →
      bytes.length = n → s.PageWritten a bytes) ↔ InPage a n := by
  constructor
  · intro hall
    by_contra h
    exact not_pageWritten h
      (hall _ _ (serving_serving .transmit) ⟨rfl, rfl⟩ (List.length_replicate))
  · rintro h s bytes hs hc rfl
    exact pageWritten_of_inPage hs hc h

/-- The last two bytes of a page. -/
theorem page_iff_end : (serving .transmit).PageWritten 0x7e [1, 2] :=
  (page_iff 0x7e 2).mpr (by decide) _ _ (serving_serving .transmit) ⟨rfl, rfl⟩ rfl

/-- The second byte at 0x007f is stored in the next page. -/
theorem page_overrun : ¬ ∀ (s : Walker) (a : BitVec 16) (bytes : List Byte),
    Serving .transmit s → s.eeprom.Clean → s.PageWritten a bytes := fun claim =>
  not_pageWritten (a := 0x7f) (n := 2) (by decide)
    (claim _ _ _ (serving_serving .transmit) ⟨rfl, rfl⟩)

end Walker

end PokeStroller
