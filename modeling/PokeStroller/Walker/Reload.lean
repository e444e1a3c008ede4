import PokeStroller.Walker.Load

/-!
# Loading is all or nothing and forgets the past

`readImage_some` says when a read succeeds and with which bytes; the two
results follow. A load that fails leaves the walker alone and says why; a load
that succeeds leaves a state fixed by the image bytes.
-/

namespace PokeStroller

-- ---------------------------------------------------------------------------
-- Reading one image
-- ---------------------------------------------------------------------------

/-- Every call `readImage` makes on the file succeeds, `fread` with all of
the requested bytes. -/
structure File.ReadsCompletely (f : File) (expected : Nat) : Prop where
  seek : f.seekFails = false
  tell : f.tellFails = false
  read : (f.read expected).length = expected
  noError : f.readError = false
  close : f.closeFails = false

/-- The path opens a file that reads completely and whose size is allowed. -/
def ImagePath.Accepted (path : ImagePath) (expected : Nat) (size : Nat → Prop) : Prop :=
  ∃ name file, path = .opened name file ∧ file.ReadsCompletely expected ∧
    size file.content.length

def ImagePath.content : ImagePath → List Byte
  | .opened _ file => file.content
  | _ => []

def ImagePath.image (path : ImagePath) (n : Nat) : Bytes n := fun i => path.content.getD i.val 0

theorem File.read_getD (f : File) (h : (f.read n).length = n) (hi : i < n) :
    (f.read n).getD i 0 = f.content.getD i 0 := by
  have hlim : i < min f.readLimit n := by
    simp only [File.read, List.length_take] at h
    omega
  simp [File.read, List.getD_eq_getElem?_getD, List.getElem?_take_of_lt hlim]

theorem File.length_eq (f : File) (h : f.tellFails = false) {n : Nat} :
    f.length = n ↔ f.content.length = n := by
  simp only [File.length, h, Bool.false_eq_true, ↓reduceIte]
  omega

def sizeAllowed (expected : Nat) (allowFullMemoryDump : Bool) (length : Nat) : Prop :=
  length = expected ∨ (allowFullMemoryDump = true ∧ length = MEM_SIZE)

theorem readImage_accepted (h : path.Accepted expected (sizeAllowed expected dump)) :
    readImage path expected dump error = (some (path.image expected), error) := by
  obtain ⟨name, file, rfl, hc, hs⟩ := h
  have hlen : ¬ (file.length ≠ expected ∧ ¬ (dump = true ∧ file.length = MEM_SIZE)) := by
    rcases hs with hs | ⟨hd, hs⟩
    · simp [(file.length_eq hc.tell).mpr hs]
    · have := (file.length_eq hc.tell).mpr hs
      simp [hd, this]
  simp only [readImage, hc.seek, hlen, hc.read, hc.noError, hc.close, Bool.false_eq_true,
    ↓reduceIte, not_false_eq_true, and_self]
  congr 2
  funext i
  exact file.read_getD hc.read i.isLt

theorem readImage_some (h : readImage path expected dump error = (some bytes, error')) :
    path.Accepted expected (sizeAllowed expected dump) := by
  unfold readImage at h
  split at h
  case h_1 => cases h
  case h_2 => cases h
  case h_3 name file =>
    split at h
    · cases h
    rename_i hseek
    split at h
    · cases h
    rename_i hsize
    simp only at h
    split at h
    · rename_i hread
      -- a failing `ftell` reports -1, which is no allowed size
      have htell : file.tellFails = false := by
        by_contra ht
        simp only [Bool.not_eq_false] at ht
        apply hsize
        simp only [File.length, ht, ↓reduceIte]
        exact ⟨by omega, fun ⟨_, h⟩ => by omega⟩
      refine ⟨name, file, rfl, ⟨by simpa using hseek, htell, hread.1, ?_, ?_⟩, ?_⟩
      · simpa using hread.2.1
      · simpa using hread.2.2
      · by_cases he : file.length = expected
        · exact .inl ((file.length_eq htell).mp he)
        · have hd : dump = true ∧ file.length = MEM_SIZE := by
            by_contra hn
            exact hsize ⟨he, hn⟩
          exact .inr ⟨hd.1, (file.length_eq htell).mp hd.2⟩
    · cases h

theorem readImage_none (h : readImage path expected dump error = (none, error'))
    (hc : 1 < error.capacity) : error'.text ≠ "" := by
  have text (t : String) (ht : t.toList ≠ []) : (error.snprintf t).text ≠ "" := by
    obtain ⟨c, cs, hcs⟩ := List.exists_cons_of_ne_nil ht
    obtain ⟨k, hk⟩ : ∃ k, error.capacity - 1 = k + 1 := ⟨error.capacity - 2, by omega⟩
    have h0 : error.capacity ≠ 0 := by omega
    intro he
    have := congrArg String.toList he
    simp [ErrorText.snprintf, h0, hcs, hk] at this
  unfold readImage at h
  split at h
  case h_1 => cases h; exact text _ (by decide)
  case h_2 => cases h; exact text _ (by simp [toString])
  case h_3 =>
    split at h
    · cases h; exact text _ (by simp [toString])
    split at h
    · cases h; exact text _ (by simp [toString])
    simp only at h
    split at h
    · cases h
    · cases h; exact text _ (by simp [toString])

-- ---------------------------------------------------------------------------
-- Loading both images
-- ---------------------------------------------------------------------------

def RomAccepted (path : ImagePath) : Prop :=
  path.Accepted WALKER_ROM_SIZE (sizeAllowed WALKER_ROM_SIZE true)

def EepromAccepted (path : ImagePath) : Prop :=
  path.Accepted WALKER_EEPROM_SIZE (sizeAllowed WALKER_EEPROM_SIZE false)

namespace Walker

theorem initWalkerFromFiles_cases (s : Walker) (rom eeprom : ImagePath) (error : ErrorText) :
    (RomAccepted rom ∧ EepromAccepted eeprom ∧
      ∃ text, s.initWalkerFromFiles rom eeprom error =
        (true, text, s.initializeWalkerImages (rom.image _) (eeprom.image _))) ∨
    (¬ (RomAccepted rom ∧ EepromAccepted eeprom) ∧
      ∃ text, s.initWalkerFromFiles rom eeprom error = (false, text, s) ∧
        (1 < error.capacity → text.text ≠ "")) := by
  have hcap : (if error.capacity = 0 then error else { error with text := "" }).capacity =
      error.capacity := by split <;> rfl
  unfold initWalkerFromFiles
  simp only
  generalize (if error.capacity = 0 then error else { error with text := "" }) = error₁ at hcap
  by_cases hr : RomAccepted rom
  · rw [readImage_accepted hr]
    dsimp only
    by_cases he : EepromAccepted eeprom
    · rw [readImage_accepted he]
      exact .inl ⟨hr, he, _, rfl⟩
    · right
      refine ⟨fun h => he h.2, ?_⟩
      rcases hread : readImage eeprom WALKER_EEPROM_SIZE false error₁ with ⟨_ | image, text⟩
      · exact ⟨text, rfl, fun hc => readImage_none hread (hcap ▸ hc)⟩
      · exact absurd (readImage_some hread) he
  · right
    refine ⟨fun h => hr h.1, ?_⟩
    rcases hread : readImage rom WALKER_ROM_SIZE true error₁ with ⟨_ | image, text⟩
    · exact ⟨text, rfl, fun hc => readImage_none hread (hcap ▸ hc)⟩
    · exact absurd (readImage_some hread) hr

theorem initWalkerFromFiles_accepted (s : Walker) {rom eeprom : ImagePath}
    (hr : RomAccepted rom) (he : EepromAccepted eeprom) (error : ErrorText) :
    ∃ text, s.initWalkerFromFiles rom eeprom error =
      (true, text, s.initializeWalkerImages (rom.image _) (eeprom.image _)) := by
  rcases s.initWalkerFromFiles_cases rom eeprom error with ⟨-, -, h⟩ | ⟨hn, -⟩
  · exact h
  · exact absurd ⟨hr, he⟩ hn

/-- A load succeeds exactly on two images that read completely and have the
right sizes; a load that fails changes nothing and leaves a message. -/
theorem load_all_or_nothing (s : Walker) (rom eeprom : ImagePath) (error : ErrorText) :
    let result := s.initWalkerFromFiles rom eeprom error
    (result.1 = true ↔
      (∃ name file, rom = .opened name file ∧ file.ReadsCompletely WALKER_ROM_SIZE ∧
        (file.content.length = 49152 ∨ file.content.length = 65536)) ∧
      (∃ name file, eeprom = .opened name file ∧ file.ReadsCompletely WALKER_EEPROM_SIZE ∧
        file.content.length = 65536)) ∧
    (result.1 = false → result.2.2 = s ∧ (1 < error.capacity → result.2.1.text ≠ "")) := by
  have hrom : RomAccepted rom ↔ ∃ name file, rom = .opened name file ∧
      file.ReadsCompletely WALKER_ROM_SIZE ∧
      (file.content.length = 49152 ∨ file.content.length = 65536) := by
    simp [RomAccepted, ImagePath.Accepted, sizeAllowed]
  have heeprom : EepromAccepted eeprom ↔ ∃ name file, eeprom = .opened name file ∧
      file.ReadsCompletely WALKER_EEPROM_SIZE ∧ file.content.length = 65536 := by
    simp [EepromAccepted, ImagePath.Accepted, sizeAllowed]
  rw [← hrom, ← heeprom]
  rcases s.initWalkerFromFiles_cases rom eeprom error with ⟨hr, he, text, h⟩ | ⟨hn, text, h, ht⟩
  · simp [h, hr, he]
  · simp only [h, hn, Bool.false_eq_true, true_and, forall_const]
    exact ht

-- ---------------------------------------------------------------------------
-- Nothing of the session before is left
-- ---------------------------------------------------------------------------

theorem drainQueue_eq (queue : List Int) : drainQueue queue = [] := by
  induction queue with
  | nil => rfl
  | cons _ _ ih => exact ih

theorem memcpy_full (dst src : Bytes n) : memcpy dst src = src := by
  funext i
  simp [memcpy, i.isLt]

theorem initializeWalkerImages_eq (s s' : Walker) (rom : Bytes WALKER_ROM_SIZE)
    (image : Bytes WALKER_EEPROM_SIZE) :
    s.initializeWalkerImages rom image = s'.initializeWalkerImages rom image := by
  simp only [initializeWalkerImages, initMemory, initDevices, memcpy_full, drainQueue_eq]
  rfl

theorem image_congr {path path' : ImagePath}
    (h : ∀ i < n, path.content[i]? = path'.content[i]?) : path.image n = path'.image n := by
  funext i
  simp only [ImagePath.image, List.getD_eq_getElem?_getD, h i.val i.isLt]

/-- Two successful loads agree on the whole state when their images agree on
the bytes that count, whatever the two walkers did before. -/
theorem load_forgets_history {s s' t t' : Walker} {rom rom' eeprom eeprom' : ImagePath}
    {error error' text text' : ErrorText}
    (h : s.initWalkerFromFiles rom eeprom error = (true, text, t))
    (h' : s'.initWalkerFromFiles rom' eeprom' error' = (true, text', t'))
    (hrom : ∀ i < 49152, rom.content[i]? = rom'.content[i]?)
    (heeprom : ∀ i < 65536, eeprom.content[i]? = eeprom'.content[i]?) : t = t' := by
  rcases s.initWalkerFromFiles_cases rom eeprom error with ⟨-, -, _, hs⟩ | ⟨-, _, hs, -⟩
  case inr => rw [hs] at h; cases h
  rcases s'.initWalkerFromFiles_cases rom' eeprom' error' with ⟨-, -, _, hs'⟩ | ⟨-, _, hs', -⟩
  case inr => rw [hs'] at h'; cases h'
  rw [hs] at h
  rw [hs'] at h'
  cases h
  cases h'
  rw [image_congr hrom, image_congr heeprom]
  exact initializeWalkerImages_eq s s' _ _

end Walker

def blankRom : ImagePath :=
  .opened "rom.bin" { content := List.replicate 49152 0, readLimit := 49152 }
def blankDump : ImagePath :=
  .opened "dump.bin" {
    content := List.replicate 49152 0 ++ List.replicate 16384 0xa5
    readLimit := 65536 }
def blankEeprom : ImagePath :=
  .opened "eeprom.bin" { content := List.replicate 65536 0xff, readLimit := 65536 }

/-- The first load and a reload in the middle of a session. -/
theorem load_forgets_history_blank :
    (Walker.initWalkerFromFiles {} blankRom blankEeprom ⟨64, ""⟩).2.2 =
      (Walker.initWalkerFromFiles { pc := 0x3a4a, sleep := true, inputQueue := [1, 0] }
        blankDump blankEeprom ⟨0, ""⟩).2.2 := by
  have zeros : (List.replicate 49152 (0 : Byte)).length = 49152 := List.length_replicate
  have dump : (List.replicate 49152 (0 : Byte) ++ List.replicate 16384 0xa5).length = 65536 := by
    rw [List.length_append, List.length_replicate, List.length_replicate]
  have ones : (List.replicate 65536 (0xff : Byte)).length = 65536 := List.length_replicate
  have read (limit : Nat) (l : List Byte) (n : Nat) (hl : n ≤ limit) (hn : n ≤ l.length) :
      (File.read { content := l, readLimit := limit } n).length = n := by
    simp only [File.read, List.length_take]
    omega
  have hr : RomAccepted blankRom :=
    ⟨_, _, rfl, ⟨rfl, rfl, read _ _ _ (by decide) (Nat.le_of_eq zeros.symm), rfl, rfl⟩, .inl zeros⟩
  have hd : RomAccepted blankDump :=
    ⟨_, _, rfl, ⟨rfl, rfl, read _ _ _ (by decide) (by rw [dump]; decide), rfl, rfl⟩,
      .inr ⟨rfl, dump⟩⟩
  have he : EepromAccepted blankEeprom :=
    ⟨_, _, rfl, ⟨rfl, rfl, read _ _ _ (by decide) (Nat.le_of_eq ones.symm), rfl, rfl⟩, .inl ones⟩
  obtain ⟨_, h⟩ := Walker.initWalkerFromFiles_accepted {} hr he ⟨64, ""⟩
  obtain ⟨_, h'⟩ := Walker.initWalkerFromFiles_accepted
    { pc := 0x3a4a, sleep := true, inputQueue := [1, 0] } hd he ⟨0, ""⟩
  rw [h, h']
  refine Walker.load_forgets_history h h' ?_ fun _ _ => rfl
  intro i hi
  exact (List.getElem?_append_left (zeros.symm ▸ hi)).symm

end PokeStroller
