import PokeStroller.Lib.Writes
import PokeStroller.Walker.Transmit

/-!
# The screen

`fillVideoBuffer` and what a program sends to have an image shown. The LCD
keeps a page of eight rows as two bit planes, interleaved by column.
-/

namespace PokeStroller

-- ---------------------------------------------------------------------------
-- fillVideoBuffer
-- ---------------------------------------------------------------------------

def palette : List (BitVec 32) := [0x00cccccc, 0x00999999, 0x00666666, 0x00333333]

namespace Lcd

/-- The place of the high bits of a pixel; its low bits are at the next. -/
def videoIndex (lcd : Lcd) (x y : Nat) : Nat :=
  2 * x + lcd.currentBuffer.toNat * LCD_WIDTH * LCD_BUFFER_SEPARATION +
    y / 8 * LCD_WIDTH * LCD_BYTES_PER_STRIPE

def bitAt (lcd : Lcd) (index yOffsetStripe : Nat) : Byte :=
  ((lcd.memory.get? index).getD 0 &&& ((1 : Byte) <<< yOffsetStripe)) >>> yOffsetStripe

def color (lcd : Lcd) (x y : Nat) : BitVec 32 :=
  let yOffsetStripe := y % 8
  let firstBitForX := lcd.bitAt (lcd.videoIndex x y) yOffsetStripe
  let secondBitForX := lcd.bitAt (lcd.videoIndex x y + 1) yOffsetStripe
  let paletteIdx := (firstBitForX <<< 1) ||| secondBitForX
  palette.getD paletteIdx.toNat 0

theorem videoIndex_lt (lcd : Lcd) (hx : x < LCD_WIDTH) (hy : y < LCD_HEIGHT) :
    lcd.videoIndex x y + 1 < LCD_MEM_SIZE := by
  have hbuffer : lcd.currentBuffer.toNat ≤ 1 := Bool.toNat_le _
  simp only [videoIndex, LCD_WIDTH, LCD_HEIGHT, LCD_BUFFER_SEPARATION, LCD_BYTES_PER_STRIPE,
    LCD_MEM_SIZE] at hx hy ⊢
  omega

def pixels (lcd : Lcd) : List (Nat × BitVec 32) :=
  (List.range LCD_HEIGHT).flatMap fun y =>
    (List.range LCD_WIDTH).map fun x => (y * LCD_WIDTH + x, lcd.color x y)

/-- The pixels are written row by row; then the other buffer is the current
one. -/
def fillVideoBuffer (lcd : Lcd) (videoBuffer : Nat → BitVec 32) : (Nat → BitVec 32) × Lcd :=
  (store videoBuffer lcd.pixels, { lcd with currentBuffer := !lcd.currentBuffer })

theorem fillVideoBuffer_apply (lcd : Lcd) (videoBuffer : Nat → BitVec 32) (hx : x < LCD_WIDTH)
    (hy : y < LCD_HEIGHT) :
    (lcd.fillVideoBuffer videoBuffer).1 (y * LCD_WIDTH + x) = lcd.color x y := by
  unfold fillVideoBuffer
  dsimp only
  refine store_of_mem videoBuffer ?_ fun w hw ha => ?_
  · rw [pixels, List.mem_flatMap]
    exact ⟨y, List.mem_range.mpr hy, List.mem_map.mpr ⟨x, List.mem_range.mpr hx, rfl⟩⟩
  · rw [pixels, List.mem_flatMap] at hw
    obtain ⟨y', -, hw⟩ := hw
    obtain ⟨x', hx', rfl⟩ := List.mem_map.mp hw
    have hx' := List.mem_range.mp hx'
    -- the row and the column are quotient and remainder of the place
    obtain ⟨rfl, rfl⟩ : y' = y ∧ x' = x := by
      simp only [LCD_WIDTH] at hx hx' ha
      omega
    rfl

end Lcd

-- ---------------------------------------------------------------------------
-- Images
-- ---------------------------------------------------------------------------

abbrev Image := Fin LCD_WIDTH → Fin LCD_HEIGHT → BitVec 2

namespace Image

def plane (image : Image) (bit : Nat) (page : Fin 8) (x : Fin LCD_WIDTH) : Byte :=
  (BitVec.ofBoolListLE (List.ofFn fun i : Fin 8 =>
    (image x ⟨8 * page + i, by simp only [LCD_HEIGHT]; omega⟩).getLsbD bit)).setWidth 8

def pageData (image : Image) (page : Fin 8) : List Byte :=
  (List.finRange LCD_WIDTH).flatMap fun x => [image.plane 1 page x, image.plane 0 page x]

end Image

inductive LcdByte
  | command (byte : Byte)
  | data (byte : Byte)
  deriving DecidableEq, Repr

def pageNumber (buffer : Bool) (page : Fin 8) : Nat := page + 8 * buffer.toNat

def pageCommands (buffer : Bool) (page : Fin 8) : List LcdByte :=
  [.command (0xb0 ||| BitVec.ofNat 8 (pageNumber buffer page)), .command 0x10, .command 0x00]

def Image.bytes (image : Image) (buffer : Bool) (pages : List (Fin 8)) : List LcdByte :=
  pages.flatMap fun page => pageCommands buffer page ++ (image.pageData page).map .data

-- ---------------------------------------------------------------------------
-- The LCD's side
-- ---------------------------------------------------------------------------

namespace Lcd

def receive (lcd : Lcd) : LcdByte → Outcome Fault Lcd
  | .command byte => lcd.transfer false byte
  | .data byte => lcd.transfer true byte

def receiveAll : List LcdByte → Lcd → Outcome Fault Lcd
  | [], lcd => .ok lcd
  | byte :: bytes, lcd => (lcd.receive byte).andThen (receiveAll bytes)

theorem receiveAll_append {lcd lcd₁ : Lcd} {bytes more : List LcdByte}
    (h : lcd.receiveAll bytes = .ok lcd₁) :
    lcd.receiveAll (bytes ++ more) = lcd₁.receiveAll more := by
  induction bytes generalizing lcd with
  | nil =>
    cases h
    rfl
  | cons byte bytes ih =>
    obtain ⟨u, hu, h⟩ := Outcome.andThen_eq_ok.mp h
    rw [List.cons_append, receiveAll, hu, Outcome.andThen_ok]
    exact ih h

/-- The cursor is at this byte of a page. -/
structure At (n k : Nat) (lcd : Lcd) : Prop where
  state : lcd.state = .empty
  page : lcd.currentPage.toNat = n
  column : lcd.currentColumn.toNat = k / 2
  byte : lcd.currentByte.toNat = k % 2

theorem At.memIndex {lcd : Lcd} (h : lcd.At n k) : lcd.memIndex = n * 192 + k := by
  simp only [Lcd.memIndex, h.page, h.column, h.byte, LCD_WIDTH, LCD_BYTES_PER_STRIPE]
  omega

theorem At.data {lcd : Lcd} (h : lcd.At n k) (hn : n < 16) (hk : k < 192) (byte : Byte) :
    ∃ lcd', lcd.receive (.data byte) = .ok lcd' ∧ lcd'.At n (k + 1) ∧
      lcd.memory.set? (n * 192 + k) byte = some lcd'.memory := by
  have hindex : lcd.memIndex < LCD_MEM_SIZE := by
    rw [h.memIndex, LCD_MEM_SIZE]
    omega
  have hset := lcd.memory.set?_of_lt hindex byte
  have hreceive : lcd.receive (.data byte) = (Outcome.ofOption .lcdAssertion
      (lcd.memory.set? lcd.memIndex byte)).map fun memory =>
        { lcd with
          memory := memory
          currentColumn := if lcd.currentByte = 1 then lcd.currentColumn + 1 else lcd.currentColumn
          currentByte := (lcd.currentByte + 1) % 2 } := rfl
  rw [hset] at hreceive
  have hcolumn := h.column
  have hbyte := h.byte
  refine ⟨_, hreceive, ?_, h.memIndex ▸ hset⟩
  -- the second byte of a column moves the cursor to the next
  rcases Nat.mod_two_eq_zero_or_one k with heven | hodd
  · have hzero : lcd.currentByte = 0 := BitVec.eq_of_toNat_eq (hbyte.trans heven)
    refine ⟨h.state, h.page, ?_, ?_⟩
    · simp only [hzero]
      rw [if_neg (by decide), hcolumn]
      omega
    · simp only [hzero]
      change 1 = (k + 1) % 2
      omega
  · have hone : lcd.currentByte = 1 := BitVec.eq_of_toNat_eq (hbyte.trans hodd)
    refine ⟨h.state, h.page, ?_, ?_⟩
    · simp only [hone, ↓reduceIte]
      bv_omega
    · simp only [hone]
      change 0 = (k + 1) % 2
      omega

theorem At.dataAll {lcd : Lcd} (h : lcd.At n k) (hn : n < 16) (bytes : List Byte)
    (hk : k + bytes.length ≤ 192) :
    ∃ lcd', lcd.receiveAll (bytes.map .data) = .ok lcd' ∧ lcd'.At n (k + bytes.length) ∧
      lcd.memory.setAll? (n * 192 + k) bytes = some lcd'.memory := by
  induction bytes generalizing lcd k with
  | nil => exact ⟨lcd, rfl, h, rfl⟩
  | cons byte bytes ih =>
    rw [List.length_cons] at hk
    obtain ⟨u, hu, hat, hset⟩ := h.data hn (by omega) byte
    obtain ⟨lcd', hrest, hat', hall⟩ := ih hat (by omega)
    refine ⟨lcd', ?_, ?_, ?_⟩
    · rw [List.map_cons, receiveAll, hu, Outcome.andThen_ok, hrest]
    · rw [List.length_cons, ← Nat.add_assoc, Nat.add_right_comm]
      exact hat'
    · rw [Bytes.setAll?, hset, Option.bind_some]
      exact hall

theorem pageNumber_byte (buffer : Bool) (page : Fin 8) :
    let byte := (0xb0 : Byte) ||| BitVec.ofNat 8 (pageNumber buffer page)
    0xb0 ≤ byte.toNat ∧ byte.toNat ≤ 0xbf ∧ (byte &&& 0xf).toNat = pageNumber buffer page := by
  revert buffer page
  decide

theorem command_page {lcd : Lcd} (hidle : lcd.state = .empty) (hlow : 0xb0 ≤ byte.toNat)
    (hhigh : byte.toNat ≤ 0xbf) : lcd.command byte = { lcd with currentPage := byte &&& 0xf } := by
  have hcolumn : ¬ byte.toNat ≤ 0x0f := by omega
  have hcolumn' : ¬ (0x10 ≤ byte.toNat ∧ byte.toNat ≤ 0x17) := by omega
  unfold Lcd.command
  simp only [hidle, hcolumn, hcolumn', hlow, hhigh, ↓reduceIte, and_self]

theorem command_column (lcd : Lcd) (hidle : lcd.state = .empty) :
    (lcd.command 0x10).command 0x00 = { lcd with currentColumn := 0, currentByte := 0 } := by
  have hcleared : ∀ column : Byte, (column &&& 0xf) &&& 0xf0 = 0 := by decide
  have hupper : lcd.command 0x10 =
      { lcd with currentColumn := lcd.currentColumn &&& 0xf, currentByte := 0 } := by
    simp [Lcd.command, hidle]
  rw [hupper]
  simpa [Lcd.command, hidle] using hcleared lcd.currentColumn

theorem receiveAll_pageCommands {lcd : Lcd} (hidle : lcd.state = .empty) (buffer : Bool)
    (page : Fin 8) : ∃ lcd', lcd.receiveAll (pageCommands buffer page) = .ok lcd' ∧
      lcd'.At (pageNumber buffer page) 0 ∧ lcd'.memory = lcd.memory := by
  obtain ⟨hlow, hhigh, hpage⟩ := pageNumber_byte buffer page
  have hselect := command_page hidle hlow hhigh
  have hcursor := command_column
    (lcd.command (0xb0 ||| BitVec.ofNat 8 (pageNumber buffer page))) (hselect ▸ hidle)
  refine ⟨_, rfl, ?_, ?_⟩
  · rw [hcursor, hselect]
    exact ⟨hidle, hpage, rfl, rfl⟩
  · rw [hcursor, hselect]

-- ---------------------------------------------------------------------------
-- Pages
-- ---------------------------------------------------------------------------

theorem length_pageData (image : Image) (page : Fin 8) : (image.pageData page).length = 192 := by
  simp [Image.pageData, LCD_WIDTH, List.map_const']

theorem receiveAll_page {lcd : Lcd} (hidle : lcd.state = .empty) (image : Image) (buffer : Bool)
    (page : Fin 8) : ∃ lcd', lcd.receiveAll (image.bytes buffer [page]) = .ok lcd' ∧
      lcd'.state = .empty ∧
      (∀ k < 192, lcd'.memory.get? (pageNumber buffer page * 192 + k) =
        (image.pageData page)[k]?) ∧
      ∀ i, i / 192 ≠ pageNumber buffer page → lcd'.memory.get? i = lcd.memory.get? i := by
  obtain ⟨u, hu, hat, hmemory⟩ := receiveAll_pageCommands hidle buffer page
  have hn : pageNumber buffer page < 16 := by
    have hbuffer : buffer.toNat ≤ 1 := Bool.toNat_le _
    unfold pageNumber
    omega
  have hlength := length_pageData image page
  obtain ⟨lcd', hdata, hat', hall⟩ := hat.dataAll hn (image.pageData page) (by omega)
  rw [hmemory, Nat.add_zero] at hall
  refine ⟨lcd', ?_, hat'.state, fun k hk => ?_, fun i hi => ?_⟩
  · unfold Image.bytes
    rw [List.flatMap_singleton, receiveAll_append hu, hdata]
  · exact Bytes.get?_setAll?_inside hall (by omega)
  · exact Bytes.get?_setAll?_outside hall (by omega)

/-- The same for any list of pages; a page sent twice gets the same bytes. -/
theorem receiveAll_pages {lcd : Lcd} (hidle : lcd.state = .empty) (image : Image) (buffer : Bool)
    (pages : List (Fin 8)) : ∃ lcd', lcd.receiveAll (image.bytes buffer pages) = .ok lcd' ∧
      (∀ page ∈ pages, ∀ k < 192, lcd'.memory.get? (pageNumber buffer page * 192 + k) =
        (image.pageData page)[k]?) ∧
      ∀ i, (∀ page ∈ pages, i / 192 ≠ pageNumber buffer page) →
        lcd'.memory.get? i = lcd.memory.get? i := by
  induction pages generalizing lcd with
  | nil => exact ⟨lcd, rfl, by simp, fun _ _ => rfl⟩
  | cons page pages ih =>
    obtain ⟨u, hu, hidle', hpage, hother⟩ := receiveAll_page hidle image buffer page
    obtain ⟨lcd', hrest, hpages, hothers⟩ := ih hidle'
    have hsplit : image.bytes buffer (page :: pages) =
        image.bytes buffer [page] ++ image.bytes buffer pages := by
      simp [Image.bytes]
    refine ⟨lcd', ?_, fun q hq k hk => ?_, fun i hi => ?_⟩
    · rw [hsplit, receiveAll_append hu, hrest]
    · by_cases hmem : q ∈ pages
      · exact hpages q hmem k hk
      · obtain rfl : q = page := (List.mem_cons.mp hq).resolve_right hmem
        rw [hothers _ fun r hr hplace => hmem ?_]
        · exact hpage k hk
        · have hsame : r = q := by
            unfold pageNumber at hplace
            omega
          exact hsame ▸ hr
    · rw [hothers i fun q hq => hi q (List.mem_cons_of_mem _ hq)]
      exact hother i (hi page List.mem_cons_self)

end Lcd

-- ---------------------------------------------------------------------------
-- Pixels
-- ---------------------------------------------------------------------------

theorem getElem?_flatMap_pair (l : List α) (f g : α → β) (i : Nat) :
    (l.flatMap fun x => [f x, g x])[2 * i]? = l[i]?.map f ∧
      (l.flatMap fun x => [f x, g x])[2 * i + 1]? = l[i]?.map g := by
  induction l generalizing i with
  | nil => simp
  | cons x l ih =>
    cases i with
    | zero => simp
    | succ i => exact ih i

theorem Image.getElem?_pageData (image : Image) (page : Fin 8) (x : Fin LCD_WIDTH) :
    (image.pageData page)[2 * x.val]? = some (image.plane 1 page x) ∧
      (image.pageData page)[2 * x.val + 1]? = some (image.plane 0 page x) := by
  have hx : (List.finRange LCD_WIDTH)[x.val]? = some x := by simp
  obtain ⟨hhigh, hlow⟩ := getElem?_flatMap_pair (List.finRange LCD_WIDTH)
    (image.plane 1 page) (image.plane 0 page) x
  rw [hx] at hhigh hlow
  exact ⟨hhigh, hlow⟩

theorem Image.getLsbD_plane (image : Image) (bit : Nat) (page o : Fin 8) (x : Fin LCD_WIDTH) :
    (image.plane bit page x).getLsbD o =
      (image x ⟨8 * page + o, by simp only [LCD_HEIGHT]; omega⟩).getLsbD bit := by
  unfold Image.plane
  rw [BitVec.getLsbD_setWidth, BitVec.getLsbD_ofBoolListLE, List.getD_eq_getElem?_getD,
    List.getElem?_ofFn, dif_pos o.isLt, decide_eq_true o.isLt]
  rfl

theorem bit_of_byte (byte : Byte) (o : Fin 8) :
    (byte &&& ((1 : Byte) <<< o.val)) >>> o.val = (BitVec.ofBool (byte.getLsbD o)).setWidth 8 := by
  have htwoPow : (1 : Byte) <<< o.val = BitVec.twoPow 8 o := rfl
  rw [htwoPow, BitVec.and_twoPow]
  cases byte.getLsbD o with
  | true =>
    revert o
    decide
  | false => simp

theorem shade_of_bits : ∀ shade : BitVec 2,
    (((BitVec.ofBool (shade.getLsbD 1)).setWidth 8 <<< 1) |||
      (BitVec.ofBool (shade.getLsbD 0)).setWidth 8 : Byte).toNat = shade.toNat := by
  decide

theorem Lcd.color_eq {lcd : Lcd} {buffer : Bool} {image : Image}
    (hbuffer : lcd.currentBuffer = buffer)
    (hpages : ∀ page ∈ List.finRange 8, ∀ k < 192,
      lcd.memory.get? (pageNumber buffer page * 192 + k) = (image.pageData page)[k]?)
    (x : Fin LCD_WIDTH) (y : Fin LCD_HEIGHT) :
    lcd.color x y = palette.getD (image x y).toNat 0 := by
  let page : Fin 8 := ⟨y / 8, by have := y.isLt; simp only [LCD_HEIGHT] at this; omega⟩
  let o : Fin 8 := ⟨y % 8, Nat.mod_lt _ (by decide)⟩
  have hrow : (⟨8 * page + o, by simp only [LCD_HEIGHT]; omega⟩ : Fin LCD_HEIGHT) = y :=
    Fin.ext (Nat.div_add_mod _ _)
  have hindex : lcd.videoIndex x y = pageNumber buffer page * 192 + 2 * x := by
    simp only [Lcd.videoIndex, hbuffer, pageNumber, LCD_WIDTH, LCD_BUFFER_SEPARATION,
      LCD_BYTES_PER_STRIPE, page]
    omega
  have hx : (x : Nat) < 96 := x.isLt
  have hpage := hpages page (List.mem_finRange page)
  obtain ⟨hhigh, hlow⟩ := image.getElem?_pageData page x
  have bit (n : Nat) (index : Nat) (hbyte : lcd.memory.get? index = some (image.plane n page x)) :
      lcd.bitAt index (y % 8) = (BitVec.ofBool ((image x y).getLsbD n)).setWidth 8 := by
    have hbit := bit_of_byte (image.plane n page x) o
    rw [image.getLsbD_plane, hrow] at hbit
    rw [Lcd.bitAt, hbyte, Option.getD_some]
    exact hbit
  unfold Lcd.color
  dsimp only
  rw [bit 1 _ ?_, bit 0 _ ?_, shade_of_bits]
  · rw [hindex, Nat.add_assoc, hpage _ (by omega), hlow]
  · rw [hindex, hpage _ (by omega), hhigh]

-- ---------------------------------------------------------------------------
-- Sending an image
-- ---------------------------------------------------------------------------

namespace Walker

def setDataPin (s : Walker) (high : Bool) : Walker :=
  { s with
    memory := Function.update s.memory PORT1
      (if high then s.memory PORT1 ||| LCD_DATA_PIN else s.memory PORT1 &&& ~~~LCD_DATA_PIN) }

def sendLcd (s : Walker) : LcdByte → Outcome Fault Walker
  | .command byte => (s.setDataPin false).send byte
  | .data byte => (s.setDataPin true).send byte

def sendLcdAll : List LcdByte → Walker → Outcome Fault Walker
  | [], s => .ok s
  | byte :: bytes, s => (s.sendLcd byte).andThen (sendLcdAll bytes)

theorem setDataPin_lcdDataPin (s : Walker) (high : Bool) : (s.setDataPin high).lcdDataPin = high := by
  have hset : ∀ x : Byte, (x ||| LCD_DATA_PIN).has LCD_DATA_PIN = true := by decide
  have hclear : ∀ x : Byte, (x &&& ~~~LCD_DATA_PIN).has LCD_DATA_PIN = false := by decide
  cases high with
  | true => simp [lcdDataPin, setDataPin, hset]
  | false => simp [lcdDataPin, setDataPin, hclear]

theorem setDataPin_has (s : Walker) (high : Bool) {pin : Byte} (hpin : pin = LCD_PIN ∨ pin = EEPROM_PIN) :
    ((s.setDataPin high).memory PORT1).has pin = (s.memory PORT1).has pin := by
  have hset : ∀ x : Byte, (x ||| LCD_DATA_PIN).has LCD_PIN = x.has LCD_PIN ∧
      (x ||| LCD_DATA_PIN).has EEPROM_PIN = x.has EEPROM_PIN := by decide
  have hclear : ∀ x : Byte, (x &&& ~~~LCD_DATA_PIN).has LCD_PIN = x.has LCD_PIN ∧
      (x &&& ~~~LCD_DATA_PIN).has EEPROM_PIN = x.has EEPROM_PIN := by decide
  unfold setDataPin
  dsimp only
  rw [Function.update_self]
  obtain rfl | rfl := hpin
  · cases high with
    | true => exact (hset _).1
    | false => exact (hclear _).1
  · cases high with
    | true => exact (hset _).2
    | false => exact (hclear _).2

theorem Configured.setDataPin {s : Walker} (h : s.Configured d) (high : Bool) :
    (s.setDataPin high).Configured d := by
  have hother {a : BitVec 16} (ha : a ≠ PORT1) : (s.setDataPin high).memory a = s.memory a :=
    Function.update_of_ne ha _ _
  have hsel (e : Device) : (s.setDataPin high).selects e = s.selects e := by
    cases e with
    | accel => simp only [selects, accelSelected, hother (a := PORT9) (by decide)]
    | eeprom => simp only [selects, eepromSelected, s.setDataPin_has high (.inr rfl)]
    | lcd => simp only [selects, lcdSelected, s.setDataPin_has high (.inl rfl)]
  refine ⟨?_, fun e he => ?_, ?_, fun hd => ?_⟩
  · rw [hsel]
    exact h.selected
  · rw [hsel]
    exact h.others e he
  · rw [hother (by decide)]
    exact h.transmit
  · rw [hother (by decide)]
    exact h.receive hd

theorem Configured.sendPin {s : Walker} (hc : s.Configured .lcd) {high : Bool} {byte : Byte}
    {lcd : Lcd} (h : s.lcd.transfer high byte = .ok lcd) :
    ∃ t, (s.setDataPin high).send byte = .ok t ∧ t.lcd = lcd ∧ t.Configured .lcd := by
  have hpin := hc.setDataPin high
  have hmarks : (s.setDataPin high).MarksTaken .lcd := ⟨nofun, fun hd => absurd rfl hd⟩
  have hdevices := hpin.send_devices hmarks byte
  have htransfer : (s.setDataPin high).devices.lcd.transfer high byte = .ok lcd := h
  rw [setDataPin_lcdDataPin, Devices.step, htransfer] at hdevices
  obtain ⟨t, ht, hdev⟩ := Outcome.map_eq_ok.mp hdevices
  obtain ⟨-, hframe⟩ := hpin.send_frame hmarks ht
  exact ⟨t, ht, congrArg Devices.lcd hdev, hframe.configured hpin.fill⟩

theorem Configured.sendLcd {s : Walker} (hc : s.Configured .lcd) {byte : LcdByte} {lcd : Lcd}
    (h : s.lcd.receive byte = .ok lcd) :
    ∃ t, s.sendLcd byte = .ok t ∧ t.lcd = lcd ∧ t.Configured .lcd := by
  cases byte with
  | command byte => exact hc.sendPin h
  | data byte => exact hc.sendPin h

theorem Configured.sendLcdAll {s : Walker} (hc : s.Configured .lcd) {bytes : List LcdByte}
    {lcd : Lcd} (h : s.lcd.receiveAll bytes = .ok lcd) :
    ∃ t, s.sendLcdAll bytes = .ok t ∧ t.lcd = lcd := by
  induction bytes generalizing s with
  | nil =>
    cases h
    exact ⟨s, rfl, rfl⟩
  | cons byte bytes ih =>
    obtain ⟨u, hu, h⟩ := Outcome.andThen_eq_ok.mp h
    obtain ⟨s', hs', rfl, hc'⟩ := hc.sendLcd hu
    obtain ⟨t, ht, hlcd⟩ := ih hc' h
    refine ⟨t, ?_, hlcd⟩
    rw [Walker.sendLcdAll, hs', Outcome.andThen_ok, ht]

/-- An image sent to a buffer is what `fillVideoBuffer` shows of that buffer,
and the pages of the other buffer are as before. -/
theorem lcd_round_trip {s : Walker} (hc : s.Configured .lcd) (hidle : s.lcd.state = .empty)
    (image : Image) (buffer : Bool) (videoBuffer : Nat → BitVec 32) :
    ∃ t, s.sendLcdAll (image.bytes buffer (List.finRange 8)) = .ok t ∧
      (∀ (x : Fin LCD_WIDTH) (y : Fin LCD_HEIGHT),
        ({ t.lcd with currentBuffer := buffer }.fillVideoBuffer videoBuffer).1
          (y * LCD_WIDTH + x) = palette.getD (image x y).toNat 0) ∧
      ∀ i, i / 1536 ≠ buffer.toNat → t.lcd.memory.get? i = s.lcd.memory.get? i := by
  obtain ⟨lcd, hlcd, hpages, hothers⟩ :=
    Lcd.receiveAll_pages hidle image buffer (List.finRange 8)
  obtain ⟨t, ht, rfl⟩ := hc.sendLcdAll hlcd
  refine ⟨t, ht, fun x y => ?_, fun i hi => hothers i fun page _ => ?_⟩
  · rw [Lcd.fillVideoBuffer_apply _ _ x.isLt y.isLt]
    generalize hshown : ({ t.lcd with currentBuffer := buffer } : Lcd) = shown
    have hmemory : shown.memory = t.lcd.memory := by rw [← hshown]
    have hbuffer : shown.currentBuffer = buffer := by rw [← hshown]
    rw [← hmemory] at hpages
    exact Lcd.color_eq hbuffer hpages x y
  · unfold pageNumber
    omega

/-- From a state in which only the LCD is selected and nothing was sent, an
image all in the darkest shade. -/
theorem lcd_round_trip_dark :
    let s : Walker := { memory := fun a =>
      if a = PORT1 then EEPROM_PIN else if a = PORT9 then ACCEL_PIN
      else if a = SSER then TE else 0 }
    ∃ t, s.sendLcdAll (Image.bytes (fun _ _ => 3) true (List.finRange 8)) = .ok t ∧
      ({ t.lcd with currentBuffer := true }.fillVideoBuffer fun _ => 0).1 100 = 0x00333333 := by
  intro s
  obtain ⟨t, ht, hshown, -⟩ := lcd_round_trip (s := s) (by decide) rfl (fun _ _ => 3) true fun _ => 0
  exact ⟨t, ht, hshown ⟨4, by decide⟩ ⟨1, by decide⟩⟩

end Walker

end PokeStroller
