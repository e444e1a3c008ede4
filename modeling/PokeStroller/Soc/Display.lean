import Mathlib.Tactic.IntervalCases
import PokeStroller.Soc.Emulator
import PokeStroller.Soc.Frames

/-!
# The display

What the LCD stores stays inside its memory, and so does every frame; the rows
that a page offset moves past the last page are blank. A frame that is sent page
by page is the frame that is shown.
-/

namespace PokeStroller.Soc

-- ---------------------------------------------------------------------------
-- The invariant
-- ---------------------------------------------------------------------------

/-- The pages that a command can select. -/
def SSD1854_PAGES : Nat := 16

namespace SSD1854

/-- The fields are in range, and the memory past the last page is as it was. -/
structure Valid (lcd : SSD1854) : Prop where
  page : lcd.page.toNat < SSD1854_PAGES
  page_offset : lcd.page_offset.toNat ≤ 14
  offset : lcd.offset.toNat < SSD1854_COLUMN_SIZE
  blank : ∀ i, SSD1854_PAGES * 256 ≤ i → i < SSD1854_MEM_SIZE → lcd.vram.get? i = some 0

theorem valid_init : Valid {} := by
  refine ⟨by decide, by decide, by decide, fun i _ hi => ?_⟩
  exact Bytes.get?_of_lt _ hi

theorem Valid.onInputPin {lcd : SSD1854} (h : lcd.Valid) (value : Bool) :
    (lcd.onInputPin value).Valid := ⟨h.page, h.page_offset, h.offset, h.blank⟩

theorem and_0xF_lt (data : Byte) : (data &&& 0xF).toNat < 16 := by
  rw [BitVec.toNat_and]
  exact Nat.and_lt_two_pow (n := 4) _ (by decide)

theorem Valid.HandleCommand {lcd : SSD1854} (h : lcd.Valid) (data : Byte) :
    (lcd.HandleCommand data).Valid := by
  unfold SSD1854.HandleCommand
  split
  · exact ⟨h.page, h.page_offset, Nat.zero_lt_two, h.blank⟩
  split
  · exact ⟨h.page, h.page_offset, Nat.zero_lt_two, h.blank⟩
  split
  · exact ⟨h.page, h.page_offset, h.offset, h.blank⟩
  split
  · exact ⟨h.page, h.page_offset, h.offset, h.blank⟩
  split
  · exact ⟨and_0xF_lt data, h.page_offset, h.offset, h.blank⟩
  split
  · exact ⟨h.page, h.page_offset, h.offset, h.blank⟩
  split
  · exact ⟨h.page, h.page_offset, h.offset, h.blank⟩
  split
  · exact ⟨Nat.zero_lt_succ 15, Nat.zero_le 14, Nat.zero_lt_two, h.blank⟩
  · exact ⟨h.page, h.page_offset, h.offset, h.blank⟩

theorem Valid.address {lcd : SSD1854} (h : lcd.Valid)
    (hcolumn : lcd.column.toNat < SSD1854_TOTAL_COLUMNS) :
    lcd.address = lcd.page.toNat * 256 + lcd.column.toNat * 2 + lcd.offset.toNat ∧
      lcd.address < SSD1854_PAGES * 256 := by
  have hpage := h.page
  have hoffset := h.offset
  unfold SSD1854.address
  simp only [SSD1854_TOTAL_COLUMNS, SSD1854_COLUMN_SIZE, SSD1854_PAGES] at *
  omega

theorem Valid.Receive {lcd : SSD1854} (h : lcd.Valid) (data : Byte) :
    ∃ lcd', lcd.Receive data = some lcd' ∧ lcd'.Valid := by
  unfold SSD1854.Receive
  split
  · split
    · exact ⟨lcd, rfl, h⟩
    · rename_i hcolumn
      obtain ⟨-, haddress⟩ := h.address (Nat.lt_of_not_le hcolumn)
      have hsize : lcd.address < SSD1854_MEM_SIZE := Nat.lt_trans haddress (by decide)
      have hset := Bytes.set?_of_lt lcd.vram hsize data
      rw [hset]
      refine ⟨_, rfl, h.page, h.page_offset, ?_, fun i hi hlt => ?_⟩
      · exact BitVec.umod_lt _ (y := 2) (by decide)
      · exact (Bytes.get?_set?_ne hset (by omega)).trans (h.blank i hi hlt)
  · split
    · exact ⟨_, rfl, h.HandleCommand data⟩
    · exact ⟨_, rfl, h.page, h.page_offset, h.offset, h.blank⟩
    · refine ⟨_, rfl, h.page, ?_, h.offset, h.blank⟩
      dsimp only
      split
      · decide
      · rename_i hle
        exact BitVec.not_lt.mp hle

end SSD1854

theorem Move.lcd_valid {s t : H838606} (h : Move s t) (hs : s.lcd.Valid) : t.lcd.Valid := by
  rcases h.lcd with h | ⟨value, h⟩ | ⟨data, h⟩
  · rwa [h]
  · rw [h]
    exact hs.onInputPin value
  · obtain ⟨lcd, hreceive, hvalid⟩ := hs.Receive data
    cases h.symm.trans hreceive
    exact hvalid

theorem Moves.lcd_valid {s t : H838606} (h : Moves s t) (hs : s.lcd.Valid) : t.lcd.Valid := by
  induction h with
  | refl => exact hs
  | tail _ hmove ih => exact hmove.lcd_valid ih

theorem emulates_lcd_valid {localtime : BitVec 64 → Tm}
    {synthesize : BuzzerInformation → τ → τ × BitVec 16} {pw : Adapter H838606 τ}
    (h : Runs (Emulates localtime synthesize)
      (Adapter.created (H838606.reset rom data) sound origin) calls pw) : pw.soc.lcd.Valid :=
  h.invariant (I := fun pw => pw.soc.lcd.Valid)
    (fun _ _ _ hstep => (Follows.step hstep).moves.lcd_valid) SSD1854.valid_init

-- ---------------------------------------------------------------------------
-- Frames
-- ---------------------------------------------------------------------------

def base (lcd : SSD1854) (x : Fin PW_WIDTH) (y : Fin PW_HEIGHT) : Nat :=
  (y.val / 8 + lcd.page_offset.toNat) * 256 + x.val * 2

theorem SSD1854.Valid.base_lt {lcd : SSD1854} (h : lcd.Valid) (x : Fin PW_WIDTH)
    (y : Fin PW_HEIGHT) : base lcd x y + 1 < SSD1854_MEM_SIZE := by
  have hoffset := h.page_offset
  have hx := x.isLt
  have hy := y.isLt
  unfold base
  simp only [PW_WIDTH, PW_HEIGHT, SSD1854_MEM_SIZE] at *
  omega

theorem shade_eq {lcd : SSD1854} (hon : lcd.power_save_mode = false)
    (hhigh : lcd.vram.get? (base lcd x y) = some high)
    (hlow : lcd.vram.get? (base lcd x y + 1) = some low) :
    shade lcd x y =
      some (BitVec.ofBool (high.getLsbD (y % 8)) ++ BitVec.ofBool (low.getLsbD (y % 8))) := by
  unfold base at hhigh hlow
  unfold shade
  simp only [hon, hhigh, hlow, Option.bind_eq_bind, Option.bind_some, Bool.false_eq_true, if_false]
  rfl

theorem SSD1854.Valid.shade {lcd : SSD1854} (h : lcd.Valid) (x : Fin PW_WIDTH)
    (y : Fin PW_HEIGHT) : ∃ s, shade lcd x y = some s ∧
      (SSD1854_PAGES ≤ y.val / 8 + lcd.page_offset.toNat → s = 0) := by
  have hbase := h.base_lt x y
  cases hpower : lcd.power_save_mode with
  | true => exact ⟨0, by simp [Soc.shade, hpower], fun _ => rfl⟩
  | false =>
    have hhigh := Bytes.get?_of_lt lcd.vram (Nat.lt_of_succ_lt hbase)
    have hlow := Bytes.get?_of_lt lcd.vram hbase
    refine ⟨_, shade_eq hpower hhigh hlow, fun hpast => ?_⟩
    have hblank : SSD1854_PAGES * 256 ≤ base lcd x y := by
      unfold base
      simp only [SSD1854_PAGES] at *
      omega
    have hzero := h.blank _ hblank (Nat.lt_of_succ_lt hbase)
    have hzero' := h.blank _ (Nat.le_succ_of_le hblank) hbase
    rw [Option.some.inj (hhigh.symm.trans hzero), Option.some.inj (hlow.symm.trans hzero')]
    simp

/-- Whatever the firmware sends to the LCD, a frame has a colour for every pixel, and
the rows moved past page 15 have the lightest. -/
theorem frame_total {localtime : BitVec 64 → Tm}
    {synthesize : BuzzerInformation → τ → τ × BitVec 16} {pw : Adapter H838606 τ}
    (h : Runs (Emulates localtime synthesize)
      (Adapter.created (H838606.reset rom data) sound origin) calls pw) :
    (∀ byte, (pw.soc.lcd.Receive byte).isSome) ∧
    ∀ x y, ∃ color, pw_frame pw.soc.lcd x y = some color ∧
      (16 ≤ y.val / 8 + pw.soc.lcd.page_offset.toNat → color = palette 0) := by
  have hvalid := emulates_lcd_valid h
  refine ⟨fun byte => ?_, fun x y => ?_⟩
  · obtain ⟨lcd, hreceive, -⟩ := hvalid.Receive byte
    rw [hreceive]
    rfl
  · obtain ⟨s, hshade, hblank⟩ := hvalid.shade x y
    refine ⟨palette s, by simp [pw_frame, hshade], fun hpast => ?_⟩
    rw [hblank hpast]

theorem frame_total_blank : ∃ pw,
    Runs (Emulates (fun _ => {}) (fun _ _ => ((), 0))) blank [.host (.run 100)] pw ∧
    ∀ x y, (pw_frame pw.soc.lcd x y).isSome := by
  obtain ⟨pw, hruns, -⟩ := blank_slice
  refine ⟨pw, hruns, fun x y => ?_⟩
  obtain ⟨color, hcolor, -⟩ := (frame_total hruns).2 x y
  rw [hcolor]
  rfl

-- ---------------------------------------------------------------------------
-- Sending
-- ---------------------------------------------------------------------------

/-- A byte for the LCD, with the level of its data pin. -/
structure LcdByte where
  dc : Bool
  data : Byte
  deriving DecidableEq, Repr

def LcdByte.send (byte : LcdByte) (lcd : SSD1854) : Option SSD1854 :=
  (lcd.onInputPin byte.dc).Receive byte.data

def sendAll (bytes : List LcdByte) (lcd : SSD1854) : Option SSD1854 :=
  bytes.foldlM (fun lcd byte => byte.send lcd) lcd

theorem sendAll_cons (h : LcdByte.send byte lcd = some lcd') (bytes : List LcdByte) :
    sendAll (byte :: bytes) lcd = sendAll bytes lcd' := by
  unfold sendAll
  rw [List.foldlM_cons, h]
  rfl

theorem sendAll_append (xs ys : List LcdByte) (lcd : SSD1854) :
    sendAll (xs ++ ys) lcd = (sendAll xs lcd).bind (sendAll ys) := by
  unfold sendAll
  rw [List.foldlM_append]
  rfl

/-- The next data byte goes to this place in the page. -/
structure At (q : Nat) (lcd : SSD1854) : Prop where
  page : lcd.page.toNat < SSD1854_PAGES
  column : lcd.column = BitVec.ofNat 8 (q / 2)
  offset : lcd.offset = BitVec.ofNat 8 (q % 2)

theorem At.address (h : At q lcd) (hq : q < 256) : lcd.address = lcd.page.toNat * 256 + q := by
  have hpage := h.page
  have hcolumn : lcd.column.toNat = q / 2 := by
    rw [h.column, BitVec.toNat_ofNat]
    omega
  have hoffset : lcd.offset.toNat = q % 2 := by
    rw [h.offset, BitVec.toNat_ofNat]
    omega
  unfold SSD1854.address
  simp only [SSD1854_TOTAL_COLUMNS, SSD1854_COLUMN_SIZE, SSD1854_PAGES] at *
  omega

structure SameMode (lcd lcd' : SSD1854) : Prop where
  page : lcd'.page = lcd.page
  state : lcd'.state = lcd.state
  page_offset : lcd'.page_offset = lcd.page_offset
  power_save_mode : lcd'.power_save_mode = lcd.power_save_mode

theorem SameMode.trans {lcd lcd' lcd'' : SSD1854} (h : SameMode lcd lcd')
    (h' : SameMode lcd' lcd'') : SameMode lcd lcd'' :=
  ⟨h'.page.trans h.page, h'.state.trans h.state, h'.page_offset.trans h.page_offset,
    h'.power_save_mode.trans h.power_save_mode⟩

theorem At.next {lcd : SSD1854} (h : At q lcd) :
    (if lcd.offset = 1 then lcd.column + 1 else lcd.column) = BitVec.ofNat 8 ((q + 1) / 2) ∧
      (lcd.offset + 1) % 2 = BitVec.ofNat 8 ((q + 1) % 2) := by
  rw [h.column, h.offset]
  rcases Nat.mod_two_eq_zero_or_one q with hq | hq
  · have hhalf : (q + 1) / 2 = q / 2 := by omega
    have hodd : (q + 1) % 2 = 1 := by omega
    rw [hq, hhalf, hodd]
    exact ⟨if_neg (by decide), rfl⟩
  · have hhalf : (q + 1) / 2 = q / 2 + 1 := by omega
    have heven : (q + 1) % 2 = 0 := by omega
    rw [hq, hhalf, heven, BitVec.ofNat_add]
    exact ⟨if_pos rfl, rfl⟩

theorem SSD1854.Receive_data (lcd : SSD1854) (hmode : lcd.is_data_mode = true)
    (hcolumn : lcd.column.toNat < SSD1854_TOTAL_COLUMNS)
    (hset : lcd.vram.set? lcd.address data = some m) :
    lcd.Receive data = some { lcd with
      vram := m
      column := if lcd.offset = 1 then lcd.column + 1 else lcd.column
      offset := (lcd.offset + 1) % 2 } := by
  unfold SSD1854.Receive
  rw [if_pos hmode, if_neg (Nat.not_le.mpr hcolumn), hset]
  rfl

theorem At.send {lcd : SSD1854} (h : At q lcd) (hq : q < 256) (data : Byte) :
    ∃ lcd', LcdByte.send ⟨true, data⟩ lcd = some lcd' ∧
      lcd.vram.set? (lcd.page.toNat * 256 + q) data = some lcd'.vram ∧
      At (q + 1) lcd' ∧ SameMode lcd lcd' := by
  have haddress := h.address hq
  have hpage := h.page
  have hcolumn : lcd.column.toNat < SSD1854_TOTAL_COLUMNS := by
    rw [h.column, BitVec.toNat_ofNat]
    simp only [SSD1854_TOTAL_COLUMNS]
    omega
  have hsize : lcd.page.toNat * 256 + q < SSD1854_MEM_SIZE := by
    simp only [SSD1854_PAGES, SSD1854_MEM_SIZE] at *
    omega
  have hset := Bytes.set?_of_lt lcd.vram hsize data
  have hreceive := (lcd.onInputPin true).Receive_data rfl hcolumn
    ((congrArg (lcd.vram.set? · data) haddress).trans hset)
  exact ⟨_, hreceive, hset, ⟨hpage, h.next.1, h.next.2⟩, rfl, rfl, rfl, rfl⟩

/-- A run of data bytes fills the page from left to right. -/
theorem sendAll_data {lcd : SSD1854} {data : List Byte} (h : At q lcd)
    (hq : q + data.length ≤ 256) :
    ∃ lcd', sendAll (data.map (⟨true, ·⟩)) lcd = some lcd' ∧
      lcd.vram.setAll? (lcd.page.toNat * 256 + q) data = some lcd'.vram ∧ SameMode lcd lcd' := by
  induction data generalizing q lcd with
  | nil => exact ⟨lcd, rfl, rfl, rfl, rfl, rfl, rfl⟩
  | cons byte data ih =>
    rw [List.length_cons] at hq
    obtain ⟨lcd₁, hsend, hset, hat, hmode⟩ := h.send (by omega) byte
    obtain ⟨lcd', hrest, hsetAll, hmode'⟩ := ih hat (by omega)
    rw [hmode.page] at hsetAll
    refine ⟨lcd', ?_, ?_, hmode.trans hmode'⟩
    · rw [List.map_cons, sendAll_cons hsend]
      exact hrest
    · rw [Bytes.setAll?, hset, Option.bind_some, Nat.add_assoc]
      exact hsetAll

-- ---------------------------------------------------------------------------
-- Pages
-- ---------------------------------------------------------------------------

def selectPage (page : Nat) : List LcdByte :=
  [⟨false, SSD1854_CMD_SET_PAGE_MIN + BitVec.ofNat 8 page⟩, ⟨false, 0x00⟩,
    ⟨false, SSD1854_CMD_COL_HIGH_MIN⟩]

def sendPage (page : Nat) (data : List Byte) : List LcdByte :=
  selectPage page ++ data.map (⟨true, ·⟩)

def sendPages : Nat → List (List Byte) → List LcdByte
  | _, [] => []
  | page, data :: pages => sendPage page data ++ sendPages (page + 1) pages

theorem HandleCommand_page (lcd : SSD1854) (hpage : page < SSD1854_PAGES) :
    lcd.HandleCommand (SSD1854_CMD_SET_PAGE_MIN + BitVec.ofNat 8 page) =
      { lcd with page := BitVec.ofNat 8 page, state := .IDLE } := by
  simp only [SSD1854_PAGES] at hpage
  interval_cases page <;> rfl

theorem HandleCommand_column (lcd : SSD1854) :
    (lcd.HandleCommand 0x00).HandleCommand SSD1854_CMD_COL_HIGH_MIN =
      { lcd with column := 0, offset := 0, state := .IDLE } := by
  have hcolumn : ∀ column : Byte, (((column &&& 0xF0) ||| ((0 : Byte) &&& 0x0F)) &&& 0x0F) |||
      ((SSD1854_CMD_COL_HIGH_MIN &&& 0b111) <<< 4) = 0 := by decide
  have hcommands : (lcd.HandleCommand 0x00).HandleCommand SSD1854_CMD_COL_HIGH_MIN =
      { lcd with
        column := (((lcd.column &&& 0xF0) ||| ((0 : Byte) &&& 0x0F)) &&& 0x0F) |||
          ((SSD1854_CMD_COL_HIGH_MIN &&& 0b111) <<< 4)
        offset := 0, state := .IDLE } := rfl
  rw [hcommands, hcolumn]

theorem SSD1854.Receive_command (lcd : SSD1854) (hmode : lcd.is_data_mode = false)
    (hidle : lcd.state = .IDLE) (data : Byte) :
    lcd.Receive data = some (lcd.HandleCommand data) := by
  unfold SSD1854.Receive
  rw [hmode, hidle]
  rfl

theorem sendAll_selectPage {lcd : SSD1854} (hidle : lcd.state = .IDLE)
    (hpage : page < SSD1854_PAGES) : ∃ lcd', sendAll (selectPage page) lcd = some lcd' ∧
      At 0 lcd' ∧ lcd'.page = BitVec.ofNat 8 page ∧ lcd'.vram = lcd.vram ∧ lcd'.state = .IDLE ∧
      lcd'.page_offset = lcd.page_offset ∧ lcd'.power_save_mode = lcd.power_save_mode := by
  have hfirst : LcdByte.send ⟨false, SSD1854_CMD_SET_PAGE_MIN + BitVec.ofNat 8 page⟩ lcd =
      some { lcd.onInputPin false with page := BitVec.ofNat 8 page, state := .IDLE } := by
    rw [← HandleCommand_page _ hpage]
    exact (lcd.onInputPin false).Receive_command rfl hidle _
  generalize hselected : { lcd.onInputPin false with
    page := BitVec.ofNat 8 page, state := .IDLE } = selected at hfirst
  have hsecond : LcdByte.send ⟨false, 0x00⟩ selected = some (selected.HandleCommand 0x00) := by
    subst hselected
    rfl
  have hthird : LcdByte.send ⟨false, SSD1854_CMD_COL_HIGH_MIN⟩ (selected.HandleCommand 0x00) =
      some ((selected.HandleCommand 0x00).HandleCommand SSD1854_CMD_COL_HIGH_MIN) := by
    subst hselected
    rfl
  refine ⟨(selected.HandleCommand 0x00).HandleCommand SSD1854_CMD_COL_HIGH_MIN, ?_, ?_⟩
  · unfold selectPage
    rw [sendAll_cons hfirst, sendAll_cons hsecond, sendAll_cons hthird]
    rfl
  · rw [HandleCommand_column, ← hselected]
    refine ⟨⟨?_, rfl, rfl⟩, rfl, rfl, rfl, rfl, rfl⟩
    change (BitVec.ofNat 8 page).toNat < SSD1854_PAGES
    rw [BitVec.toNat_ofNat]
    exact Nat.lt_of_le_of_lt (Nat.mod_le _ _) hpage

structure SameSettings (lcd lcd' : SSD1854) : Prop where
  page_offset : lcd'.page_offset = lcd.page_offset
  power_save_mode : lcd'.power_save_mode = lcd.power_save_mode

theorem sendAll_page {lcd : SSD1854} {data : List Byte} (hidle : lcd.state = .IDLE)
    (hpage : page < SSD1854_PAGES) (hdata : data.length ≤ 256) :
    ∃ lcd', sendAll (sendPage page data) lcd = some lcd' ∧
      lcd.vram.setAll? (page * 256) data = some lcd'.vram ∧ lcd'.state = .IDLE ∧
      SameSettings lcd lcd' := by
  obtain ⟨lcd₁, hselect, hat, hpage₁, hvram, hstate, hoffset, hpower⟩ :=
    sendAll_selectPage hidle hpage
  obtain ⟨lcd', hsend, hset, hmode⟩ := sendAll_data hat (by rwa [Nat.zero_add])
  have hnumber : lcd₁.page.toNat = page := by
    simp only [SSD1854_PAGES] at hpage
    rw [hpage₁, BitVec.toNat_ofNat]
    omega
  rw [hnumber, hvram, Nat.add_zero] at hset
  refine ⟨lcd', ?_, hset, hmode.state.trans hstate, hmode.page_offset.trans hoffset,
    hmode.power_save_mode.trans hpower⟩
  rw [sendPage, sendAll_append, hselect]
  exact hsend

/-- Pages one after the other are stored one after the other. -/
theorem sendAll_pages {lcd : SSD1854} {pages : List (List Byte)} (hidle : lcd.state = .IDLE)
    (hpages : page + pages.length ≤ SSD1854_PAGES) (hdata : ∀ data ∈ pages, data.length ≤ 256) :
    ∃ lcd', sendAll (sendPages page pages) lcd = some lcd' ∧ lcd'.state = .IDLE ∧
      SameSettings lcd lcd' ∧ (∀ i, i < page * 256 → lcd'.vram.get? i = lcd.vram.get? i) ∧
      ∀ k data, pages[k]? = some data → ∀ j, j < data.length →
        lcd'.vram.get? ((page + k) * 256 + j) = data[j]? := by
  induction pages generalizing page lcd with
  | nil => exact ⟨lcd, rfl, hidle, ⟨rfl, rfl⟩, fun _ _ => rfl, nofun⟩
  | cons data pages ih =>
    rw [List.length_cons] at hpages
    have hpage : page < SSD1854_PAGES := by omega
    have hnext : page + 1 + pages.length ≤ SSD1854_PAGES := by omega
    have hlength := hdata data List.mem_cons_self
    obtain ⟨lcd₁, hfirst, hset, hstate, hsame⟩ := sendAll_page hidle hpage hlength
    obtain ⟨lcd', hrest, hidle', hsame', hbefore, hstored⟩ := ih hstate hnext
      fun data' h => hdata data' (List.mem_cons_of_mem _ h)
    refine ⟨lcd', ?_, hidle', ⟨hsame'.page_offset.trans hsame.page_offset,
      hsame'.power_save_mode.trans hsame.power_save_mode⟩, fun i hi => ?_, ?_⟩
    · rw [sendPages, sendAll_append, hfirst]
      exact hrest
    · have hi' : i < (page + 1) * 256 := Nat.lt_of_lt_of_le hi (Nat.mul_le_mul_right 256 (by omega))
      rw [hbefore i hi']
      exact Bytes.get?_setAll?_outside hset (.inl hi)
    · intro k data' hk j hj
      cases k with
      | zero =>
        cases hk
        rw [Nat.add_zero, hbefore _ (by omega)]
        exact Bytes.get?_setAll?_inside hset hj
      | succ k =>
        rw [show page + (k + 1) = page + 1 + k by omega]
        exact hstored k data' hk j hj

-- ---------------------------------------------------------------------------
-- Pictures
-- ---------------------------------------------------------------------------

def packed (bit : Nat → Bool) : Byte := (BitVec.ofBoolListLE ((List.range 8).map bit)).setWidth 8

theorem getLsbD_packed (bit : Nat → Bool) (hi : i < 8) : (packed bit).getLsbD i = bit i := by
  rw [packed, BitVec.getLsbD_setWidth, BitVec.getLsbD_ofBoolListLE]
  simp [hi]

/-- A page of a picture: for each column the high bits, then the low bits. -/
def pageData (pixels : Nat → Nat → BitVec 2) (k : Nat) : List Byte :=
  (List.range (PW_WIDTH * 2)).map fun j =>
    packed fun i => (pixels (j / 2) (k * 8 + i)).getLsbD (1 - j % 2)

/-- A picture for the pages from `first` on, and the offset that shows them. -/
def picture (first : Nat) (pixels : Nat → Nat → BitVec 2) : List LcdByte :=
  sendPages first ((List.range (PW_HEIGHT / 8)).map (pageData pixels)) ++
    [⟨false, SSD1854_CMD_SET_PAGE_OFFSET_MIN⟩, ⟨false, BitVec.ofNat 8 (first * 8)⟩]

theorem pageData_get (pixels : Nat → Nat → BitVec 2) (hj : j < PW_WIDTH * 2) :
    (pageData pixels k)[j]? =
      some (packed fun i => (pixels (j / 2) (k * 8 + i)).getLsbD (1 - j % 2)) := by
  simp [pageData, hj]

theorem sendAll_offset {lcd : SSD1854} (hidle : lcd.state = .IDLE) (hfirst : first ≤ 8) :
    ∃ lcd', sendAll [⟨false, SSD1854_CMD_SET_PAGE_OFFSET_MIN⟩, ⟨false, BitVec.ofNat 8 (first * 8)⟩]
      lcd = some lcd' ∧ lcd'.vram = lcd.vram ∧ lcd'.page_offset.toNat = first ∧
        lcd'.power_save_mode = lcd.power_save_mode := by
  have hcommand : LcdByte.send ⟨false, SSD1854_CMD_SET_PAGE_OFFSET_MIN⟩ lcd =
      some { lcd.onInputPin false with state := .SET_PAGE_OFFSET } :=
    (lcd.onInputPin false).Receive_command rfl hidle _
  rw [sendAll_cons hcommand]
  refine ⟨_, rfl, rfl, ?_, rfl⟩
  interval_cases first <;> rfl

theorem pixel_bits (pixel : BitVec 2) :
    BitVec.ofBool (pixel.getLsbD 1) ++ BitVec.ofBool (pixel.getLsbD 0) = pixel := by
  revert pixel
  decide

theorem stored_pixel {lcd : SSD1854} {pixels : Nat → Nat → BitVec 2} (x : Fin PW_WIDTH)
    (y : Fin PW_HEIGHT)
    (hstored : ∀ j, j < PW_WIDTH * 2 → lcd.vram.get? (base lcd x y - x.val * 2 + j) =
      (pageData pixels (y.val / 8))[j]?) (hon : lcd.power_save_mode = false) :
    shade lcd x y = some (pixels x y) := by
  have hx : x.val < PW_WIDTH := x.isLt
  have hbase : base lcd x y - x.val * 2 + x.val * 2 = base lcd x y := Nat.sub_add_cancel (by
    unfold base
    omega)
  have hhigh := hstored (x.val * 2) (by omega)
  have hlow := hstored (x.val * 2 + 1) (by omega)
  rw [pageData_get _ (by omega), hbase] at hhigh
  rw [pageData_get _ (by omega), ← Nat.add_assoc, hbase] at hlow
  have hbit : y.val % 8 < 8 := Nat.mod_lt _ (by decide)
  have hrow : y.val / 8 * 8 + y.val % 8 = y.val := by omega
  rw [shade_eq hon hhigh hlow, getLsbD_packed _ hbit, getLsbD_packed _ hbit, hrow,
    show x.val * 2 / 2 = x.val by omega, show x.val * 2 % 2 = 0 by omega,
    show (x.val * 2 + 1) / 2 = x.val by omega, show (x.val * 2 + 1) % 2 = 1 by omega]
  exact congrArg some (pixel_bits _)

/-- A picture that is sent to an LCD that is on and expects a command is the frame, on
whichever eight pages it is stored. -/
theorem picture_shown {lcd : SSD1854} (hidle : lcd.state = .IDLE)
    (hon : lcd.power_save_mode = false) (hfirst : first ≤ 8) (pixels : Nat → Nat → BitVec 2) :
    ∃ lcd', sendAll (picture first pixels) lcd = some lcd' ∧
      ∀ x y, pw_frame lcd' x y = some (palette (pixels x y)) := by
  have hpages : first + ((List.range (PW_HEIGHT / 8)).map (pageData pixels)).length ≤
      SSD1854_PAGES := by
    simp only [List.length_map, List.length_range, PW_HEIGHT, SSD1854_PAGES]
    omega
  obtain ⟨lcd₁, hsend, hidle₁, hsame, -, hstored⟩ := sendAll_pages hidle hpages (by
    intro data hdata
    obtain ⟨k, -, rfl⟩ := List.mem_map.mp hdata
    simp [pageData, PW_WIDTH])
  obtain ⟨lcd', hoffset, hvram, hshown, hpower⟩ := sendAll_offset hidle₁ hfirst
  refine ⟨lcd', ?_, fun x y => ?_⟩
  · rw [picture, sendAll_append, hsend]
    exact hoffset
  · have hon' : lcd'.power_save_mode = false := by rw [hpower, hsame.power_save_mode, hon]
    have hrow : y.val / 8 < PW_HEIGHT / 8 := Nat.div_lt_of_lt_mul y.isLt
    have hpage : ((List.range (PW_HEIGHT / 8)).map (pageData pixels))[y.val / 8]? =
        some (pageData pixels (y.val / 8)) := by
      rw [List.getElem?_map, List.getElem?_range hrow]
      rfl
    have hpixel : shade lcd' x y = some (pixels x y) := by
      refine stored_pixel x y (fun j hj => ?_) hon'
      rw [base, hshown, hvram, Nat.add_sub_cancel, Nat.add_comm (y.val / 8)]
      exact hstored _ _ hpage j (by simpa [pageData] using hj)
    rw [pw_frame, hpixel]
    rfl

/-- A picture on the LCD as it is created. -/
theorem picture_shown_chessboard :
    ∃ lcd', sendAll (picture 4 fun x y => BitVec.ofNat 2 (x + y)) {} = some lcd' ∧
      pw_frame lcd' ⟨1, by decide⟩ ⟨2, by decide⟩ = some 0x2b3726 := by
  obtain ⟨lcd', hsend, hshown⟩ := @picture_shown 4 {} rfl rfl (show 4 ≤ 8 by decide)
    fun x y => BitVec.ofNat 2 (x + y)
  exact ⟨lcd', hsend, hshown ⟨1, by decide⟩ ⟨2, by decide⟩⟩

end PokeStroller.Soc
