import DigitalModulation.Graphics.PixelBytes

/-!
# `vid_scroll_string`

A string runs through a window from right to left. Each call that comes when it is time moves it by
one column and writes the columns it has now, and nothing else.

* `VidTextScrollStruct`, `vidScrollStringInit`, `vidScrollString`: the record and the functions;
* `tapeColor`: the string as a tape of columns, with the background on both sides;
* `afterMoves`: the record after so many moves, which is periodic;
* `Shows`: the window shows the tape from where the record says on;
* `vidScrollString_spec`, `scroll_string`: one call, and every sequence of calls.
-/

namespace DigitalModulation

structure VidTextScrollStruct where
  hbegin : ℤ
  vbegin : ℤ
  hend : ℤ
  fColor : BitVec 32
  bColor : BitVec 32
  string : List (BitVec 8)
  font : ℤ → BitVec 8
  msDelay : BitVec 32
  ticksAtLastMove : BitVec 32
  textScrollIndex : ℤ
  textScrollStarted : Bool
  windowWidth : ℤ
  lengthOfString : ℤ
  stringPoints : ℤ
  scrollPoints : ℤ

/-- `vid_scroll_string_init`, of a string without the byte that ends it. -/
def vidScrollStringInit (hbegin vbegin hend : ℤ) (fColor bColor : BitVec 32)
    (font : ℤ → BitVec 8) (msDelay : BitVec 32) (string : List (BitVec 8)) (nticks : BitVec 32) :
    VidTextScrollStruct where
  hbegin := hbegin
  vbegin := vbegin
  hend := hend
  fColor := fColor
  bColor := bColor
  string := string
  font := font
  msDelay := msDelay
  ticksAtLastMove := nticks
  textScrollIndex := 0
  textScrollStarted := false
  windowWidth := hend - hbegin
  lengthOfString := string.length
  stringPoints := string.length * 8
  scrollPoints := hend - hbegin + string.length * 8

/-- What a call of `vid_scroll_string` finds: `alt_nticks` when it compares and when it stores,
`alt_ticks_per_second`, and the scratch buffer of the lines. -/
structure ScrollCall where
  nticks : BitVec 32
  nticksAtMove : BitVec 32
  ticksPerSecond : BitVec 32
  buffer : ℕ → BitVec 8

namespace VidTextScrollStruct

/-- It is time to move the scroll. -/
def IsTime (scroll : VidTextScrollStruct) (call : ScrollCall) : Prop :=
  scroll.ticksAtLastMove + call.ticksPerSecond * scroll.msDelay / 1000 ≤ call.nticks

instance (scroll : VidTextScrollStruct) (call : ScrollCall) : Decidable (scroll.IsTime call) :=
  inferInstanceAs (Decidable (_ ≤ _))

/-- Where the scroll goes on. -/
def track (scroll : VidTextScrollStruct) : VidTextScrollStruct :=
  if scroll.textScrollStarted = false then
    { scroll with textScrollIndex := 0, textScrollStarted := true }
  else if scroll.scrollPoints ≤ scroll.textScrollIndex then
    { scroll with textScrollStarted := false }
  else { scroll with textScrollIndex := scroll.textScrollIndex + 1 }

def xStart (scroll : VidTextScrollStruct) : ℤ :=
  if scroll.textScrollIndex < scroll.windowWidth then
    scroll.hbegin + scroll.windowWidth - scroll.textScrollIndex
  else scroll.hbegin

def xEnd (scroll : VidTextScrollStruct) : ℤ :=
  if scroll.textScrollIndex < scroll.stringPoints then scroll.hend
  else scroll.hend - scroll.textScrollIndex + scroll.stringPoints

/-- A byte of the string, of which the last one is zero; there is none behind it. -/
def readString (scroll : VidTextScrollStruct) (i : ℤ) : Option (BitVec 8) :=
  if 0 ≤ i then (scroll.string ++ [0])[i.toNat]? else none

/-- The bit of the font that a row and the mask of a column select. -/
def FontBit (font : ℤ → BitVec 8) (character : BitVec 8) (charRow charColumn : ℕ) : Prop :=
  let columnMask : BitVec 8 := (0x80#32 >>> charColumn).setWidth 8
  (font ((character.toInt - 0x20) * 11 + charRow)).signExtend 32 &&& columnMask.signExtend 32 ≠ 0

instance (font : ℤ → BitVec 8) (character : BitVec 8) (charRow charColumn : ℕ) :
    Decidable (FontBit font character charRow charColumn) :=
  inferInstanceAs (Decidable (_ ≠ _))

/-- A column of the string, in the column `x_index` of the display. -/
def column (scroll : VidTextScrollStruct) (xIndex : ℤ) : Option (List Pixel) :=
  let stringXIndex :=
    if scroll.textScrollIndex < scroll.windowWidth then xIndex - scroll.xStart
    else scroll.textScrollIndex - scroll.windowWidth + xIndex - scroll.xStart
  (scroll.readString (stringXIndex.tdiv 8)).map fun character =>
    (List.range 11).map fun charRow : ℕ => ((xIndex, scroll.vbegin + charRow),
      if FontBit scroll.font character charRow (stringXIndex.tmod 8).toNat then scroll.fColor
      else scroll.bColor)

/-- The columns that are written, and the line that erases what is left of the last ones. -/
def draw (scroll : VidTextScrollStruct) (buffer : ℕ → BitVec 8) (display : VipFrameReader) :
    Option (List Store) :=
  ((List.range (scroll.xEnd - scroll.xStart).toNat).mapM fun i : ℕ =>
    scroll.column (scroll.xStart + i)).map fun columns =>
      columns.flatten.flatMap (vidSetPixel display) ++
        (vidDrawLine scroll.xEnd scroll.vbegin scroll.xEnd (scroll.vbegin + 10) 1
          scroll.bColor).stores buffer display

end VidTextScrollStruct

/-- `vid_scroll_string`, on the record and the memory. -/
def vidScrollString (display : VipFrameReader) (s : VidTextScrollStruct × (ℤ → BitVec 8))
    (call : ScrollCall) : Option (VidTextScrollStruct × (ℤ → BitVec 8)) :=
  if s.1.IsTime call then
    let scroll := { s.1 with ticksAtLastMove := call.nticksAtMove }.track
    (scroll.draw call.buffer display).map fun stores => (scroll, Canvas.paint s.2 stores)
  else some s

namespace VidTextScrollStruct

/-! ### The tape -/

/-- The colour in a column and a row of the string, and the background on both sides of it. -/
def tapeColor (scroll : VidTextScrollStruct) (k : ℤ) (row : ℕ) : BitVec 32 :=
  if 0 ≤ k then
    scroll.string[(k / 8).toNat]?.elim scroll.bColor fun character =>
      if (scroll.font ((character.toInt - 0x20) * 11 + row)).getLsbD (7 - (k % 8).toNat) then
        scroll.fColor
      else scroll.bColor
  else scroll.bColor

theorem tapeColor_of_neg {scroll : VidTextScrollStruct} {k : ℤ} (hk : k < 0) (row : ℕ) :
    scroll.tapeColor k row = scroll.bColor := by
  unfold tapeColor
  rw [if_neg (by omega)]

theorem tapeColor_of_le {scroll : VidTextScrollStruct} {k : ℤ}
    (hk : scroll.string.length * 8 ≤ k) (row : ℕ) : scroll.tapeColor k row = scroll.bColor := by
  unfold tapeColor
  rw [if_pos (by omega), List.getElem?_eq_none (by omega)]
  rfl

/-- The mask selects one bit of the row. -/
theorem fontBit_iff (font : ℤ → BitVec 8) (character : BitVec 8) (row : ℕ) {col : ℕ}
    (hcol : col < 8) : FontBit font character row col ↔
      (font ((character.toInt - 0x20) * 11 + row)).getLsbD (7 - col) := by
  have hbit : ∀ (col : Fin 8) (byte : BitVec 8), byte.signExtend 32 &&&
      ((0x80#32 >>> col.val).setWidth 8).signExtend 32 ≠ 0 ↔ byte.getLsbD (7 - col.val) := by
    decide +kernel
  exact hbit ⟨col, hcol⟩ _

/-! ### The columns that are written -/

/-- The sizes are those that `vid_scroll_string_init` computes. -/
structure WellFormed (scroll : VidTextScrollStruct) : Prop where
  windowWidth : scroll.windowWidth = scroll.hend - scroll.hbegin
  stringPoints : scroll.stringPoints = scroll.string.length * 8
  scrollPoints : scroll.scrollPoints = scroll.windowWidth + scroll.stringPoints

/-- The place on the tape that a column of the display shows. -/
def tapePlace (scroll : VidTextScrollStruct) (x : ℤ) : ℤ :=
  scroll.textScrollIndex - scroll.windowWidth + (x - scroll.hbegin)

/-- The pixels that are set when the scroll is written. -/
def pixels (scroll : VidTextScrollStruct) : List Pixel :=
  ((List.range (scroll.xEnd - scroll.xStart).toNat).flatMap fun i : ℕ =>
    (List.range 11).map fun row : ℕ => ((scroll.xStart + i, scroll.vbegin + row),
      scroll.tapeColor (scroll.tapePlace (scroll.xStart + i)) row)) ++
    (vidDrawLine scroll.xEnd scroll.vbegin scroll.xEnd (scroll.vbegin + 10) 1 scroll.bColor).pixels

section Columns

variable {scroll : VidTextScrollStruct} {x : ℤ}

/-- Only places of the string are written, no others of the tape. -/
theorem tapePlace_bounds (h : scroll.WellFormed) (hx : scroll.xStart ≤ x ∧ x < scroll.xEnd) :
    0 ≤ scroll.tapePlace x ∧ scroll.tapePlace x < scroll.string.length * 8 := by
  have hwidth := h.windowWidth
  have hpoints := h.stringPoints
  unfold xStart xEnd at hx
  unfold tapePlace
  grind

theorem column_eq (h : scroll.WellFormed) (hx : scroll.xStart ≤ x ∧ x < scroll.xEnd) :
    scroll.column x = some ((List.range 11).map fun row : ℕ =>
      ((x, scroll.vbegin + row), scroll.tapeColor (scroll.tapePlace x) row)) := by
  have hplace : (if scroll.textScrollIndex < scroll.windowWidth then x - scroll.xStart
      else scroll.textScrollIndex - scroll.windowWidth + x - scroll.xStart) =
      scroll.tapePlace x := by
    unfold xStart tapePlace
    split_ifs <;> ring
  obtain ⟨h0, hlt⟩ := tapePlace_bounds h hx
  unfold column
  rw [hplace]
  dsimp only
  rw [Int.tdiv_eq_ediv_of_nonneg h0, Int.tmod_eq_emod_of_nonneg h0]
  have hlength : (scroll.tapePlace x / 8).toNat < scroll.string.length := by omega
  have hread : scroll.readString (scroll.tapePlace x / 8) =
      some scroll.string[(scroll.tapePlace x / 8).toNat] := by
    unfold readString
    rw [if_pos (by omega), List.getElem?_append_left hlength, List.getElem?_eq_getElem hlength]
  rw [hread]
  refine congrArg some (List.map_congr_left fun row _ => ?_)
  congr 1
  unfold tapeColor
  rw [if_pos h0, List.getElem?_eq_getElem hlength]
  exact if_congr (fontBit_iff _ _ _ (by omega)) rfl rfl

/-- Calls that all succeed, in a list. -/
theorem mapM_eq_some {α β : Type*} {f : α → Option β} {g : α → β} {as : List α}
    (h : ∀ a ∈ as, f a = some (g a)) : as.mapM f = some (as.map g) := by
  induction as with
  | nil => rfl
  | cons a as ih =>
    rw [List.forall_mem_cons] at h
    rw [List.mapM_cons, h.1, ih h.2]
    rfl

/-- **The string is read inside its length only**, and the stores are those of the pixels. -/
theorem draw_eq {display : VipFrameReader} (hdepth : display.HasDepth) (h : scroll.WellFormed)
    (buffer : ℕ → BitVec 8) :
    scroll.draw buffer display = some (scroll.pixels.flatMap (vidSetPixel display)) := by
  unfold draw
  rw [mapM_eq_some fun i hi => column_eq h (by rw [List.mem_range] at hi; omega), Option.map_some,
    LineCall.stores_eq_pixels hdepth, pixels, List.flatMap_append, ← List.flatMap_def]

/-! ### The window -/

/-- The window is in columns of the display, one to the right of it too, and the rows are small
numbers. -/
structure WindowFits (display : VipFrameReader) (scroll : VidTextScrollStruct) : Prop where
  hasDepth : display.HasDepth
  left : 0 ≤ scroll.hbegin
  width : scroll.hbegin ≤ scroll.hend
  right : scroll.hend < display.width
  small : scroll.hend < 2 ^ 16
  top : 0 ≤ scroll.vbegin
  bottom : scroll.vbegin + 11 < 2 ^ 16

/-- The number of the column that enters next is one that occurs. -/
structure IndexFits (scroll : VidTextScrollStruct) : Prop where
  nonneg : 0 ≤ scroll.textScrollIndex
  le : scroll.textScrollIndex ≤ scroll.scrollPoints

/-- The window shows the tape. -/
def Shows (scroll : VidTextScrollStruct) (display : VipFrameReader) (mem : ℤ → BitVec 8) : Prop :=
  ∀ x, scroll.hbegin ≤ x → x < scroll.hend → ∀ row : ℕ, row < 11 →
    display.pixelBytes mem (x, scroll.vbegin + row) =
      colorBytes display (scroll.tapeColor (scroll.tapePlace x) row)

variable {display : VipFrameReader}

theorem xEnd_bounds (hwf : scroll.WellFormed) (hfits : WindowFits display scroll)
    (hindex : scroll.IndexFits) : scroll.hbegin ≤ scroll.xStart ∧ scroll.xStart ≤ scroll.xEnd ∧
      scroll.xEnd ≤ scroll.hend := by
  obtain ⟨hwidth, hpoints, hscroll⟩ := hwf
  obtain ⟨h0, hle⟩ := hindex
  have hle' := hfits.width
  unfold xEnd xStart
  grind

/-- Every pixel that is set shows the tape, and one at the right end of the window at most erases
what is there. -/
theorem mem_pixels (hwf : scroll.WellFormed) (hfits : WindowFits display scroll)
    (hindex : scroll.IndexFits) {p : Pixel} : p ∈ scroll.pixels ↔
      (scroll.xStart ≤ p.1.1 ∧ p.1.1 < scroll.xEnd ∨ p.1.1 = scroll.xEnd) ∧
      ∃ row : ℕ, row < 11 ∧ p.1.2 = scroll.vbegin + row ∧
        p.2 = if p.1.1 < scroll.xEnd then scroll.tapeColor (scroll.tapePlace p.1.1) row
          else scroll.bColor := by
  obtain ⟨hleft, hle, hright⟩ := xEnd_bounds hwf hfits hindex
  have h0 := hfits.left
  have hsmall := hfits.small
  have htop := hfits.top
  have hbottom := hfits.bottom
  rw [pixels, List.mem_append,
    mem_vidDrawLine_vert ⟨by omega, by omega⟩ htop (by omega) (by omega)]
  simp only [List.mem_flatMap, List.mem_map, List.mem_range]
  constructor
  · rintro (⟨i, hi, row, hrow, rfl⟩ | ⟨hcol, hrow, hrow', hcolor⟩)
    · have hcol : scroll.xStart + i < scroll.xEnd := by omega
      exact ⟨.inl ⟨by simp, hcol⟩, row, hrow, rfl, by rw [if_pos hcol]⟩
    · exact ⟨.inr hcol, (p.1.2 - scroll.vbegin).toNat, by omega, by omega,
        by rw [if_neg (by omega), hcolor]⟩
  · rintro ⟨⟨hstart, hend⟩ | hcol, row, hrow, hvert, hcolor⟩
    · rw [if_pos hend] at hcolor
      have hx : scroll.xStart + ((p.1.1 - scroll.xStart).toNat : ℤ) = p.1.1 := by omega
      refine .inl ⟨(p.1.1 - scroll.xStart).toNat, by omega, row, hrow, ?_⟩
      rw [hx, ← hvert, ← hcolor]
    · rw [if_neg (by omega)] at hcolor
      exact .inr ⟨hcol, by omega, by omega, hcolor⟩

/-- A column of the window that is not written shows the background, as it did before the string
came one column further. -/
theorem tapeColor_of_not_written (hwf : scroll.WellFormed)
    (hx : scroll.hbegin ≤ x ∧ x < scroll.hend)
    (hne : ¬ (scroll.xStart ≤ x ∧ x ≤ scroll.xEnd)) {k : ℤ}
    (hk : k = scroll.tapePlace x ∨ k + 1 = scroll.tapePlace x) (row : ℕ) :
    scroll.tapeColor k row = scroll.bColor := by
  have hout : k < 0 ∨ scroll.string.length * 8 ≤ k := by
    have hwidth := hwf.windowWidth
    have hpoints := hwf.stringPoints
    unfold xStart xEnd at hne
    unfold tapePlace at hk
    grind
  rcases hout with hout | hout
  · exact tapeColor_of_neg hout row
  · exact tapeColor_of_le hout row

/-- **Writing the columns makes the window show the tape**, if those that are not written show the
background already. -/
theorem shows_paint (hwf : scroll.WellFormed) (hfits : WindowFits display scroll)
    (hindex : scroll.IndexFits) {mem : ℤ → BitVec 8}
    (hold : ∀ x, scroll.hbegin ≤ x → x < scroll.hend → ¬ (scroll.xStart ≤ x ∧ x ≤ scroll.xEnd) →
      ∀ row : ℕ, row < 11 →
        display.pixelBytes mem (x, scroll.vbegin + row) = colorBytes display scroll.bColor) :
    scroll.Shows display (Canvas.paint mem (scroll.pixels.flatMap (vidSetPixel display))) := by
  intro x hx hx' row hrow
  have hmem {p : Pixel} := mem_pixels (p := p) hwf hfits hindex
  obtain ⟨hleft, hle, hright⟩ := xEnd_bounds hwf hfits hindex
  have h0 := hfits.left
  have hwide := hfits.right
  -- All pixels that are set are in columns of the display.
  have hcolumn {p : Pixel} (hp : p ∈ scroll.pixels) : display.HasColumn p.1 := by
    obtain ⟨hcol, -⟩ := hmem.mp hp
    exact ⟨by omega, by omega⟩
  by_cases hwritten : scroll.xStart ≤ x ∧ x ≤ scroll.xEnd
  · obtain ⟨p, hp, hplace⟩ : ∃ p ∈ scroll.pixels, p.1 = (x, scroll.vbegin + (row : ℤ)) :=
      ⟨(_, if x < scroll.xEnd then scroll.tapeColor (scroll.tapePlace x) row else scroll.bColor),
        hmem.mpr ⟨by dsimp only; omega, row, hrow, rfl, rfl⟩, rfl⟩
    have hcolor : ∀ p' ∈ scroll.pixels, p'.1 = (x, scroll.vbegin + (row : ℤ)) →
        p'.2 = scroll.tapeColor (scroll.tapePlace x) row := by
      rintro ⟨-, color⟩ hp' rfl
      obtain ⟨-, row', -, hvert, hcol⟩ := hmem.mp hp'
      dsimp only at hvert hcol
      have hsame : row' = row := by omega
      rw [hcol, hsame]
      split_ifs with hlt
      · rfl
      · -- The column that is erased comes behind the string.
        refine (tapeColor_of_le ?_ row).symm
        have hwidth := hwf.windowWidth
        have hpoints := hwf.stringPoints
        unfold xEnd at hlt
        unfold tapePlace
        grind
    rw [← hplace, pixelBytes_of_mem hfits.hasDepth hp, hcolor p hp hplace]
    intro p' hp' heq
    rw [hcolor p hp hplace, hcolor p' hp'
      ((VipFrameReader.pixelIndex_inj (hcolumn hp') (hcolumn hp) heq).trans hplace)]
  · rw [pixelBytes_of_forall_ne hfits.hasDepth, hold x hx hx' hwritten row hrow,
      tapeColor_of_not_written hwf ⟨hx, hx'⟩ hwritten (.inl rfl)]
    intro p hp heq
    have hplace := VipFrameReader.pixelIndex_inj (hcolumn hp) ⟨by dsimp only; omega,
      by dsimp only; omega⟩ heq
    obtain ⟨hcol, -⟩ := hmem.mp hp
    rw [hplace] at hcol
    dsimp only at hcol
    omega

end Columns

/-! ### Moves -/

/-- The number of the column that enters after so many moves: it goes up to the last one, stays
there for one move and starts again. -/
def moveIndex (points : ℕ) : ℕ → ℕ
  | 0 => 0
  | k + 1 => min (k % (points + 2)) points

/-- The record after so many moves, the last of them at some time. -/
def afterMoves (scroll : VidTextScrollStruct) (k : ℕ) (ticks : BitVec 32) : VidTextScrollStruct :=
  let points := scroll.scrollPoints.toNat
  { scroll with
    ticksAtLastMove := ticks
    textScrollIndex := moveIndex points k
    textScrollStarted := decide (0 < k ∧ (k - 1) % (points + 2) ≤ points) }

/-- How often it is time for a move, given the time of the last one. -/
def movesMade (msDelay : BitVec 32) : BitVec 32 → List ScrollCall → ℕ
  | _, [] => 0
  | ticks, call :: calls =>
    if ticks + call.ticksPerSecond * msDelay / 1000 ≤ call.nticks then
      movesMade msDelay call.nticksAtMove calls + 1
    else movesMade msDelay ticks calls

theorem moveIndex_le (points k : ℕ) : moveIndex points k ≤ points := by
  cases k with
  | zero => exact Nat.zero_le points
  | succ k => exact min_le_right _ _

theorem mod_succ (k points : ℕ) :
    (if k % (points + 2) < points + 1 then k % (points + 2) + 1 else 0) = (k + 1) % (points + 2) :=
  Machine.wrap_mod k (points + 1)

/-- Between two moves the number grows by one, stays or starts again. -/
theorem moveIndex_succ (points k : ℕ) :
    moveIndex points (k + 1) = moveIndex points k ∨
      moveIndex points (k + 1) = moveIndex points k + 1 ∨
      moveIndex points (k + 1) = 0 ∧ moveIndex points k = points := by
  cases k with
  | zero => exact .inl (by simp [moveIndex])
  | succ k =>
    have hlt : k % (points + 2) < points + 2 := Nat.mod_lt k (by omega)
    have hwrap := mod_succ k points
    simp only [moveIndex]
    split_ifs at hwrap <;> omega

theorem track_afterMoves {scroll : VidTextScrollStruct} (h : 0 ≤ scroll.scrollPoints) (k : ℕ)
    (ticks : BitVec 32) : (scroll.afterMoves k ticks).track = scroll.afterMoves (k + 1) ticks := by
  obtain ⟨points, hpoints⟩ := Int.eq_ofNat_of_zero_le h
  have hnat : scroll.scrollPoints.toNat = points := by omega
  unfold track afterMoves
  simp only [hnat]
  cases k with
  | zero => simp [moveIndex]
  | succ k =>
    have hlt : k % (points + 2) < points + 2 := Nat.mod_lt k (by omega)
    have hwrap := mod_succ k points
    simp only [moveIndex, Nat.add_sub_cancel, Nat.succ_pos, true_and, hpoints,
      decide_eq_false_iff_not]
    split_ifs with hlast hend
    · have hk : k % (points + 2) = points := by omega
      rw [hk, if_pos (by omega)] at hwrap
      simp [hk, ← hwrap]
    · rw [if_pos (by omega)] at hwrap
      have hnext : k % (points + 2) + 1 ≤ points := by omega
      simp [← hwrap, hlast, hnext]
    · rw [if_neg (by omega)] at hwrap
      simp [← hwrap]

/-! ### Calls -/

variable {scroll : VidTextScrollStruct} {display : VipFrameReader}

theorem indexFits_afterMoves (h : 0 ≤ scroll.scrollPoints) (k : ℕ) (ticks : BitVec 32) :
    (scroll.afterMoves k ticks).IndexFits := by
  have hle := moveIndex_le scroll.scrollPoints.toNat k
  refine ⟨Int.natCast_nonneg _, ?_⟩
  show (moveIndex scroll.scrollPoints.toNat k : ℤ) ≤ scroll.scrollPoints
  omega

/-- A move changes the places of the tape by one, not at all, or from behind the string to before
it. -/
theorem shows_before (hwf : scroll.WellFormed) (hfits : WindowFits display scroll) {k : ℕ}
    {ticks ticks' : BitVec 32} {mem : ℤ → BitVec 8}
    (hshows : (scroll.afterMoves k ticks).Shows display mem) {x : ℤ} (hx : scroll.hbegin ≤ x)
    (hx' : x < scroll.hend)
    (hne : ¬ ((scroll.afterMoves (k + 1) ticks').xStart ≤ x ∧
      x ≤ (scroll.afterMoves (k + 1) ticks').xEnd)) {row : ℕ} (hrow : row < 11) :
    display.pixelBytes mem (x, scroll.vbegin + row) = colorBytes display scroll.bColor := by
  have hwf' (k : ℕ) (ticks : BitVec 32) : (scroll.afterMoves k ticks).WellFormed :=
    ⟨hwf.windowWidth, hwf.stringPoints, hwf.scrollPoints⟩
  have hplace (k : ℕ) (ticks : BitVec 32) : (scroll.afterMoves k ticks).tapePlace x =
      moveIndex scroll.scrollPoints.toNat k - scroll.windowWidth + (x - scroll.hbegin) := rfl
  refine (hshows x hx hx' row hrow).trans (congrArg (colorBytes display) ?_)
  have hold (hstep : (scroll.afterMoves k ticks).tapePlace x =
        (scroll.afterMoves (k + 1) ticks').tapePlace x ∨
      (scroll.afterMoves k ticks).tapePlace x + 1 =
        (scroll.afterMoves (k + 1) ticks').tapePlace x) :
      (scroll.afterMoves k ticks).tapeColor ((scroll.afterMoves k ticks).tapePlace x) row =
        scroll.bColor :=
    tapeColor_of_not_written (hwf' (k + 1) ticks') ⟨hx, hx'⟩ hne hstep row
  obtain hsame | hnext | ⟨-, hlast⟩ := moveIndex_succ scroll.scrollPoints.toNat k
  · exact hold (.inl (by rw [hplace, hplace, hsame]))
  · refine hold (.inr ?_)
    rw [hplace, hplace, hnext]
    push_cast
    ring
  · refine tapeColor_of_le ?_ row
    have hpoints := hwf.stringPoints
    have hscroll := hwf.scrollPoints
    have hwidth := hwf.windowWidth
    have hle := hfits.width
    rw [hplace, hlast]
    show (scroll.string.length : ℤ) * 8 ≤ _
    omega

/-- The scroll stays inside the window, but for the column to the right of it. -/
theorem paint_outside_window (hwf : scroll.WellFormed) (hfits : WindowFits display scroll)
    (hindex : scroll.IndexFits) {addr : ℤ}
    (haddr : ∀ q ∈ (Box.mk scroll.hbegin scroll.vbegin (scroll.hend + 1)
      (scroll.vbegin + 11)).area, ¬ display.ByteOf addr q) (mem : ℤ → BitVec 8) :
    Canvas.paint mem (scroll.pixels.flatMap (vidSetPixel display)) addr = mem addr := by
  refine paint_outside_pixels hfits.hasDepth (fun q hq => ?_) mem
  obtain ⟨p, hp, rfl⟩ := hq
  obtain ⟨hcol, row, hrow, hvert, -⟩ := (mem_pixels hwf hfits hindex).mp hp
  obtain ⟨hleft, hle, hright⟩ := xEnd_bounds hwf hfits hindex
  exact haddr p.1 ⟨⟨by dsimp only; omega, by dsimp only; omega⟩, by dsimp only; omega,
    by dsimp only; omega⟩

/-- **One call**: the window shows the tape after one move more, or as many as before. -/
theorem vidScrollString_spec (hwf : scroll.WellFormed) (hfits : WindowFits display scroll) {k : ℕ}
    {ticks : BitVec 32} {mem : ℤ → BitVec 8}
    (hshows : (scroll.afterMoves k ticks).Shows display mem) (call : ScrollCall) :
    let due := ticks + call.ticksPerSecond * scroll.msDelay / 1000 ≤ call.nticks
    let k' := if due then k + 1 else k
    let ticks' := if due then call.nticksAtMove else ticks
    ∃ mem', vidScrollString display (scroll.afterMoves k ticks, mem) call =
        some (scroll.afterMoves k' ticks', mem') ∧
      (scroll.afterMoves k' ticks').Shows display mem' ∧
      ∀ addr, (∀ q ∈ (Box.mk scroll.hbegin scroll.vbegin (scroll.hend + 1)
        (scroll.vbegin + 11)).area, ¬ display.ByteOf addr q) → mem' addr = mem addr := by
  intro due k' ticks'
  by_cases hdue : due
  · have hk : k' = k + 1 := if_pos hdue
    have hticks : ticks' = call.nticksAtMove := if_pos hdue
    have hpoints : 0 ≤ scroll.scrollPoints := by
      have hle := hfits.width
      have hwidth := hwf.windowWidth
      have hstring := hwf.stringPoints
      have hscroll := hwf.scrollPoints
      omega
    have hwf' : (scroll.afterMoves k' ticks').WellFormed :=
      ⟨hwf.windowWidth, hwf.stringPoints, hwf.scrollPoints⟩
    have hfits' : WindowFits display (scroll.afterMoves k' ticks') :=
      ⟨hfits.hasDepth, hfits.left, hfits.width, hfits.right, hfits.small, hfits.top, hfits.bottom⟩
    have hindex := indexFits_afterMoves hpoints k' ticks'
    refine ⟨_, ?_, shows_paint hwf' hfits' hindex ?_, fun addr haddr =>
      paint_outside_window hwf' hfits' hindex haddr mem⟩
    · have htrack := track_afterMoves hpoints k call.nticksAtMove
      have hcall : vidScrollString display (scroll.afterMoves k ticks, mem) call =
          ((scroll.afterMoves k call.nticksAtMove).track.draw call.buffer display).map
            fun stores => ((scroll.afterMoves k call.nticksAtMove).track,
              Canvas.paint mem stores) := if_pos hdue
      rw [← hk, ← hticks] at htrack
      rw [hcall, ← hticks, htrack, draw_eq hfits'.hasDepth hwf', Option.map_some]
    · intro x hx hx' hne row hrow
      exact shows_before hwf hfits hshows hx hx' (hk ▸ hne) hrow
  · have hk : k' = k := if_neg hdue
    have hticks : ticks' = ticks := if_neg hdue
    rw [hk, hticks]
    exact ⟨mem, if_neg hdue, hshows, fun _ _ => rfl⟩

/-- After every sequence of calls the window shows the tape. -/
theorem foldlM_vidScrollString (hwf : scroll.WellFormed) (hfits : WindowFits display scroll)
    (calls : List ScrollCall) {k : ℕ} {ticks : BitVec 32} {mem : ℤ → BitVec 8}
    (hshows : (scroll.afterMoves k ticks).Shows display mem) :
    ∃ ticks' mem', calls.foldlM (vidScrollString display) (scroll.afterMoves k ticks, mem) =
        some (scroll.afterMoves (k + movesMade scroll.msDelay ticks calls) ticks', mem') ∧
      (scroll.afterMoves (k + movesMade scroll.msDelay ticks calls) ticks').Shows display mem' ∧
      ∀ addr, (∀ q ∈ (Box.mk scroll.hbegin scroll.vbegin (scroll.hend + 1)
        (scroll.vbegin + 11)).area, ¬ display.ByteOf addr q) → mem' addr = mem addr := by
  induction calls generalizing k ticks mem with
  | nil => exact ⟨ticks, mem, rfl, hshows, fun _ _ => rfl⟩
  | cons call calls ih =>
    obtain ⟨mem₁, hcall, hshows₁, hkeep₁⟩ := vidScrollString_spec hwf hfits hshows call
    obtain ⟨ticks₂, mem₂, hcalls, hshows₂, hkeep₂⟩ := ih hshows₁
    have hmoves : k + movesMade scroll.msDelay ticks (call :: calls) =
        (if ticks + call.ticksPerSecond * scroll.msDelay / 1000 ≤ call.nticks then k + 1
          else k) + movesMade scroll.msDelay
          (if ticks + call.ticksPerSecond * scroll.msDelay / 1000 ≤ call.nticks then
            call.nticksAtMove else ticks) calls := by
      rw [movesMade]
      split_ifs
      · omega
      · rfl
    rw [hmoves]
    refine ⟨ticks₂, mem₂, ?_, hshows₂, fun addr haddr => ?_⟩
    · rw [List.foldlM_cons, hcall]
      exact hcalls
    · rw [hkeep₂ addr haddr, hkeep₁ addr haddr]

end VidTextScrollStruct

/-- **However often the scroll is called**, and whatever the clock shows, the window has the columns
of the tape that are due after so many moves, and nothing is written outside of it but the column to
its right. -/
theorem scroll_string {display : VipFrameReader} {hbegin vbegin hend : ℤ}
    {fColor bColor : BitVec 32} {font : ℤ → BitVec 8} {msDelay nticks : BitVec 32}
    {string : List (BitVec 8)} {mem : ℤ → BitVec 8}
    (hfits : VidTextScrollStruct.WindowFits display
      (vidScrollStringInit hbegin vbegin hend fColor bColor font msDelay string nticks))
    (hclear : ∀ x, hbegin ≤ x → x < hend → ∀ row : ℕ, row < 11 →
      display.pixelBytes mem (x, vbegin + row) = colorBytes display bColor)
    (calls : List ScrollCall) :
    let scroll := vidScrollStringInit hbegin vbegin hend fColor bColor font msDelay string nticks
    let moves := VidTextScrollStruct.movesMade msDelay nticks calls
    ∃ ticks mem', calls.foldlM (vidScrollString display) (scroll, mem) =
        some (scroll.afterMoves moves ticks, mem') ∧
      (scroll.afterMoves moves ticks).Shows display mem' ∧
      ∀ addr, (∀ q ∈ (Box.mk hbegin vbegin (hend + 1) (vbegin + 11)).area,
        ¬ display.ByteOf addr q) → mem' addr = mem addr := by
  intro scroll moves
  have hwf : scroll.WellFormed := ⟨rfl, rfl, rfl⟩
  have hstart : (scroll.afterMoves 0 nticks).Shows display mem := fun x hx hx' row hrow => by
    have hlt : x < hend := hx'
    have hplace : (scroll.afterMoves 0 nticks).tapePlace x < 0 := by
      show 0 - (hend - hbegin) + (x - hbegin) < 0
      omega
    rw [VidTextScrollStruct.tapeColor_of_neg hplace]
    exact hclear x hx hx' row hrow
  have hrun := VidTextScrollStruct.foldlM_vidScrollString hwf hfits calls hstart
  rwa [Nat.zero_add] at hrun

/-- Twelve calls in time and one that is too early; eleven columns of `Hi` have come in. -/
theorem scroll_string_black :
    let font : ℤ → BitVec 8 := fun addr => BitVec.ofInt 8 addr
    let call (nticks : BitVec 32) : ScrollCall := ⟨nticks, nticks, 1000, fun _ => 0⟩
    let calls := (List.range 12).map (fun k => call (.ofNat 32 (50 * (k + 1)))) ++ [call 610]
    let scroll := vidScrollStringInit 100 10 300 white24 0 font 40 [0x48, 0x69] 0
    ∃ s mem', calls.foldlM (vidScrollString (swFrame 0)) (scroll, fun _ => 0) = some (s, mem') ∧
      s.textScrollIndex = 11 ∧
      (swFrame 0).pixelBytes mem' (288, 10) = colorBytes (swFrame 0) 0 ∧
      (swFrame 0).pixelBytes mem' (289, 10) = colorBytes (swFrame 0) white24 ∧
      (swFrame 0).pixelBytes mem' (290, 10) = colorBytes (swFrame 0) 0 ∧
      (swFrame 0).pixelBytes mem' (299, 10) = colorBytes (swFrame 0) white24 := by
  intro font call calls scroll
  have hfits : VidTextScrollStruct.WindowFits (swFrame 0) scroll :=
    ⟨swFrame_hasDepth 0, by decide, by decide, by decide, by decide, by decide, by decide⟩
  have hclear : ∀ x : ℤ, 100 ≤ x → x < 300 → ∀ row : ℕ, row < 11 →
      (swFrame 0).pixelBytes (fun _ => 0) (x, 10 + row) = colorBytes (swFrame 0) 0 :=
    fun _ _ _ _ _ => rfl
  obtain ⟨ticks, mem', hrun, hshows, -⟩ := scroll_string hfits hclear calls
  have hmoves : VidTextScrollStruct.movesMade 40 0 calls = 12 := by decide
  rw [hmoves] at hrun hshows
  have hshown (x : ℤ) (hleft : 100 ≤ x) (hright : x < 300) :
      (swFrame 0).pixelBytes mem' (x, 10) =
        colorBytes (swFrame 0) (scroll.tapeColor (x - 289) 0) := by
    have hplace : (scroll.afterMoves 12 ticks).tapePlace x = x - 289 := by
      show (11 : ℤ) - (300 - 100) + (x - 100) = x - 289
      ring
    rw [← hplace]
    exact hshows x hleft hright 0 (by decide)
  refine ⟨_, mem', hrun, rfl, ?_, ?_, ?_, ?_⟩
  · exact (hshown 288 (by decide) (by decide)).trans (by decide)
  · exact (hshown 289 (by decide) (by decide)).trans (by decide)
  · exact (hshown 290 (by decide) (by decide)).trans (by decide)
  · exact (hshown 299 (by decide) (by decide)).trans (by decide)

end DigitalModulation
