import DigitalModulation.Desktop.Screen
import DigitalModulation.Desktop.Transport

/-!
# What the transport area shows

Every branch of the transport draws seven images and clears nothing first. The pixels of an image
that are transparent keep what was there.

* `colorAt`: the colour some calls leave at a place;
* `transportArea`: the places of all images of the transport;
* `TransportButton.slot`: where the branch of a button draws what the others do not;
* `colorAt_screen`: what a run leaves in the transport area;
* `Imagenes`: the pixels of the images that tell an image from its other version;
* `transport_area_eq_iff`: when two runs that end with the same button show the same.
-/

namespace DigitalModulation

/-! ### The colour at a place -/

/-- The colour some calls leave at a place, if they set it. -/
def colorAt (A : Assets) (q : ℤ × ℤ) (ds : List Draw) : Option (BitVec 32) :=
  Canvas.lastWrite (ds.flatMap (Draw.pixels A)) q

section ColorAt

variable {A : Assets} {q : ℤ × ℤ}

theorem colorAt_append (ds ds' : List Draw) :
    colorAt A q (ds ++ ds') = (colorAt A q ds').or (colorAt A q ds) := by
  unfold colorAt
  rw [List.flatMap_append, Canvas.lastWrite_append]

theorem colorAt_eq_getLast? (ds : List Draw) :
    colorAt A q ds = (ds.filterMap fun d => colorAt A q [d]).getLast? := by
  unfold colorAt
  simp only [List.flatMap_singleton]
  exact Canvas.lastWrite_flatMap ds (Draw.pixels A) q

/-- The call draws elsewhere. -/
def Draw.Misses (q : ℤ × ℤ) (d : Draw) : Prop := d.Plain ∧ ∀ r ∈ d.boxes, q ∉ r.area

instance (q : ℤ × ℤ) (d : Draw) : Decidable (d.Misses q) := inferInstanceAs (Decidable (_ ∧ _))

theorem colorAt_eq_none {ds : List Draw} (h : ∀ d ∈ ds, d.Misses q) : colorAt A q ds = none := by
  refine Canvas.lastWrite_eq_none_iff.mpr fun p hp hpq => ?_
  obtain ⟨d, hd, hp⟩ := List.mem_flatMap.mp hp
  obtain ⟨r, hr, hmem⟩ := Draw.exists_box (h d hd).1 hp
  rw [hpq] at hmem
  exact (h d hd).2 r hr hmem

/-- The colour does not change with calls that draw elsewhere. -/
theorem colorAt_congr {ds ds' : List Draw}
    (h : List.Forall₂ (fun d d' => d = d' ∨ d.Misses q ∧ d'.Misses q) ds ds') :
    colorAt A q ds = colorAt A q ds' := by
  induction h with
  | nil => rfl
  | @cons d d' ds ds' hd _ ih =>
    have hcons (d : Draw) (ds : List Draw) : colorAt A q (d :: ds) =
        (colorAt A q ds).or (colorAt A q [d]) := colorAt_append [d] ds
    have hnone {d : Draw} (hd : d.Misses q) : colorAt A q [d] = none :=
      colorAt_eq_none (by simpa using hd)
    rw [hcons d, hcons d', ih]
    rcases hd with rfl | ⟨hd, hd'⟩
    · rfl
    · rw [hnone hd, hnone hd']

end ColorAt

/-- The last of some values of which all but one kind are missing. -/
theorem getLast?_filterMap_of_unique {β ν : Type*} [DecidableEq β] {w : β → Option ν} {c : β}
    {bs : List β} (h : ∀ b ∈ bs, b ≠ c → w b = none) :
    (bs.filterMap w).getLast? = if c ∈ bs then w c else none := by
  induction bs using List.reverseRecOn with
  | nil => rfl
  | append_singleton bs b ih =>
    rw [Canvas.getLast?_filterMap_concat, ih fun b' hb' => h b' (List.mem_append_left _ hb')]
    by_cases hbc : b = c
    · subst hbc
      cases w b <;> simp
    · rw [h b (by simp) hbc]
      simp [Ne.symm hbc]

/-- The last of some values of which all but one kind are the same depends on the last kind only. -/
theorem getLast?_filterMap_or {β ν : Type*} {w : β → Option ν} {c : β} {v : ν}
    (h : ∀ b ≠ c, w b = some v) (bs : List β) (b : β) :
    ((bs ++ [b]).filterMap w).getLast?.or (some v) = (w b).or (some v) := by
  rw [Canvas.getLast?_filterMap_concat]
  cases hb : w b with
  | some x => rfl
  | none =>
    -- Then `b` is that one kind, and the values there are are all the same.
    have hsame (x : ν) (hx : x ∈ bs.filterMap w) : x = v := by
      obtain ⟨b', -, hb'⟩ := List.mem_filterMap.mp hx
      by_contra hne
      by_cases hbc : b = c
      · by_cases hbc' : b' = c
        · rw [hbc', ← hbc, hb] at hb'
          exact absurd hb' (by simp)
        · exact hne (Option.some_inj.mp (hb'.symm.trans (h b' hbc')))
      · exact absurd (hb.symm.trans (h b hbc)) (by simp)
    cases hlast : (bs.filterMap w).getLast? with
    | none => rfl
    | some x => exact congrArg some (hsame x (List.mem_of_getLast? hlast))

/-! ### The transport area -/

def transportBoxes : List Box := transportImages.flatMap Draw.boxes

/-- The places covered by an image of the transport wherever it is drawn. -/
def transportArea : Set (ℤ × ℤ) := {q | ∃ r ∈ transportBoxes, q ∈ r.area}

theorem transportArea_onScreen {q : ℤ × ℤ} (hq : q ∈ transportArea) : OnScreen q := by
  obtain ⟨r, hr, hmem⟩ := hq
  have hwithin : ∀ r ∈ transportBoxes, r.Within screenBox := by decide +kernel
  exact (hwithin r hr).mem hmem

/-- The call draws outside the transport area. -/
def Draw.Elsewhere (d : Draw) : Prop :=
  d.Plain ∧ ∀ r ∈ d.boxes, ∀ s ∈ transportBoxes, r.Apart s

instance (d : Draw) : Decidable d.Elsewhere := inferInstanceAs (Decidable (_ ∧ _))

theorem Draw.Elsewhere.misses {d : Draw} (h : d.Elsewhere) {q : ℤ × ℤ} (hq : q ∈ transportArea) :
    d.Misses q := by
  obtain ⟨s, hs, hmem⟩ := hq
  exact ⟨h.1, fun r hr => (h.2 r hr s hs).not_mem hmem⟩

theorem buttonCalls_elsewhere : ∀ d ∈ buttonCalls, d.Elsewhere := by
  decide +kernel

/-- The images the branch of a button draws. -/
def TransportButton.draws (b : TransportButton) : List Draw := b.stmts.filterMap Stmt.call

section Area

variable {A : Assets} {q : ℤ × ℤ}

theorem colorAt_of_buttonCalls (hq : q ∈ transportArea) {ds : List Draw}
    (h : ∀ d ∈ ds, d ∈ buttonCalls) : colorAt A q ds = none :=
  colorAt_eq_none fun d hd => (buttonCalls_elsewhere d (h d hd)).misses hq

/-- Of a turn of the loop only the branch of the transport shows. -/
theorem colorAt_calls (hq : q ∈ transportArea) (e : MouseEvent) :
    colorAt A q e.calls = (TransportButton.pressed e).bind fun b => colorAt A q b.draws := by
  unfold MouseEvent.calls TransportButton.pressed
  split_ifs with hdown
  · rw [clickStmts, List.filterMap_append, List.filterMap_append, colorAt_append, colorAt_append,
      colorAt_of_buttonCalls hq (modulationClick_calls _ _),
      colorAt_of_buttonCalls hq (signalClick_calls _ _), Option.or_none, Option.or_none,
      transportClick_eq]
    cases TransportButton.clicked e.xMouse e.yMouse with
    | none => exact colorAt_of_buttonCalls hq (colourClick_calls _ _)
    | some b => rfl
  · rfl

/-- The background shows what the branch of the faster button draws, on black. -/
theorem colorAt_initBackground (hq : q ∈ transportArea) :
    colorAt A q initBackground =
      (colorAt A q TransportButton.faster.draws).or (some black24) := by
  have hrest : ∀ d ∈ initBackground.drop 8, d.Elsewhere := by decide +kernel
  have hclean : colorAt A q [.clean black24] = some black24 := by
    obtain ⟨⟨hh, hhE⟩, hv, hvE⟩ := transportArea_onScreen hq
    refine Canvas.lastWrite_eq_some ?_ fun w hw _ => ?_
    · exact List.mem_flatMap.mpr ⟨_, List.mem_singleton_self _,
        mem_block.mpr ⟨hh, hhE, hv, hvE, rfl⟩⟩
    · obtain ⟨d, hd, hw⟩ := List.mem_flatMap.mp hw
      obtain rfl := List.mem_singleton.mp hd
      exact (mem_block.mp hw).2.2.2.2
  rw [show initBackground = [.clean black24] ++ TransportButton.faster.draws ++
    initBackground.drop 8 from rfl, colorAt_append, colorAt_append, hclean,
    colorAt_eq_none fun d hd => (hrest d hd).misses hq]
  rfl

/-- What the transport area shows after the branches of some buttons. -/
def transportColor (A : Assets) (q : ℤ × ℤ) (bs : List TransportButton) : Option (BitVec 32) :=
  (bs.filterMap fun b => colorAt A q b.draws).getLast?.or
    ((colorAt A q TransportButton.faster.draws).or (some black24))

/-- **What a run leaves in the transport area** depends on the buttons of the transport only. -/
theorem colorAt_screen (hq : q ∈ transportArea) (es : List MouseEvent) :
    colorAt A q (es.foldl Desktop.task2 Desktop.boot).screen =
      transportColor A q (es.filterMap TransportButton.pressed) := by
  have hcalls : colorAt A q (es.flatMap MouseEvent.calls) =
      ((es.filterMap TransportButton.pressed).filterMap fun b => colorAt A q b.draws).getLast? := by
    induction es using List.reverseRecOn with
    | nil => rfl
    | append_singleton es e ih =>
      rw [List.flatMap_append, colorAt_append, ih, List.flatMap_singleton, colorAt_calls hq,
        List.filterMap_filterMap, List.filterMap_filterMap, Canvas.getLast?_filterMap_concat]
  rw [screen_foldl, colorAt_append, hcalls, colorAt_initBackground hq]
  rfl

end Area

/-! ### The images that differ -/

namespace TransportButton

/-- The boxes in which the branch of a button draws what no other branch draws. -/
def slot : TransportButton → List Box
  | play => [⟨296, 45, 390, 154⟩]
  | stop => [⟨404, 45, 502, 156⟩]
  | pause => [⟨523, 45, 631, 157⟩]
  | slower => [⟨355, 177, 416, 234⟩, ⟨570, 173, 630, 240⟩]
  | faster | next | previous => []

/-- The buttons with such a box. -/
def own : List TransportButton := [play, stop, pause, slower]

/-- The branches of a button and of the faster button draw the same outside the slot. -/
theorem draws_eq_or_within (b : TransportButton) :
    List.Forall₂ (fun d d' => d = d' ∨ (d.Plain ∧ ∀ r ∈ d.boxes, ∃ s ∈ b.slot, r.Within s) ∧
      d'.Plain ∧ ∀ r ∈ d'.boxes, ∃ s ∈ b.slot, r.Within s) b.draws faster.draws := by
  cases b <;> decide +kernel

theorem slot_apart (b c : TransportButton) :
    b ≠ c → ∀ r ∈ b.slot, ∀ s ∈ c.slot, r.Apart s := by
  cases b <;> cases c <;> decide +kernel

theorem mem_own_of_slot {c : TransportButton} {r : Box} (hr : r ∈ c.slot) : c ∈ own := by
  cases c <;> simp_all [slot, own]

theorem colorAt_draws {A : Assets} {q : ℤ × ℤ} {b : TransportButton}
    (hq : ∀ s ∈ b.slot, q ∉ s.area) : colorAt A q b.draws = colorAt A q faster.draws := by
  have hmisses {d : Draw} (h : d.Plain ∧ ∀ r ∈ d.boxes, ∃ s ∈ b.slot, r.Within s) :
      d.Misses q := by
    refine ⟨h.1, fun r hr hmem => ?_⟩
    obtain ⟨s, hs, hwithin⟩ := h.2 r hr
    exact hq s hs (hwithin.mem hmem)
  refine colorAt_congr (b.draws_eq_or_within.imp fun d d' h => ?_)
  exact h.imp_right fun h => ⟨hmisses h.1, hmisses h.2⟩

/-- At each place at most one of the four buttons draws what the others do not. -/
theorem exists_own (A : Assets) (q : ℤ × ℤ) :
    ∃ c ∈ own, ∀ b ≠ c, colorAt A q b.draws = colorAt A q faster.draws := by
  by_cases h : ∃ c : TransportButton, ∃ s ∈ c.slot, q ∈ s.area
  · obtain ⟨c, s, hs, hmem⟩ := h
    exact ⟨c, mem_own_of_slot hs, fun b hb =>
      colorAt_draws fun r hr => (slot_apart b c hb r hr s hs).not_mem hmem⟩
  · exact ⟨play, by decide, fun b _ => colorAt_draws fun s hs hmem => h ⟨b, s, hs, hmem⟩⟩

end TransportButton

/-- What shows where the other branches draw something: the image of the last button. -/
theorem transportColor_of_some {A : Assets} {q : ℤ × ℤ} {v : BitVec 32}
    (hv : colorAt A q TransportButton.faster.draws = some v) (bs : List TransportButton)
    (b : TransportButton) :
    transportColor A q (bs ++ [b]) = (colorAt A q b.draws).or (some v) := by
  obtain ⟨c, -, hc⟩ := TransportButton.exists_own A q
  rw [hv] at hc
  unfold transportColor
  rw [hv]
  exact getLast?_filterMap_or hc bs b

/-- What shows where only one button draws something: its image, if it was ever pressed. -/
theorem transportColor_of_none {A : Assets} {q : ℤ × ℤ}
    (hnone : colorAt A q TransportButton.faster.draws = none) {c : TransportButton}
    (hc : ∀ b ≠ c, colorAt A q b.draws = colorAt A q TransportButton.faster.draws)
    (bs : List TransportButton) :
    transportColor A q bs =
      (if c ∈ bs then colorAt A q c.draws else none).or (some black24) := by
  unfold transportColor
  rw [hnone, getLast?_filterMap_of_unique fun b _ hb => (hc b hb).trans hnone]
  rfl

/-! ### The pixels that tell the images apart -/

/-- The bytes of a pixel of an image, as its file has them: red, green, blue. -/
def Assets.rgb (A : Assets) (im : Image) (k : ℕ) : BitVec 8 × BitVec 8 × BitVec 8 :=
  (A.pixelData im (3 * k), A.pixelData im (3 * k + 1), A.pixelData im (3 * k + 2))

/-- Images with the pixels of the files under `imagenes` at which a button that is down covers more
than one that is up, and one pixel of the last rows of the arrow. -/
structure Imagenes extends Assets where
  playUp : toAssets.rgb .playUp 0 = (0, 0, 0)
  playDown : toAssets.rgb .playDown 0 = (23, 23, 0)
  stopUp : toAssets.rgb .stopUp 0 = (0, 0, 0)
  stopDown : toAssets.rgb .stopDown 0 = (2, 2, 0)
  pauseUp : toAssets.rgb .pauseUp 6 = (0, 0, 0)
  pauseDown : toAssets.rgb .pauseDown 6 = (27, 27, 27)
  forwardArrow : toAssets.rgb .forwardArrow (53 * 60) = (0, 255, 61)

def rgbColor (c : BitVec 8 × BitVec 8 × BitVec 8) : BitVec 32 :=
  ((c.1.setWidth 32 <<< 16) ||| (c.2.1.setWidth 32 <<< 8) ||| c.2.2.setWidth 32) &&& 0xffffff

theorem imageColor_eq (A : Assets) (im : Image) (k : ℕ) :
    A.imageColor im k = rgbColor (A.rgb im k) :=
  rfl

/-- The colour an image leaves at the place of its pixel in row `i` and column `j`. -/
theorem colorAt_image (A : Assets) {im : Image} {i j : ℕ} (hi : i < im.height.toNat)
    (hj : j < im.width.toNat) (x y : ℤ) (transparent : BitVec 32) :
    colorAt A (x + j, y + i) [.image im x y transparent] =
      if A.imageColor im (i * im.width.toNat + j) = transparent then none
      else some (A.imageColor im (i * im.width.toNat + j)) := by
  have hat (p : Pixel) (hp : p ∈ imagePixels x y im.width.toNat im.height.toNat (A.imageColor im)
      transparent) (hpq : p.1 = (x + j, y + i)) :
      A.imageColor im (i * im.width.toNat + j) ≠ transparent ∧
        p.2 = A.imageColor im (i * im.width.toNat + j) := by
    obtain ⟨i', -, j', -, hne, rfl⟩ := mem_imagePixels.mp hp
    rw [Prod.mk.injEq, Int.add_right_inj, Int.add_right_inj, Int.natCast_inj,
      Int.natCast_inj] at hpq
    obtain ⟨rfl, rfl⟩ := hpq
    exact ⟨hne, rfl⟩
  unfold colorAt
  rw [List.flatMap_singleton]
  split_ifs with htransparent
  · exact Canvas.lastWrite_eq_none_iff.mpr fun p hp hpq => (hat p hp hpq).1 htransparent
  · exact Canvas.lastWrite_eq_some (mem_imagePixels.mpr ⟨i, hi, j, hj, htransparent, rfl⟩)
      fun p hp hpq => (hat p hp hpq).2

/-- The same among calls of which the others draw elsewhere. -/
theorem colorAt_of_image {A : Assets} {q : ℤ × ℤ} {ds : List Draw} (im : Image) (x y : ℤ) (i j : ℕ)
    (hd : .image im x y black24 ∈ ds)
    (h : ∀ d ∈ ds, d ≠ .image im x y black24 → d.Misses q) (hi : i < im.height.toNat)
    (hj : j < im.width.toNat) (hq : q = (x + j, y + i)) {c : BitVec 8 × BitVec 8 × BitVec 8}
    (hc : A.rgb im (i * im.width.toNat + j) = c) :
    colorAt A q ds = if rgbColor c = black24 then none else some (rgbColor c) := by
  rw [colorAt_eq_getLast?, getLast?_filterMap_of_unique, if_pos hd, hq, colorAt_image A hi hj,
    imageColor_eq, hc]
  intro d hd hne
  exact colorAt_eq_none (by simpa using h d hd hne)

namespace TransportButton

/-- A place where only the branch of that button draws. -/
def mark : TransportButton → ℤ × ℤ
  | play => (296, 45)
  | stop => (404, 45)
  | pause => (529, 45)
  | slower => (570, 233)
  | faster | next | previous => (0, 0)

theorem mark_mem_area {c : TransportButton} (hc : c ∈ own) : c.mark ∈ transportArea := by
  have hmark : ∀ c ∈ own, ∃ r ∈ transportBoxes, c.mark ∈ r.area := by decide +kernel
  exact hmark c hc

theorem colorAt_mark_of_ne (A : Assets) {b c : TransportButton} (hc : c ∈ own) (hbc : b ≠ c) :
    colorAt A c.mark b.draws = colorAt A c.mark faster.draws := by
  have hmark : ∀ c ∈ own, ∃ s ∈ c.slot, c.mark ∈ s.area := by decide +kernel
  obtain ⟨s, hs, hmem⟩ := hmark c hc
  exact colorAt_draws fun r hr => (slot_apart b c hbc r hr s hs).not_mem hmem

/-- Nothing is drawn there by the others: the image that is up is transparent. -/
theorem colorAt_mark_faster (I : Imagenes) {c : TransportButton} (hc : c ∈ own) :
    colorAt I.toAssets c.mark faster.draws = none := by
  cases c
  case play =>
    exact colorAt_of_image .playUp 296 45 0 0 (by decide +kernel) (by decide +kernel) (by decide)
      (by decide) (by decide) I.playUp
  case stop =>
    exact colorAt_of_image .stopUp 404 45 0 0 (by decide +kernel) (by decide +kernel) (by decide)
      (by decide) (by decide) I.stopUp
  case pause =>
    exact colorAt_of_image .pauseUp 523 45 0 6 (by decide +kernel) (by decide +kernel) (by decide)
      (by decide) (by decide) I.pauseUp
  case slower => exact colorAt_eq_none (by decide +kernel)
  all_goals exact absurd hc (by decide)

/-- The button itself draws there. -/
theorem colorAt_mark_self (I : Imagenes) {c : TransportButton} (hc : c ∈ own) :
    ∃ v, v ≠ black24 ∧ colorAt I.toAssets c.mark c.draws = some v := by
  cases c
  case play =>
    exact ⟨rgbColor (23, 23, 0), by decide,
      colorAt_of_image .playDown 296 45 0 0 (by decide +kernel) (by decide +kernel) (by decide)
        (by decide) (by decide) I.playDown⟩
  case stop =>
    exact ⟨rgbColor (2, 2, 0), by decide,
      colorAt_of_image .stopDown 404 45 0 0 (by decide +kernel) (by decide +kernel) (by decide)
        (by decide) (by decide) I.stopDown⟩
  case pause =>
    exact ⟨rgbColor (27, 27, 27), by decide,
      colorAt_of_image .pauseDown 523 45 0 6 (by decide +kernel) (by decide +kernel) (by decide)
        (by decide) (by decide) I.pauseDown⟩
  case slower =>
    exact ⟨rgbColor (0, 255, 61), by decide,
      colorAt_of_image .forwardArrow 570 180 53 0 (by decide +kernel) (by decide +kernel)
        (by decide) (by decide) (by decide) I.forwardArrow⟩
  all_goals exact absurd hc (by decide)

end TransportButton

/-! ### Two runs -/

theorem readPixel_transportArea (A : Assets) (frame : ℤ) (mem : ℤ → BitVec 8)
    (es : List MouseEvent) {q : ℤ × ℤ} (hq : q ∈ transportArea) :
    some (readPixel frame ((es.foldl Desktop.task2 Desktop.boot).memory A frame mem) q) =
      transportColor A q (es.filterMap TransportButton.pressed) := by
  rw [readPixel_memory A frame mem es (transportArea_onScreen hq).1, Canvas.paint_apply,
    ← colorAt_screen hq es]
  have hsome : ∃ v, colorAt A q (es.foldl Desktop.task2 Desktop.boot).screen = some v := by
    rw [colorAt_screen hq es]
    unfold transportColor
    rw [← Option.or_assoc]
    cases ((es.filterMap TransportButton.pressed).filterMap fun b =>
      colorAt A q b.draws).getLast?.or (colorAt A q TransportButton.faster.draws) with
    | none => exact ⟨black24, rfl⟩
    | some v => exact ⟨v, rfl⟩
  obtain ⟨v, hv⟩ := hsome
  rw [hv, show Canvas.lastWrite _ q = some v from hv]
  rfl

/-- The colours of two histories with the same last button. -/
theorem transportColor_eq_iff (I : Imagenes) (bs₁ bs₂ : List TransportButton)
    (b : TransportButton) :
    (∀ q ∈ transportArea, transportColor I.toAssets q (bs₁ ++ [b]) =
        transportColor I.toAssets q (bs₂ ++ [b])) ↔
      ∀ c ∈ TransportButton.own, c ∈ bs₁ ++ [b] ↔ c ∈ bs₂ ++ [b] := by
  constructor
  · intro h c hc
    have hnone := TransportButton.colorAt_mark_faster I hc
    have hne (b : TransportButton) (hb : b ≠ c) :=
      TransportButton.colorAt_mark_of_ne I.toAssets hc hb
    obtain ⟨v, hv, hself⟩ := TransportButton.colorAt_mark_self I hc
    -- At its mark a button shows exactly if it was pressed.
    have hcolor := h c.mark (TransportButton.mark_mem_area hc)
    rw [transportColor_of_none hnone hne, transportColor_of_none hnone hne, hself] at hcolor
    by_cases h₁ : c ∈ bs₁ ++ [b]
    · by_cases h₂ : c ∈ bs₂ ++ [b]
      · exact iff_of_true h₁ h₂
      · rw [if_pos h₁, if_neg h₂] at hcolor
        exact absurd (Option.some_inj.mp hcolor) hv
    · by_cases h₂ : c ∈ bs₂ ++ [b]
      · rw [if_neg h₁, if_pos h₂] at hcolor
        exact absurd (Option.some_inj.mp hcolor) hv.symm
      · exact iff_of_false h₁ h₂
  · intro h q _
    -- Where all branches draw, the last one shows; elsewhere only one of the four buttons does.
    cases hfaster : colorAt I.toAssets q TransportButton.faster.draws with
    | some v => rw [transportColor_of_some hfaster, transportColor_of_some hfaster]
    | none =>
      obtain ⟨c, hc, hne⟩ := TransportButton.exists_own I.toAssets q
      rw [transportColor_of_none hfaster hne, transportColor_of_none hfaster hne]
      simp only [h c hc]

/-- **When the transport area does not depend on the history.** Two runs that end with the same
button of the transport leave the same picture there iff the same ones of play, stop, pause and
slower have been pressed in both. -/
theorem transport_area_eq_iff (I : Imagenes) (frame : ℤ) (mem₁ mem₂ : ℤ → BitVec 8)
    (es₁ es₂ : List MouseEvent) (e₁ e₂ : MouseEvent) (b : TransportButton)
    (h₁ : TransportButton.pressed e₁ = some b) (h₂ : TransportButton.pressed e₂ = some b) :
    Set.EqOn
        (readPixel frame
          (((es₁ ++ [e₁]).foldl Desktop.task2 Desktop.boot).memory I.toAssets frame mem₁))
        (readPixel frame
          (((es₂ ++ [e₂]).foldl Desktop.task2 Desktop.boot).memory I.toAssets frame mem₂))
        transportArea ↔
      ∀ c ∈ [TransportButton.play, .stop, .pause, .slower],
        c ∈ (es₁ ++ [e₁]).filterMap TransportButton.pressed ↔
          c ∈ (es₂ ++ [e₂]).filterMap TransportButton.pressed := by
  have hconcat (es : List MouseEvent) {e : MouseEvent} (h : TransportButton.pressed e = some b) :
      (es ++ [e]).filterMap TransportButton.pressed =
        es.filterMap TransportButton.pressed ++ [b] := by
    simp [h]
  rw [hconcat es₁ h₁, hconcat es₂ h₂]
  refine Iff.trans (forall₂_congr fun q hq => ?_) (transportColor_eq_iff I _ _ b)
  rw [← hconcat es₁ h₁, ← hconcat es₂ h₂, ← readPixel_transportArea I.toAssets frame mem₁ _ hq,
    ← readPixel_transportArea I.toAssets frame mem₂ _ hq, Option.some_inj]

/-- Images that are black but for these pixels. -/
def Imagenes.black : Imagenes where
  toAssets := { Assets.zero with
    pixelData := fun im k => match im, k with
      | .playDown, 0 | .playDown, 1 => 23
      | .stopDown, 0 | .stopDown, 1 => 2
      | .pauseDown, 18 | .pauseDown, 19 | .pauseDown, 20 => 27
      | .forwardArrow, 9541 => 255
      | .forwardArrow, 9542 => 61
      | _, _ => 0 }
  playUp := rfl
  playDown := rfl
  stopUp := rfl
  stopDown := rfl
  pauseUp := rfl
  pauseDown := rfl
  forwardArrow := rfl

/-- Play and then stop, or stop, play and stop. -/
theorem transport_area_eq_play_stop :
    Set.EqOn
      (readPixel 0 ((([⟨1, 300, 50⟩] ++ [⟨1, 410, 50⟩] : List MouseEvent).foldl Desktop.task2
        Desktop.boot).memory Imagenes.black.toAssets 0 fun _ => 0))
      (readPixel 0 ((([⟨1, 410, 60⟩, ⟨1, 300, 60⟩] ++ [⟨1, 410, 50⟩] : List MouseEvent).foldl
        Desktop.task2 Desktop.boot).memory Imagenes.black.toAssets 0 fun _ => 0xff))
      transportArea :=
  (transport_area_eq_iff .black 0 (fun _ => 0) (fun _ => 0xff) [⟨1, 300, 50⟩]
    [⟨1, 410, 60⟩, ⟨1, 300, 60⟩] ⟨1, 410, 50⟩ ⟨1, 410, 50⟩ .stop (by decide +kernel)
    (by decide +kernel)).mpr (by decide +kernel)

/-- Play and then stop, or only stop: what the play image added stays. -/
theorem transport_area_depends :
    ¬ ∀ (I : Imagenes) (frame : ℤ) (mem : ℤ → BitVec 8) (es₁ es₂ : List MouseEvent)
      (e₁ e₂ : MouseEvent) (b : TransportButton),
      TransportButton.pressed e₁ = some b → TransportButton.pressed e₂ = some b →
      Set.EqOn
        (readPixel frame
          (((es₁ ++ [e₁]).foldl Desktop.task2 Desktop.boot).memory I.toAssets frame mem))
        (readPixel frame
          (((es₂ ++ [e₂]).foldl Desktop.task2 Desktop.boot).memory I.toAssets frame mem))
        transportArea := by
  intro h
  have hcolors : ∀ q ∈ transportArea,
      transportColor Imagenes.black.toAssets q ([.play] ++ [.stop]) =
        transportColor Imagenes.black.toAssets q ([] ++ [.stop]) := by
    intro q hq
    have hpixel := h .black 0 (fun _ => 0) [⟨1, 300, 50⟩] [] ⟨1, 410, 50⟩ ⟨1, 410, 50⟩ .stop
      (by decide +kernel) (by decide +kernel) hq
    rw [← Option.some_inj, readPixel_transportArea _ 0 _ _ hq,
      readPixel_transportArea _ 0 _ _ hq] at hpixel
    exact hpixel
  have hplay := (transportColor_eq_iff .black _ _ _).mp hcolors .play (by decide)
  exact absurd hplay (by decide)

end DigitalModulation
