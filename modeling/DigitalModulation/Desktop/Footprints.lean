import DigitalModulation.Desktop.Screen

/-!
# What redrawing a button changes

A button is drawn as a box with a text. The text starts inside the box, and goes as far as its
length and the height of the font take it.

* `Draw.drawnButton`, `Draw.TextFits`: the button of a call, and when its text fits;
* `controlBoxes`: the boxes of all buttons with their texts;
* `Button.subset_box_iff`: a button and its text stay in its box iff the text fits;
* `redraw_contained_iff`: what the calls of a run change.
-/

namespace DigitalModulation

/-! ### One button -/

/-- The button a call draws. -/
def Draw.drawnButton : Draw → Option Button
  | .button b _ | .niceButton b _ => some b
  | _ => none

/-- The text of a button ends inside its box. -/
def Draw.TextFits : Draw → Prop
  | .button b _ => b.w.tdiv 4 + textLength b.text ≤ b.w ∧ b.h.tdiv 8 + 26 ≤ b.h
  | .niceButton b _ => textLength b.text ≤ b.w ∧ b.h.tdiv 20 + 26 ≤ b.h
  | _ => True

instance : (d : Draw) → Decidable d.TextFits
  | .button .. | .niceButton .. => inferInstanceAs (Decidable (_ ∧ _))
  | .clean _ | .image .. | .line .. => isTrue trivial

/-- **When a button stays in its box**: it does iff its text, which starts there, ends there. -/
theorem Button.subset_box_iff (A : Assets) {xText yText : ℤ} {b : Button} (h : b.Printable)
    (hlength : 0 < textLength b.text) (hx : b.x ≤ xText) (hy : b.y ≤ yText) (eventType : Bool) :
    footprint (b.pixelsAt A xText yText eventType) ⊆ b.box.area ↔
      xText + textLength b.text ≤ b.x + b.w ∧ yText + 26 ≤ b.y + b.h := by
  have hh : (b.textBox xText yText).hStart < (b.textBox xText yText).hEnd := by
    simp only [textBox]
    omega
  have hv : (b.textBox xText yText).vStart < (b.textBox xText yText).vEnd := by
    simp only [textBox]
    omega
  rw [footprint_pixelsAt A xText yText h, Set.union_subset_iff, Box.area_subset_iff hh hv]
  simp only [Box.Within, box, textBox, Set.Subset.rfl, true_and]
  omega

theorem Draw.subset_box_iff (A : Assets) {d : Draw} (h : d.Plain) {b : Button}
    (hb : b ∈ d.drawnButton) (hlength : 0 < textLength b.text) :
    footprint (d.pixels A) ⊆ b.box.area ↔ d.TextFits := by
  cases d with
  | button b' eventType =>
    obtain rfl : b' = b := Option.some_inj.mp hb
    have hw : 0 ≤ b'.w.tdiv 4 := Int.tdiv_nonneg h.1.1 (by decide)
    have hh : 0 ≤ b'.h.tdiv 8 := Int.tdiv_nonneg h.1.2 (by decide)
    refine (Button.subset_box_iff A h hlength (by omega) (by omega) eventType).trans ?_
    unfold TextFits
    omega
  | niceButton b' eventType =>
    obtain rfl : b' = b := Option.some_inj.mp hb
    have hh : 0 ≤ b'.h.tdiv 20 := Int.tdiv_nonneg h.1.2 (by decide)
    refine (Button.subset_box_iff A h hlength le_rfl (by omega) eventType).trans ?_
    unfold TextFits
    omega
  | _ => exact absurd hb (by simp [drawnButton])

/-! ### Several calls -/

theorem Draw.disjoint_iff (A : Assets) {d d' : Draw} (h : d.Plain) (h' : d'.Plain)
    (himage : ∀ im x y transparent, d ≠ .image im x y transparent)
    (himage' : ∀ im x y transparent, d' ≠ .image im x y transparent) :
    Disjoint (footprint (d.pixels A)) (footprint (d'.pixels A)) ↔
      ∀ r ∈ d.boxes, ∀ r' ∈ d'.boxes, r.Apart r' := by
  simp only [← Box.disjoint_iff, Set.disjoint_left]
  constructor
  · intro hdisj r hr r' hr' q hq hq'
    exact hdisj ((mem_footprint_iff A h himage).mpr ⟨r, hr, hq⟩)
      ((mem_footprint_iff A h' himage').mpr ⟨r', hr', hq'⟩)
  · intro hapart q hq hq'
    obtain ⟨r, hr, hq⟩ := (mem_footprint_iff A h himage).mp hq
    obtain ⟨r', hr', hq'⟩ := (mem_footprint_iff A h' himage').mp hq'
    exact hapart r hr r' hr' hq hq'

/-- Calls that draw in different places can be made in either order. -/
theorem readPixel_comm (A : Assets) (frame : ℤ) {d d' : Draw}
    (hd : ∀ p ∈ d.pixels A, InColumns p.1) (hd' : ∀ p ∈ d'.pixels A, InColumns p.1)
    (hdisj : Disjoint (footprint (d.pixels A)) (footprint (d'.pixels A))) (mem : ℤ → BitVec 8)
    {q : ℤ × ℤ} (hq : InColumns q) :
    readPixel frame
        (Canvas.paint mem (d.stores A (swFrame frame) ++ d'.stores A (swFrame frame))) q =
      readPixel frame
        (Canvas.paint mem (d'.stores A (swFrame frame) ++ d.stores A (swFrame frame))) q := by
  have happend {as bs : List Pixel} (ha : ∀ p ∈ as, InColumns p.1) (hb : ∀ p ∈ bs, InColumns p.1) :
      ∀ p ∈ as ++ bs, InColumns p.1 := fun p hp => (List.mem_append.mp hp).elim (ha p) (hb p)
  rw [Draw.stores_eq, Draw.stores_eq, ← List.flatMap_append, ← List.flatMap_append,
    readPixel_paint frame mem (happend hd hd') hq, readPixel_paint frame mem (happend hd' hd) hq,
    Canvas.paint_comm]
  intro p hp p' hp' heq
  exact Set.disjoint_left.mp hdisj ⟨p, hp, rfl⟩ ⟨p', hp', heq.symm⟩

/-- The boxes of each button with its text. -/
def controlBoxes : List (List Box) :=
  (niceButtons.map fun b => (Draw.niceButton b false).boxes) ++
    buttons.map fun b => (Draw.button b false).boxes

/-- A call draws one of the buttons, if it draws a button. -/
def Draw.DrawsControl (d : Draw) : Prop :=
  ∀ b ∈ d.drawnButton, 0 < textLength b.text ∧ d.boxes ∈ controlBoxes

instance (d : Draw) : Decidable d.DrawsControl :=
  inferInstanceAs (Decidable (∀ b ∈ d.drawnButton, _ ∧ _))

theorem screen_drawsControl (es : List MouseEvent) :
    ∀ d ∈ (es.foldl Desktop.task2 Desktop.boot).screen, d.DrawsControl :=
  forall_screen (by decide +kernel) (by decide +kernel) es

theorem controlBoxes_apart :
    ∀ rs ∈ controlBoxes, ∀ rs' ∈ controlBoxes, rs = rs' ∨ ∀ r ∈ rs, ∀ r' ∈ rs', r.Apart r' := by
  decide +kernel

/-- A line that a button is drawn over: the one above the modulations, which is inside the box of
the last colour, and the one at the right, which `REPUTATION` reaches. -/
def Draw.CrossedBy (r : Box) : Draw → Prop
  | .line hStart vStart _ vEnd _ _ =>
    (vStart = 234 ∧ vEnd = 234 ∧ r = Button.evermore.box) ∨
      (hStart = 795 ∧ r = Button.reputation.box)
  | _ => False

instance (r : Box) : (d : Draw) → Decidable (d.CrossedBy r)
  | .line .. => inferInstanceAs (Decidable (_ ∨ _))
  | .clean _ | .image .. | .button .. | .niceButton .. => isFalse not_false

theorem Draw.head?_boxes {d : Draw} {b : Button} (hb : b ∈ d.drawnButton) :
    d.boxes.head? = some b.box := by
  cases d with
  | button b' eventType => exact congrArg (Option.map Button.box) hb
  | niceButton b' eventType => exact congrArg (Option.map Button.box) hb
  | _ => exact absurd hb (by simp [drawnButton])

theorem initLines_apart_iff :
    ∀ l ∈ initLines, ∀ rs ∈ controlBoxes, ∀ r ∈ rs.head?,
      (∀ r ∈ l.boxes, ∀ r' ∈ rs, r.Apart r') ↔ ¬ l.CrossedBy r := by
  decide +kernel

theorem Draw.ne_image {d : Draw} {b : Button} (hb : b ∈ d.drawnButton) (im : Image) (x y : ℤ)
    (transparent : BitVec 32) : d ≠ .image im x y transparent := by
  rintro rfl
  exact absurd hb (by simp [drawnButton])

/-- A call of a run that draws a button is on the screen. -/
theorem screen_button_fits {es : List MouseEvent} {d : Draw}
    (hd : d ∈ (es.foldl Desktop.task2 Desktop.boot).screen) {b : Button}
    (hb : b ∈ d.drawnButton) : d.Fits := by
  refine (screen_fits es d hd).resolve_right fun hbelow => ?_
  cases d with
  | line => exact absurd hb (by simp [Draw.drawnButton])
  | _ => exact hbelow.elim

/-! ### Whole runs -/

section Run

variable (A : Assets) (frame : ℤ) (es : List MouseEvent)

/-- A call that draws a button changes its box only iff the text fits. -/
theorem screen_changesOnly_iff {d : Draw}
    (hd : d ∈ (es.foldl Desktop.task2 Desktop.boot).screen) {b : Button}
    (hb : b ∈ d.drawnButton) :
    ChangesOnly frame (d.stores A (swFrame frame)) b.box.area ↔ d.TextFits := by
  have hfits := screen_button_fits hd hb
  rw [Draw.stores_eq, changesOnly_iff frame fun p hp => (Draw.onScreen_of_fits hfits p hp).1]
  exact Draw.subset_box_iff A hfits.1 hb (screen_drawsControl es d hd b hb).1

theorem screen_disjoint {d d' : Draw} (hd : d ∈ (es.foldl Desktop.task2 Desktop.boot).screen)
    (hd' : d' ∈ (es.foldl Desktop.task2 Desktop.boot).screen) {b b' : Button}
    (hb : b ∈ d.drawnButton) (hb' : b' ∈ d'.drawnButton) (hne : b.box ≠ b'.box) :
    Disjoint (footprint (d.pixels A)) (footprint (d'.pixels A)) := by
  rw [Draw.disjoint_iff A (screen_button_fits hd hb).1 (screen_button_fits hd' hb').1
    (Draw.ne_image hb) (Draw.ne_image hb')]
  -- Two buttons with the same boxes would have the same first box, which is their own.
  refine (controlBoxes_apart _ (screen_drawsControl es d hd b hb).2 _
    (screen_drawsControl es d' hd' b' hb').2).resolve_left fun heq => hne ?_
  rw [← Option.some_inj, ← Draw.head?_boxes hb, ← Draw.head?_boxes hb', heq]

theorem screen_line_disjoint_iff {l : Draw} (hl : l ∈ initLines) {d : Draw}
    (hd : d ∈ (es.foldl Desktop.task2 Desktop.boot).screen) {b : Button}
    (hb : b ∈ d.drawnButton) :
    Disjoint (footprint (l.pixels A)) (footprint (d.pixels A)) ↔ ¬ l.CrossedBy b.box := by
  have hplain : ∀ l ∈ initLines, l.Plain := by decide +kernel
  have himage (im x y transparent) : l ≠ .image im x y transparent := by
    rintro rfl
    exact absurd hl (by simp [initLines])
  rw [Draw.disjoint_iff A (hplain l hl) (screen_button_fits hd hb).1 himage (Draw.ne_image hb)]
  exact initLines_apart_iff l hl _ (screen_drawsControl es d hd b hb).2 _ (Draw.head?_boxes hb)

/-- Every call for a button changes only its box, different buttons are drawn in different places,
and no button is drawn over a line. -/
def Desktop.RedrawsContained (D : Desktop) : Prop :=
  (∀ d ∈ D.screen, ∀ b ∈ d.drawnButton, ChangesOnly frame (d.stores A (swFrame frame)) b.box.area) ∧
    (∀ d ∈ D.screen, ∀ d' ∈ D.screen, ∀ b ∈ d.drawnButton, ∀ b' ∈ d'.drawnButton, b.box ≠ b'.box →
      Disjoint (footprint (d.pixels A)) (footprint (d'.pixels A))) ∧
    ∀ l ∈ initLines, ∀ d ∈ D.screen, ∀ b ∈ d.drawnButton,
      Disjoint (footprint (l.pixels A)) (footprint (d.pixels A))

theorem not_redrawsContained :
    ¬ (es.foldl Desktop.task2 Desktop.boot).RedrawsContained A frame := by
  rintro ⟨hcontained, -⟩
  have hd : Draw.niceButton .reputation false ∈ (es.foldl Desktop.task2 Desktop.boot).screen := by
    rw [screen_foldl]
    exact List.mem_append_left _ (by decide +kernel)
  have hfits := (screen_changesOnly_iff A frame es hd rfl).mp (hcontained _ hd _ rfl)
  exact absurd hfits (by decide +kernel)

/-- **What redrawing changes.** In every run a call that draws a button changes only its box iff the
text fits; different buttons are drawn in different places, so that their order does not matter; and
a button leaves a line as it is except for the two that it crosses. Some texts do not fit. -/
theorem redraw_contained_iff :
    (∀ d ∈ (es.foldl Desktop.task2 Desktop.boot).screen, ∀ b ∈ d.drawnButton,
      (ChangesOnly frame (d.stores A (swFrame frame)) b.box.area ↔ d.TextFits)) ∧
    (∀ d ∈ (es.foldl Desktop.task2 Desktop.boot).screen,
      ∀ d' ∈ (es.foldl Desktop.task2 Desktop.boot).screen,
      ∀ b ∈ d.drawnButton, ∀ b' ∈ d'.drawnButton, b.box ≠ b'.box →
        Disjoint (footprint (d.pixels A)) (footprint (d'.pixels A)) ∧
          ∀ (mem : ℤ → BitVec 8) (q : ℤ × ℤ), InColumns q →
            readPixel frame (Canvas.paint mem
                (d.stores A (swFrame frame) ++ d'.stores A (swFrame frame))) q =
              readPixel frame (Canvas.paint mem
                (d'.stores A (swFrame frame) ++ d.stores A (swFrame frame))) q) ∧
    (∀ l ∈ initLines, ∀ d ∈ (es.foldl Desktop.task2 Desktop.boot).screen, ∀ b ∈ d.drawnButton,
      (Disjoint (footprint (l.pixels A)) (footprint (d.pixels A)) ↔ ¬ l.CrossedBy b.box)) ∧
    ¬ (es.foldl Desktop.task2 Desktop.boot).RedrawsContained A frame := by
  refine ⟨fun d hd b hb => screen_changesOnly_iff A frame es hd hb, ?_,
    fun l hl d hd b hb => screen_line_disjoint_iff A es hl hd hb, not_redrawsContained A frame es⟩
  intro d hd d' hd' b hb b' hb' hne
  have hdisj := screen_disjoint A es hd hd' hb hb' hne
  refine ⟨hdisj, fun mem q hq => readPixel_comm A frame ?_ ?_ hdisj mem hq⟩
  · exact fun p hp => (Draw.onScreen_of_fits (screen_button_fits hd hb) p hp).1
  · exact fun p hp => (Draw.onScreen_of_fits (screen_button_fits hd' hb') p hp).1

end Run

/-- The texts that do not fit. -/
example : (niceButtons.filter fun b => ¬ (Draw.niceButton b false).TextFits) =
      [.speakNow, .reputation] ∧
    (buttons.filter fun b => ¬ (Draw.button b false).TextFits) =
      [.ask, .fsk, .bpsk, .lfsr, .qpsk] := by
  decide +kernel

/-- The background alone draws `REPUTATION`, 133 columns long, into a box of 120. -/
theorem redraw_not_contained :
    ¬ ∀ (A : Assets) (frame : ℤ) (es : List MouseEvent),
      (es.foldl Desktop.task2 Desktop.boot).RedrawsContained A frame := by
  intro h
  exact not_redrawsContained .zero 0 [] (h .zero 0 [])

end DigitalModulation
