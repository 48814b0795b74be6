import DigitalModulation.Graphics.Pixels

/-!
# The frame as a picture

`SW_Frame` is memory. It shows 600 rows of 800 pixels, of four bytes each.

* `readPixel`: the pixel at a column and a row;
* `OnScreen`: the pixels the frame has;
* `stores_in_frame_iff`: these are the pixels that are stored inside the frame;
* `readPixel_paint`: what pixels do to the picture;
* `changesOnly_iff`: when they change it only inside an area, whatever it was.
-/

namespace DigitalModulation

/-- The frame has a column of that number. -/
def InColumns (q : ℤ × ℤ) : Prop := 0 ≤ q.1 ∧ q.1 < 800

/-- The frame has a pixel there. -/
def OnScreen (q : ℤ × ℤ) : Prop := InColumns q ∧ 0 ≤ q.2 ∧ q.2 < 600

instance (q : ℤ × ℤ) : Decidable (InColumns q) := inferInstanceAs (Decidable (_ ∧ _))

instance (q : ℤ × ℤ) : Decidable (OnScreen q) := inferInstanceAs (Decidable (_ ∧ _))

/-- The pixel of the frame at a column and a row. -/
def readPixel (frame : ℤ) (mem : ℤ → BitVec 8) (q : ℤ × ℤ) : BitVec 32 :=
  let addr := frame + (q.2 * 3200 + q.1 * 4)
  mem (addr + 3) ++ (mem (addr + 2) ++ (mem (addr + 1) ++ mem addr))

theorem readPixel_const (frame : ℤ) (byte : BitVec 8) (q : ℤ × ℤ) :
    readPixel frame (fun _ => byte) q = byte ++ (byte ++ (byte ++ byte)) :=
  rfl

/-- An address inside the frame. -/
def InFrame (frame addr : ℤ) : Prop := frame ≤ addr ∧ addr < frame + 800 * 600 * 4

/-- The four stores of a pixel. -/
theorem vidSetPixel_eq (frame : ℤ) (p : Pixel) :
    vidSetPixel (swFrame frame) p =
      [(frame + (p.1.2 * 3200 + p.1.1 * 4), p.2.setWidth 8),
        (frame + (p.1.2 * 3200 + p.1.1 * 4) + 1, (p.2 >>> 8).setWidth 8),
        (frame + (p.1.2 * 3200 + p.1.1 * 4) + 2, (p.2 >>> 16).setWidth 8),
        (frame + (p.1.2 * 3200 + p.1.1 * 4) + 3, (p.2 >>> 24).setWidth 8)] := by
  simp [vidSetPixel_swFrame, storeBytes]

/-- **A pixel is stored inside the frame iff the frame has it**, provided it has the column. -/
theorem stores_in_frame_iff (frame : ℤ) {p : Pixel} (hp : InColumns p.1) :
    (∀ w ∈ vidSetPixel (swFrame frame) p, InFrame frame w.1) ↔ OnScreen p.1 := by
  unfold InColumns at hp
  unfold OnScreen InColumns InFrame
  simp only [vidSetPixel_eq, List.forall_mem_cons, List.not_mem_nil, false_implies, implies_true,
    and_true]
  omega

/-! ### Pixels in the picture -/

theorem color_bytes (color : BitVec 32) :
    (color >>> 24).setWidth 8 ++ ((color >>> 16).setWidth 8 ++
      ((color >>> 8).setWidth 8 ++ color.setWidth 8)) = color := by
  ext i hi
  simp only [BitVec.getElem_append]
  grind

/-- A pixel shows in its place and nowhere else. -/
theorem readPixel_vidSetPixel (frame : ℤ) (mem : ℤ → BitVec 8) {p : Pixel} (hp : InColumns p.1)
    {q : ℤ × ℤ} (hq : InColumns q) :
    readPixel frame (Canvas.paint mem (vidSetPixel (swFrame frame) p)) q =
      if p.1 = q then p.2 else readPixel frame mem q := by
  unfold InColumns at hp hq
  by_cases h : p.1 = q
  · rw [if_pos h, ← h, vidSetPixel_eq]
    simpa [readPixel, Canvas.paint] using color_bytes p.2
  · rw [if_neg h]
    have hne : p.1.1 ≠ q.1 ∨ p.1.2 ≠ q.2 := by
      by_contra hne
      exact h (Prod.ext (by omega) (by omega))
    -- Different pixels of the frame have no byte in common.
    have hkeep (i : ℤ) (hi : 0 ≤ i ∧ i < 4) :
        ∀ w ∈ vidSetPixel (swFrame frame) p, w.1 ≠ frame + (q.2 * 3200 + q.1 * 4) + i := by
      simp only [vidSetPixel_eq, List.forall_mem_cons, List.not_mem_nil, false_implies,
        implies_true, and_true]
      omega
    unfold readPixel
    simp only
    rw [Canvas.paint_of_forall_ne (hkeep 3 (by decide)),
      Canvas.paint_of_forall_ne (hkeep 2 (by decide)),
      Canvas.paint_of_forall_ne (hkeep 1 (by decide))]
    rw [← Int.add_zero (frame + (q.2 * 3200 + q.1 * 4)),
      Canvas.paint_of_forall_ne (hkeep 0 (by decide))]

/-- **What pixels do to the picture.** -/
theorem readPixel_paint (frame : ℤ) (mem : ℤ → BitVec 8) {ps : List Pixel}
    (hps : ∀ p ∈ ps, InColumns p.1) {q : ℤ × ℤ} (hq : InColumns q) :
    readPixel frame (Canvas.paint mem (ps.flatMap (vidSetPixel (swFrame frame)))) q =
      Canvas.paint (readPixel frame mem) ps q :=
  Canvas.view_paint_flatMap (fun mem p hp => readPixel_vidSetPixel frame mem (hps p hp) hq) mem

/-! ### Changes inside an area -/

/-- The stores change only the pixels of an area, whatever the frame held. -/
def ChangesOnly (frame : ℤ) (stores : List Store) (area : Set (ℤ × ℤ)) : Prop :=
  ∀ (mem : ℤ → BitVec 8) (q : ℤ × ℤ), InColumns q → q ∉ area →
    readPixel frame (Canvas.paint mem stores) q = readPixel frame mem q

theorem changesOnly_iff (frame : ℤ) {ps : List Pixel} (hps : ∀ p ∈ ps, InColumns p.1)
    (area : Set (ℤ × ℤ)) :
    ChangesOnly frame (ps.flatMap (vidSetPixel (swFrame frame))) area ↔ footprint ps ⊆ area := by
  constructor
  · rintro h q ⟨p, hp, rfl⟩
    by_contra harea
    -- A black and a white frame would both be as before at a pixel that is set.
    have hblack := h (fun _ => 0) p.1 (hps p hp) harea
    have hwhite := h (fun _ => 0xff) p.1 (hps p hp) harea
    rw [readPixel_paint frame _ hps (hps p hp)] at hblack hwhite
    rw [Canvas.paint_eq_paint_of_mem hp _ (readPixel frame fun _ => 0xff), hwhite] at hblack
    simp only [readPixel_const] at hblack
    exact absurd hblack (by decide)
  · intro h mem q hq harea
    rw [readPixel_paint frame mem hps hq]
    exact Canvas.paint_of_forall_ne fun p hp hpq => harea (h ⟨p, hp, hpq⟩)

end DigitalModulation
