import DigitalModulation.Graphics.PixelBytes
import DigitalModulation.Lib.InPlace

/-!
# `vid_move_block`

A block is moved up and to the left, pixel by pixel in the frame that is drawn, and what is left
behind is filled. The block and the place where it goes may have pixels in common.

* `vidGetPixel`, `vidMoveBlock`: the functions;
* `blockPlaces`: the pixels of a block in the order in which they are moved;
* `MoveFits`: the condition on the display and the arguments;
* `MoveFits.readsFirst`: a pixel is read before any other one is moved to its place;
* `MoveFits.pixelBytes_new`, `MoveFits.pixelBytes_filled`: what the pixels of the two places hold;
* `move_block`: the block that was there before arrives as a whole, up and to the left.
-/

namespace DigitalModulation

/-- `vid_get_pixel`, which supposes that a pixel has two bytes. -/
def vidGetPixel (mem : ℤ → BitVec 8) (display : VipFrameReader) (q : ℤ × ℤ) : BitVec 16 :=
  let addr := display.getDrawFrame + (q.2 * (display.width * 2) + q.1 * 2)
  mem (addr + 1) ++ mem addr

/-- The pixels of a block, row by row. -/
def blockPlaces (r : Box) : List (ℤ × ℤ) :=
  (List.range (r.vEnd - r.vStart).toNat).flatMap fun i : ℕ =>
    (List.range (r.hEnd - r.hStart).toNat).map fun j : ℕ => (r.hStart + j, r.vStart + i)

/-- What `vid_move_block` stores for a pixel that holds `temp_pixel`, of type `short`: the pixel at
its new place, and the `backfill_color` where no other pixel will come to. -/
def movePixel (r : Box) (xDistance yDistance : ℤ) (backfillColor : BitVec 32) (q : ℤ × ℤ)
    (tempPixel : BitVec 16) : List Pixel :=
  ((q.1 + xDistance, q.2 + yDistance), tempPixel.signExtend 32) ::
    if r.hEnd + xDistance ≤ q.1 ∨ r.vEnd + yDistance ≤ q.2 then [(q, backfillColor)] else []

/-- The memory after `vid_move_block`, which moves a block in two directions only. -/
def vidMoveBlock (r : Box) (xDistance yDistance : ℤ) (backfillColor : BitVec 32)
    (display : VipFrameReader) (mem : ℤ → BitVec 8) : ℤ → BitVec 8 :=
  if xDistance ≤ 0 ∧ yDistance ≤ 0 then
    (blockPlaces r).foldl (fun mem q => Canvas.paint mem
      ((movePixel r xDistance yDistance backfillColor q (vidGetPixel mem display q)).flatMap
        (vidSetPixel display))) mem
  else mem

/-! ### The order of the pixels -/

theorem mem_blockPlaces {r : Box} {q : ℤ × ℤ} : q ∈ blockPlaces r ↔ q ∈ r.area := by
  simp only [blockPlaces, List.mem_flatMap, List.mem_map, List.mem_range, Box.area,
    Set.mem_ofPred_eq]
  constructor
  · rintro ⟨i, hi, j, hj, rfl⟩
    dsimp only
    omega
  · rintro ⟨hh, hv⟩
    refine ⟨(q.2 - r.vStart).toNat, by omega, (q.1 - r.hStart).toNat, by omega, ?_⟩
    ext1
    · dsimp only
      omega
    · dsimp only
      omega

/-- The pixels of a block come in the order of their numbers. -/
theorem pairwise_blockPlaces {display : VipFrameReader} {r : Box} (hstart : 0 ≤ r.hStart)
    (hend : r.hEnd ≤ display.width) :
    (blockPlaces r).Pairwise fun q q' => display.pixelIndex q < display.pixelIndex q' := by
  unfold blockPlaces
  rw [List.pairwise_flatMap]
  constructor
  · intro i _
    rw [List.pairwise_map]
    refine List.pairwise_lt_range.imp fun {j j'} hlt => ?_
    simp only [VipFrameReader.pixelIndex]
    omega
  · refine List.pairwise_lt_range.imp fun {i i'} hlt => ?_
    simp only [List.mem_map, List.mem_range]
    rintro _ ⟨j, hj, rfl⟩ _ ⟨j', -, rfl⟩
    simp only [VipFrameReader.pixelIndex]
    have hrow : (r.vStart + i + 1) * display.width ≤ (r.vStart + i') * display.width :=
      Int.mul_le_mul_of_nonneg_right (by omega) (by omega)
    linarith [hrow, (by omega : r.hStart + j < display.width)]

section Moves

variable {display : VipFrameReader} {r : Box} {xDistance yDistance : ℤ}
  {backfillColor : BitVec 32}

/-- The pixels have two bytes, and the block and its new place have columns that the display has,
the new place above or to the left. -/
structure MoveFits (display : VipFrameReader) (r : Box) (xDistance yDistance : ℤ) : Prop where
  depth : display.colorDepth = 16
  left : xDistance ≤ 0
  up : yDistance ≤ 0
  start : 0 ≤ r.hStart + xDistance
  finish : r.hEnd ≤ display.width

theorem MoveFits.hasDepth (h : MoveFits display r xDistance yDistance) : display.HasDepth :=
  .inl h.depth

theorem MoveFits.bytesPerPixel (h : MoveFits display r xDistance yDistance) :
    display.bytesPerPixel = 2 := by
  unfold VipFrameReader.bytesPerPixel
  rw [h.depth]
  rfl

/-- What a pixel holds is stored again as it was read. -/
theorem MoveFits.colorBytes_vidGetPixel (h : MoveFits display r xDistance yDistance)
    (mem : ℤ → BitVec 8) (q : ℤ × ℤ) :
    colorBytes display ((vidGetPixel mem display q).signExtend 32) = display.pixelBytes mem q := by
  have hlo (hi lo : BitVec 8) : ((hi ++ lo).signExtend 32).setWidth 8 = lo := by
    ext i hi
    simp only [BitVec.getElem_setWidth, BitVec.getLsbD_signExtend, BitVec.getLsbD_append]
    grind
  have hhi (hi lo : BitVec 8) : (((hi ++ lo).signExtend 32) >>> 8).setWidth 8 = hi := by
    ext i hi
    simp only [BitVec.getElem_setWidth, BitVec.getLsbD_ushiftRight, BitVec.getLsbD_signExtend,
      BitVec.getLsbD_append]
    grind
  have haddr : display.getDrawFrame + (q.2 * (display.width * 2) + q.1 * 2) =
      display.getDrawFrame + display.pixelIndex q * 2 := by
    unfold VipFrameReader.pixelIndex
    ring
  simp only [colorBytes, h.depth, vidGetPixel, hlo, hhi, haddr, VipFrameReader.pixelBytes,
    Canvas.Layout.read, VipFrameReader.pixelLayout, Canvas.consecutive, h.bytesPerPixel]
  simp [List.range_succ]

/-- The bytes of the pixels that are set for one pixel of the block. -/
def moveWrites (display : VipFrameReader) (r : Box) (xDistance yDistance : ℤ)
    (backfillColor : BitVec 32) (q : ℤ × ℤ) (bytes : List (BitVec 8)) :
    List (ℤ × List (BitVec 8)) :=
  (display.pixelIndex (q.1 + xDistance, q.2 + yDistance), bytes) ::
    if r.hEnd + xDistance ≤ q.1 ∨ r.vEnd + yDistance ≤ q.2 then
      [(display.pixelIndex q, colorBytes display backfillColor)]
    else []

/-- **A pixel is read before any other one is moved to its place.** -/
theorem MoveFits.readsFirst (h : MoveFits display r xDistance yDistance) :
    Canvas.ReadsFirst display.pixelIndex (moveWrites display r xDistance yDistance backfillColor)
      (blockPlaces r) := by
  have hstart := h.start
  have hleft := h.left
  have hup := h.up
  refine (pairwise_blockPlaces (by omega) h.finish).imp_of_mem fun {q q'} hq _ hlt bytes w hw => ?_
  obtain ⟨hcol, -⟩ := Box.mem_area.mp (mem_blockPlaces.mp hq)
  have hfinish := h.finish
  have hnew : display.pixelIndex (q.1 + xDistance, q.2 + yDistance) ≤ display.pixelIndex q := by
    have hrow : (q.2 + yDistance) * display.width ≤ q.2 * display.width :=
      Int.mul_le_mul_of_nonneg_right (by omega) (by omega)
    unfold VipFrameReader.pixelIndex
    dsimp only
    omega
  unfold moveWrites at hw
  split_ifs at hw
  · simp only [List.mem_cons, List.not_mem_nil, or_false] at hw
    rcases hw with rfl | rfl
    · exact (hnew.trans_lt hlt).ne
    · exact hlt.ne
  · rw [List.mem_singleton.mp hw]
    exact (hnew.trans_lt hlt).ne

/-- The pixels after the move, each written with what the block held before it. -/
theorem MoveFits.read_vidMoveBlock (h : MoveFits display r xDistance yDistance)
    (mem : ℤ → BitVec 8) :
    display.pixelLayout.read (vidMoveBlock r xDistance yDistance backfillColor display mem) =
      Canvas.paint (display.pixelLayout.read mem) ((blockPlaces r).flatMap fun q =>
        moveWrites display r xDistance yDistance backfillColor q (display.pixelBytes mem q)) := by
  rw [vidMoveBlock, if_pos ⟨h.left, h.up⟩]
  refine (Canvas.view_foldl (fun mem q _ => ?_) mem).trans (Canvas.turns_eq_paint h.readsFirst _)
  rw [flatMap_vidSetPixel h.hasDepth]
  funext i
  rw [read_pixels (L := display.pixelLayout) h.hasDepth.length_eq]
  congr 1
  unfold movePixel moveWrites
  split_ifs
  · simp only [List.map_cons, List.map_nil, h.colorBytes_vidGetPixel]
    rfl
  · simp only [List.map_cons, List.map_nil, h.colorBytes_vidGetPixel]
    rfl

theorem mem_moves {f : ℤ × ℤ → List (BitVec 8)} {w : ℤ × List (BitVec 8)} :
    (w ∈ (blockPlaces r).flatMap fun q =>
        moveWrites display r xDistance yDistance backfillColor q (f q)) ↔
      ∃ q ∈ r.area, (display.pixelIndex (q.1 + xDistance, q.2 + yDistance), f q) = w ∨
        (r.hEnd + xDistance ≤ q.1 ∨ r.vEnd + yDistance ≤ q.2) ∧
          (display.pixelIndex q, colorBytes display backfillColor) = w := by
  simp only [List.mem_flatMap, mem_blockPlaces, moveWrites, List.mem_cons]
  refine exists_congr fun q => and_congr_right fun _ => or_congr eq_comm ?_
  split_ifs with hback
  · simp only [List.mem_singleton, hback, true_and, eq_comm]
  · simp only [List.not_mem_nil, hback, false_and]

/-- What a pixel holds after the move if only one value is written to it. -/
theorem MoveFits.pixelBytes_eq (h : MoveFits display r xDistance yDistance) {mem : ℤ → BitVec 8}
    {i : ℤ} {bytes : List (BitVec 8)} {ws : List (ℤ × List (BitVec 8))}
    (hws : ((blockPlaces r).flatMap fun q => moveWrites display r xDistance yDistance
      backfillColor q (display.pixelBytes mem q)) = ws)
    (hmem : (i, bytes) ∈ ws) (hone : ∀ w ∈ ws, w.1 = i → w.2 = bytes) :
    display.pixelLayout.read (vidMoveBlock r xDistance yDistance backfillColor display mem) i =
      bytes := by
  rw [h.read_vidMoveBlock, hws, Canvas.paint_apply, Canvas.lastWrite_eq_some hmem hone]
  rfl

theorem MoveFits.hasColumn (h : MoveFits display r xDistance yDistance) {q : ℤ × ℤ}
    (hq : q ∈ r.area) : display.HasColumn q := by
  have hstart := h.start
  have hleft := h.left
  exact ⟨by linarith [hq.1.1], by linarith [hq.1.2, h.finish]⟩

theorem MoveFits.hasColumn_new (h : MoveFits display r xDistance yDistance) {q : ℤ × ℤ}
    (hq : q ∈ r.area) : display.HasColumn (q.1 + xDistance, q.2 + yDistance) := by
  have hstart := h.start
  have hleft := h.left
  exact ⟨by linarith [hq.1.1], by linarith [hq.1.2, h.finish]⟩

theorem MoveFits.pixelBytes_new (h : MoveFits display r xDistance yDistance)
    (mem : ℤ → BitVec 8) {q : ℤ × ℤ} (hq : q ∈ r.area) :
    display.pixelBytes (vidMoveBlock r xDistance yDistance backfillColor display mem)
      (q.1 + xDistance, q.2 + yDistance) = display.pixelBytes mem q := by
  refine h.pixelBytes_eq rfl (mem_moves.mpr ⟨q, hq, .inl rfl⟩) fun w hw heq => ?_
  obtain ⟨q', hq', rfl | ⟨hback, rfl⟩⟩ := mem_moves.mp hw
  · obtain ⟨hcol, hrow⟩ := Prod.ext_iff.mp
      (VipFrameReader.pixelIndex_inj (h.hasColumn_new hq') (h.hasColumn_new hq) heq)
    have hsame : q' = q := Prod.ext (by simpa using hcol) (by simpa using hrow)
    rw [hsame]
  · -- A pixel that is filled is not one at which the block arrives.
    obtain ⟨hcol, hrow⟩ := Prod.ext_iff.mp
      (VipFrameReader.pixelIndex_inj (h.hasColumn hq') (h.hasColumn_new hq) heq)
    obtain ⟨⟨-, hlast⟩, -, hlast'⟩ := hq
    dsimp only at hcol hrow
    omega

theorem MoveFits.pixelBytes_filled (h : MoveFits display r xDistance yDistance)
    (mem : ℤ → BitVec 8) {q : ℤ × ℤ} (hq : q ∈ r.area)
    (hne : (q.1 - xDistance, q.2 - yDistance) ∉ r.area) :
    display.pixelBytes (vidMoveBlock r xDistance yDistance backfillColor display mem) q =
      colorBytes display backfillColor := by
  have hleft := h.left
  have hup := h.up
  have hback : r.hEnd + xDistance ≤ q.1 ∨ r.vEnd + yDistance ≤ q.2 := by
    have hplace := hq
    rw [Box.area, Set.mem_ofPred_eq] at hplace hne
    dsimp only at hne
    omega
  refine h.pixelBytes_eq rfl (mem_moves.mpr ⟨q, hq, .inr ⟨hback, rfl⟩⟩) fun w hw heq => ?_
  obtain ⟨q', hq', rfl | ⟨-, rfl⟩⟩ := mem_moves.mp hw
  · obtain ⟨hcol, hrow⟩ := Prod.ext_iff.mp
      (VipFrameReader.pixelIndex_inj (h.hasColumn_new hq') (h.hasColumn hq) heq)
    have hsame : (q.1 - xDistance, q.2 - yDistance) = q' := by
      ext1
      · dsimp only at hcol ⊢
        omega
      · dsimp only at hrow ⊢
        omega
    exact absurd (hsame ▸ hq') hne
  · rfl

theorem MoveFits.vidMoveBlock_of_forall_not (h : MoveFits display r xDistance yDistance)
    (mem : ℤ → BitVec 8) {addr : ℤ} (haddr : ∀ q ∈ r.area, ¬ display.ByteOf addr q ∧
      ¬ display.ByteOf addr (q.1 + xDistance, q.2 + yDistance)) :
    vidMoveBlock r xDistance yDistance backfillColor display mem addr = mem addr := by
  have hkeep (mem : ℤ → BitVec 8) : ∀ q ∈ blockPlaces r, Canvas.paint mem
      ((movePixel r xDistance yDistance backfillColor q (vidGetPixel mem display q)).flatMap
        (vidSetPixel display)) addr = mem addr := by
    intro q hq
    obtain ⟨hold, hnew⟩ := haddr q (mem_blockPlaces.mp hq)
    refine paint_outside_pixels h.hasDepth (fun q' hq' => ?_) mem
    obtain ⟨p, hp, rfl⟩ := hq'
    unfold movePixel at hp
    split_ifs at hp
    · simp only [List.mem_cons, List.not_mem_nil, or_false] at hp
      rcases hp with rfl | rfl
      · exact hnew
      · exact hold
    · rw [List.mem_singleton.mp hp]
      exact hnew
  rw [vidMoveBlock, if_pos ⟨h.left, h.up⟩]
  exact List.foldlRecOn (motive := fun mem' => mem' addr = mem addr) _ _ rfl
    fun mem' hmem' q hq => (hkeep mem' q hq).trans hmem'

/-- **The block that was there before arrives as a whole**, also where it overlaps with its new
place; where no pixel arrives the block is filled, and all the other bytes stay. To the right or
down nothing is moved. -/
theorem move_block (display : VipFrameReader) (r : Box) (xDistance yDistance : ℤ)
    (backfillColor : BitVec 32) (mem : ℤ → BitVec 8) :
    let mem' := vidMoveBlock r xDistance yDistance backfillColor display mem
    (MoveFits display r xDistance yDistance →
      (∀ q ∈ r.area, display.pixelBytes mem' (q.1 + xDistance, q.2 + yDistance) =
        display.pixelBytes mem q) ∧
      (∀ q ∈ r.area, (q.1 - xDistance, q.2 - yDistance) ∉ r.area →
        display.pixelBytes mem' q = colorBytes display backfillColor) ∧
      ∀ addr, (∀ q ∈ r.area, ¬ display.ByteOf addr q ∧
        ¬ display.ByteOf addr (q.1 + xDistance, q.2 + yDistance)) → mem' addr = mem addr) ∧
    (0 < xDistance ∨ 0 < yDistance → mem' = mem) := by
  intro mem'
  refine ⟨fun h => ⟨fun q hq => h.pixelBytes_new mem hq,
    fun q hq hne => h.pixelBytes_filled mem hq hne,
    fun addr haddr => h.vidMoveBlock_of_forall_not mem haddr⟩, fun hdir => ?_⟩
  show vidMoveBlock r xDistance yDistance backfillColor display mem = mem
  rw [vidMoveBlock, if_neg (by omega)]

theorem move_block_overlap :
    let display : VipFrameReader := ⟨0, 0, 0, 16, 800, 600⟩
    let mem : ℤ → BitVec 8 := fun addr => BitVec.ofInt 8 addr
    let moved := vidMoveBlock ⟨2, 2, 6, 6⟩ (-1) (-1) 0x1234 display mem
    display.pixelBytes moved (3, 3) = display.pixelBytes mem (4, 4) ∧
      display.pixelBytes moved (5, 2) = [0x34, 0x12] ∧
      vidMoveBlock ⟨2, 2, 6, 6⟩ 1 (-1) 0x1234 display mem = mem := by
  intro display mem moved
  have hfits : MoveFits display ⟨2, 2, 6, 6⟩ (-1) (-1) :=
    ⟨rfl, by decide, by decide, by decide, by decide⟩
  obtain ⟨hnew, hfilled, -⟩ := (move_block display ⟨2, 2, 6, 6⟩ (-1) (-1) 0x1234 mem).1 hfits
  exact ⟨hnew (4, 4) (by decide), (hfilled (5, 2) (by decide) (by decide)).trans (by decide),
    (move_block display ⟨2, 2, 6, 6⟩ 1 (-1) 0x1234 mem).2 (.inl (by decide))⟩

end Moves

end DigitalModulation
