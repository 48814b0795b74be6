import DigitalModulation.Lib.RingBuffer
import DigitalModulation.Plot.PlotGraph

/-!
# What the display shows

The RAM of `plot_graph` is a ring buffer: of 640 words as long as the samples overwrite each other,
of the 1024 addresses as long as the display scrolls.

* `PlotGraph.Holds`: the RAM and the write address are those of a ring buffer;
* `overpaint_ring`: without `scroll_en` the columns are the cells of the ring, and the line is at
  its cursor;
* `PlotGraph.ShowsNewest`: the columns are the newest samples in order, and go on to be;
* `scroll_shows_newest_iff`: with `scroll_en` that depends on the state in which it was set.
-/

namespace DigitalModulation

namespace PlotGraph

/-- The word at the read address of a column. -/
def word (p : PlotPorts) (s : PlotGraph) (x : ℕ) : BitVec 10 :=
  s.sdram1 (s.rdaddress p (BitVec.ofNat 11 x))

/-- The words below `m` and the write address are the cells and the cursor of a ring buffer. -/
def Holds {m : ℕ} (s : PlotGraph) (r : RingBuffer (BitVec 10) m) : Prop :=
  s.sdramAddWrite.toNat = r.cursor ∧ ∀ a < m, s.sdram1 (BitVec.ofNat 10 a) = r.cells a

/-- The ring buffer in the RAM. -/
def ring {m : ℕ} (s : PlotGraph) (h : s.sdramAddWrite.toNat < m) : RingBuffer (BitVec 10) m :=
  ⟨fun a => s.sdram1 (BitVec.ofNat 10 a), s.sdramAddWrite.toNat, h⟩

theorem holds_ring {m : ℕ} (s : PlotGraph) (h : s.sdramAddWrite.toNat < m) : s.Holds (s.ring h) :=
  ⟨rfl, fun _ _ => rfl⟩

/-- A word that is written where the next cell is. -/
theorem update_eq_write {m : ℕ} (hm : m ≤ 1024) {ram : Sdram1} {r : RingBuffer (BitVec 10) m}
    {w : BitVec 10} (hw : w.toNat = r.cursor)
    (h : ∀ a < m, ram (BitVec.ofNat 10 a) = r.cells a) (x : BitVec 10) {a : ℕ} (ha : a < m) :
    Function.update ram w x (BitVec.ofNat 10 a) = (r.write x).cells a := by
  have htoNat : (BitVec.ofNat 10 a).toNat = a := by
    rw [BitVec.toNat_ofNat]
    exact Nat.mod_eq_of_lt (by omega)
  by_cases hcell : a = r.cursor
  · have haddress : BitVec.ofNat 10 a = w := by
      rw [← BitVec.toNat_inj, htoNat, hw, hcell]
    rw [haddress, Function.update_self, hcell]
    exact (Function.update_self r.cursor x r.cells).symm
  · have haddress : BitVec.ofNat 10 a ≠ w := by
      rw [← BitVec.toNat_inj.ne, htoNat, hw]
      exact hcell
    rw [Function.update_of_ne haddress, h a ha]
    exact (Function.update_of_ne hcell x r.cells).symm

/-! ### Without `scroll_en` -/

section

variable (stray : Sdram1 → BitVec 10 → BitVec 10 → Sdram1) (posY : BitVec 11) (height : BitVec 3)
  {s : PlotGraph}

/-- A sample more is a write to the ring of 640. -/
theorem Holds.tick_overpaint {r : RingBuffer (BitVec 10) 640} (h : s.Holds r) {i : Sample}
    (hi : i.scrollEn = false) : (s.tick stray (topPorts posY height) i).Holds (r.write i.data) := by
  have hlt := r.lt
  have hw := h.1
  rw [PlotGraph.tick_overpaint stray posY height s hi]
  constructor
  · show (if 639 ≤ s.sdramAddWrite.toNat then 0 else s.sdramAddWrite + 1).toNat =
      RingBuffer.next 640 r.cursor
    unfold RingBuffer.next
    rw [← hw]
    split_ifs <;> bv_omega
  · intro a ha
    have hinside : s.sdramAddWrite < numwords := by
      unfold numwords
      bv_omega
    simp only [Sdram1.write, if_pos hinside]
    exact update_eq_write (by omega) hw h.2 i.data ha

theorem Holds.foldl_overpaint {r : RingBuffer (BitVec 10) 640} (h : s.Holds r)
    (hd : s.difScroll = 0) {is : List Sample} (his : ∀ i ∈ is, i.scrollEn = false) :
    (is.foldl (tick stray (topPorts posY height)) s).Holds
        ((is.map Sample.data).foldl RingBuffer.write r) ∧
      (is.foldl (tick stray (topPorts posY height)) s).difScroll = 0 := by
  induction is generalizing s r with
  | nil => exact ⟨h, hd⟩
  | cons i is ih =>
    have hi := his i List.mem_cons_self
    have hd' : (s.tick stray (topPorts posY height) i).difScroll = 0 := by
      rw [PlotGraph.tick_overpaint stray posY height s hi]
    exact ih (h.tick_overpaint stray posY height hi) hd'
      fun j hj => his j (List.mem_cons_of_mem i hj)

/-- The first tick without `scroll_en` brings the write address into the RAM, wherever it was. -/
theorem sdramAddWrite_tick_overpaint_lt {i : Sample} (hi : i.scrollEn = false) :
    (s.tick stray (topPorts posY height) i).sdramAddWrite.toNat < 640 := by
  rw [PlotGraph.tick_overpaint stray posY height s hi]
  show (if 639 ≤ s.sdramAddWrite.toNat then 0 else s.sdramAddWrite + 1).toNat < 640
  split_ifs <;> bv_omega

theorem rdaddress_of_difScroll (hd : s.difScroll = 0) (countX : BitVec 11) :
    s.rdaddress (topPorts posY height) countX = countX.setWidth 10 := by
  rw [rdaddress_top, hd]
  bv_omega

theorem verticalLine_iff (hd : s.difScroll = 0) (countX countY : BitVec 11) :
    s.verticalLine (topPorts posY height) false countX countY = true ↔
      s.rdaddress (topPorts posY height) countX = s.sdramAddWrite ∧ posY ≤ countY ∧
        countY ≤ 255 / height.setWidth 11 + posY := by
  have hcolumn : s.column (topPorts posY height) countX = s.sdramAddWrite.setWidth 11 ↔
      countX.setWidth 10 = s.sdramAddWrite := by
    unfold column topPorts
    rw [hd]
    bv_omega
  rw [rdaddress_of_difScroll posY height hd, ← hcolumn]
  unfold verticalLine
  rw [if_pos rfl, Bool.and_eq_true, Bool.and_eq_true, beq_iff_eq, decide_eq_true_iff,
    decide_eq_true_iff, and_assoc]
  rfl

/-- The age of a cell of 640. -/
theorem age_eq (r : RingBuffer (BitVec 10) 640) {x : ℕ} (hx : x < 640) :
    r.age x = (r.cursor + 639 - x) % 640 := by
  have hlt := r.lt
  unfold RingBuffer.age
  split_ifs <;> omega

/-- The first tick makes the RAM a ring buffer, into which the other samples are written. -/
theorem overpaint_words (s₀ : PlotGraph) {is : List Sample} (hlength : 641 ≤ is.length)
    (his : ∀ i ∈ is, i.scrollEn = false) :
    let s := is.foldl (tick stray (topPorts posY height)) s₀
    s.difScroll = 0 ∧ s.sdramAddWrite.toNat < 640 ∧
      ∀ x < 640, (is.map Sample.data).reverse[(s.sdramAddWrite.toNat + 639 - x) % 640]? =
        some (s.sdram1 (BitVec.ofNat 10 x)) := by
  intro s
  obtain ⟨i₀, rest, rfl⟩ : ∃ i₀ rest, is = i₀ :: rest :=
    List.exists_cons_of_length_pos (by omega)
  have hfirst := his i₀ List.mem_cons_self
  have hd₁ : (s₀.tick stray (topPorts posY height) i₀).difScroll = 0 := by
    rw [PlotGraph.tick_overpaint stray posY height s₀ hfirst]
  obtain ⟨⟨hcursor, hcells⟩, hd⟩ := (holds_ring (s₀.tick stray (topPorts posY height) i₀)
    (sdramAddWrite_tick_overpaint_lt stray posY height hfirst)).foldl_overpaint stray posY
      height hd₁ fun i hi => his i (List.mem_cons_of_mem i₀ hi)
  have hw : s.sdramAddWrite.toNat = _ := hcursor
  refine ⟨hd, hw ▸ RingBuffer.lt _, fun x hx => ?_⟩
  have hage := age_eq ((rest.map Sample.data).foldl RingBuffer.write
    ((s₀.tick stray (topPorts posY height) i₀).ring
      (sdramAddWrite_tick_overpaint_lt stray posY height hfirst))) hx
  have hcount : (s.sdramAddWrite.toNat + 639 - x) % 640 < (rest.map Sample.data).length := by
    rw [List.length_cons] at hlength
    rw [List.length_map]
    omega
  rw [List.map_cons, List.reverse_cons,
    List.getElem?_append_left (by rwa [List.length_reverse]), show s.sdram1 _ = _ from hcells x hx]
  rw [hw, ← hage] at hcount ⊢
  exact RingBuffer.getElem?_age _ _ hx hcount

end

end PlotGraph

theorem scrollEn_of_mem_replicate {n : ℕ} {i j : Sample} (h : j ∈ List.replicate n i) :
    j.scrollEn = i.scrollEn := by
  rw [List.eq_of_mem_replicate h]

/-- **Without `scroll_en` the display is a ring of 640 samples.** From any state, once 641 samples
have come: column `x` shows the sample that came `(w + 639 - x) % 640` ticks before the newest, `w`
the write address, so that the columns are the last 640 samples, each once and in the order of the
ring; the line is where the oldest is, and there the next sample is written. -/
theorem overpaint_ring (stray : Sdram1 → BitVec 10 → BitVec 10 → Sdram1) (posY : BitVec 11)
    (height : BitVec 3) (s₀ : PlotGraph) (is : List Sample) (hlength : 641 ≤ is.length)
    (his : ∀ i ∈ is, i.scrollEn = false) :
    let p := topPorts posY height
    let s := is.foldl (PlotGraph.tick stray p) s₀
    let w := s.sdramAddWrite.toNat
    s.difScroll = 0 ∧ w < 640 ∧
    (∀ x < 640, (is.map Sample.data).reverse[(w + 639 - x) % 640]? = some (s.word p x)) ∧
    (∀ k < 640, ∃! x, x < 640 ∧ (w + 639 - x) % 640 = k) ∧
    (is.map Sample.data).reverse[639]? = some (s.sdram1 s.sdramAddWrite) ∧
    (∀ countX countY, s.verticalLine p false countX countY = true ↔
      s.rdaddress p countX = s.sdramAddWrite ∧ posY ≤ countY ∧
        countY ≤ 255 / height.setWidth 11 + posY) ∧
    ∀ i : Sample, (s.tick stray p i).sdram1 = Function.update s.sdram1 s.sdramAddWrite i.data := by
  intro p s w
  obtain ⟨hd, hlt, hwords⟩ := PlotGraph.overpaint_words stray posY height s₀ hlength his
  refine ⟨hd, hlt, ?_, ?_, ?_, PlotGraph.verticalLine_iff posY height hd, ?_⟩
  · intro x hx
    have hcolumn : (BitVec.ofNat 11 x).setWidth 10 = BitVec.ofNat 10 x := by bv_omega
    unfold PlotGraph.word
    rw [PlotGraph.rdaddress_of_difScroll posY height hd, hcolumn]
    exact hwords x hx
  · intro k hk
    obtain ⟨x, hx, hxk⟩ := (s.ring hlt).exists_age hk
    refine ⟨x, ⟨hx, (PlotGraph.age_eq _ hx).symm.trans hxk⟩, ?_⟩
    rintro y ⟨hy, hyk⟩
    exact (s.ring hlt).age_injOn hy hx (((PlotGraph.age_eq _ hy).trans hyk).trans hxk.symm)
  · have hage : (w + 639 - w) % 640 = 639 :=
      (PlotGraph.age_eq (s.ring hlt) hlt).symm.trans (s.ring hlt).age_cursor
    have holdest := hwords w hlt
    rw [hage, BitVec.ofNat_toNat, BitVec.setWidth_eq] at holdest
    exact holdest
  · intro i
    exact if_pos hlt

/-- A revolution and a sample. -/
theorem overpaint_ring_once :
    ((List.replicate 641 ⟨false, 5⟩).foldl (PlotGraph.tick keepStray plotGraph1)
      PlotGraph.powerUp).difScroll = 0 :=
  (overpaint_ring keepStray 266 2 PlotGraph.powerUp (List.replicate 641 ⟨false, 5⟩)
    List.length_replicate.ge fun _ hi => scrollEn_of_mem_replicate hi).1

/-! ### With `scroll_en` -/

namespace PlotGraph

section

variable (posY : BitVec 11) (height : BitVec 3) {s : PlotGraph}

theorem write_keepStray (ram : Sdram1) (w x : BitVec 10) :
    ram.write keepStray w x = Function.update ram w x :=
  ite_self _

/-- A sample more is a write to the ring of 1024. -/
theorem Holds.tick_scroll {r : RingBuffer (BitVec 10) 1024} (h : s.Holds r) {i : Sample}
    (hi : i.scrollEn = true) :
    (s.tick keepStray (topPorts posY height) i).Holds (r.write i.data) := by
  have hw := h.1
  rw [PlotGraph.tick_scroll keepStray posY height s hi]
  constructor
  · show (s.sdramAddWrite + 1).toNat = RingBuffer.next 1024 r.cursor
    unfold RingBuffer.next
    rw [← hw]
    split_ifs <;> bv_omega
  · intro a ha
    simp only [write_keepStray]
    exact update_eq_write (by omega) hw h.2 i.data ha

theorem Holds.foldl_scroll {r : RingBuffer (BitVec 10) 1024} (h : s.Holds r) {is : List Sample}
    (his : ∀ i ∈ is, i.scrollEn = true) :
    (is.foldl (tick keepStray (topPorts posY height)) s).Holds
      ((is.map Sample.data).foldl RingBuffer.write r) := by
  induction is generalizing s r with
  | nil => exact h
  | cons i is ih =>
    exact ih (h.tick_scroll posY height (his i List.mem_cons_self))
      fun j hj => his j (List.mem_cons_of_mem i hj)

/-- Once the flag is set, the offset follows the write address at the distance it has. -/
theorem distance_foldl (hflag : s.banderaScrollFx = true) {is : List Sample}
    (his : ∀ i ∈ is, i.scrollEn = true) :
    let s' := is.foldl (tick keepStray (topPorts posY height)) s
    s'.banderaScrollFx = true ∧
      s'.sdramAddWrite - s'.difScroll = s.sdramAddWrite - s.difScroll := by
  induction is generalizing s with
  | nil => exact ⟨hflag, rfl⟩
  | cons i is ih =>
    have hstep := PlotGraph.tick_scroll keepStray posY height s (his i List.mem_cons_self)
    rw [hflag, ite_self, if_pos rfl] at hstep
    obtain ⟨hflag', hdistance⟩ := ih (s := s.tick keepStray (topPorts posY height) i)
      (by rw [hstep]) fun j hj => his j (List.mem_cons_of_mem i hj)
    refine ⟨hflag', hdistance.trans ?_⟩
    rw [hstep]
    show s.sdramAddWrite + 1 - (s.difScroll + 1) = s.sdramAddWrite - s.difScroll
    bv_omega

/-- With the flag clear and the write address inside, the offset starts when address 640 comes. -/
theorem distance_of_inside (hflag : s.banderaScrollFx = false)
    (hinside : s.sdramAddWrite.toNat ≤ 639) {is : List Sample}
    (hlength : 640 ≤ s.sdramAddWrite.toNat + is.length) (his : ∀ i ∈ is, i.scrollEn = true) :
    let s' := is.foldl (tick keepStray (topPorts posY height)) s
    s'.banderaScrollFx = true ∧ s'.sdramAddWrite - s'.difScroll = 640 := by
  induction is generalizing s with
  | nil =>
    rw [List.length_nil] at hlength
    omega
  | cons i is ih =>
    have hstep := PlotGraph.tick_scroll keepStray posY height s (his i List.mem_cons_self)
    have hrest : ∀ j ∈ is, j.scrollEn = true := fun j hj => his j (List.mem_cons_of_mem i hj)
    rw [hflag, if_neg Bool.false_ne_true] at hstep
    rw [List.length_cons] at hlength
    by_cases hlast : 639 ≤ s.sdramAddWrite.toNat
    · -- This tick sets the flag and still leaves the offset at 0.
      rw [if_pos hlast] at hstep
      obtain ⟨hflag', hdistance⟩ := distance_foldl posY height
        (s := s.tick keepStray (topPorts posY height) i) (by rw [hstep]) hrest
      refine ⟨hflag', hdistance.trans ?_⟩
      rw [hstep]
      show s.sdramAddWrite + 1 - 0 = 640
      bv_omega
    · rw [if_neg hlast] at hstep
      have hnext : (s.tick keepStray (topPorts posY height) i).sdramAddWrite.toNat =
          s.sdramAddWrite.toNat + 1 := by
        rw [hstep]
        show (s.sdramAddWrite + 1).toNat = s.sdramAddWrite.toNat + 1
        bv_omega
      exact ih (by rw [hstep]) (by omega) (by omega) hrest

/-- With the flag clear at address 640 the offset starts a tick late. -/
theorem distance_of_boundary (hflag : s.banderaScrollFx = false) (hw : s.sdramAddWrite = 640)
    {is : List Sample} (hlength : 0 < is.length) (his : ∀ i ∈ is, i.scrollEn = true) :
    let s' := is.foldl (tick keepStray (topPorts posY height)) s
    s'.sdramAddWrite - s'.difScroll = 641 := by
  obtain ⟨i, is, rfl⟩ := List.exists_cons_of_length_pos hlength
  have hstep := PlotGraph.tick_scroll keepStray posY height s (his i List.mem_cons_self)
  rw [hflag, hw, if_pos (by decide), if_neg Bool.false_ne_true] at hstep
  have hdistance := (distance_foldl posY height (s := s.tick keepStray (topPorts posY height) i)
    (by rw [hstep]) fun j hj => his j (List.mem_cons_of_mem i hj)).2
  refine hdistance.trans ?_
  rw [hstep]
  show (640 + 1 - 0 : BitVec 10) = 641
  decide

/-- The state in which `scroll_en` is set: that of power-up, or one after a tick without it. -/
theorem state_before_scroll {pre : List Sample} (hpre : ∀ i ∈ pre.getLast?, i.scrollEn = false) :
    let s := pre.foldl (tick keepStray (topPorts posY height)) powerUp
    s.difScroll = 0 ∧
      (s.sdramAddWrite.toNat ≤ 639 ∨ s.banderaScrollFx = false ∧ s.sdramAddWrite = 640) := by
  rcases pre.eq_nil_or_concat' with rfl | ⟨pre, i, rfl⟩
  · exact ⟨rfl, .inr ⟨rfl, rfl⟩⟩
  · have hi : i.scrollEn = false := hpre i (by simp)
    rw [List.foldl_append, List.foldl_cons, List.foldl_nil]
    have hlt := sdramAddWrite_tick_overpaint_lt keepStray posY height hi
      (s := pre.foldl (tick keepStray (topPorts posY height)) powerUp)
    refine ⟨?_, .inl (by omega)⟩
    rw [PlotGraph.tick_overpaint keepStray posY height _ hi]

end

/-- The columns show the newest samples in order, and after a further sample they do again. -/
def ShowsNewest (p : PlotPorts) (s : PlotGraph) (is : List Sample) : Prop :=
  s.sdramAddWrite - s.difScroll = 640 ∧
  (∀ x < 640, (is.map Sample.data).reverse[639 - x]? = some (s.word p x)) ∧
  ∀ i : Sample, i.scrollEn = true →
    (∀ x < 639, (s.tick keepStray p i).word p x = s.word p (x + 1)) ∧
      (s.tick keepStray p i).word p 639 = i.data

section

variable (posY : BitVec 11) (height : BitVec 3) {s : PlotGraph}

/-- At the distance of 640 the column left of 640 is the newest. -/
theorem word_eq (hdistance : s.sdramAddWrite - s.difScroll = 640) (x : ℕ) :
    s.word (topPorts posY height) x = s.sdram1 (s.sdramAddWrite - 640 + BitVec.ofNat 10 x) := by
  unfold word
  rw [rdaddress_top]
  congr 1
  bv_omega

theorem Holds.sdram1_eq {r : RingBuffer (BitVec 10) 1024} (h : s.Holds r) (a : BitVec 10) :
    s.sdram1 a = r.cells a.toNat := by
  rw [← h.2 a.toNat a.isLt, BitVec.ofNat_toNat, BitVec.setWidth_eq]

/-- The age of the cell that a column shows. -/
theorem age_word {r : RingBuffer (BitVec 10) 1024} (h : s.sdramAddWrite.toNat = r.cursor) {x : ℕ}
    (hx : x < 640) : r.age (s.sdramAddWrite - 640 + BitVec.ofNat 10 x).toNat = 639 - x := by
  unfold RingBuffer.age
  rw [← h]
  split_ifs <;> bv_omega

theorem showsNewest_of_distance {s₀ : PlotGraph} {is : List Sample} (hlength : 1024 ≤ is.length)
    (his : ∀ i ∈ is, i.scrollEn = true)
    (hflag : (is.foldl (tick keepStray (topPorts posY height)) s₀).banderaScrollFx = true)
    (hdistance : (is.foldl (tick keepStray (topPorts posY height)) s₀).sdramAddWrite -
      (is.foldl (tick keepStray (topPorts posY height)) s₀).difScroll = 640) :
    ShowsNewest (topPorts posY height) (is.foldl (tick keepStray (topPorts posY height)) s₀)
      is := by
  have hholds := (holds_ring s₀ (m := 1024) s₀.sdramAddWrite.isLt).foldl_scroll posY height his
  refine ⟨hdistance, fun x hx => ?_, fun i hi => ?_⟩
  · have hage := age_word hholds.1 hx
    rw [word_eq posY height hdistance, hholds.sdram1_eq, ← hage]
    refine RingBuffer.getElem?_age _ _ (BitVec.isLt _) ?_
    rw [hage, List.length_map]
    omega
  · -- A tick moves the write address and the offset together.
    generalize is.foldl (tick keepStray (topPorts posY height)) s₀ = s at *
    have hstep := PlotGraph.tick_scroll keepStray posY height s hi
    rw [if_pos hflag] at hstep
    have hnext : (s.tick keepStray (topPorts posY height) i).sdramAddWrite -
        (s.tick keepStray (topPorts posY height) i).difScroll = 640 := by
      rw [hstep]
      show s.sdramAddWrite + 1 - (s.difScroll + 1) = 640
      bv_omega
    have hwords (x : ℕ) :
        (s.tick keepStray (topPorts posY height) i).word (topPorts posY height) x =
          Function.update s.sdram1 s.sdramAddWrite i.data
            (s.sdramAddWrite + 1 - 640 + BitVec.ofNat 10 x) := by
      rw [word_eq posY height hnext, hstep, write_keepStray]
    constructor
    · intro x hx
      have haddress : s.sdramAddWrite + 1 - 640 + BitVec.ofNat 10 x ≠ s.sdramAddWrite := by
        bv_omega
      rw [hwords, Function.update_of_ne haddress, word_eq posY height hdistance]
      congr 1
      bv_omega
    · have haddress : s.sdramAddWrite + 1 - 640 + BitVec.ofNat 10 639 = s.sdramAddWrite := by
        bv_omega
      rw [hwords, haddress, Function.update_self]

end

end PlotGraph

/-- **With `scroll_en` the display shows the newest samples**, if it was set with the flag clear and
the write address inside the RAM: then the offset keeps the distance of 640 that puts the newest
sample in column 639. Else, as at power-up, where the write address is 640 already, it keeps another
distance. -/
theorem scroll_shows_newest_iff (posY : BitVec 11) (height : BitVec 3) (pre is : List Sample)
    (hpre : ∀ i ∈ pre.getLast?, i.scrollEn = false) (hlength : 1024 ≤ is.length)
    (his : ∀ i ∈ is, i.scrollEn = true) :
    let p := topPorts posY height
    let s₀ := pre.foldl (PlotGraph.tick keepStray p) PlotGraph.powerUp
    PlotGraph.ShowsNewest p (is.foldl (PlotGraph.tick keepStray p) s₀) is ↔
      s₀.banderaScrollFx = false ∧ s₀.sdramAddWrite.toNat ≤ 639 := by
  intro p s₀
  constructor
  · intro h
    have hdistance := h.1
    obtain ⟨hd, hinside | ⟨hflag, hw⟩⟩ : s₀.difScroll = 0 ∧ (s₀.sdramAddWrite.toNat ≤ 639 ∨
        s₀.banderaScrollFx = false ∧ s₀.sdramAddWrite = 640) :=
      PlotGraph.state_before_scroll posY height hpre
    · refine ⟨?_, hinside⟩
      -- A flag that is set keeps the distance of the start, which is less than 640.
      by_contra hset
      rw [(PlotGraph.distance_foldl posY height (by simpa using hset) his).2, hd] at hdistance
      bv_omega
    · rw [PlotGraph.distance_of_boundary posY height hflag hw (by omega) his] at hdistance
      exact absurd hdistance (by decide)
  · rintro ⟨hflag, hinside⟩
    obtain ⟨hflag', hdistance⟩ := PlotGraph.distance_of_inside posY height hflag hinside
      (by omega) his
    exact PlotGraph.showsNewest_of_distance posY height hlength his hflag' hdistance

/-- After one sample without `scroll_en`. -/
theorem scroll_shows_newest_after_one :
    PlotGraph.ShowsNewest plotGraph1
      ((List.replicate 1024 ⟨true, 5⟩).foldl (PlotGraph.tick keepStray plotGraph1)
        ([⟨false, 7⟩].foldl (PlotGraph.tick keepStray plotGraph1) PlotGraph.powerUp))
      (List.replicate 1024 ⟨true, 5⟩) :=
  (scroll_shows_newest_iff 266 2 [⟨false, 7⟩] (List.replicate 1024 ⟨true, 5⟩) (by simp)
    List.length_replicate.ge fun _ hi => scrollEn_of_mem_replicate hi).mpr ⟨by decide, by decide⟩

/-- With `scroll_en` from power-up on. -/
theorem scroll_not_newest :
    ¬ ∀ pre is : List Sample, 1024 ≤ is.length → (∀ i ∈ is, i.scrollEn = true) →
      PlotGraph.ShowsNewest plotGraph1
        ((pre ++ is).foldl (PlotGraph.tick keepStray plotGraph1) PlotGraph.powerUp) is := by
  intro h
  have hall : ∀ i ∈ List.replicate 1024 (⟨true, 0⟩ : Sample), i.scrollEn = true :=
    fun _ hi => scrollEn_of_mem_replicate hi
  have hdistance := (h [] _ List.length_replicate.ge hall).1
  have hboundary := PlotGraph.distance_of_boundary 266 2 (s := PlotGraph.powerUp) rfl rfl
    (List.length_replicate.symm ▸ Nat.zero_lt_succ 1023) hall
  exact absurd (hboundary.symm.trans hdistance) (by decide)

end DigitalModulation
