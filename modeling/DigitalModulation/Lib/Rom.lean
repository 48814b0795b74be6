import Mathlib.Data.List.GetD
import Mathlib.Data.List.Rotate
import Mathlib.Data.BitVec
import Mathlib.Tactic.Ring

/-!
# Cyclic tables addressed by the top bits of a phase

A table of `2 ^ w` words is read at a `w`-bit address, so that the address arithmetic is the
arithmetic of the circle.

* `extractLsb'_add_small`: adding less than `2 ^ k` to a phase moves its bits above `k` by `0`
  or `1`;
* `Slope f L`: neighbouring entries of `f`, the last and the first included, differ by at most `L`;
* `ofList`: the table of a list of entries, with the tests on the list that give its slope
  (`slope_ofList`), its rotations (`ofList_rotate`) and the values it never takes
  (`ofList_ne`).
-/

namespace Rom

variable {w v k : ℕ}

/-! ### Phases -/

/-- Adding less than `2 ^ k` moves the `w` bits above bit `k` by `0` or by `1`. -/
theorem extractLsb'_add_small (x d : BitVec (k + w)) (hd : d.toNat < 2 ^ k) :
    (x + d).extractLsb' k w = x.extractLsb' k w ∨
      (x + d).extractLsb' k w = x.extractLsb' k w + 1#w := by
  have htop : ((x + d).extractLsb' k w).toNat = (x.toNat + d.toNat) / 2 ^ k % 2 ^ w := by
    rw [BitVec.extractLsb'_toNat, BitVec.toNat_add, Nat.shiftRight_eq_div_pow, Nat.pow_add,
      Nat.mod_mul_right_div_self, Nat.mod_mod]
  have hx : (x.extractLsb' k w).toNat = x.toNat / 2 ^ k % 2 ^ w := by
    rw [BitVec.extractLsb'_toNat, Nat.shiftRight_eq_div_pow]
  have hpos : 0 < 2 ^ k := Nat.two_pow_pos k
  have hsplit : (x.toNat + d.toNat) / 2 ^ k =
      x.toNat / 2 ^ k + (x.toNat % 2 ^ k + d.toNat) / 2 ^ k := by
    conv_lhs => rw [← Nat.div_add_mod x.toNat (2 ^ k), Nat.add_assoc]
    rw [Nat.mul_add_div hpos]
  have hlow : (x.toNat % 2 ^ k + d.toNat) / 2 ^ k < 2 := by
    rw [Nat.div_lt_iff_lt_mul hpos]
    have := Nat.mod_lt x.toNat hpos
    omega
  rcases Nat.lt_or_ge ((x.toNat % 2 ^ k + d.toNat) / 2 ^ k) 1 with h | h
  · left
    apply BitVec.eq_of_toNat_eq
    rw [htop, hx, hsplit, Nat.lt_one_iff.1 h, Nat.add_zero]
  · right
    apply BitVec.eq_of_toNat_eq
    rw [BitVec.toNat_add, htop, hx, hsplit,
      show (x.toNat % 2 ^ k + d.toNat) / 2 ^ k = 1 by omega]
    simp [Nat.add_mod]

/-! ### Slope -/

/-- Neighbouring entries, the last and the first included, differ by at most `L`. -/
def Slope (f : BitVec w → BitVec v) (L : ℕ) : Prop :=
  ∀ a, ((f (a + 1#w)).toInt - (f a).toInt).natAbs ≤ L

/-- Reading at an address that stays or advances by one. -/
theorem Slope.step {f : BitVec w → BitVec v} {L : ℕ} (hf : Slope f L) {a b : BitVec w}
    (h : b = a ∨ b = a + 1#w) : ((f b).toInt - (f a).toInt).natAbs ≤ L := by
  rcases h with rfl | rfl
  · simp
  · exact hf a

/-- A rotated table has the same slope. -/
theorem Slope.rotate {f g : BitVec w → BitVec v} {L : ℕ} (hf : Slope f L) {c : BitVec w}
    (hg : ∀ a, g a = f (a + c)) : Slope g L := by
  intro a
  rw [hg, hg, show a + 1#w + c = a + c + 1#w by ring]
  exact hf (a + c)

/-! ### Tables given by lists -/

/-- The table whose entry at `a` is the `a`-th element of the list. -/
def ofList (v : ℕ) (l : List ℕ) (a : BitVec w) : BitVec v := BitVec.ofNat v (l.getD a.toNat 0)

theorem toNat_lt_length {l : List ℕ} (hl : l.length = 2 ^ w) (a : BitVec w) :
    a.toNat < l.length := hl ▸ a.isLt

theorem ofList_eq_getElem {l : List ℕ} {a : BitVec w} (ha : a.toNat < l.length) :
    ofList v l a = BitVec.ofNat v l[a.toNat] := by
  rw [ofList, List.getD_eq_getElem]

/-- The list read from its `c`-th element on, and around. -/
def rotated (c : ℕ) (l : List ℕ) : List ℕ := l.drop c ++ l.take c

theorem length_rotated (c : ℕ) (l : List ℕ) : (rotated c l).length = l.length := by
  simp [rotated]; omega

theorem ofList_rotate {l : List ℕ} (hl : l.length = 2 ^ w) (c a : BitVec w) :
    ofList v (rotated c.toNat l) a = ofList v l (a + c) := by
  have hc : c.toNat ≤ l.length := (toNat_lt_length hl c).le
  have ha : a.toNat < (rotated c.toNat l).length := by
    rw [length_rotated]
    exact toNat_lt_length hl a
  rw [ofList_eq_getElem ha, ofList_eq_getElem (toNat_lt_length hl (a + c))]
  simp only [rotated, ← List.rotate_eq_drop_append_take hc]
  rw [List.getElem_rotate]
  simp only [hl, BitVec.toNat_add]

/-- The slope test on the list of entries. -/
def slopeTest (v L : ℕ) (l : List ℕ) : Bool :=
  (l.zip (rotated 1 l)).all fun p =>
    ((BitVec.ofNat v p.2).toInt - (BitVec.ofNat v p.1).toInt).natAbs ≤ L

theorem slope_ofList {l : List ℕ} {L : ℕ} (hw : 1 < 2 ^ w) (hl : l.length = 2 ^ w)
    (h : slopeTest v L l = true) : Slope (ofList v l : BitVec w → BitVec v) L := by
  intro a
  have ha : a.toNat < l.length := toNat_lt_length hl a
  have ha' : a.toNat < (rotated 1 l).length := by
    rw [length_rotated]
    exact ha
  have hmem : (l[a.toNat], (rotated 1 l)[a.toNat]) ∈ l.zip (rotated 1 l) := by
    rw [← List.getElem_zip (h := by simp [ha, ha'])]
    exact List.getElem_mem _
  have hone : (1#w).toNat = 1 := by simp [Nat.mod_eq_of_lt hw]
  -- the neighbour in the list is the entry at the next address, around the end too
  have hnext : BitVec.ofNat v (rotated 1 l)[a.toNat] = ofList v l (a + 1#w) := by
    have h1 := ofList_rotate (v := v) hl (1#w) a
    rw [hone, ofList_eq_getElem ha'] at h1
    exact h1
  have := List.all_eq_true.1 h _ hmem
  simpa [hnext, ← ofList_eq_getElem ha] using this

/-- Negating every entry negates the table. -/
theorem ofList_neg {l : List ℕ} (hl : l.length = 2 ^ w) (h : ∀ x ∈ l, x ≤ 2 ^ v) (a : BitVec w) :
    ofList v (l.map fun x => (2 ^ v - x) % 2 ^ v) a = -ofList v l a := by
  have ha : a.toNat < l.length := toNat_lt_length hl a
  rw [ofList_eq_getElem (by rwa [List.length_map]), ofList_eq_getElem ha, List.getElem_map]
  have hx := h _ (List.getElem_mem ha)
  apply BitVec.eq_of_toNat_eq
  simp only [BitVec.toNat_ofNat, BitVec.toNat_neg, Nat.mod_mod]
  rcases Nat.eq_or_lt_of_le hx with h' | h'
  · simp [h']
  · rw [Nat.mod_eq_of_lt h']

/-- A value that no entry reduces to is never read. -/
theorem ofList_ne {l : List ℕ} (hl : l.length = 2 ^ w) {y : ℕ}
    (h : ∀ x ∈ l, x % 2 ^ v ≠ y % 2 ^ v) (a : BitVec w) : ofList v l a ≠ BitVec.ofNat v y := by
  have ha : a.toNat < l.length := toNat_lt_length hl a
  rw [ofList_eq_getElem ha]
  intro he
  refine h _ (List.getElem_mem ha) ?_
  simpa using congrArg BitVec.toNat he

end Rom
