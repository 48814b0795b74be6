import DigitalModulation.Lib.Canvas
import Mathlib.Tactic.Linarith

/-!
# Cells made of smaller ones

A layout tells of which small cells a large one is made, of a fixed number of them each. No two
large cells have a small one in common.

* `Layout`: a layout, with that as a field;
* `Layout.read`, `Layout.write`: what a large cell holds, and the small writes of a large one;
* `Layout.read_paint`: large writes show in the large cells;
* `Layout.paint_outside`: small cells outside the large ones that are written are as before;
* `consecutive`: large cells one behind the other.
-/

namespace Canvas

/-- Large cells `κ` made of small cells `α`. -/
structure Layout (κ α : Type*) where
  size : ℕ
  addr : κ → ℕ → α
  injective {k k' : κ} {i i' : ℕ} : i < size → i' < size → addr k i = addr k' i' → k = k' ∧ i = i'

section General

variable {κ α ν : Type*} (L : Layout κ α)

namespace Layout

/-- What a large cell holds. -/
def read (c : α → ν) (k : κ) : List ν := (List.range L.size).map fun i => c (L.addr k i)

/-- The small writes of a large one. -/
def write (w : κ × List ν) : List (α × ν) := w.2.mapIdx fun i v => (L.addr w.1 i, v)

variable {L}

theorem mem_write {w : κ × List ν} {v : α × ν} :
    v ∈ L.write w ↔ ∃ (i : ℕ) (hi : i < w.2.length), (L.addr w.1 i, w.2[i]) = v := by
  simp [write, List.mem_mapIdx]

theorem read_eq_read_iff {c c' : α → ν} {k : κ} :
    L.read c k = L.read c' k ↔ ∀ i < L.size, c (L.addr k i) = c' (L.addr k i) := by
  unfold read
  rw [List.map_inj_left]
  simp only [List.mem_range]

variable [DecidableEq α]

/-- Small cells outside the large ones that are written are as before. -/
theorem paint_outside {ws : List (κ × List ν)} (hws : ∀ w ∈ ws, w.2.length = L.size) {a : α}
    (ha : ∀ w ∈ ws, ∀ i < L.size, L.addr w.1 i ≠ a) (c : α → ν) :
    paint c (ws.flatMap L.write) a = c a := by
  refine paint_of_forall_ne fun v hv => ?_
  obtain ⟨w, hw, hv⟩ := List.mem_flatMap.mp hv
  obtain ⟨i, hi, rfl⟩ := mem_write.mp hv
  exact ha w hw i (hws w hw ▸ hi)

variable [DecidableEq κ]

/-- A large write shows in its cell and nowhere else. -/
theorem read_write {w : κ × List ν} (hw : w.2.length = L.size) (c : α → ν) (k : κ) :
    L.read (paint c (L.write w)) k = if w.1 = k then w.2 else L.read c k := by
  split_ifs with h
  · subst h
    refine List.ext_getElem (by simp [read, hw]) fun i hi hi' => ?_
    have hlast : lastWrite (L.write w) (L.addr w.1 i) = some w.2[i] := by
      refine lastWrite_eq_some (mem_write.mpr ⟨i, hi', rfl⟩) fun v hv hvi => ?_
      obtain ⟨i', hi'', rfl⟩ := mem_write.mp hv
      have heq := (L.injective (hw ▸ hi'') (hw ▸ hi') hvi).2
      subst heq
      rfl
    simp only [read, List.getElem_map, List.getElem_range]
    rw [paint_apply, hlast]
    rfl
  · refine read_eq_read_iff.mpr fun i hi => paint_of_forall_ne fun v hv hvi => ?_
    obtain ⟨i', hi', rfl⟩ := mem_write.mp hv
    exact h (L.injective (hw ▸ hi') hi hvi).1

/-- **Large writes show in the large cells.** -/
theorem read_paint {ws : List (κ × List ν)} (hws : ∀ w ∈ ws, w.2.length = L.size) (c : α → ν)
    (k : κ) : L.read (paint c (ws.flatMap L.write)) k = paint (L.read c) ws k :=
  view_paint_flatMap (fun c w hw => read_write (hws w hw) c k) c

end Layout

end General

/-- Large cells one behind the other. -/
def consecutive (base : ℤ) (size : ℕ) : Layout ℤ ℤ where
  size := size
  addr k i := base + k * size + i
  injective {k k' i i'} hi hi' h := by
    have hk : k = k' := by
      have hdiv (k : ℤ) {i : ℕ} (hi : i < size) : (k * size + i) / size = k := by
        rw [Int.add_comm, Int.add_mul_ediv_right _ _ (by omega),
          Int.ediv_eq_zero_of_lt (by omega) (by omega), Int.zero_add]
      rw [← hdiv k hi, ← hdiv k' hi']
      congr 1
      linarith
    subst hk
    exact ⟨rfl, by omega⟩

end Canvas
