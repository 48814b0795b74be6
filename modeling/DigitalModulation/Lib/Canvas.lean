import DigitalModulation.Lib.Machine
import Mathlib.Data.List.Induction

/-!
# Canvases and the writes to them

A canvas is a value for each cell, a write is a cell with its new value, and writes are made one
after another.

* `paint c ws`: the canvas after some writes;
* `lastWrite ws k`: the value last written to a cell, if any was;
* `paint_apply`: that is what the cell holds; the others are as before;
* `paint_eq_paint_of_mem`: a written cell does not depend on what the canvas held before;
* `paint_comm`, `paint_congr_of_mem_iff`: writes to different cells can be made in any order;
* `view_paint_flatMap`: cells that are themselves made of finer ones.
-/

namespace Canvas

variable {κ ν : Type*} [DecidableEq κ]

/-- The canvas after some writes. -/
def paint (c : κ → ν) (ws : List (κ × ν)) : κ → ν :=
  ws.foldl (fun c w => Function.update c w.1 w.2) c

/-- What a write puts into a cell, if it goes there. -/
def writeAt (k : κ) (w : κ × ν) : Option ν := if w.1 = k then some w.2 else none

/-- The value last written to a cell. -/
def lastWrite (ws : List (κ × ν)) (k : κ) : Option ν := (ws.filterMap (writeAt k)).getLast?

theorem paint_append (c : κ → ν) (as bs : List (κ × ν)) :
    paint c (as ++ bs) = paint (paint c as) bs :=
  List.foldl_append

theorem paint_singleton (c : κ → ν) (w : κ × ν) (k : κ) :
    paint c [w] k = if w.1 = k then w.2 else c k := by
  by_cases h : w.1 = k
  · subst h
    rw [if_pos rfl]
    exact Function.update_self w.1 w.2 c
  · rw [if_neg h]
    exact Function.update_of_ne (Ne.symm h) w.2 c

/-- A cell holds what was last written to it. -/
theorem paint_apply (c : κ → ν) (ws : List (κ × ν)) (k : κ) :
    paint c ws k = (lastWrite ws k).getD (c k) := by
  have hstep (c : κ → ν) (w : κ × ν) : some (paint c [w] k) = (writeAt k w).or (some (c k)) := by
    rw [paint_singleton]
    unfold writeAt
    split_ifs <;> rfl
  have h : some (paint c ws k) = (lastWrite ws k).or (some (c k)) :=
    Machine.foldl_last_write (fun c : κ → ν => some (c k)) hstep c ws
  rw [← Option.some_inj, h]
  cases lastWrite ws k <;> rfl

theorem lastWrite_append (as bs : List (κ × ν)) (k : κ) :
    lastWrite (as ++ bs) k = (lastWrite bs k).or (lastWrite as k) := by
  simp [lastWrite, List.filterMap_append, List.getLast?_append]

theorem lastWrite_eq_none_iff {ws : List (κ × ν)} {k : κ} :
    lastWrite ws k = none ↔ ∀ w ∈ ws, w.1 ≠ k := by
  simp [lastWrite, writeAt]

theorem getLast?_filterMap_concat {β ν : Type*} (w : β → Option ν) (bs : List β) (b : β) :
    ((bs ++ [b]).filterMap w).getLast? = (w b).or (bs.filterMap w).getLast? := by
  cases h : w b <;> simp [h]

theorem lastWrite_flatMap {δ : Type*} (ds : List δ) (f : δ → List (κ × ν)) (k : κ) :
    lastWrite (ds.flatMap f) k = (ds.filterMap fun d => lastWrite (f d) k).getLast? := by
  induction ds using List.reverseRecOn with
  | nil => rfl
  | append_singleton ds d ih =>
    rw [List.flatMap_append, lastWrite_append, ih, List.flatMap_singleton,
      getLast?_filterMap_concat]

/-- A cell to which nothing but one value is written. -/
theorem lastWrite_eq_some {ws : List (κ × ν)} {k : κ} {v : ν} (hmem : (k, v) ∈ ws)
    (h : ∀ w ∈ ws, w.1 = k → w.2 = v) : lastWrite ws k = some v := by
  cases hlast : lastWrite ws k with
  | none => exact absurd rfl (lastWrite_eq_none_iff.mp hlast (k, v) hmem)
  | some v' =>
    obtain ⟨w, hw, hwrite⟩ := List.mem_filterMap.mp (List.mem_of_getLast? hlast)
    unfold writeAt at hwrite
    split_ifs at hwrite with hk
    rw [← hwrite, h w hw hk]

theorem paint_of_forall_ne {c : κ → ν} {ws : List (κ × ν)} {k : κ} (h : ∀ w ∈ ws, w.1 ≠ k) :
    paint c ws k = c k := by
  rw [paint_apply, lastWrite_eq_none_iff.mpr h]
  rfl

/-- What a written cell holds does not depend on the canvas. -/
theorem paint_eq_paint_of_mem {ws : List (κ × ν)} {w : κ × ν} (hw : w ∈ ws) (c c' : κ → ν) :
    paint c ws w.1 = paint c' ws w.1 := by
  rw [paint_apply, paint_apply]
  cases hlast : lastWrite ws w.1 with
  | none => exact absurd rfl (lastWrite_eq_none_iff.mp hlast w hw)
  | some v => rfl

/-- Writes to different cells can be made in either order. -/
theorem paint_comm {as bs : List (κ × ν)} (h : ∀ a ∈ as, ∀ b ∈ bs, a.1 ≠ b.1) (c : κ → ν) :
    paint c (as ++ bs) = paint c (bs ++ as) := by
  funext k
  rw [paint_apply, paint_apply, lastWrite_append, lastWrite_append]
  -- At most one of the two lists writes to the cell.
  by_cases ha : ∀ a ∈ as, a.1 ≠ k
  · rw [lastWrite_eq_none_iff.mpr ha, Option.or_none, Option.none_or]
  · have hb : lastWrite bs k = none := by
      rw [lastWrite_eq_none_iff]
      rintro b hb rfl
      exact ha fun a ha => h a ha b hb
    rw [hb, Option.or_none, Option.none_or]

/-- Two lists of the same writes, of one value to each cell, do the same. -/
theorem paint_congr_of_mem_iff {as bs : List (κ × ν)} (hmem : ∀ w, w ∈ as ↔ w ∈ bs)
    (hvalue : ∀ w ∈ as, ∀ w' ∈ as, w.1 = w'.1 → w.2 = w'.2) (c : κ → ν) :
    paint c as = paint c bs := by
  funext k
  rw [paint_apply, paint_apply]
  congr 1
  by_cases h : ∃ w ∈ as, w.1 = k
  · obtain ⟨w, hw, rfl⟩ := h
    rw [lastWrite_eq_some hw fun w' hw' heq => hvalue w' hw' w hw heq,
      lastWrite_eq_some ((hmem w).mp hw) fun w' hw' heq => hvalue w' ((hmem w').mpr hw') w hw heq]
  · push Not at h
    rw [lastWrite_eq_none_iff.mpr h,
      lastWrite_eq_none_iff.mpr fun w hw => h w ((hmem w).mpr hw)]

/-- **Coarse cells made of fine ones.** If every coarse write, carried out by its fine writes, shows
in one coarse cell as it should, all of them together do. -/
theorem view_paint_flatMap {κ' ν' : Type*} [DecidableEq κ'] {view : (κ → ν) → κ' → ν'}
    {fine : κ' × ν' → List (κ × ν)} {ws : List (κ' × ν')} {k : κ'}
    (h : ∀ c, ∀ w ∈ ws, view (paint c (fine w)) k = if w.1 = k then w.2 else view c k)
    (c : κ → ν) : view (paint c (ws.flatMap fine)) k = paint (view c) ws k := by
  induction ws using List.reverseRecOn with
  | nil => rfl
  | append_singleton ws w ih =>
    have hws := ih fun c w' hw' => h c w' (List.mem_append_left [w] hw')
    have hw := h (paint c (ws.flatMap fine)) w
      (List.mem_append_right ws (List.mem_singleton_self w))
    rw [List.flatMap_append, paint_append, List.flatMap_singleton, hw, paint_append,
      paint_singleton, hws]

end Canvas
