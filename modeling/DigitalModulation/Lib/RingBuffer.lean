import Mathlib.Data.List.Induction
import Mathlib.Logic.Function.Basic
import Mathlib.Tactic.SplitIfs

/-!
# Ring buffers that are overwritten

`m` cells, written one after another and then again from the first.

* `RingBuffer α m`: the cells and the cursor, which is one of them;
* `write`: the cell under the cursor is overwritten and the cursor moves on;
* `age a`: how many writes ago cell `a` was written, if it was written at all;
* `getElem?_age`: after some writes, the cells of an age less than their number hold what was
  written that long ago;
* `age_injOn`, `exists_age`: the ages of the cells are the numbers below `m`, each once.
-/

/-- The cells below `m` and the cell to be written next. -/
structure RingBuffer (α : Type*) (m : ℕ) where
  cells : ℕ → α
  cursor : ℕ
  lt : cursor < m

namespace RingBuffer

variable {α : Type*} {m : ℕ}

/-- The cell after a cell. -/
def next (m c : ℕ) : ℕ := if c + 1 = m then 0 else c + 1

theorem next_lt {c : ℕ} (h : c < m) : next m c < m := by
  unfold next
  split_ifs <;> omega

def write (r : RingBuffer α m) (x : α) : RingBuffer α m where
  cells := Function.update r.cells r.cursor x
  cursor := next m r.cursor
  lt := next_lt r.lt

/-- The cell before the cursor is the newest, the cell under it the oldest. -/
def age (r : RingBuffer α m) (a : ℕ) : ℕ :=
  if a < r.cursor then r.cursor - 1 - a else r.cursor + m - 1 - a

theorem age_cursor (r : RingBuffer α m) : r.age r.cursor = m - 1 := by
  unfold age
  rw [if_neg (Nat.lt_irrefl _)]
  omega

theorem age_write (r : RingBuffer α m) (x : α) {a : ℕ} (ha : a < m) :
    (r.write x).age a = if a = r.cursor then 0 else r.age a + 1 := by
  have hc := r.lt
  show (if a < next m r.cursor then next m r.cursor - 1 - a
    else next m r.cursor + m - 1 - a) = _
  unfold age next
  split_ifs <;> omega

theorem age_injOn (r : RingBuffer α m) {a b : ℕ} (ha : a < m) (hb : b < m)
    (h : r.age a = r.age b) : a = b := by
  have hc := r.lt
  unfold age at h
  split_ifs at h <;> omega

theorem exists_age (r : RingBuffer α m) {k : ℕ} (hk : k < m) : ∃ a, a < m ∧ r.age a = k := by
  have hc := r.lt
  by_cases hlt : k < r.cursor
  · refine ⟨r.cursor - 1 - k, by omega, ?_⟩
    unfold age
    rw [if_pos (by omega)]
    omega
  · refine ⟨r.cursor + m - 1 - k, by omega, ?_⟩
    unfold age
    rw [if_neg (by omega)]
    omega

/-- **What the cells hold.** -/
theorem getElem?_age (r : RingBuffer α m) (xs : List α) {a : ℕ} (ha : a < m)
    (hage : (xs.foldl write r).age a < xs.length) :
    xs.reverse[(xs.foldl write r).age a]? = some ((xs.foldl write r).cells a) := by
  induction xs using List.reverseRecOn with
  | nil => simp at hage
  | append_singleton xs x ih =>
    rw [List.foldl_append, List.foldl_cons, List.foldl_nil, age_write _ x ha] at hage
    rw [List.foldl_append, List.foldl_cons, List.foldl_nil, age_write _ x ha, List.reverse_append]
    -- The cell is the one just written, or its value is one write older.
    by_cases hcell : a = (xs.foldl write r).cursor
    · rw [if_pos hcell, hcell]
      simp [write]
    · rw [if_neg hcell] at hage ⊢
      rw [List.length_append, List.length_singleton] at hage
      have hold : ((xs.foldl write r).write x).cells a = (xs.foldl write r).cells a :=
        Function.update_of_ne hcell _ _
      rw [hold]
      exact ih (by omega)

end RingBuffer
