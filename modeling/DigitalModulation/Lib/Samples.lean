import Mathlib.Data.List.DropRight
import Mathlib.Tactic.Common

/-!
# Sampled signals

A signal is the list of its samples, the latest one last.

* `streak`: for how many samples a signal has been high;
* `changes a b`: how often a signal goes from `a` to `b`;
* `pulse`: a signal that is high and then low; `changes_append_pulses`: each of a row of pulses is
  one change to low.
-/

namespace Samples

/-! ### How long a signal has been high -/

/-- The number of high samples at the end of the signal. -/
def streak (bs : List Bool) : ℕ := (bs.rtakeWhile id).length

theorem streak_concat (bs : List Bool) (b : Bool) :
    streak (bs ++ [b]) = if b then streak bs + 1 else 0 := by
  cases b with
  | false => rw [streak, List.rtakeWhile_concat_neg _ _ _ (by decide)]; rfl
  | true => rw [streak, List.rtakeWhile_concat_pos _ _ _ rfl, List.length_append]; rfl

theorem streak_append_replicate (bs : List Bool) (n : ℕ) :
    streak (bs ++ List.replicate n true) = streak bs + n := by
  induction n with
  | zero => rw [List.replicate_zero, List.append_nil, Nat.add_zero]
  | succ n ih =>
    rw [List.replicate_succ', ← List.append_assoc, streak_concat, ih, if_pos rfl, Nat.add_assoc]

/-! ### How often a signal changes -/

theorem getLast?_append_replicate {α : Type*} {as : List α} {x : α} (hx : as.getLast? = some x)
    (n : ℕ) : (as ++ List.replicate n x).getLast? = some x := by
  cases n with
  | zero => rwa [List.replicate_zero, List.append_nil]
  | succ n => rw [List.replicate_succ', ← List.append_assoc, List.getLast?_concat]

section Changes

variable {α : Type*} [DecidableEq α] {a b : α}

/-- The number of neighbouring samples that are `a` and then `b`. -/
def changes (a b : α) (as : List α) : ℕ := (as.zip as.tail).count (a, b)

theorem changes_concat (as : List α) (y : α) :
    changes a b (as ++ [y]) = changes a b as + if as.getLast? = some a ∧ y = b then 1 else 0 := by
  induction as with
  | nil => simp [changes]
  | cons x as ih =>
    cases as with
    | nil => simp [changes, List.count_singleton]
    | cons z as =>
      unfold changes at ih ⊢
      simp only [List.cons_append, List.tail_cons, List.zip_cons_cons, List.count_cons,
        List.getLast?_cons_cons] at ih ⊢
      rw [ih]
      omega

/-- Samples other than `b` are no change to `b`. -/
theorem changes_append_ne {x : α} (hx : x ≠ b) (as : List α) (n : ℕ) :
    changes a b (as ++ List.replicate n x) = changes a b as := by
  induction n with
  | zero => rw [List.replicate_zero, List.append_nil]
  | succ n ih =>
    rw [List.replicate_succ', ← List.append_assoc, changes_concat, ih, if_neg fun h => hx h.2,
      Nat.add_zero]

/-- Further samples equal to the last one change nothing. -/
theorem changes_append_replicate (hab : a ≠ b) {as : List α} {x : α} (hx : as.getLast? = some x)
    (n : ℕ) : changes a b (as ++ List.replicate n x) = changes a b as := by
  induction n with
  | zero => rw [List.replicate_zero, List.append_nil]
  | succ n ih =>
    rw [List.replicate_succ', ← List.append_assoc, changes_concat, ih,
      getLast?_append_replicate hx n, if_neg, Nat.add_zero]
    rintro ⟨hxa, hxb⟩
    exact hab ((Option.some_inj.mp hxa).symm.trans hxb)

theorem changes_replicate (hab : a ≠ b) (x : α) (n : ℕ) : changes a b (List.replicate n x) = 0 := by
  cases n with
  | zero => rfl
  | succ n =>
    rw [List.replicate_succ, ← List.singleton_append]
    exact changes_append_replicate hab rfl n

theorem changes_eq_zero_iff (as : List α) :
    changes a b as = 0 ↔ as.IsChain fun x y => ¬ (x = a ∧ y = b) := by
  induction as with
  | nil => simp [changes]
  | cons x as ih =>
    cases as with
    | nil => simp [changes]
    | cons y as =>
      unfold changes at ih ⊢
      simp only [List.tail_cons, List.zip_cons_cons, List.count_eq_zero] at ih ⊢
      rw [List.mem_cons, not_or, ih, List.isChain_cons_cons, Prod.mk.injEq, eq_comm,
        eq_comm (a := b)]

end Changes

/-! ### Pulses -/

/-- A signal that is high for `p.1` samples and then low for `p.2`. -/
def pulse (p : ℕ × ℕ) : List Bool := List.replicate p.1 true ++ List.replicate p.2 false

/-- The signal has just been low, or has no sample yet. -/
def Low (bs : List Bool) : Prop := bs.getLast? ≠ some true

theorem low_replicate (n : ℕ) : Low (List.replicate n false) := by
  cases n with
  | zero => simp [Low]
  | succ n => rw [Low, List.replicate_succ', List.getLast?_concat]; decide

theorem low_append_pulse (bs : List Bool) {p : ℕ × ℕ} (hp : 1 ≤ p.2) : Low (bs ++ pulse p) := by
  obtain ⟨m, hm⟩ := Nat.exists_eq_add_of_le' hp
  rw [Low, pulse, hm, List.replicate_succ', ← List.append_assoc, ← List.append_assoc,
    List.getLast?_concat]
  decide

theorem streak_of_low {bs : List Bool} (h : Low bs) : streak bs = 0 := by
  cases bs using List.reverseRecOn with
  | nil => rfl
  | append_singleton bs b =>
    rw [streak_concat, if_neg]
    rintro rfl
    exact h List.getLast?_concat

/-- A pulse is one change to low. -/
theorem changes_append_pulse (bs : List Bool) {p : ℕ × ℕ} (h1 : 1 ≤ p.1) (h2 : 1 ≤ p.2) :
    changes true false (bs ++ pulse p) = changes true false bs + 1 := by
  obtain ⟨n, hn⟩ := Nat.exists_eq_add_of_le' h1
  obtain ⟨m, hm⟩ := Nat.exists_eq_add_of_le' h2
  have hlast : (bs ++ List.replicate (n + 1) true).getLast? = some true := by
    rw [List.replicate_succ', ← List.append_assoc, List.getLast?_concat]
  calc changes true false (bs ++ pulse p)
      = changes true false
          (bs ++ List.replicate (n + 1) true ++ [false] ++ List.replicate m false) := by
        rw [pulse, hn, hm, List.append_assoc, List.append_assoc]; rfl
    _ = changes true false (bs ++ List.replicate (n + 1) true ++ [false]) :=
        changes_append_replicate (by decide) List.getLast?_concat m
    _ = changes true false bs + 1 := by
        rw [changes_concat, changes_append_ne (by decide), hlast, if_pos ⟨rfl, rfl⟩]

/-- Each of a row of pulses is one change to low. -/
theorem changes_append_pulses (bs : List Bool) {ps : List (ℕ × ℕ)}
    (hps : ∀ p ∈ ps, 1 ≤ p.1 ∧ 1 ≤ p.2) :
    changes true false (bs ++ ps.flatMap pulse) = changes true false bs + ps.length := by
  induction ps generalizing bs with
  | nil => simp
  | cons p ps ih =>
    have hp := hps p (List.mem_cons_self ..)
    rw [List.flatMap_cons, ← List.append_assoc,
      ih _ fun q hq => hps q (List.mem_cons_of_mem p hq), changes_append_pulse bs hp.1 hp.2,
      List.length_cons, Nat.add_right_comm, Nat.add_assoc]

theorem low_append_pulses {bs : List Bool} (h : Low bs) {ps : List (ℕ × ℕ)}
    (hps : ∀ p ∈ ps, 1 ≤ p.2) : Low (bs ++ ps.flatMap pulse) := by
  cases ps using List.reverseRecOn with
  | nil => rwa [List.flatMap_nil, List.append_nil]
  | append_singleton ps p =>
    rw [List.flatMap_append, List.flatMap_singleton, ← List.append_assoc]
    exact low_append_pulse _ (hps p (by simp))

end Samples
