import Mathlib.Data.List.Basic

/-!
# A three-stage line between two clocks

The first stage is loaded on the source clock, the other two shift on the destination clock. Edges
come in any order.

* `Line.step`, `Line.seen`: one edge, and the last stage as read after every destination edge;
* `sent`, `gaps`: the loaded values, and the number of destination edges between them;
* `Line.seen_eq`: the last stage shows the first one two destination edges late;
* `Line.seen_tail`: it shows every value for as many edges as the value was held, one edge being
  still under way;
* `exists_deliveries`: with two destination edges between any two source edges, every value but
  the newest has been shown.
-/

namespace Crossing

variable {α : Type*}

/-- An edge: the source clock loads a value, the destination clock shifts. -/
inductive Ev (α : Type*)
  | src (a : α)
  | dst

/-- The three stages. -/
structure Line (α : Type*) where
  q1 : α
  q2 : α
  q3 : α

/-- One edge. -/
def Line.step (l : Line α) : Ev α → Line α
  | .src a => { l with q1 := a }
  | .dst => { l with q2 := l.q1, q3 := l.q2 }

/-- The last stage, read after every destination edge. -/
def Line.seen (l : Line α) : List (Ev α) → List α
  | [] => []
  | .src a :: es => (l.step (.src a)).seen es
  | .dst :: es => (l.step .dst).q3 :: (l.step .dst).seen es

/-- The first stage, read just before every destination edge; it holds `a` at the start. -/
def held (a : α) : List (Ev α) → List α
  | [] => []
  | .src b :: es => held b es
  | .dst :: es => a :: held a es

/-- The values loaded, in order. -/
def sent : List (Ev α) → List α
  | [] => []
  | .src a :: es => a :: sent es
  | .dst :: es => sent es

/-- The number of destination edges before, between and after the source edges, `n` of them
counted already. -/
def gaps (n : ℕ) : List (Ev α) → List ℕ
  | [] => [n]
  | .src _ :: es => n :: gaps 0 es
  | .dst :: es => gaps (n + 1) es

/-- Every value repeated. -/
def stretch (as : List α) (ns : List ℕ) : List α :=
  (List.zipWith (fun a n => List.replicate n a) as ns).flatten

@[simp] theorem stretch_nil (ns : List ℕ) : stretch ([] : List α) ns = [] := by simp [stretch]

@[simp] theorem stretch_cons (a : α) (as : List α) (n : ℕ) (ns : List ℕ) :
    stretch (a :: as) (n :: ns) = List.replicate n a ++ stretch as ns := by simp [stretch]

theorem length_gaps (n : ℕ) (es : List (Ev α)) : (gaps n es).length = (sent es).length + 1 := by
  induction es generalizing n with
  | nil => rfl
  | cons e es ih => cases e <;> simp [gaps, sent, ih]

/-- What the first stage holds, edge by edge, is what was loaded, stretched by the gaps. -/
theorem stretch_gaps (a : α) (n : ℕ) (es : List (Ev α)) :
    stretch (a :: sent es) (gaps n es) = List.replicate n a ++ held a es := by
  induction es generalizing a n with
  | nil => simp [gaps, sent, held, stretch]
  | cons e es ih =>
    cases e with
    | src b => simp [gaps, sent, held, ih]
    | dst =>
      rw [gaps, sent, ih, held, List.replicate_succ', List.append_assoc]
      rfl

/-- The last stage is the first stage two destination edges late. -/
theorem Line.seen_eq (l : Line α) (es : List (Ev α)) :
    l.seen es = (l.q2 :: held l.q1 es).dropLast := by
  induction es generalizing l with
  | nil => rfl
  | cons e es ih =>
    cases e with
    | src a => simp [seen, held, ih, step]
    | dst => simp [seen, held, ih, step]

/-- From the second destination edge after a load on, the last stage shows each value for as many
edges as it was held, less the edge that is still under way. -/
theorem Line.seen_tail (l : Line α) (a : α) (es : List (Ev α)) :
    ((l.step (.src a)).seen es).tail = (stretch (a :: sent es) (gaps 0 es)).dropLast := by
  rw [seen_eq, stretch_gaps, List.replicate_zero, List.nil_append, List.tail_dropLast]
  rfl

theorem mem_of_mem_stretch {as : List α} {ns : List ℕ} {a : α} (h : a ∈ stretch as ns) :
    a ∈ as := by
  induction as generalizing ns with
  | nil => simp at h
  | cons b as ih =>
    cases ns with
    | nil => simp [stretch] at h
    | cons n ns =>
      rw [stretch_cons, List.mem_append] at h
      rcases h with h | h
      · rw [List.eq_of_mem_replicate h]
        exact List.mem_cons_self
      · exact List.mem_cons_of_mem b (ih h)

/-- If none of the values was held for an edge, there is one at most. -/
theorem length_le_one_of_stretch_eq_nil {as : List α} {ns : List ℕ} (hlen : as.length = ns.length)
    (hns : ∀ n ∈ ns.dropLast, 2 ≤ n) (h : stretch as ns = []) : as.length ≤ 1 := by
  rcases ns with _ | ⟨n, _ | ⟨n', ns⟩⟩
  · simp [hlen]
  · simp [hlen]
  · obtain ⟨a, as, rfl⟩ := List.exists_cons_of_length_eq_add_one hlen
    have hn : 2 ≤ n := hns n (by simp)
    rw [stretch_cons, List.append_eq_nil_iff, List.replicate_eq_nil_iff] at h
    omega

/-- Cutting one edge off values that were each held for two edges at least, the newest apart: every
value but perhaps the newest is there. -/
theorem exists_deliveries {as : List α} {ns : List ℕ} (hlen : as.length = ns.length)
    (hns : ∀ n ∈ ns.dropLast, 2 ≤ n) :
    ∃ k ms, (stretch as ns).dropLast = stretch (as.take k) ms ∧ ms.length = k ∧
      (∀ m ∈ ms, 0 < m) ∧ k ≤ as.length ∧ as.length ≤ k + 1 := by
  induction as generalizing ns with
  | nil => exact ⟨0, [], by simp, rfl, by simp, by simp, by simp⟩
  | cons a as ih =>
    obtain ⟨n, ns, rfl⟩ := List.exists_cons_of_length_eq_add_one hlen.symm
    simp only [List.length_cons, Nat.add_right_cancel_iff] at hlen
    rw [stretch_cons]
    by_cases hnewest : ns = []
    · -- `a` is the newest value, and one edge of it is cut off
      subst hnewest
      obtain rfl := List.eq_nil_of_length_eq_zero hlen
      rw [stretch_nil, List.append_nil, List.dropLast_replicate]
      by_cases hn : 1 < n
      · exact ⟨1, [n - 1], by simp, rfl, by simp; omega, by simp, by simp⟩
      · exact ⟨0, [], by simp; omega, rfl, by simp, by simp, by simp⟩
    rw [List.dropLast_cons_of_ne_nil hnewest] at hns
    have hn : 2 ≤ n := hns n List.mem_cons_self
    have hns : ∀ m ∈ ns.dropLast, 2 ≤ m := fun m hm => hns m (List.mem_cons_of_mem n hm)
    by_cases hrest : stretch as ns = []
    · -- the edge cut off is one of `a`, and the value after it is not there yet
      have hshort := length_le_one_of_stretch_eq_nil hlen hns hrest
      rw [hrest, List.append_nil, List.dropLast_replicate]
      exact ⟨1, [n - 1], by simp, rfl, by simp; omega, by simp, by simpa using hshort⟩
    · rw [List.dropLast_append_of_ne_nil hrest]
      obtain ⟨k, ms, hk, hms, hm, hle, hge⟩ := ih hlen hns
      refine ⟨k + 1, n :: ms, by simp [hk], by simp [hms], ?_, by simp [hle], by simpa using hge⟩
      rintro m (_ | ⟨_, hmem⟩)
      · omega
      · exact hm m hmem

end Crossing
