import Mathlib.Algebra.BigOperators.Group.Finset.Basic
import Mathlib.Data.Nat.Count

/-!
# Clocked machines

Registers are a state `σ`, an edge is a function `next : σ → ι → σ` of the registers and of what
the edge samples.

* `run next s is t`: the registers after `t` edges, edge `k` sampling `is k`;
* `Along next ok s is`: every step of a finite run meets a condition on the state it leaves;
* `foldl_inv`: an invariant kept by every step that meets the condition holds after such a run;
* `along_congr`: conditions that agree in every state are met by the same runs;
* `along_iff`: where the condition is exact, it is met iff the invariant holds throughout;
* `outputs`, `outputs_owed`: what the steps of a run put out, where each step puts out some of what
  is owed and may add to it;
* `outputs_served`, `along_outputs`: what is put out are the replies of another machine, or is what
  another machine may take;
* `foldl_sim`: a machine whose steps are steps of another, or none, runs as the other does;
* `foldl_last_write`: a register written by some steps holds the last value written;
* `latch`: a register that is set, cleared or kept holds iff it was last set;
* `modular_sum`: a register that adds its input modulo `m` holds the sum of the inputs modulo `m`;
* `modular_wraps`: it has gone down as often as `m` fits into the start and the inputs;
* `wrap_mod`: one step of a counter that starts again behind its last value.
-/

namespace Machine

variable {σ ι : Type*}

/-- The state after `t` edges, edge `k` sampling `is k`. -/
def run (next : σ → ι → σ) (s : σ) (is : ℕ → ι) : ℕ → σ
  | 0 => s
  | t + 1 => next (run next s is t) (is t)

/-! ### Finite runs -/

/-- Every step of the run from `s`, taken in state `s'` on input `i`, meets `ok s' i`. -/
def Along (next : σ → ι → σ) (ok : σ → ι → Prop) (s : σ) : List ι → Prop
  | [] => True
  | i :: is => ok s i ∧ Along next ok (next s i) is

section Along

variable {next : σ → ι → σ} {ok : σ → ι → Prop}

instance decidableAlong [∀ s i, Decidable (ok s i)] (s : σ) :
    (is : List ι) → Decidable (Along next ok s is)
  | [] => inferInstanceAs (Decidable True)
  | i :: is =>
    have := decidableAlong (next s i) is
    inferInstanceAs (Decidable (ok s i ∧ Along next ok (next s i) is))

theorem along_append {s : σ} {is js : List ι} :
    Along next ok s (is ++ js) ↔ Along next ok s is ∧ Along next ok (is.foldl next s) js := by
  induction is generalizing s with
  | nil => simp [Along]
  | cons i is ih => simp [Along, ih, and_assoc]

theorem along_congr {ok' : σ → ι → Prop} (h : ∀ s i, ok s i ↔ ok' s i) {s : σ} (is : List ι) :
    Along next ok s is ↔ Along next ok' s is := by
  induction is generalizing s with
  | nil => rfl
  | cons i is ih => exact and_congr (h s i) ih

/-- An invariant of every step that meets the condition holds after every run that meets it. -/
theorem foldl_inv {P : σ → Prop} (hstep : ∀ s i, P s → ok s i → P (next s i)) {s : σ} {is : List ι}
    (h : P s) (his : Along next ok s is) : P (is.foldl next s) := by
  induction is generalizing s with
  | nil => exact h
  | cons i is ih => exact ih (hstep s i h his.1) his.2

/-- Where a condition says of every step whether it keeps `P`, a run meets it iff `P` holds in every
state of the run. -/
theorem along_iff {P : σ → Prop} (hstep : ∀ s i, P s → (P (next s i) ↔ ok s i)) {s : σ} (h : P s)
    (is : List ι) : (∀ js, js <+: is → P (js.foldl next s)) ↔ Along next ok s is := by
  induction is generalizing s with
  | nil =>
    refine ⟨fun _ => trivial, fun _ js hjs => ?_⟩
    rwa [List.prefix_nil.mp hjs]
  | cons i is ih =>
    constructor
    · intro hall
      have hnext : P (next s i) := hall [i] (List.prefix_append [i] is)
      refine ⟨(hstep s i h).mp hnext, (ih hnext).mp fun js hjs => ?_⟩
      exact hall (i :: js) (List.prefix_cons_inj i |>.mpr hjs)
    · rintro ⟨hok, hrest⟩ js hjs
      cases js with
      | nil => exact h
      | cons j js =>
        obtain ⟨rfl, htail⟩ := List.cons_prefix_cons.mp hjs
        exact (ih ((hstep s j h).mpr hok)).mpr hrest js htail

end Along

section Outputs

variable {ε : Type*} {next : σ → ι → σ}

/-- What the steps of a run put out. -/
def outputs (next : σ → ι → σ) (out : σ → ι → List ε) (s : σ) : List ι → List ε
  | [] => []
  | i :: is => out s i ++ outputs next out (next s i) is

/-- If every step puts out some of what is owed, in order, and may add to it, then a run has put out
all that was owed before or has been added, but for what is owed at the end. -/
theorem outputs_owed {P : σ → List ε → Prop} {out due : σ → ι → List ε}
    (hstep : ∀ s i owed, P s owed → ∃ owed', P (next s i) owed' ∧
      out s i ++ owed' = owed ++ due s i) {s : σ} {owed : List ε} (h : P s owed) (is : List ι) :
    ∃ owed', P (is.foldl next s) owed' ∧
      outputs next out s is ++ owed' = owed ++ outputs next due s is := by
  induction is generalizing s owed with
  | nil => exact ⟨owed, h, by simp [outputs]⟩
  | cons i is ih =>
    obtain ⟨owed₁, h₁, hout₁⟩ := hstep s i owed h
    obtain ⟨owed₂, h₂, hout₂⟩ := ih h₁
    refine ⟨owed₂, h₂, ?_⟩
    rw [outputs, List.append_assoc, hout₂, ← List.append_assoc, hout₁, List.append_assoc]
    rfl

theorem outputs_append (out : σ → ι → List ε) (s : σ) (is js : List ι) :
    outputs next out s (is ++ js) =
      outputs next out s is ++ outputs next out (is.foldl next s) js := by
  induction is generalizing s with
  | nil => rfl
  | cons i is ih => simp [outputs, ih, List.append_assoc]

theorem foldl_range (s : σ) (is : ℕ → ι) (t : ℕ) :
    ((List.range t).map is).foldl next s = run next s is t := by
  induction t with
  | zero => rfl
  | succ t ih => simp [List.range_succ, run, ih]

/-- What one more step of a run puts out. -/
theorem outputs_range_succ (out : σ → ι → List ε) (s : σ) (is : ℕ → ι) (t : ℕ) :
    outputs next out s ((List.range (t + 1)).map is) =
      outputs next out s ((List.range t).map is) ++ out (run next s is t) (is t) := by
  rw [List.range_succ, List.map_append, outputs_append, foldl_range]
  simp [outputs]

/-- If every step puts out some of what is owed, in order, and adds the replies of another machine
to the requests it takes, then so does a run: it has put out the replies to all the requests, but
for what is owed at the end. -/
theorem outputs_served {τ κ : Type*} {exec : τ → κ → τ} {reply : τ → κ → List ε}
    {req : σ → ι → List κ} {out : σ → ι → List ε} {P : σ → List ε → τ → Prop}
    (hstep : ∀ s i owed t, P s owed t → ∃ owed', P (next s i) owed' ((req s i).foldl exec t) ∧
      out s i ++ owed' = owed ++ outputs exec reply t (req s i))
    {s : σ} {owed : List ε} {t : τ} (h : P s owed t) (is : List ι) :
    ∃ owed', P (is.foldl next s) owed' ((outputs next req s is).foldl exec t) ∧
      outputs next out s is ++ owed' = owed ++ outputs exec reply t (outputs next req s is) := by
  induction is generalizing s owed t with
  | nil => exact ⟨owed, h, by simp [outputs]⟩
  | cons i is ih =>
    obtain ⟨owed₁, h₁, hout₁⟩ := hstep s i owed t h
    obtain ⟨owed₂, h₂, hout₂⟩ := ih h₁
    refine ⟨owed₂, ?_, ?_⟩
    · rw [outputs, List.foldl_append]
      exact h₂
    · rw [outputs, outputs, outputs_append, List.append_assoc, hout₂, ← List.append_assoc, hout₁,
        List.append_assoc]

/-- If every step puts out something that another machine may take next, then that machine may take
what a run puts out. -/
theorem along_outputs {τ κ : Type*} {next' : τ → κ → τ} {ok : τ → κ → Prop} {out : σ → ι → κ}
    {R : σ → τ → Prop}
    (hstep : ∀ s t i, R s t → ok t (out s i) ∧ R (next s i) (next' t (out s i)))
    {s : σ} {t : τ} (h : R s t) (is : List ι) :
    Along next' ok t (outputs next (fun s i => [out s i]) s is) := by
  induction is generalizing s t with
  | nil => trivial
  | cons i is ih => exact ⟨(hstep s t i h).1, ih (hstep s t i h).2⟩

theorem outputs_flatMap {ζ : Type*} (out : σ → ι → List ε) (f : ε → List ζ) (s : σ) (is : List ι) :
    outputs next (fun s i => (out s i).flatMap f) s is = (outputs next out s is).flatMap f := by
  induction is generalizing s with
  | nil => rfl
  | cons i is ih => rw [outputs, outputs, List.flatMap_append, ih]

end Outputs

/-- A machine whose every step is a step of another machine, or leaves it where it is, runs as the
other does on the steps that are one. -/
theorem foldl_sim {τ κ : Type*} {next : σ → ι → σ} {next' : τ → κ → τ} {label : ι → Option κ}
    {R : σ → τ → Prop} (hstep : ∀ s t i, R s t → R (next s i) ((label i).elim t (next' t)))
    {s : σ} {t : τ} (h : R s t) (is : List ι) :
    R (is.foldl next s) ((is.filterMap label).foldl next' t) := by
  induction is generalizing s t with
  | nil => exact h
  | cons i is ih =>
    have hrest := ih (hstep s t i h)
    cases hi : label i with
    | none => simpa [hi] using hrest
    | some k => simpa [hi] using hrest

/-- A register that is written by some steps and kept by the others holds the last value written. -/
theorem foldl_last_write {v : Type*} {next : σ → ι → σ} (reg : σ → Option v) {write : ι → Option v}
    (h : ∀ s i, reg (next s i) = (write i).or (reg s)) (s : σ) (is : List ι) :
    reg (is.foldl next s) = (is.filterMap write).getLast?.or (reg s) := by
  induction is generalizing s with
  | nil => rfl
  | cons i is ih =>
    rw [List.foldl_cons, ih, h, ← Option.or_assoc]
    congr 1
    cases hw : write i with
    | none => simp [hw]
    | some x => simp [hw, List.getLast?_cons, Option.or_some]

/-- A register that is set by some edges, cleared by some and kept by the others is set iff the last
edge among the former two set it. -/
theorem latch {q : ℕ → Bool} {set clear : ℕ → Prop} (h0 : q 0 = false)
    (hset : ∀ t, set t → q (t + 1) = true) (hclear : ∀ t, clear t → q (t + 1) = false)
    (hkeep : ∀ t, ¬ set t → ¬ clear t → q (t + 1) = q t) (t : ℕ) :
    q t = true ↔ ∃ i, i < t ∧ set i ∧ ∀ j, i < j → j < t → ¬ set j ∧ ¬ clear j := by
  induction t with
  | zero => simp [h0]
  | succ t ih =>
    by_cases hs : set t
    · simp only [hset t hs, true_iff]
      exact ⟨t, by omega, hs, fun j _ _ => by omega⟩
    by_cases hc : clear t
    · simp only [hclear t hc, Bool.false_eq_true, false_iff]
      rintro ⟨i, hi, hsi, hlast⟩
      have hit : i ≠ t := fun h => hs (h ▸ hsi)
      exact (hlast t (by omega) (by omega)).2 hc
    · rw [hkeep t hs hc, ih]
      constructor
      · rintro ⟨i, hi, hsi, hlast⟩
        refine ⟨i, by omega, hsi, fun j hij hj => ?_⟩
        by_cases hjt : j = t
        · exact hjt ▸ ⟨hs, hc⟩
        · exact hlast j hij (by omega)
      · rintro ⟨i, hi, hsi, hlast⟩
        have hit : i ≠ t := fun h => hs (h ▸ hsi)
        exact ⟨i, by omega, hsi, fun j hij hj => hlast j hij (by omega)⟩

/-- An accumulator modulo `m` holds the sum of what it added. -/
theorem modular_sum {m : ℕ} {a d : ℕ → ℕ} (h0 : a 0 < m)
    (hs : ∀ t, a (t + 1) = (a t + d t) % m) (t : ℕ) :
    a t = (a 0 + ∑ k ∈ Finset.range t, d k) % m := by
  induction t with
  | zero => simp [Nat.mod_eq_of_lt h0]
  | succ t ih => rw [hs, ih, Nat.mod_add_mod, Finset.sum_range_succ, Nat.add_assoc]

/-- An accumulator modulo `m` goes down as often as `m` fits into the sum of its start and what it
added. -/
theorem modular_wraps {m : ℕ} {a d : ℕ → ℕ} (h0 : a 0 < m) (hd : ∀ t, d t < m)
    (hs : ∀ t, a (t + 1) = (a t + d t) % m) (t : ℕ) :
    Nat.count (fun k => a (k + 1) < a k) t = (a 0 + ∑ k ∈ Finset.range t, d k) / m := by
  have hm : 0 < m := Nat.zero_lt_of_lt h0
  have hlt : ∀ t, a t < m := by
    rintro (_ | t)
    · exact h0
    · exact hs t ▸ Nat.mod_lt _ hm
  have hsplit : a t + m * Nat.count (fun k => a (k + 1) < a k) t =
      a 0 + ∑ k ∈ Finset.range t, d k := by
    induction t with
    | zero => simp
    | succ t ih =>
      rw [Nat.count_succ, Finset.sum_range_succ, ← Nat.add_assoc, ← ih]
      have hat := hlt t
      have hdt := hd t
      rcases Nat.lt_or_ge (a t + d t) m with hfits | hwraps
      · rw [hs, Nat.mod_eq_of_lt hfits, if_neg (by omega), Nat.add_zero]
        omega
      · rw [hs, Nat.mod_eq_sub_mod hwraps, Nat.mod_eq_of_lt (by omega), if_pos (by omega),
          Nat.mul_succ]
        omega
  rw [← hsplit, Nat.add_mul_div_left _ _ hm, Nat.div_eq_of_lt (hlt t), Nat.zero_add]

/-- A counter that holds `n` modulo `m + 1` and starts again behind `m` goes on to `n + 1`. -/
theorem wrap_mod (n m : ℕ) :
    (if n % (m + 1) < m then n % (m + 1) + 1 else 0) = (n + 1) % (m + 1) := by
  have hlt : n % (m + 1) < m + 1 := Nat.mod_lt n (Nat.succ_pos m)
  rw [← Nat.mod_add_mod n (m + 1) 1]
  split_ifs with h
  · exact (Nat.mod_eq_of_lt (by omega)).symm
  · rw [show n % (m + 1) = m by omega, Nat.mod_self]

end Machine
