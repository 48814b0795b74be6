import DigitalModulation.Lib.Canvas

/-!
# Canvases that are changed in place

A turn reads a cell of the canvas as the turns before have left it, and makes writes that depend on
what it finds there.

* `turns`: the canvas after some turns;
* `ReadsFirst`: no turn reads a cell that an earlier one has written;
* `turns_eq_paint`: then each of them finds what was there before all of them;
* `view_foldl`: turns on coarse cells that are made of fine ones.
-/

namespace Canvas

variable {κ ν τ : Type*} [DecidableEq κ] {source : τ → κ} {writes : τ → ν → List (κ × ν)}

/-- The canvas after some turns. -/
def turns (source : τ → κ) (writes : τ → ν → List (κ × ν)) (c : κ → ν) (ts : List τ) : κ → ν :=
  ts.foldl (fun c t => paint c (writes t (c (source t)))) c

/-- No turn reads a cell that an earlier one has written. -/
def ReadsFirst (source : τ → κ) (writes : τ → ν → List (κ × ν)) (ts : List τ) : Prop :=
  ts.Pairwise fun t t' => ∀ v, ∀ w ∈ writes t v, w.1 ≠ source t'

/-- **Turns that read first find what was there before all of them.** -/
theorem turns_eq_paint {ts : List τ} (h : ReadsFirst source writes ts) (c : κ → ν) :
    turns source writes c ts = paint c (ts.flatMap fun t => writes t (c (source t))) := by
  induction ts generalizing c with
  | nil => rfl
  | cons t ts ih =>
    obtain ⟨hfirst, hlater⟩ := List.pairwise_cons.mp h
    have hold : ∀ t' ∈ ts, paint c (writes t (c (source t))) (source t') = c (source t') :=
      fun t' ht' => paint_of_forall_ne (hfirst t' ht' _)
    calc turns source writes c (t :: ts)
      _ = turns source writes (paint c (writes t (c (source t)))) ts := rfl
      _ = _ := ih hlater _
      _ = paint (paint c (writes t (c (source t)))) (ts.flatMap fun t => writes t (c (source t))) :=
        congrArg _ (List.flatMap_congr fun t' ht' => by rw [hold t' ht'])
      _ = _ := by rw [List.flatMap_cons, paint_append]

/-- Turns on fine cells, if each of them shows in the coarse ones as it should. -/
theorem view_foldl {σ : Type*} {view : σ → κ → ν} {turn : σ → τ → σ} {ts : List τ}
    (h : ∀ s, ∀ t ∈ ts, view (turn s t) = paint (view s) (writes t (view s (source t)))) (s : σ) :
    view (ts.foldl turn s) = turns source writes (view s) ts := by
  induction ts generalizing s with
  | nil => rfl
  | cons t ts ih =>
    have hfirst := h s t List.mem_cons_self
    rw [List.foldl_cons, ih (fun s t' ht' => h s t' (List.mem_cons_of_mem t ht')), hfirst]
    rfl

end Canvas
