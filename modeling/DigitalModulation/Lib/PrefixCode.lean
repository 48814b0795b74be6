import Mathlib.Data.List.Infix
import Mathlib.Tactic.Common

/-!
# Prefix codes read through a ring of cells

Symbols arrive one by one and are written into a ring of `n` cells. As soon as the cells begin with
a word of a prefix code, that word is reported and the cells are blanked.

* `lookup`: the first word of a table that the cells begin with;
* `Code`: a table in which no word begins another and no word contains the blank;
* `RingBuffer`, `RingBuffer.write`: the cells, those written since the pointer passed the first one
  apart from those it has not reached again;
* `Code.events`: what is reported for a list of symbols;
* `events_words`: on blank cells a list of words is reported word by word;
* `events_stale`: so it is over stale cells that cannot complete a beginning of the first word;
* `events_of_no_word`: symbols that begin with no word are reported as nothing until the ring is
  full, and then stay in it (`after_full`).
-/

namespace PrefixCode

variable {α β : Type*}

/-- What the first word of the table that `x` begins with stands for. -/
def lookup [DecidableEq α] (table : List (List α × β)) (x : List α) : Option β :=
  (table.find? fun c => c.1.isPrefixOf x).map Prod.snd

theorem lookup_eq_none_iff [DecidableEq α] {table : List (List α × β)} {x : List α} :
    lookup table x = none ↔ ∀ c ∈ table, ¬ c.1 <+: x := by
  simp [lookup]

/-- A word without blanks ends before the blanks. -/
theorem prefix_of_prefix_append_blanks {blank : α} {w p : List α} {k : ℕ} (hw : blank ∉ w)
    (h : w <+: p ++ List.replicate k blank) : w <+: p := by
  rcases List.prefix_or_prefix_of_prefix h (List.prefix_append p _) with hwp | ⟨v, rfl⟩
  · exact hwp
  · have hv := (List.prefix_append_right_inj p).mp h
    cases v with
    | nil => simp
    | cons a v =>
      have ha : a ∈ List.replicate k blank := hv.subset List.mem_cons_self
      rw [List.eq_of_mem_replicate ha] at hw
      simp at hw

/-- A table of words of at most `n` symbols none of which begins another one or contains `blank`. -/
structure Code (α β : Type*) (blank : α) (n : ℕ) where
  table : List (List α × β)
  prefixFree : ∀ c ∈ table, ∀ d ∈ table, c.1 <+: d.1 → c = d
  ne_nil : ∀ c ∈ table, c.1 ≠ []
  blank_notMem : ∀ c ∈ table, blank ∉ c.1
  length_le : ∀ c ∈ table, c.1.length ≤ n

/-- The cells of a ring: `fresh` has been written since the pointer last was at the first cell,
`stale` are the cells as they were then. -/
structure RingBuffer (α : Type*) (n : ℕ) where
  fresh : List α
  stale : List α
  length_fresh_lt : fresh.length < n
  length_stale : stale.length = n

namespace RingBuffer

variable {n : ℕ}

/-- All `n` cells. -/
def cells (r : RingBuffer α n) : List α := r.fresh ++ r.stale.drop r.fresh.length

/-- Blank cells, the pointer at the first one. -/
def blanks (blank : α) (hn : 0 < n) : RingBuffer α n :=
  ⟨[], List.replicate n blank, hn, List.length_replicate⟩

/-- Write the cell the pointer is at and advance the pointer. -/
def write (r : RingBuffer α n) (a : α) : RingBuffer α n :=
  if h : r.fresh.length + 1 < n then
    ⟨r.fresh ++ [a], r.stale, by simpa using h, r.length_stale⟩
  else
    ⟨[], r.fresh ++ [a], Nat.zero_lt_of_lt r.length_fresh_lt, by
      have := r.length_fresh_lt
      simp
      omega⟩

theorem pos (r : RingBuffer α n) : 0 < n := Nat.zero_lt_of_lt r.length_fresh_lt

@[simp] theorem cells_blanks (blank : α) (hn : 0 < n) :
    (blanks blank hn).cells = List.replicate n blank := rfl

@[simp] theorem fresh_blanks (blank : α) (hn : 0 < n) : (blanks blank hn).fresh = [] := rfl

theorem cells_of_fresh_nil {r : RingBuffer α n} (h : r.fresh = []) : r.cells = r.stale := by
  simp [cells, h]

theorem write_of_lt {r : RingBuffer α n} (h : r.fresh.length + 1 < n) (a : α) :
    (r.write a).fresh = r.fresh ++ [a] ∧ (r.write a).stale = r.stale := by
  simp [write, h]

theorem write_of_le {r : RingBuffer α n} (h : n ≤ r.fresh.length + 1) (a : α) :
    (r.write a).fresh = [] ∧ (r.write a).stale = r.fresh ++ [a] := by
  simp [write, Nat.not_lt.mpr h]

theorem cells_write (r : RingBuffer α n) (a : α) :
    (r.write a).cells = r.fresh ++ [a] ++ r.stale.drop (r.fresh ++ [a]).length := by
  have hlt := r.length_fresh_lt
  have hstale := r.length_stale
  by_cases h : r.fresh.length + 1 < n
  · obtain ⟨hf, hs⟩ := write_of_lt h a
    rw [cells, hf, hs]
  · obtain ⟨hf, hs⟩ := write_of_le (Nat.not_lt.mp h) a
    have hdrop : r.stale.length ≤ (r.fresh ++ [a]).length := by simp; omega
    rw [cells_of_fresh_nil hf, hs, List.drop_of_length_le hdrop, List.append_nil]

/-- Only the written cell changes. -/
theorem cells_write_eq_set (r : RingBuffer α n) (a : α) :
    (r.write a).cells = r.cells.set r.fresh.length a := by
  have hlt := r.length_fresh_lt
  have hstale := r.length_stale
  have hdrop : r.stale.drop r.fresh.length =
      r.stale[r.fresh.length] :: r.stale.drop (r.fresh.length + 1) :=
    List.drop_eq_getElem_cons (by omega)
  rw [cells_write, cells, List.set_append_right _ _ (Nat.le_refl _), Nat.sub_self, hdrop]
  simp only [List.length_append, List.length_singleton, List.set_cons_zero, List.append_assoc,
    List.singleton_append]

theorem length_fresh_write (r : RingBuffer α n) (a : α) :
    (r.write a).fresh.length = (r.fresh.length + 1) % n := by
  have hlt := r.length_fresh_lt
  by_cases h : r.fresh.length + 1 < n
  · simp [(write_of_lt h a).1, Nat.mod_eq_of_lt h]
  · have hn : r.fresh.length + 1 = n := by omega
    simp [(write_of_le (Nat.not_lt.mp h) a).1, hn]

/-- What has been written is a multiple of `n` symbols, the last `n` of which are the stale cells,
and the fresh cells. -/
def Wrapped (r : RingBuffer α n) (as : List α) : Prop :=
  ∃ old, as = old ++ r.fresh ∧ n ∣ old.length ∧ (old ≠ [] → r.stale <:+ old)

theorem Wrapped.write {r : RingBuffer α n} {as : List α} (h : Wrapped r as) (a : α) :
    Wrapped (r.write a) (as ++ [a]) := by
  obtain ⟨old, rfl, hdvd, hstale⟩ := h
  by_cases hlt : r.fresh.length + 1 < n
  · obtain ⟨hf, hs⟩ := write_of_lt hlt a
    exact ⟨old, by simp [hf], hdvd, by rwa [hs]⟩
  · obtain ⟨hf, hs⟩ := write_of_le (Nat.not_lt.mp hlt) a
    refine ⟨old ++ (r.fresh ++ [a]), by simp [hf], ?_, fun _ => ?_⟩
    · have hn : (r.fresh ++ [a]).length = n := by
        have := r.length_fresh_lt
        simp
        omega
      rw [List.length_append, hn]
      exact Nat.dvd_add hdvd (Nat.dvd_refl n)
    · rw [hs]
      exact List.suffix_append _ _

end RingBuffer

namespace Code

variable [DecidableEq α] {blank : α} {n : ℕ} (C : Code α β blank n)

/-- A word is found in front of anything. -/
theorem lookup_of_prefix {c : List α × β} (hc : c ∈ C.table) {x : List α} (hx : c.1 <+: x) :
    lookup C.table x = some c.2 := by
  have hsome : (C.table.find? fun d => d.1.isPrefixOf x).isSome := by
    rw [List.find?_isSome]
    exact ⟨c, hc, List.isPrefixOf_iff_prefix.mpr hx⟩
  obtain ⟨d, hd⟩ := Option.isSome_iff_exists.mp hsome
  have hdmem := List.mem_of_find?_eq_some hd
  have hdx : d.1 <+: x := List.isPrefixOf_iff_prefix.mp (by simpa using List.find?_some hd)
  have hcd : c = d := by
    rcases List.prefix_or_prefix_of_prefix hx hdx with h | h
    · exact C.prefixFree c hc d hdmem h
    · exact (C.prefixFree d hdmem c hc h).symm
  rw [lookup, hd, hcd]
  rfl

/-- A proper beginning of a word is not found before blanks. -/
theorem lookup_beginning {c : List α × β} (hc : c ∈ C.table) {p : List α} (hp : p <+: c.1)
    (hne : p ≠ c.1) (k : ℕ) : lookup C.table (p ++ List.replicate k blank) = none := by
  rw [lookup_eq_none_iff]
  intro d hd hdp
  have hdp := prefix_of_prefix_append_blanks (C.blank_notMem d hd) hdp
  have hdc : d = c := C.prefixFree d hd c hc (hdp.trans hp)
  rw [hdc] at hdp
  exact hne (hp.eq_of_length_le hdp.length_le)

theorem lookup_blanks (k : ℕ) : lookup C.table (List.replicate k blank) = none := by
  rw [lookup_eq_none_iff]
  intro c hc h
  have hnil : c.1 <+: [] := prefix_of_prefix_append_blanks (C.blank_notMem c hc) (by simpa using h)
  exact C.ne_nil c hc (List.prefix_nil.mp hnil)

/-- One symbol: the ring afterwards and the word reported. -/
def push (r : RingBuffer α n) (a : α) : RingBuffer α n × Option β :=
  match lookup C.table (r.write a).cells with
  | none => (r.write a, none)
  | some e => (RingBuffer.blanks blank r.pos, some e)

/-- What is reported for a list of symbols. -/
def events (r : RingBuffer α n) : List α → List β
  | [] => []
  | a :: as => (C.push r a).2.toList ++ events (C.push r a).1 as

/-- The ring after a list of symbols. -/
def after (r : RingBuffer α n) (as : List α) : RingBuffer α n :=
  as.foldl (fun r a => (C.push r a).1) r

theorem push_of_none {r : RingBuffer α n} {a : α} (h : lookup C.table (r.write a).cells = none) :
    C.push r a = (r.write a, none) := by
  simp [push, h]

theorem push_of_some {r : RingBuffer α n} {a : α} {e : β}
    (h : lookup C.table (r.write a).cells = some e) :
    C.push r a = (RingBuffer.blanks blank r.pos, some e) := by
  simp [push, h]

theorem after_append (r : RingBuffer α n) (as bs : List α) :
    C.after r (as ++ bs) = C.after (C.after r as) bs := List.foldl_append

theorem events_append (r : RingBuffer α n) (as bs : List α) :
    C.events r (as ++ bs) = C.events r as ++ C.events (C.after r as) bs := by
  induction as generalizing r with
  | nil => rfl
  | cons a as ih => rw [List.cons_append, events, events, ih, List.append_assoc]; rfl

/-! ### Words -/

/-- The cells cannot complete a proper beginning of `c` to a word of the table. -/
def Spares (cells : List α) (c : List α × β) : Prop :=
  ∀ p, p ≠ [] → p <+: c.1 → p ≠ c.1 → ∀ d ∈ C.table, ¬ d.1 <+: p ++ cells.drop p.length

theorem spares_blanks {c : List α × β} (hc : c ∈ C.table) :
    C.Spares (List.replicate n blank) c := by
  intro p _ hp hne
  rw [List.drop_replicate, ← lookup_eq_none_iff]
  exact C.lookup_beginning hc hp hne _

omit [DecidableEq α] in
/-- A word of one symbol has no proper beginning to complete. -/
theorem spares_of_length_le_one {cells : List α} {c : List α × β} (h : c.1.length ≤ 1) :
    C.Spares cells c := by
  intro p hp hpre hne
  have hlt : p.length < c.1.length :=
    Nat.lt_of_le_of_ne hpre.length_le fun hlen => hne (hpre.eq_of_length hlen)
  exact absurd (List.eq_nil_of_length_eq_zero (by omega)) hp

/-- The rest `q` of a word whose beginning `p` has been written. -/
theorem events_rest {c : List α × β} (hc : c ∈ C.table) {p q : List α} (hpq : p ++ q = c.1)
    (hq : q ≠ []) {r : RingBuffer α n} (hr : r.fresh = p) (hspares : C.Spares r.stale c) :
    C.events r q = [c.2] ∧ C.after r q = RingBuffer.blanks blank r.pos := by
  induction q generalizing p r with
  | nil => exact absurd rfl hq
  | cons a q ih =>
    have hcells := r.cells_write a
    rw [hr] at hcells
    have hlen := C.length_le c hc
    rw [← hpq, List.length_append, List.length_cons] at hlen
    cases q with
    | nil =>
      -- The word is complete, whatever follows it in the ring.
      have hfound : lookup C.table (r.write a).cells = some c.2 := by
        rw [hcells, hpq]
        exact C.lookup_of_prefix hc (List.prefix_append _ _)
      simp [events, after, C.push_of_some hfound]
    | cons b q =>
      -- A longer beginning, still before the end of the ring.
      have hpa : p ++ [a] <+: c.1 := ⟨b :: q, by simp [← hpq]⟩
      have hne : p ++ [a] ≠ c.1 := by simp [← hpq]
      have hnone : lookup C.table (r.write a).cells = none := by
        rw [hcells, lookup_eq_none_iff]
        exact hspares _ (by simp) hpa hne
      obtain ⟨hfresh, hstale⟩ := RingBuffer.write_of_lt (r := r)
        (by rw [hr]; simp only [List.length_cons] at hlen; omega) a
      have hrec := ih (p := p ++ [a]) (r := r.write a) (by simpa using hpq) (by simp)
        (by rw [hfresh, hr]) (by rwa [hstale])
      simpa [events, after, C.push_of_none hnone] using hrec

/-- **Words from blank cells** are reported in order and leave blank cells. -/
theorem events_words {hn : 0 < n} {cs : List (List α × β)} (hcs : ∀ c ∈ cs, c ∈ C.table) :
    C.events (RingBuffer.blanks blank hn) (cs.flatMap Prod.fst) = cs.map Prod.snd ∧
      C.after (RingBuffer.blanks blank hn) (cs.flatMap Prod.fst) = RingBuffer.blanks blank hn := by
  induction cs with
  | nil => exact ⟨rfl, rfl⟩
  | cons c cs ih =>
    have hc := hcs c List.mem_cons_self
    obtain ⟨hevents, hafter⟩ := C.events_rest hc (List.nil_append _) (C.ne_nil c hc)
      (RingBuffer.fresh_blanks blank hn) (C.spares_blanks hc)
    obtain ⟨ihevents, ihafter⟩ := ih fun d hd => hcs d (List.mem_cons_of_mem c hd)
    rw [List.flatMap_cons, C.events_append, C.after_append, hevents, hafter, ihevents, ihafter]
    exact ⟨rfl, rfl⟩

/-- **Words over stale cells.** With the pointer at the first cell, cells that spare the first word
are harmless. -/
theorem events_stale {r : RingBuffer α n} (hr : r.fresh = []) {c : List α × β}
    {cs : List (List α × β)} (hc : c ∈ C.table) (hcs : ∀ d ∈ cs, d ∈ C.table)
    (hspares : C.Spares r.cells c) :
    C.events r ((c :: cs).flatMap Prod.fst) = (c :: cs).map Prod.snd := by
  rw [RingBuffer.cells_of_fresh_nil hr] at hspares
  obtain ⟨hevents, hafter⟩ := C.events_rest hc (List.nil_append _) (C.ne_nil c hc) hr hspares
  rw [List.flatMap_cons, C.events_append, hevents, hafter, (C.events_words hcs).1]
  rfl

/-! ### Symbols that are no word -/

/-- The rest `q` of symbols that begin with no word, `p` written so far. -/
theorem events_of_no_word_rest {p q : List α} (hword : ∀ c ∈ C.table, ¬ c.1 <+: p ++ q)
    (hlen : (p ++ q).length ≤ n) {r : RingBuffer α n} (hfresh : r.fresh.length = p.length % n)
    (hcells : r.cells = p ++ List.replicate (n - p.length) blank) :
    C.events r q = [] ∧ (C.after r q).fresh.length = (p ++ q).length % n ∧
      (C.after r q).cells = p ++ q ++ List.replicate (n - (p ++ q).length) blank := by
  induction q generalizing p r with
  | nil => simpa [events, after] using ⟨hfresh, hcells⟩
  | cons a q ih =>
    have happ : p ++ a :: q = p ++ [a] ++ q := by simp
    rw [happ] at hword hlen ⊢
    have hplt : p.length + 1 ≤ n := by
      simp only [List.length_append, List.length_cons, List.length_nil] at hlen
      omega
    have hplen : r.fresh.length = p.length := by rw [hfresh, Nat.mod_eq_of_lt hplt]
    have hcells' : (r.write a).cells =
        p ++ [a] ++ List.replicate (n - (p ++ [a]).length) blank := by
      obtain ⟨k, hk⟩ : ∃ k, n - p.length = k + 1 := ⟨n - p.length - 1, by omega⟩
      have hk' : n - (p ++ [a]).length = k := by simp; omega
      rw [RingBuffer.cells_write_eq_set, hcells, hplen, List.set_append_right _ _ (Nat.le_refl _),
        Nat.sub_self, hk, hk', List.replicate_succ]
      simp
    have hnone : lookup C.table (r.write a).cells = none := by
      rw [hcells', lookup_eq_none_iff]
      intro c hc hpre
      have hpre := prefix_of_prefix_append_blanks (C.blank_notMem c hc) hpre
      exact hword c hc (hpre.trans (List.prefix_append _ _))
    have hrec := ih hword hlen (r := r.write a)
      (by rw [RingBuffer.length_fresh_write, hplen]; simp) hcells'
    simpa [events, after, C.push_of_none hnone] using hrec

/-- **Nothing is discarded.** Up to a full ring, symbols that begin with no word are kept and not
reported. -/
theorem events_of_no_word {hn : 0 < n} {as : List α} (hword : ∀ c ∈ C.table, ¬ c.1 <+: as)
    (hlen : as.length ≤ n) :
    C.events (RingBuffer.blanks blank hn) as = [] ∧
      (C.after (RingBuffer.blanks blank hn) as).fresh.length = as.length % n ∧
      (C.after (RingBuffer.blanks blank hn) as).cells =
        as ++ List.replicate (n - as.length) blank := by
  have h := C.events_of_no_word_rest (p := []) (q := as) (r := RingBuffer.blanks blank hn) hword
    hlen (by simp) (by simp)
  simpa using h

theorem wrapped_after {r : RingBuffer α n} {as bs : List α} (h : r.Wrapped as)
    (hbs : C.events r bs = []) : (C.after r bs).Wrapped (as ++ bs) := by
  induction bs generalizing r as with
  | nil => rwa [List.append_nil]
  | cons b bs ih =>
    rw [events, List.append_eq_nil_iff] at hbs
    obtain ⟨hb, hbs⟩ := hbs
    have hnone : lookup C.table (r.write b).cells = none := by
      cases hlookup : lookup C.table (r.write b).cells with
      | none => rfl
      | some e => simp [C.push_of_some hlookup] at hb
    rw [C.push_of_none hnone] at hbs
    have hrec := ih (h.write b) hbs
    simpa [after, C.push_of_none hnone] using hrec

/-- **A full ring.** After a positive multiple of `n` symbols and no report the pointer is at the
first cell and the cells hold the last `n` symbols. -/
theorem after_full {hn : 0 < n} {as : List α} (has : C.events (RingBuffer.blanks blank hn) as = [])
    (hdvd : n ∣ as.length) (hne : as ≠ []) :
    (C.after (RingBuffer.blanks blank hn) as).fresh = [] ∧
      (C.after (RingBuffer.blanks blank hn) as).cells = as.drop (as.length - n) := by
  have hstart : (RingBuffer.blanks blank hn).Wrapped [] := ⟨[], by simp, by simp, by simp⟩
  obtain ⟨old, heq, hold, hstale⟩ := C.wrapped_after hstart has
  rw [List.nil_append] at heq
  generalize C.after (RingBuffer.blanks blank hn) as = r at heq hstale ⊢
  have hfresh : r.fresh = [] := by
    rw [heq, List.length_append, Nat.dvd_add_right hold] at hdvd
    exact List.eq_nil_of_length_eq_zero (Nat.eq_zero_of_dvd_of_lt hdvd r.length_fresh_lt)
  rw [hfresh, List.append_nil] at heq
  subst heq
  refine ⟨hfresh, ?_⟩
  have hlast := List.suffix_iff_eq_drop.mp (hstale hne)
  rwa [r.length_stale, ← RingBuffer.cells_of_fresh_nil hfresh] at hlast

end Code

end PrefixCode
