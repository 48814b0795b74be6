import DigitalModulation.Keyboard.ScanCodeToEvent

/-!
# `Keyboard_Controller.v`: from scan bytes to events

The bytes of a scan code are collected in eight registers. In the clock after the decoder has found
a code, its event is put out and the registers are cleared.

* `KeyboardController.step`: one rising edge of `iCLK`;
* `Paced`, `bytes`: ticks whose `ScanReady` pulses are two ticks apart, and the bytes they bring;
* `KeyboardController.reported`: the events put out;
* `reported_run`: the controller puts out what the scan codes as a prefix code make of the bytes;
* `keyboard_decodes`: a list of scan codes comes out as the list of its events;
* `keyboard_keeps_unknown`: bytes that begin no scan code stay until the counter wraps.
-/

namespace DigitalModulation

open PrefixCode (RingBuffer)

/-- The registers of `Keyboard_Controller`. -/
structure KeyboardController where
  scanBytes : Vector (BitVec 8) 8
  scanByteCntr : Fin 8
  oEventReady : Bool
  oEventType : BitVec 8
  deriving DecidableEq

/-- What an edge of `iCLK` samples: the reset and the outputs of `PS2_ScanCodeReader`. -/
structure ScanTick where
  iReset : Bool
  scanReady : Bool
  scanByte : BitVec 8
  deriving DecidableEq

/-- No reset and no byte. -/
def ScanTick.Idle (t : ScanTick) : Prop := t.iReset = false ∧ t.scanReady = false

instance (t : ScanTick) : Decidable t.Idle := inferInstanceAs (Decidable (_ ∧ _))

/-- Ticks without a reset, no two pulses of `ScanReady` next to each other; `busy` if there was a
pulse just before. -/
def Paced (busy : Bool) : List ScanTick → Prop
  | [] => True
  | t :: ts => t.iReset = false ∧ (busy = true → t.scanReady = false) ∧ Paced t.scanReady ts

/-- The bytes received over some ticks. -/
def bytes (ts : List ScanTick) : List (BitVec 8) :=
  (ts.filter ScanTick.scanReady).map ScanTick.scanByte

/-- Bytes as close to each other as they may come. -/
def pulses (bs : List (BitVec 8)) : List ScanTick :=
  bs.flatMap fun b => [⟨false, true, b⟩, ⟨false, false, 0⟩]

instance decidablePaced : (busy : Bool) → (ts : List ScanTick) → Decidable (Paced busy ts)
  | _, [] => inferInstanceAs (Decidable True)
  | _, t :: ts =>
    have := decidablePaced t.scanReady ts
    inferInstanceAs (Decidable (_ ∧ _ ∧ _))

theorem Paced.of_append {busy : Bool} {ts us : List ScanTick} (h : Paced busy (ts ++ us)) :
    Paced busy ts := by
  induction ts generalizing busy with
  | nil => trivial
  | cons t ts ih => exact ⟨h.1, h.2.1, ih h.2.2⟩

theorem bytes_cons_idle {t : ScanTick} (h : t.scanReady = false) (ts : List ScanTick) :
    bytes (t :: ts) = bytes ts := by
  simp [bytes, h]

theorem bytes_cons_ready {t : ScanTick} (h : t.scanReady = true) (ts : List ScanTick) :
    bytes (t :: ts) = t.scanByte :: bytes ts := by
  simp [bytes, h]

namespace KeyboardController

/-- The registers after a reset. -/
def reset : KeyboardController := ⟨Vector.replicate 8 0, 0, false, 0⟩

/-- A rising edge of `iCLK`. -/
def step (s : KeyboardController) (t : ScanTick) : KeyboardController :=
  if t.iReset then
    reset
  else
    let (eventReady, eventType) := scanCodeToEvent s.scanBytes
    if eventReady then
      ⟨Vector.replicate 8 0, 0, eventReady, eventType⟩
    else if t.scanReady then
      ⟨s.scanBytes.set s.scanByteCntr t.scanByte, s.scanByteCntr + 1, eventReady, eventType⟩
    else
      { s with oEventReady := eventReady, oEventType := eventType }

/-- The byte registers and the counter are zero. -/
def Cleared (s : KeyboardController) : Prop :=
  s.scanBytes = Vector.replicate 8 0 ∧ s.scanByteCntr = 0

instance (s : KeyboardController) : Decidable s.Cleared := inferInstanceAs (Decidable (_ ∧ _))

/-- The event put out, if there is one. -/
def report (s : KeyboardController) : Option (BitVec 8) :=
  if s.oEventReady then some s.oEventType else none

/-- The events put out over some ticks, one for each tick `oEventReady` is high after. -/
def reported (s : KeyboardController) : List ScanTick → List (BitVec 8)
  | [] => []
  | t :: ts => (s.step t).report.toList ++ reported (s.step t) ts

theorem reported_append (s : KeyboardController) (ts us : List ScanTick) :
    s.reported (ts ++ us) = s.reported ts ++ (ts.foldl step s).reported us := by
  induction ts generalizing s with
  | nil => rfl
  | cons t ts ih => rw [List.cons_append, reported, reported, ih, List.append_assoc]; rfl

/-! ### One clock -/

/-- The registers are the cells of a ring. -/
def Shows (s : KeyboardController) (r : RingBuffer (BitVec 8) 8) : Prop :=
  s.scanBytes.toList = r.cells ∧ s.scanByteCntr.val = r.fresh.length

/-- The ring the next byte will find, and the event the next clock will put out. -/
def Tracks (s : KeyboardController) (r : RingBuffer (BitVec 8) 8) : Option (BitVec 8) → Prop
  | none => s.Shows r ∧ PrefixCode.lookup scanCodes r.cells = none
  | some e => PrefixCode.lookup scanCodes s.scanBytes.toList = some e ∧
      r = RingBuffer.blanks 0 (by decide)

theorem shows_blanks_iff {s : KeyboardController} :
    s.Shows (RingBuffer.blanks 0 (by decide)) ↔ s.Cleared := by
  have hbytes : s.scanBytes.toList = List.replicate 8 0 ↔ s.scanBytes = Vector.replicate 8 0 := by
    rw [← Vector.toList_replicate, Vector.toList_inj]
  have hcntr : s.scanByteCntr.val = 0 ↔ s.scanByteCntr = 0 := by
    rw [Fin.ext_iff]
    rfl
  simp only [Shows, Cleared, RingBuffer.cells_blanks, RingBuffer.fresh_blanks, List.length_nil,
    hbytes, hcntr]

theorem tracks_blanks_iff {s : KeyboardController} :
    s.Tracks (RingBuffer.blanks 0 (by decide)) none ↔ s.Cleared := by
  rw [Tracks, shows_blanks_iff, and_iff_left]
  exact scanCode.lookup_blanks 8

/-- A byte is written where the ring writes it. -/
theorem shows_write {s : KeyboardController} {r : RingBuffer (BitVec 8) 8} (h : s.Shows r)
    (b : BitVec 8) (ready : Bool) (type : BitVec 8) :
    (⟨s.scanBytes.set s.scanByteCntr b, s.scanByteCntr + 1, ready, type⟩ :
      KeyboardController).Shows (r.write b) := by
  obtain ⟨hbytes, hcntr⟩ := h
  constructor
  · rw [RingBuffer.cells_write_eq_set, ← hbytes, ← hcntr]
    exact Vector.toList_set s.scanByteCntr.isLt
  · rw [RingBuffer.length_fresh_write, ← hcntr]
    exact Fin.val_add _ _

/-- A tick without a byte puts out the event found, if there is one, and clears the registers. -/
theorem tracks_idle {s : KeyboardController} {r : RingBuffer (BitVec 8) 8} {o : Option (BitVec 8)}
    (h : s.Tracks r o) {t : ScanTick} (ht : t.Idle) :
    (s.step t).Tracks r none ∧ (s.step t).report = o ∧ (s.step t).oEventType = o.getD scNone := by
  obtain ⟨hreset, hidle⟩ := ht
  unfold step report
  cases o with
  | none =>
    obtain ⟨hshows, hnone⟩ := h
    have hevent := scanCodeToEvent_of_none (hshows.1 ▸ hnone)
    simp only [hreset, hidle, hevent]
    exact ⟨⟨hshows, hnone⟩, rfl, rfl⟩
  | some e =>
    obtain ⟨hsome, rfl⟩ := h
    have hevent := scanCodeToEvent_of_some hsome
    simp only [hreset, hevent]
    exact ⟨tracks_blanks_iff.mpr ⟨rfl, rfl⟩, rfl, rfl⟩

/-- A tick with a byte puts out nothing. -/
theorem tracks_ready {s : KeyboardController} {r : RingBuffer (BitVec 8) 8} (h : s.Tracks r none)
    {t : ScanTick} (hreset : t.iReset = false) (hready : t.scanReady = true) :
    (s.step t).Tracks (scanCode.push r t.scanByte).1 (scanCode.push r t.scanByte).2 ∧
      (s.step t).report = none ∧ (s.step t).oEventType = scNone := by
  obtain ⟨hshows, hnone⟩ := h
  have hevent := scanCodeToEvent_of_none (hshows.1 ▸ hnone)
  have hstep : s.step t =
      ⟨s.scanBytes.set s.scanByteCntr t.scanByte, s.scanByteCntr + 1, false, scNone⟩ := by
    simp [step, hreset, hready, hevent]
  have hwrite := shows_write hshows t.scanByte false scNone
  rw [hstep]
  refine ⟨?_, rfl, rfl⟩
  cases hlookup : PrefixCode.lookup scanCodes (r.write t.scanByte).cells with
  | none =>
    rw [scanCode.push_of_none hlookup]
    exact ⟨hwrite, hlookup⟩
  | some e =>
    rw [scanCode.push_of_some hlookup]
    refine ⟨?_, rfl⟩
    rw [hwrite.1]
    exact hlookup

/-! ### Whole runs -/

/-- **The controller decodes its bytes.** Over paced ticks and an idle one it puts out the event
found before and those the bytes complete. -/
theorem reported_run {s : KeyboardController} {r : RingBuffer (BitVec 8) 8}
    {o : Option (BitVec 8)} (h : s.Tracks r o) {busy : Bool} (ho : o ≠ none → busy = true)
    {ts : List ScanTick} (hts : Paced busy ts) {z : ScanTick} (hz : z.Idle) :
    s.reported (ts ++ [z]) = o.toList ++ scanCode.events r (bytes ts) ∧
      ((ts ++ [z]).foldl step s).Tracks (scanCode.after r (bytes ts)) none := by
  induction ts generalizing s r o busy with
  | nil =>
    obtain ⟨htracks, hreport, -⟩ := tracks_idle h hz
    refine ⟨?_, htracks⟩
    simp only [List.nil_append, reported, hreport, List.append_nil]
    exact (List.append_nil _).symm
  | cons t ts ih =>
    obtain ⟨hreset, hbusy, hts⟩ := hts
    cases hready : t.scanReady with
    | false =>
      rw [hready] at hts
      obtain ⟨htracks, hreport, -⟩ := tracks_idle h ⟨hreset, hready⟩
      obtain ⟨ihreported, ihtracks⟩ := ih htracks (by simp) hts
      rw [bytes_cons_idle hready]
      refine ⟨?_, ihtracks⟩
      rw [List.cons_append, reported, hreport, ihreported]
      rfl
    | true =>
      -- No event is under way: the byte before, if any, was two ticks ago.
      have hnone : o = none := by
        by_contra ho'
        rw [hbusy (ho ho')] at hready
        cases hready
      subst hnone
      rw [hready] at hts
      obtain ⟨htracks, hreport, -⟩ := tracks_ready h hreset hready
      obtain ⟨ihreported, ihtracks⟩ := ih htracks (fun _ => rfl) hts
      rw [bytes_cons_ready hready]
      refine ⟨?_, ihtracks⟩
      rw [List.cons_append, reported, hreport, ihreported]
      rfl

theorem reported_of_cleared {s : KeyboardController} (hs : s.Cleared) {ts : List ScanTick}
    (hts : Paced false ts) {z : ScanTick} (hz : z.Idle) :
    s.reported (ts ++ [z]) = scanCode.events (RingBuffer.blanks 0 (by decide)) (bytes ts) ∧
      ((ts ++ [z]).foldl step s).Tracks
        (scanCode.after (RingBuffer.blanks 0 (by decide)) (bytes ts)) none :=
  reported_run (tracks_blanks_iff.mpr hs) (by simp) hts hz

end KeyboardController

/-- **Decoding inverts encoding.** From the cleared registers, a list of scan codes sent in paced
bytes comes out as the list of its events, each for one tick. Whenever the bytes so far are whole
scan codes, the registers are cleared again after the next tick without a byte. -/
theorem keyboard_decodes (s : KeyboardController) (hs : s.Cleared)
    (codes : List (List (BitVec 8) × BitVec 8)) (hcodes : ∀ c ∈ codes, c ∈ scanCodes)
    (ts : List ScanTick) (hts : Paced false ts) (hbytes : bytes ts = codes.flatMap Prod.fst)
    (z : ScanTick) (hz : z.Idle) :
    s.reported (ts ++ [z]) = codes.map Prod.snd ∧
    ∀ ts₁ ts₂ k, ts = ts₁ ++ ts₂ → bytes ts₁ = (codes.take k).flatMap Prod.fst →
      ((ts₁ ++ [z]).foldl KeyboardController.step s).Cleared := by
  refine ⟨?_, fun ts₁ ts₂ k hsplit hbytes₁ => ?_⟩
  · obtain ⟨hreported, -⟩ := KeyboardController.reported_of_cleared hs hts hz
    rw [hreported, hbytes]
    exact (scanCode.events_words hcodes).1
  · -- A run that stops after whole codes is a run of its own.
    rw [hsplit] at hts
    obtain ⟨-, htracks⟩ := KeyboardController.reported_of_cleared hs hts.of_append hz
    have hcodes₁ : ∀ c ∈ codes.take k, c ∈ scanCodes := fun c hc =>
      hcodes c (List.mem_of_mem_take hc)
    rw [hbytes₁, (scanCode.events_words hcodes₁).2] at htracks
    exact KeyboardController.tracks_blanks_iff.mp htracks

/-- The left arrow pressed and released. -/
theorem keyboard_decodes_left_arrow :
    KeyboardController.reset.reported
      (pulses [0xE0, 0x6B, 0xE0, 0xF0, 0x6B] ++ [⟨false, false, 0⟩]) =
      [scMakeLeftArrow, scBreakLeftArrow] :=
  (keyboard_decodes _ (by decide)
    [([0xE0, 0x6B], scMakeLeftArrow), ([0xE0, 0xF0, 0x6B], scBreakLeftArrow)]
    (by decide +kernel) _ (by decide) (by decide) _ (by decide)).1

/-- The bytes begin no scan code, and no scan code begins them. -/
def Unknown (g : List (BitVec 8)) : Prop := ∀ c ∈ scanCodes, ¬ c.1 <+: g ∧ ¬ g <+: c.1

instance (g : List (BitVec 8)) : Decidable (Unknown g) :=
  inferInstanceAs (Decidable (∀ c ∈ scanCodes, ¬ c.1 <+: g ∧ ¬ g <+: c.1))

/-- No scan code begins what begins with unknown bytes. -/
theorem Unknown.no_word {g : List (BitVec 8)} (hg : Unknown g) (x : List (BitVec 8)) :
    ∀ c ∈ scanCodes, ¬ c.1 <+: g ++ x := by
  intro c hc hpre
  rcases List.prefix_or_prefix_of_prefix hpre (List.prefix_append g x) with h | h
  · exact (hg c hc).1 h
  · exact (hg c hc).2 h

/-- **Unknown bytes stay.** From the cleared registers, let the bytes received begin with unknown
ones. As long as they are at most eight in all, they are kept in order and nothing is put out. When
they are a multiple of eight and nothing has been put out, the scan codes that follow come out as
their events, provided the last eight bytes do not complete a beginning of the first of them, as
they cannot if that code is a single byte. -/
theorem keyboard_keeps_unknown (s : KeyboardController) (hs : s.Cleared) (g x : List (BitVec 8))
    (hg : Unknown g) (ts : List ScanTick) (hts : Paced false ts) (hbytes : bytes ts = g ++ x)
    (z : ScanTick) (hz : z.Idle) :
    let s' := (ts ++ [z]).foldl KeyboardController.step s
    ((g ++ x).length ≤ 8 → s.reported (ts ++ [z]) = [] ∧
      s'.scanBytes.toList = g ++ x ++ List.replicate (8 - (g ++ x).length) 0 ∧
      s'.scanByteCntr.val = (g ++ x).length % 8) ∧
    (s.reported (ts ++ [z]) = [] → 8 ∣ (g ++ x).length →
      ∀ c codes, (∀ d ∈ c :: codes, d ∈ scanCodes) →
      (c.1.length = 1 ∨ scanCode.Spares ((g ++ x).drop ((g ++ x).length - 8)) c) →
      ∀ ts', Paced false ts' → bytes ts' = (c :: codes).flatMap Prod.fst → ∀ z', z'.Idle →
      s'.reported (ts' ++ [z']) = (c :: codes).map Prod.snd) := by
  intro s'
  obtain ⟨hreported, htracks⟩ := KeyboardController.reported_of_cleared hs hts hz
  rw [hbytes] at hreported htracks
  refine ⟨fun hlen => ?_, fun hnone hdvd c codes hcodes hspares ts' hts' hbytes' z' hz' => ?_⟩
  · obtain ⟨hevents, hfresh, hcells⟩ := scanCode.events_of_no_word (hg.no_word x) hlen
    exact ⟨hreported.trans hevents, htracks.1.1.trans hcells, htracks.1.2.trans hfresh⟩
  · -- The counter has wrapped, so the next code is written over the last eight bytes.
    have hne : g ++ x ≠ [] := by
      intro hnil
      refine (hg c (hcodes c List.mem_cons_self)).2 ?_
      rw [(List.append_eq_nil_iff.mp hnil).1]
      exact List.nil_prefix
    rw [hreported] at hnone
    obtain ⟨hfresh, hcells⟩ := scanCode.after_full hnone hdvd hne
    obtain ⟨hreported', -⟩ := KeyboardController.reported_run htracks (by simp) hts' hz'
    have hspares : scanCode.Spares ((g ++ x).drop ((g ++ x).length - 8)) c := by
      rcases hspares with hone | hspares
      · exact scanCode.spares_of_length_le_one hone.le
      · exact hspares
    rw [← hcells] at hspares
    rw [hreported', hbytes', scanCode.events_stale hfresh (hcodes c List.mem_cons_self)
      (fun d hd => hcodes d (List.mem_cons_of_mem c hd)) hspares]
    rfl

/-- The self-test byte `0xAA`, seven bytes that are lost, and one code that is not. -/
theorem keyboard_keeps_unknown_self_test :
    let ts := pulses [0xAA, 0x1C, 0x1C, 0x1C, 0x1C, 0x1C, 0x1C, 0x1C] ++ [⟨false, false, 0⟩]
    (ts.foldl KeyboardController.step KeyboardController.reset).reported
      (pulses [0x1C] ++ [⟨false, false, 0⟩]) = [scMakeA] :=
  (keyboard_keeps_unknown KeyboardController.reset (by decide) [0xAA]
    [0x1C, 0x1C, 0x1C, 0x1C, 0x1C, 0x1C, 0x1C] (by decide +kernel) _ (by decide) (by decide) _
    (by decide)).2 (by decide +kernel) (by decide) ([0x1C], scMakeA) [] (by decide +kernel)
      (.inl rfl) _ (by decide) (by decide) _ (by decide)

/-- The self-test byte swallows the key pressed after it. -/
theorem keyboard_loses_code :
    ¬ ∀ (s : KeyboardController) (g : List (BitVec 8)) (codes : List (List (BitVec 8) × BitVec 8))
      (ts : List ScanTick) (z : ScanTick), s.Cleared → (∀ c ∈ scanCodes, ¬ g <+: c.1) →
      (∀ c ∈ codes, c ∈ scanCodes) → Paced false ts → bytes ts = g ++ codes.flatMap Prod.fst →
      z.Idle → s.reported (ts ++ [z]) = codes.map Prod.snd := by
  intro h
  have hreported := h KeyboardController.reset [0xAA] [([0x1C], scMakeA)]
    (pulses [0xAA, 0x1C]) ⟨false, false, 0⟩ (by decide) (by decide +kernel) (by decide +kernel)
    (by decide) (by decide) (by decide)
  exact absurd hreported (by decide +kernel)

end DigitalModulation
