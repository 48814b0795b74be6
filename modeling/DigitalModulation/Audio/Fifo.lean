import Mathlib.Data.List.Basic
import Mathlib.Tactic.SplitIfs

/-!
# `drivers.c`: samples for the audio FIFO

`audio_dac_wr_fifo` works the ports of a FIFO by hand: eleven writes for one sample, among them one
pulse of `WRCLK`. The other side takes words out at any time.

* `audioDacWrFifo`, `sendAudioFifo`: the writes for a sample, the samples of a buffer;
* `Fifo`: the FIFO, which also records the rising edges of its write clock;
* `AudioSystem`: processor and FIFO, one access or one word taken out at a time;
* `AudioSystem.Inv`: what holds between any two events;
* `audio_fifo_handshake`: one edge for each sample, in order.
-/

namespace DigitalModulation

/-! ### The ports -/

/-- `AUDIO_WRREQ`, `AUDIO_WRCLK` and `AUDIO_OUT_DATA_AUDIO`. -/
structure AudioPorts where
  wrreq : BitVec 1
  wrclk : BitVec 1
  outDataAudio : BitVec 32
  deriving DecidableEq

/-- An `IOWR` to one of them. -/
inductive PortWrite
  | wrreq (v : BitVec 1)
  | wrclk (v : BitVec 1)
  | outDataAudio (v : BitVec 32)

namespace AudioPorts

def zero : AudioPorts := ⟨0, 0, 0⟩

def iowr (p : AudioPorts) : PortWrite → AudioPorts
  | .wrreq v => { p with wrreq := v }
  | .wrclk v => { p with wrclk := v }
  | .outDataAudio v => { p with outDataAudio := v }

/-- The write is a rising edge of `WRCLK`. -/
def rises (p : AudioPorts) : PortWrite → Bool
  | .wrclk v => p.wrclk == 0 && v == 1
  | _ => false

end AudioPorts

/-- `(muestra << 8) | (muestra << 24)`. -/
def audioWord (muestra : BitVec 8) : BitVec 32 :=
  muestra.setWidth 32 <<< 8 ||| muestra.setWidth 32 <<< 24

/-- `audio_dac_wr_fifo`. -/
def audioDacWrFifo (muestra : BitVec 8) : List PortWrite :=
  [.wrreq 0, .wrclk 0, .outDataAudio 0,
    .outDataAudio (audioWord muestra),
    .wrreq 1, .wrclk 0, .wrclk 1, .wrclk 0,
    .wrreq 0, .wrclk 0, .outDataAudio 0]

/-- The samples `send_audio_fifo` writes, `buf[i % size_song]` for `i < 1000`. -/
def sendAudioFifo (sizeSong : BitVec 32) (buf : ℕ → BitVec 8) : List (BitVec 8) :=
  (List.range 1000).map fun i => buf (i % sizeSong.toNat)

/-! ### The FIFO -/

/-- What the FIFO finds at a rising edge of `WRCLK`. -/
structure WriteEdge where
  wrreq : BitVec 1
  data : BitVec 32
  full : Bool
  deriving DecidableEq

/-- The words in the FIFO, oldest first, the words taken out of it, and the edges it has seen. -/
structure Fifo where
  words : List (BitVec 32)
  popped : List (BitVec 32)
  edges : List WriteEdge

namespace Fifo

/-- `AUDIO_FIFO_FULL`. -/
def full (depth : ℕ) (f : Fifo) : Bool := f.words.length == depth

/-- A rising edge of `WRCLK`. -/
def wrclkEdge (depth : ℕ) (f : Fifo) (p : AudioPorts) : Fifo :=
  { f with
    words := if p.wrreq = 1 ∧ f.full depth = false then f.words ++ [p.outDataAudio] else f.words
    edges := f.edges ++ [⟨p.wrreq, p.outDataAudio, f.full depth⟩] }

/-- The other side takes a word out, if there is one. -/
def pop (f : Fifo) : Fifo :=
  match f.words with
  | [] => f
  | word :: words => { f with words, popped := f.popped ++ [word] }

end Fifo

/-! ### Processor and FIFO -/

/-- The samples still to be sent, the writes left of the call of `audio_dac_wr_fifo`, the ports, the
FIFO. -/
structure AudioSystem where
  todo : List (BitVec 8)
  writes : List PortWrite
  ports : AudioPorts
  fifo : Fifo

/-- An access of the processor, or a word taken out. -/
inductive AudioEvent
  | cpu
  | pop

namespace AudioSystem

/-- The next access: a write, or a read of `AUDIO_FIFO_FULL` before the next call. -/
def cpu (depth : ℕ) (s : AudioSystem) : AudioSystem :=
  match s.writes with
  | w :: writes =>
    { s with
      writes
      ports := s.ports.iowr w
      fifo := if s.ports.rises w then s.fifo.wrclkEdge depth s.ports else s.fifo }
  | [] =>
    match s.todo with
    | [] => s
    | sample :: todo =>
      -- The port is read again and again as long as it says full.
      if s.fifo.full depth then s else { s with todo, writes := audioDacWrFifo sample }

def step (depth : ℕ) (s : AudioSystem) : AudioEvent → AudioSystem
  | .cpu => s.cpu depth
  | .pop => { s with fifo := s.fifo.pop }

/-- Samples to be sent to a FIFO with some words in it. -/
def start (ports : AudioPorts) (words : List (BitVec 32)) (samples : List (BitVec 8)) :
    AudioSystem :=
  ⟨samples, [], ports, ⟨words, [], []⟩⟩

end AudioSystem

/-! ### The edges of a call -/

/-- The edge for a sample: a request, the word, room in the FIFO. -/
def sampleEdge (sample : BitVec 8) : WriteEdge := ⟨1, audioWord sample, false⟩

/-- The edges some writes will make, if there is room. -/
def pendingEdges (p : AudioPorts) : List PortWrite → List WriteEdge
  | [] => []
  | w :: writes =>
    (if p.rises w then [⟨p.wrreq, p.outDataAudio, false⟩] else []) ++
      pendingEdges (p.iowr w) writes

/-- One call makes one edge, whatever was on the ports. -/
theorem pendingEdges_audioDacWrFifo (p : AudioPorts) (sample : BitVec 8) :
    pendingEdges p (audioDacWrFifo sample) = [sampleEdge sample] := by
  simp [pendingEdges, audioDacWrFifo, AudioPorts.rises, AudioPorts.iowr, sampleEdge]

/-- One call leaves zeros on the ports. -/
theorem foldl_audioDacWrFifo (p : AudioPorts) (sample : BitVec 8) :
    (audioDacWrFifo sample).foldl AudioPorts.iowr p = AudioPorts.zero :=
  rfl

/-- The sample is in the bits 15 to 8 and 31 to 24. -/
theorem audioWord_bits (sample : BitVec 8) :
    (audioWord sample).extractLsb' 0 8 = 0 ∧ (audioWord sample).extractLsb' 8 8 = sample ∧
      (audioWord sample).extractLsb' 16 8 = 0 ∧ (audioWord sample).extractLsb' 24 8 = sample := by
  refine ⟨?_, ?_, ?_, ?_⟩ <;> ext i hi <;> simp [audioWord] <;> grind

/-! ### Between two events -/

namespace AudioSystem

/-- `sent` are the samples whose call has begun. Their edges are seen or pending, and there is room
for those pending. -/
structure Inv (depth : ℕ) (words : List (BitVec 32)) (samples sent : List (BitVec 8))
    (s : AudioSystem) : Prop where
  todo : sent ++ s.todo = samples
  edges : s.fifo.edges ++ pendingEdges s.ports s.writes = sent.map sampleEdge
  room : s.fifo.words.length + (pendingEdges s.ports s.writes).length ≤ depth
  words : s.fifo.popped ++ s.fifo.words = words ++ s.fifo.edges.map WriteEdge.data
  ports : sent ≠ [] → s.writes.foldl AudioPorts.iowr s.ports = AudioPorts.zero

variable {depth : ℕ} {words : List (BitVec 32)} {samples sent : List (BitVec 8)} {s : AudioSystem}

theorem inv_start (p : AudioPorts) (hwords : words.length ≤ depth) :
    Inv depth words samples [] (start p words samples) where
  todo := rfl
  edges := rfl
  room := by simpa [start, pendingEdges] using hwords
  words := by simp [start]
  ports := fun h => absurd rfl h

theorem Inv.pop (h : Inv depth words samples sent s) :
    Inv depth words samples sent { s with fifo := s.fifo.pop } := by
  cases hwords : s.fifo.words with
  | nil =>
    have hpop : s.fifo.pop = s.fifo := by simp [Fifo.pop, hwords]
    rw [hpop]
    exact h
  | cons w ws =>
    have hpop : s.fifo.pop = ⟨ws, s.fifo.popped ++ [w], s.fifo.edges⟩ := by
      simp [Fifo.pop, hwords]
    have hroom := h.room
    have hkept := h.words
    rw [hwords] at hroom hkept
    refine ⟨h.todo, ?_, ?_, ?_, h.ports⟩
    · rw [hpop]
      exact h.edges
    · rw [hpop]
      simp only [List.length_cons] at hroom
      show ws.length + (pendingEdges s.ports s.writes).length ≤ depth
      omega
    · rw [hpop]
      simpa using hkept

/-- A pending edge that comes next is that of a sample, and there is room for it. -/
theorem Inv.next_edge (h : Inv depth words samples sent s) {edge : WriteEdge}
    {rest : List WriteEdge} (hpending : pendingEdges s.ports s.writes = edge :: rest) :
    edge.wrreq = 1 ∧ s.fifo.full depth = false := by
  constructor
  · have hmem : edge ∈ sent.map sampleEdge := by
      rw [← h.edges, hpending]
      simp
    obtain ⟨sample, -, rfl⟩ := List.mem_map.mp hmem
    rfl
  · have hroom := h.room
    rw [hpending, List.length_cons] at hroom
    unfold Fifo.full
    rw [beq_eq_false_iff_ne]
    omega

/-- A write keeps the edges, seen and pending, together. -/
theorem Inv.write (h : Inv depth words samples sent s) {w : PortWrite} {writes : List PortWrite}
    (hwrites : s.writes = w :: writes) :
    Inv depth words samples sent
      { s with
        writes
        ports := s.ports.iowr w
        fifo := if s.ports.rises w then s.fifo.wrclkEdge depth s.ports else s.fifo } := by
  have hports := h.ports
  rw [hwrites] at hports
  by_cases hrises : s.ports.rises w = true
  · -- The first of the pending edges becomes the last of those seen.
    have hpending : pendingEdges s.ports s.writes =
        ⟨s.ports.wrreq, s.ports.outDataAudio, false⟩ :: pendingEdges (s.ports.iowr w) writes := by
      rw [hwrites, pendingEdges, if_pos hrises]
      rfl
    obtain ⟨hreq, hroom⟩ := h.next_edge hpending
    have hedges := h.edges
    have hlength := h.room
    rw [hpending] at hedges hlength
    have hfifo : s.fifo.wrclkEdge depth s.ports =
        ⟨s.fifo.words ++ [s.ports.outDataAudio], s.fifo.popped,
          s.fifo.edges ++ [⟨s.ports.wrreq, s.ports.outDataAudio, false⟩]⟩ := by
      unfold Fifo.wrclkEdge
      rw [if_pos ⟨hreq, hroom⟩, hroom]
    rw [if_pos hrises, hfifo]
    refine ⟨h.todo, ?_, ?_, ?_, hports⟩
    · simpa using hedges
    · simp only [List.length_append, List.length_cons, List.length_nil] at hlength ⊢
      omega
    · have hkept := h.words
      simp only [List.map_append, List.map_cons, List.map_nil, ← List.append_assoc, hkept]
  · have hpending : pendingEdges s.ports s.writes = pendingEdges (s.ports.iowr w) writes := by
      rw [hwrites, pendingEdges, if_neg hrises]
      rfl
    have hedges := h.edges
    have hroom := h.room
    rw [hpending] at hedges hroom
    rw [if_neg hrises]
    exact ⟨h.todo, hedges, hroom, h.words, hports⟩

/-- A call begins when the FIFO was seen not to be full. -/
theorem Inv.call (h : Inv depth words samples sent s) (hwrites : s.writes = [])
    {sample : BitVec 8} {todo : List (BitVec 8)} (htodo : s.todo = sample :: todo)
    (hfull : s.fifo.full depth = false) :
    Inv depth words samples (sent ++ [sample])
      { s with todo, writes := audioDacWrFifo sample } := by
  have hedges := h.edges
  have hroom := h.room
  rw [hwrites] at hedges hroom
  refine ⟨?_, ?_, ?_, h.words, fun _ => foldl_audioDacWrFifo s.ports sample⟩
  · rw [← h.todo, htodo, List.append_assoc]
    rfl
  · rw [pendingEdges_audioDacWrFifo, List.map_append, ← hedges]
    simp [pendingEdges]
  · rw [pendingEdges_audioDacWrFifo]
    unfold Fifo.full at hfull
    rw [beq_eq_false_iff_ne] at hfull
    simp only [pendingEdges, List.length_nil, List.length_cons] at hroom ⊢
    omega

theorem Inv.cpu (h : Inv depth words samples sent s) :
    ∃ sent, Inv depth words samples sent (s.cpu depth) := by
  unfold AudioSystem.cpu
  split
  next w writes hwrites => exact ⟨sent, h.write hwrites⟩
  next hwrites =>
    split
    next => exact ⟨sent, h⟩
    next sample todo htodo =>
      split_ifs with hfull
      · exact ⟨sent, h⟩
      · exact ⟨_, h.call hwrites htodo (by simpa using hfull)⟩

theorem Inv.step (h : Inv depth words samples sent s) (e : AudioEvent) :
    ∃ sent, Inv depth words samples sent (s.step depth e) := by
  cases e with
  | cpu => exact h.cpu
  | pop => exact ⟨sent, h.pop⟩

theorem Inv.foldl (h : Inv depth words samples sent s) (es : List AudioEvent) :
    ∃ sent, Inv depth words samples sent (es.foldl (AudioSystem.step depth) s) := by
  induction es generalizing s sent with
  | nil => exact ⟨sent, h⟩
  | cons e es ih =>
    obtain ⟨sent', h'⟩ := h.step e
    exact ih h'

/-! ### Progress -/

/-- The accesses left, were the FIFO never full. -/
def accesses (s : AudioSystem) : ℕ := 12 * s.todo.length + s.writes.length

/-- After a word was taken out the next access does not have to wait. -/
theorem Inv.accesses_pop_cpu (h : Inv depth words samples sent s) (hdepth : 0 < depth)
    (hs : 0 < s.accesses) : ((s.step depth .pop).step depth .cpu).accesses < s.accesses := by
  have hfull : (s.step depth .pop).fifo.full depth = false := by
    -- If there was no word to take out, the FIFO is empty and holds at least one.
    have hroom := h.room
    unfold Fifo.full
    rw [beq_eq_false_iff_ne]
    show (s.fifo.pop).words.length ≠ depth
    cases hwords : s.fifo.words with
    | nil =>
      simp only [Fifo.pop, hwords, List.length_nil]
      omega
    | cons w ws =>
      simp only [Fifo.pop, hwords, List.length_cons] at hroom ⊢
      omega
  show ((s.step depth .pop).cpu depth).accesses < s.accesses
  unfold AudioSystem.cpu
  simp only [hfull]
  cases hwrites : s.writes with
  | cons w writes =>
    simp only [AudioSystem.step, hwrites, accesses, List.length_cons]
    omega
  | nil =>
    cases htodo : s.todo with
    | nil => simp [accesses, hwrites, htodo] at hs
    | cons sample todo =>
      simp only [AudioSystem.step, hwrites, htodo, accesses, List.length_cons, List.length_nil,
        audioDacWrFifo, Bool.false_eq_true, ite_false]
      omega

/-- The samples can always be sent to the end. -/
theorem Inv.exists_done (h : Inv depth words samples sent s) (hdepth : 0 < depth) :
    ∃ es : List AudioEvent, (es.foldl (AudioSystem.step depth) s).todo = [] ∧
      (es.foldl (AudioSystem.step depth) s).writes = [] := by
  induction hn : s.accesses using Nat.strongRecOn generalizing s sent with
  | ind n ih =>
    by_cases hs : 0 < s.accesses
    · obtain ⟨sent', h'⟩ := h.foldl [.pop, .cpu]
      obtain ⟨es, hes⟩ := ih _ (hn ▸ h.accesses_pop_cpu hdepth hs) h' rfl
      exact ⟨.pop :: .cpu :: es, hes⟩
    · unfold accesses at hs
      exact ⟨[], List.length_eq_zero_iff.mp (by simp only [List.foldl_nil]; omega),
        List.length_eq_zero_iff.mp (by simp only [List.foldl_nil]; omega)⟩

end AudioSystem

/-- **One edge for each sample, in order.** Words may be taken out between any two accesses. So far
the write clock has risen once for each of some first samples, each time with the request, the word
of the sample and room in the FIFO, and the FIFO has passed on or still holds exactly these words.
Between two calls of `audio_dac_wr_fifo` the samples not yet pushed are those still to be sent, and
the ports are zero once one was sent. A FIFO that holds anything can always be sent the rest. -/
theorem audio_fifo_handshake (depth : ℕ) (sizeSong : BitVec 32) (bufs : List (ℕ → BitVec 8))
    (ports : AudioPorts) (words : List (BitVec 32)) (hwords : words.length ≤ depth)
    (es : List AudioEvent) :
    let samples := bufs.flatMap (sendAudioFifo sizeSong)
    let s := es.foldl (AudioSystem.step depth) (AudioSystem.start ports words samples)
    (∃ pushed rest, pushed ++ rest = samples ∧
      s.fifo.edges = pushed.map (fun sample => ⟨1, audioWord sample, false⟩) ∧
      s.fifo.popped ++ s.fifo.words = words ++ pushed.map audioWord ∧
      (s.writes = [] → rest = s.todo ∧ (pushed ≠ [] → s.ports = ⟨0, 0, 0⟩))) ∧
    (0 < depth → ∃ es' : List AudioEvent,
      (es'.foldl (AudioSystem.step depth) s).todo = [] ∧
        (es'.foldl (AudioSystem.step depth) s).writes = []) ∧
    ∀ sample : BitVec 8,
      (audioWord sample).extractLsb' 0 8 = 0 ∧ (audioWord sample).extractLsb' 8 8 = sample ∧
        (audioWord sample).extractLsb' 16 8 = 0 ∧
        (audioWord sample).extractLsb' 24 8 = sample := by
  intro samples s
  have hstart : AudioSystem.Inv depth words samples [] (.start ports words samples) :=
    AudioSystem.inv_start ports hwords
  obtain ⟨sent, h⟩ := hstart.foldl es
  refine ⟨?_, h.exists_done, audioWord_bits⟩
  obtain ⟨pushed, pending, rfl, hpushed, hpending⟩ := List.map_eq_append_iff.mp h.edges.symm
  refine ⟨pushed, pending ++ s.todo, ?_, hpushed.symm, ?_, fun hwrites => ?_⟩
  · rw [← List.append_assoc]
    exact h.todo
  · have hkept := h.words
    rw [← hpushed, List.map_map] at hkept
    exact hkept
  · have hnil : pending = [] := by
      rw [show s.writes = [] from hwrites] at hpending
      exact List.map_eq_nil_iff.mp hpending
    subst hnil
    refine ⟨rfl, fun hne => ?_⟩
    have hports := h.ports (by simpa using hne)
    rw [show s.writes = [] from hwrites] at hports
    exact hports

/-- A FIFO of one word that holds one. -/
theorem audio_fifo_handshake_one_word :
    ∃ es : List AudioEvent,
      let s := es.foldl (AudioSystem.step 1)
        (AudioSystem.start .zero [7] ([BitVec.ofNat 8].flatMap (sendAudioFifo 3)))
      s.todo = [] ∧ s.writes = [] :=
  (audio_fifo_handshake 1 3 [BitVec.ofNat 8] .zero [7] (by decide) []).2.1 (by decide)

end DigitalModulation
