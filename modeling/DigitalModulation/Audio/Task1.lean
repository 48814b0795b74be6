import DigitalModulation.Audio.Fifo
import Mathlib.Data.BitVec
import Mathlib.Data.List.GetD
import Mathlib.Tactic.NormNum

/-!
# `hello_ucosii.c`: `task1`, the player

Each turn of the loop of `task1` sends a block of 1000 samples of a song from the position it keeps,
or sends nothing.

* `SongVars`: the variables it reads;
* `Task1`, `Task1.body`: its position, the blocks sent so far, and one turn of the loop;
* `Block.indices`, `Task1.pushed`: the array indices of a block, the samples of all of them;
* `playback_gapless_iff`: the sizes for which the song is played in a loop without a gap.
-/

namespace DigitalModulation

/-- The variables of the transport. -/
structure SongVars where
  playSong : BitVec 8
  pauseSong : BitVec 8
  stopSong : BitVec 8
  whichSong : BitVec 8

/-- The arrays `song`, `song_2` and `song_3`. -/
inductive Song
  | song | song2 | song3
  deriving DecidableEq

/-- The array `which_song` names. -/
def track (whichSong : BitVec 8) : Option Song :=
  if whichSong = 0 then some .song
  else if whichSong = 1 then some .song2
  else if whichSong = 2 then some .song3
  else none

/-- A call of `send_audio_fifo`: an array, and the index of its element the pointer is at. -/
structure Block where
  song : Song
  offset : ℕ
  deriving DecidableEq

/-- `address_counter`, and the blocks sent so far. -/
structure Task1 where
  addressCounter : BitVec 32
  blocks : List Block

def numeroDeMuestras : BitVec 32 := 1000

namespace Task1

def init : Task1 := ⟨0, []⟩

/-- One turn of the loop. The remainder and the comparison are unsigned, as `size_song` is. -/
def body (sizeSong : BitVec 32) (t : Task1) (v : SongVars) : Task1 :=
  if v.playSong = 1 then
    -- The test comes after the block, so a position at the end still sends one.
    { addressCounter :=
        if t.addressCounter < sizeSong then t.addressCounter + numeroDeMuestras else 0
      blocks := t.blocks ++
        (track v.whichSong).toList.map fun name => ⟨name, (t.addressCounter % sizeSong).toNat⟩ }
  else if v.pauseSong = 1 then t
  else if v.stopSong = 1 then { t with addressCounter := 0 }
  else t

end Task1

/-- The indices of the array that `send_audio_fifo` reads. -/
def Block.indices (sizeSong : BitVec 32) (b : Block) : List ℕ :=
  (List.range 1000).map fun i => b.offset + i % sizeSong.toNat

/-- The samples of the blocks sent, of an array given by the memory it is in. -/
def Task1.pushed (sizeSong : BitVec 32) (song : ℕ → BitVec 8) (t : Task1) : List (BitVec 8) :=
  t.blocks.flatMap fun b => sendAudioFifo sizeSong fun i => song (b.offset + i)

/-- Sample `k` is that of the song in a loop, and nothing outside the song is read, however often
the song is paused. -/
def Gapless (sizeSong : BitVec 32) : Prop :=
  ∀ (song : ℕ → BitVec 8) (whichSong : BitVec 8) (vs : List SongVars),
    whichSong < 3 → (∀ v ∈ vs, v.stopSong = 0 ∧ v.whichSong = whichSong) →
    let t := vs.foldl (Task1.body sizeSong) Task1.init
    (∀ k sample, (t.pushed sizeSong song)[k]? = some sample →
      sample = song (k % sizeSong.toNat)) ∧
    ∀ b ∈ t.blocks, ∀ i ∈ b.indices sizeSong, i < sizeSong.toNat

/-! ### Blocks -/

theorem exists_track {whichSong : BitVec 8} (h : whichSong < 3) :
    ∃ name, track whichSong = some name := by
  unfold track
  split_ifs with h0 h1 h2
  · exact ⟨_, rfl⟩
  · exact ⟨_, rfl⟩
  · exact ⟨_, rfl⟩
  · bv_omega

theorem length_sendAudioFifo (sizeSong : BitVec 32) (buf : ℕ → BitVec 8) :
    (sendAudioFifo sizeSong buf).length = 1000 := by
  simp [sendAudioFifo]

theorem getElem?_sendAudioFifo (sizeSong : BitVec 32) (buf : ℕ → BitVec 8) {i : ℕ} (hi : i < 1000) :
    (sendAudioFifo sizeSong buf)[i]? = some (buf (i % sizeSong.toNat)) := by
  simp [sendAudioFifo, hi]

namespace Task1

variable {sizeSong : BitVec 32} {t : Task1} {v : SongVars}

theorem pushed_append (song : ℕ → BitVec 8) (c : BitVec 32) (b : Block) :
    pushed sizeSong song ⟨c, t.blocks ++ [b]⟩ =
      t.pushed sizeSong song ++ sendAudioFifo sizeSong fun i => song (b.offset + i) := by
  simp [pushed]

theorem length_pushed (song : ℕ → BitVec 8) :
    (t.pushed sizeSong song).length = 1000 * t.blocks.length := by
  simp [pushed, List.length_flatMap, length_sendAudioFifo, Nat.mul_comm]

/-- A turn that plays sends one block and moves the address. -/
theorem body_play (hv : v.playSong = 1) {name : Song} (hname : track v.whichSong = some name) :
    t.body sizeSong v =
      ⟨if t.addressCounter < sizeSong then t.addressCounter + numeroDeMuestras else 0,
        t.blocks ++ [⟨name, (t.addressCounter % sizeSong).toNat⟩]⟩ := by
  simp [body, hv, hname]

/-- A turn that does not play, and is not told to stop. -/
theorem body_keep (hv : v.playSong ≠ 1) (hstop : v.stopSong = 0) : t.body sizeSong v = t := by
  unfold body
  rw [if_neg hv, hstop]
  split_ifs with hpause h1
  · rfl
  · exact absurd h1 (by decide)
  · rfl

theorem blocks_body :
    (t.body sizeSong v).blocks = t.blocks ++
      if v.playSong = 1 then
        (track v.whichSong).toList.map fun name => ⟨name, (t.addressCounter % sizeSong).toNat⟩
      else [] := by
  unfold body
  by_cases hplay : v.playSong = 1
  · simp only [if_pos hplay]
  · simp only [if_neg hplay, List.append_nil]
    split_ifs <;> rfl

theorem addressCounter_body (hv : v.playSong ≠ 1) :
    (t.body sizeSong v).addressCounter =
      if v.pauseSong ≠ 1 ∧ v.stopSong = 1 then 0 else t.addressCounter := by
  unfold body
  rw [if_neg hv]
  by_cases hpause : v.pauseSong = 1
  · rw [if_pos hpause, if_neg (fun h => h.1 hpause)]
  · by_cases hstop : v.stopSong = 1
    · rw [if_neg hpause, if_pos hstop, if_pos ⟨hpause, hstop⟩]
    · rw [if_neg hpause, if_neg hstop, if_neg fun h => hstop h.2]

/-! ### Sizes that divide the block -/

/-- The position is 0 or 1000, and all blocks begin at 0. -/
structure Periodic (sizeSong : BitVec 32) (t : Task1) : Prop where
  counter : t.addressCounter = 0 ∨ t.addressCounter = 1000
  offset : ∀ b ∈ t.blocks, b.offset = 0

theorem Periodic.body (hdvd : sizeSong.toNat ∣ 1000) (h : Periodic sizeSong t)
    (hstop : v.stopSong = 0) {name : Song} (hname : track v.whichSong = some name) :
    Periodic sizeSong (t.body sizeSong v) := by
  by_cases hv : v.playSong = 1
  · rw [body_play hv hname]
    have hle : sizeSong.toNat ≤ 1000 := Nat.le_of_dvd (by omega) hdvd
    constructor
    · rcases h.counter with hc | hc
      · by_cases hlt : t.addressCounter < sizeSong
        · right
          rw [if_pos hlt, hc]
          rfl
        · left
          exact if_neg hlt
      · left
        have hlt : ¬ t.addressCounter < sizeSong := by
          rw [hc]
          bv_omega
        exact if_neg hlt
    · intro b hb
      rw [List.mem_append, List.mem_singleton] at hb
      rcases hb with hb | rfl
      · exact h.offset b hb
      · show (t.addressCounter % sizeSong).toNat = 0
        rw [BitVec.toNat_umod]
        rcases h.counter with hc | hc
        · simp [hc]
        · rw [hc]
          exact Nat.mod_eq_zero_of_dvd hdvd
  · rw [body_keep hv hstop]
    exact h

/-- Blocks from the beginning, of a size divided by that of the song, are the song in a loop. -/
theorem getElem?_pushed_of_offset (hdvd : sizeSong.toNat ∣ 1000) (song : ℕ → BitVec 8)
    {bs : List Block} (h : ∀ b ∈ bs, b.offset = 0) (c : BitVec 32) {k : ℕ} {sample : BitVec 8}
    (hk : (pushed sizeSong song ⟨c, bs⟩)[k]? = some sample) :
    sample = song (k % sizeSong.toNat) := by
  induction bs using List.reverseRecOn with
  | nil => simp [pushed] at hk
  | append_singleton bs b ih =>
    rw [pushed_append (t := ⟨c, bs⟩), h b (by simp), List.getElem?_append, length_pushed] at hk
    change (if k < 1000 * bs.length then _ else _) = _ at hk
    split_ifs at hk with hlt
    -- The sample is of a block before, or of the last one.
    · exact ih (fun b hb => h b (by simp [hb])) hk
    · have hlast : k - 1000 * bs.length < 1000 := by
        by_contra hge
        rw [List.getElem?_eq_none (by simpa [length_sendAudioFifo] using hge)] at hk
        cases hk
      rw [getElem?_sendAudioFifo _ _ hlast, Option.some_inj] at hk
      have hmod : k % sizeSong.toNat = (k - 1000 * bs.length) % sizeSong.toNat := by
        obtain ⟨n, hn⟩ := hdvd
        have hsum : k = (k - 1000 * bs.length) + sizeSong.toNat * (n * bs.length) := by
          rw [← Nat.mul_assoc, ← hn]
          omega
        conv_lhs => rw [hsum, Nat.add_mul_mod_self_left]
      rw [hmod, ← hk]
      simp

end Task1

theorem toNat_pos {sizeSong : BitVec 32} (h : sizeSong ≠ 0) : 0 < sizeSong.toNat :=
  Nat.pos_of_ne_zero fun h0 => h (BitVec.eq_of_toNat_eq h0)

theorem gapless_of_dvd {sizeSong : BitVec 32} (hsize : sizeSong ≠ 0)
    (hdvd : sizeSong.toNat ∣ 1000) : Gapless sizeSong := by
  intro song whichSong vs hwhich hvs t
  obtain ⟨name, hname⟩ := exists_track hwhich
  have h : Task1.Periodic sizeSong t := by
    have hstart : Task1.Periodic sizeSong Task1.init := ⟨.inl rfl, by simp [Task1.init]⟩
    have hrun (ws : List SongVars) (hws : ∀ v ∈ ws, v.stopSong = 0 ∧ v.whichSong = whichSong) :
        Task1.Periodic sizeSong (ws.foldl (Task1.body sizeSong) Task1.init) := by
      induction ws using List.reverseRecOn with
      | nil => exact hstart
      | append_singleton ws v ih =>
        rw [List.foldl_append]
        obtain ⟨hstop, hv⟩ := hws v (by simp)
        exact (ih fun w hw => hws w (by simp [hw])).body hdvd hstop (hv ▸ hname)
    exact hrun vs hvs
  constructor
  · intro k sample hk
    exact Task1.getElem?_pushed_of_offset hdvd song h.offset t.addressCounter hk
  · intro b hb i hi
    obtain ⟨j, -, rfl⟩ := List.mem_map.mp hi
    rw [h.offset b hb, Nat.zero_add]
    exact Nat.mod_lt _ (toNat_pos hsize)

/-! ### Other sizes -/

/-- The first track is played. -/
def playing : SongVars := ⟨1, 0, 0, 0⟩

theorem track_playing : track playing.whichSong = some .song := rfl

namespace Task1

/-- After some turns of a song that is not yet over. -/
theorem foldl_playing {sizeSong : BitVec 32} {n : ℕ} (hn : 1000 * n ≤ sizeSong.toNat) :
    (List.replicate n playing).foldl (body sizeSong) init =
      ⟨BitVec.ofNat 32 (1000 * n),
        (List.range n).map fun j => ⟨.song, 1000 * j % sizeSong.toNat⟩⟩ := by
  have hsize := sizeSong.isLt
  induction n with
  | zero => rfl
  | succ n ih =>
    rw [List.replicate_succ', List.foldl_append, ih (by omega), List.foldl_cons, List.foldl_nil,
      body_play rfl track_playing]
    have htoNat : (BitVec.ofNat 32 (1000 * n)).toNat = 1000 * n := by
      rw [BitVec.toNat_ofNat]
      exact Nat.mod_eq_of_lt (by omega)
    have hlt : BitVec.ofNat 32 (1000 * n) < sizeSong := by
      rw [BitVec.lt_def, htoNat]
      omega
    have hnext : BitVec.ofNat 32 (1000 * (n + 1)) =
        BitVec.ofNat 32 (1000 * n) + numeroDeMuestras := by
      rw [Nat.mul_succ, BitVec.ofNat_add]
      rfl
    rw [if_pos hlt, hnext, List.range_succ, List.map_append, BitVec.toNat_umod, htoNat]
    rfl

end Task1

theorem of_mem_replicate_playing {n : ℕ} {v : SongVars} (hv : v ∈ List.replicate n playing) :
    v.stopSong = 0 ∧ v.whichSong = 0 := by
  rw [List.eq_of_mem_replicate hv]
  exact ⟨rfl, rfl⟩

/-- A run that reads beyond the song. -/
theorem not_gapless_of_read {sizeSong : BitVec 32} {n i : ℕ} {b : Block}
    (hb : b ∈ ((List.replicate n playing).foldl (Task1.body sizeSong) Task1.init).blocks)
    (hi : i < 1000) (hread : sizeSong.toNat ≤ b.offset + i % sizeSong.toNat) :
    ¬ Gapless sizeSong := by
  intro h
  have hlt := (h (fun _ => 0) 0 _ (by decide) fun _ => of_mem_replicate_playing).2 b hb
    (b.offset + i % sizeSong.toNat) (List.mem_map_of_mem (List.mem_range.mpr hi))
  omega

/-- A song shorter than a block that does not divide it: the second block begins inside the song,
and its pointer is moved beyond the end. -/
theorem not_gapless_of_lt {sizeSong : BitVec 32} (hsize : sizeSong ≠ 0)
    (hlt : sizeSong.toNat < 1000) (hdvd : ¬ sizeSong.toNat ∣ 1000) : ¬ Gapless sizeSong := by
  have hpos := toNat_pos hsize
  have hsecond : ⟨.song, (1000 % sizeSong).toNat⟩ ∈
      ((List.replicate 2 playing).foldl (Task1.body sizeSong) Task1.init).blocks := by
    show _ ∈ ((Task1.init.body sizeSong playing).body sizeSong playing).blocks
    rw [Task1.body_play rfl track_playing, Task1.body_play rfl track_playing]
    simp [Task1.init, numeroDeMuestras, BitVec.lt_def, hpos]
  refine not_gapless_of_read hsecond (i := sizeSong.toNat - 1) (by omega) ?_
  have hoffset : 0 < (1000 % sizeSong).toNat := by
    rw [BitVec.toNat_umod]
    exact Nat.pos_of_ne_zero fun h => hdvd (Nat.dvd_of_mod_eq_zero h)
  rw [Nat.mod_eq_of_lt (by omega)]
  show sizeSong.toNat ≤ (1000 % sizeSong).toNat + (sizeSong.toNat - 1)
  omega

/-- A longer song that is no whole number of blocks: the last block is read to its end. -/
theorem not_gapless_of_ge {sizeSong : BitVec 32} (hge : 1000 ≤ sizeSong.toNat)
    (hdvd : ¬ 1000 ∣ sizeSong.toNat) : ¬ Gapless sizeSong := by
  have hsize := sizeSong.isLt
  have hlast : 1000 * (sizeSong.toNat / 1000) < sizeSong.toNat := by omega
  have hmem : ⟨.song, 1000 * (sizeSong.toNat / 1000)⟩ ∈
      ((List.replicate (sizeSong.toNat / 1000 + 1) playing).foldl (Task1.body sizeSong)
        Task1.init).blocks := by
    rw [List.replicate_succ', List.foldl_append, Task1.foldl_playing hlast.le, List.foldl_cons,
      List.foldl_nil, Task1.body_play rfl track_playing, List.mem_append, List.mem_singleton]
    right
    have hword : 1000 * (sizeSong.toNat / 1000) % 2 ^ 32 = 1000 * (sizeSong.toNat / 1000) :=
      Nat.mod_eq_of_lt (by omega)
    rw [BitVec.toNat_umod, BitVec.toNat_ofNat, hword, Nat.mod_eq_of_lt hlast]
  refine not_gapless_of_read hmem (i := 999) (by omega) ?_
  rw [Nat.mod_eq_of_lt (by omega)]
  show sizeSong.toNat ≤ 1000 * (sizeSong.toNat / 1000) + 999
  omega

/-- A song of several blocks: its first block is sent once more before the position is reset, and
again after. -/
theorem not_gapless_of_dvd {sizeSong : BitVec 32} {q : ℕ} (hq : 2 ≤ q)
    (hsize : sizeSong.toNat = 1000 * q) : ¬ Gapless sizeSong := by
  intro h
  have hcounter : BitVec.ofNat 32 (1000 * q) = sizeSong := by
    rw [← hsize, BitVec.ofNat_toNat, BitVec.setWidth_eq]
  have hrun : ∃ c bs, bs.length = q + 1 ∧
      (List.replicate (q + 2) playing).foldl (Task1.body sizeSong) Task1.init =
        ⟨c, bs ++ [⟨.song, 0⟩]⟩ := by
    rw [List.replicate_succ', List.replicate_succ', List.foldl_append, List.foldl_append,
      Task1.foldl_playing hsize.ge, hcounter]
    simp only [List.foldl_cons, List.foldl_nil]
    rw [Task1.body_play rfl track_playing, Task1.body_play rfl track_playing]
    simp only [if_neg (BitVec.lt_irrefl sizeSong)]
    exact ⟨_, _, by simp, rfl⟩
  obtain ⟨c, bs, hbs, hrun⟩ := hrun
  have hlength : (Task1.pushed sizeSong (fun i => if i = 0 then 0 else 1) ⟨c, bs⟩).length =
      1000 * (q + 1) := by
    rw [Task1.length_pushed, ← hbs]
  -- Sample `1000 * (q + 1)` should be number 1000 of the song and is its first.
  have hgap := (h (fun i => if i = 0 then 0 else 1) 0 (List.replicate (q + 2) playing) (by decide)
    fun _ => of_mem_replicate_playing).1 (1000 * (q + 1)) 0
  rw [hrun, Task1.pushed_append (t := ⟨c, bs⟩), List.getElem?_append_right hlength.le, hlength,
    Nat.sub_self, getElem?_sendAudioFifo _ _ (by omega), hsize, Nat.mul_succ,
    Nat.add_mod_left, Nat.mod_eq_of_lt (show 1000 < 1000 * q by omega)] at hgap
  simp at hgap

/-- **When a song is played in a loop without a gap.** Exactly if its size divides that of a block:
`send_audio_fifo` goes round from where its pointer is, not from the beginning of the song, and a
song of several blocks has its first block sent again before the position is reset. -/
theorem playback_gapless_iff (sizeSong : BitVec 32) (hsize : sizeSong ≠ 0) :
    Gapless sizeSong ↔ sizeSong.toNat ∣ 1000 := by
  constructor
  · intro h
    by_contra hdvd
    by_cases hlt : sizeSong.toNat < 1000
    · exact not_gapless_of_lt hsize hlt hdvd h
    by_cases hblocks : 1000 ∣ sizeSong.toNat
    · obtain ⟨q, hq⟩ := hblocks
      have hq2 : 2 ≤ q := by
        by_contra hq1
        have h1 : sizeSong.toNat = 1000 := by omega
        exact hdvd (h1 ▸ Nat.dvd_refl 1000)
      exact not_gapless_of_dvd hq2 hq h
    · exact not_gapless_of_ge (by omega) hblocks h
  · exact gapless_of_dvd hsize

theorem playback_gapless_half_block : Gapless 500 :=
  (playback_gapless_iff 500 (by decide)).mpr (by decide)

/-- Of a song of 1500 samples the second block is read to index 1999. -/
theorem playback_not_gapless : ¬ ∀ sizeSong : BitVec 32, sizeSong ≠ 0 → Gapless sizeSong := by
  intro h
  have hgapless : Gapless 1500 := h 1500 (by decide)
  exact not_gapless_of_ge (by decide) (by decide) hgapless

end DigitalModulation
