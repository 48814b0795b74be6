import DigitalModulation.Keyboard.ScanEvents
import DigitalModulation.Lib.PrefixCode
import Mathlib.Data.List.Nodup

/-!
# `ScanCodeToEvent.v`: scan codes and their events

The decoder matches the eight bytes received so far against patterns of a few leading bytes.

* `scanCodes`: the patterns, without their `x` digits, in the order of the source;
* `scanCodeToEvent`: the `casex` over them;
* `scanCode`: the patterns are a prefix code without a zero byte.
-/

namespace DigitalModulation

/-- The branches under `MAKE CODES`. -/
def makeCodes : List (List (BitVec 8) × BitVec 8) := [
  ([0x76], scMakeEsc), ([0x05], scMakeF1), ([0x06], scMakeF2), ([0x04], scMakeF3),
  ([0x0C], scMakeF4), ([0x03], scMakeF5), ([0x0B], scMakeF6), ([0x83], scMakeF7),
  ([0x0A], scMakeF8), ([0x01], scMakeF9), ([0x09], scMakeF10), ([0x78], scMakeF11),
  ([0x07], scMakeF12), ([0xE0, 0x12, 0xE0, 0x7C], scMakePrtScr), ([0x7E], scMakeScrLock),
  ([0xE1, 0x14, 0x77, 0xE1, 0xF0, 0x14, 0xE0, 0x77], scMakePause), ([0x0E], scMakeTilde),
  ([0x16], scMake1), ([0x1E], scMake2), ([0x26], scMake3), ([0x25], scMake4),
  ([0x2E], scMake5), ([0x36], scMake6), ([0x3D], scMake7), ([0x3E], scMake8),
  ([0x46], scMake9), ([0x45], scMake0), ([0x4E], scMakeMinus), ([0x55], scMakeEquals),
  ([0x66], scMakeBackspace), ([0x0D], scMakeTab), ([0x15], scMakeQ), ([0x1D], scMakeW),
  ([0x24], scMakeE), ([0x2D], scMakeR), ([0x2C], scMakeT), ([0x35], scMakeY),
  ([0x3C], scMakeU), ([0x43], scMakeI), ([0x44], scMakeO), ([0x4D], scMakeP),
  ([0x54], scMakeLfBracket), ([0x5B], scMakeRtBracket), ([0x5D], scMakeBackslash),
  ([0x58], scMakeCapsLock), ([0x1C], scMakeA), ([0x1B], scMakeS), ([0x23], scMakeD),
  ([0x2B], scMakeF), ([0x34], scMakeG), ([0x33], scMakeH), ([0x3B], scMakeJ),
  ([0x42], scMakeK), ([0x4B], scMakeL), ([0x4C], scMakeSemicolon), ([0x52], scMakeApostrophe),
  ([0x5A], scMakeEnter), ([0x12], scMakeLfShift), ([0x1A], scMakeZ), ([0x22], scMakeX),
  ([0x21], scMakeC), ([0x2A], scMakeV), ([0x32], scMakeB), ([0x31], scMakeN),
  ([0x3A], scMakeM), ([0x41], scMakeComma), ([0x49], scMakePeriod),
  ([0x4A], scMakeFrontslash), ([0x59], scMakeRtShift), ([0x14], scMakeLfCtrl),
  ([0xE0, 0x1F], scMakeLfWindows), ([0x11], scMakeLfAlt), ([0x29], scMakeSpace),
  ([0xE0, 0x11], scMakeRtAlt), ([0xE0, 0x27], scMakeRtWindows), ([0xE0, 0x2F], scMakeMenus),
  ([0xE0, 0x14], scMakeRtCtrl), ([0xE0, 0x70], scMakeInsert), ([0xE0, 0x6C], scMakeHome),
  ([0xE0, 0x7D], scMakePageUp), ([0xE0, 0x71], scMakeDel), ([0xE0, 0x69], scMakeEnd),
  ([0xE0, 0x7A], scMakePageDown), ([0xE0, 0x75], scMakeUpArrow),
  ([0xE0, 0x6B], scMakeLeftArrow), ([0xE0, 0x72], scMakeDownArrow),
  ([0xE0, 0x74], scMakeRightArrow), ([0x77], scMakeNumLock),
  ([0xE0, 0x4A], scMakeNumpadFrontslash), ([0x7C], scMakeNumpadAsterisk),
  ([0x7B], scMakeNumpadMinus), ([0x6C], scMakeNumpad7), ([0x75], scMakeNumpad8),
  ([0x7D], scMakeNumpad9), ([0x79], scMakeNumpadPlus), ([0x6B], scMakeNumpad4),
  ([0x73], scMakeNumpad5), ([0x74], scMakeNumpad6), ([0x69], scMakeNumpad1),
  ([0x72], scMakeNumpad2), ([0x7A], scMakeNumpad3), ([0x70], scMakeNumpad0),
  ([0x71], scMakeNumpadPeriod), ([0xE0, 0x5A], scMakeNumpadEnter)]

/-- The branches under `BREAK CODES`. -/
def breakCodes : List (List (BitVec 8) × BitVec 8) := [
  ([0xF0, 0x76], scBreakEsc), ([0xF0, 0x05], scBreakF1), ([0xF0, 0x06], scBreakF2),
  ([0xF0, 0x04], scBreakF3), ([0xF0, 0x0C], scBreakF4), ([0xF0, 0x03], scBreakF5),
  ([0xF0, 0x0B], scBreakF6), ([0xF0, 0x83], scBreakF7), ([0xF0, 0x0A], scBreakF8),
  ([0xF0, 0x01], scBreakF9), ([0xF0, 0x09], scBreakF10), ([0xF0, 0x78], scBreakF11),
  ([0xF0, 0x07], scBreakF12), ([0xE0, 0xF0, 0x7C, 0xE0, 0xF0, 0x12], scBreakPrtScr),
  ([0xF0, 0x7E], scBreakScrLock), ([0xF0, 0x0E], scBreakTilde), ([0xF0, 0x16], scBreak1),
  ([0xF0, 0x1E], scBreak2), ([0xF0, 0x26], scBreak3), ([0xF0, 0x25], scBreak4),
  ([0xF0, 0x2E], scBreak5), ([0xF0, 0x36], scBreak6), ([0xF0, 0x3D], scBreak7),
  ([0xF0, 0x3E], scBreak8), ([0xF0, 0x46], scBreak9), ([0xF0, 0x45], scBreak0),
  ([0xF0, 0x4E], scBreakMinus), ([0xF0, 0x55], scBreakEquals),
  ([0xF0, 0x66], scBreakBackspace), ([0xF0, 0x0D], scBreakTab), ([0xF0, 0x15], scBreakQ),
  ([0xF0, 0x1D], scBreakW), ([0xF0, 0x24], scBreakE), ([0xF0, 0x2D], scBreakR),
  ([0xF0, 0x2C], scBreakT), ([0xF0, 0x35], scBreakY), ([0xF0, 0x3C], scBreakU),
  ([0xF0, 0x43], scBreakI), ([0xF0, 0x44], scBreakO), ([0xF0, 0x4D], scBreakP),
  ([0xF0, 0x54], scBreakLfBracket), ([0xF0, 0x5B], scBreakRtBracket),
  ([0xF0, 0x5D], scBreakBackslash), ([0xF0, 0x58], scBreakCapsLock), ([0xF0, 0x1C], scBreakA),
  ([0xF0, 0x1B], scBreakS), ([0xF0, 0x23], scBreakD), ([0xF0, 0x2B], scBreakF),
  ([0xF0, 0x34], scBreakG), ([0xF0, 0x33], scBreakH), ([0xF0, 0x3B], scBreakJ),
  ([0xF0, 0x42], scBreakK), ([0xF0, 0x4B], scBreakL), ([0xF0, 0x4C], scBreakSemicolon),
  ([0xF0, 0x52], scBreakApostrophe), ([0xF0, 0x5A], scBreakEnter),
  ([0xF0, 0x12], scBreakLfShift), ([0xF0, 0x1A], scBreakZ), ([0xF0, 0x22], scBreakX),
  ([0xF0, 0x21], scBreakC), ([0xF0, 0x2A], scBreakV), ([0xF0, 0x32], scBreakB),
  ([0xF0, 0x31], scBreakN), ([0xF0, 0x3A], scBreakM), ([0xF0, 0x41], scBreakComma),
  ([0xF0, 0x49], scBreakPeriod), ([0xF0, 0x4A], scBreakFrontslash),
  ([0xF0, 0x59], scBreakRtShift), ([0xF0, 0x14], scBreakLfCtrl),
  ([0xE0, 0xF0, 0x1F], scBreakLfWindows), ([0xF0, 0x11], scBreakLfAlt),
  ([0xF0, 0x29], scBreakSpace), ([0xE0, 0xF0, 0x11], scBreakRtAlt),
  ([0xE0, 0xF0, 0x27], scBreakRtWindows), ([0xE0, 0xF0, 0x2F], scBreakMenus),
  ([0xE0, 0xF0, 0x14], scBreakRtCtrl), ([0xE0, 0xF0, 0x70], scBreakInsert),
  ([0xE0, 0xF0, 0x6C], scBreakHome), ([0xE0, 0xF0, 0x7D], scBreakPageUp),
  ([0xE0, 0xF0, 0x71], scBreakDel), ([0xE0, 0xF0, 0x69], scBreakEnd),
  ([0xE0, 0xF0, 0x7A], scBreakPageDown), ([0xE0, 0xF0, 0x75], scBreakUpArrow),
  ([0xE0, 0xF0, 0x6B], scBreakLeftArrow), ([0xE0, 0xF0, 0x72], scBreakDownArrow),
  ([0xE0, 0xF0, 0x74], scBreakRightArrow), ([0xF0, 0x77], scBreakNumLock),
  ([0xE0, 0xF0, 0x4A], scBreakNumpadFrontslash), ([0xF0, 0x7C], scBreakNumpadAsterisk),
  ([0xF0, 0x7B], scBreakNumpadMinus), ([0xF0, 0x6C], scBreakNumpad7),
  ([0xF0, 0x75], scBreakNumpad8), ([0xF0, 0x7D], scBreakNumpad9),
  ([0xF0, 0x79], scBreakNumpadPlus), ([0xF0, 0x6B], scBreakNumpad4),
  ([0xF0, 0x73], scBreakNumpad5), ([0xF0, 0x74], scBreakNumpad6),
  ([0xF0, 0x69], scBreakNumpad1), ([0xF0, 0x72], scBreakNumpad2),
  ([0xF0, 0x7A], scBreakNumpad3), ([0xF0, 0x70], scBreakNumpad0),
  ([0xF0, 0x71], scBreakNumpadPeriod), ([0xE0, 0xF0, 0x5A], scBreakNumpadEnter)]

def scanCodes : List (List (BitVec 8) × BitVec 8) := makeCodes ++ breakCodes

/-- `oEventReady` and `oEventType`: the first pattern that matches, or "need more". -/
def scanCodeToEvent (iScanCode : Vector (BitVec 8) 8) : Bool × BitVec 8 :=
  match PrefixCode.lookup scanCodes iScanCode.toList with
  | some oEventType => (true, oEventType)
  | none => (false, scNone)

/-! ### The table as a prefix code -/

/-- A row of the table in numbers. -/
def codeNumbers (c : List (BitVec 8) × BitVec 8) : List ℕ × ℕ := (c.1.map BitVec.toNat, c.2.toNat)

theorem codeNumbers_injective : Function.Injective codeNumbers := by
  rintro ⟨w, e⟩ ⟨w', e'⟩ h
  obtain ⟨hw, he⟩ := Prod.mk.inj h
  have htoNat : Function.Injective (@BitVec.toNat 8) := fun _ _ => BitVec.eq_of_toNat_eq
  exact Prod.ext (htoNat.list_map hw) (htoNat he)

/-- No pattern matches all that another one matches. -/
theorem scanCodes_prefixFree_checked :
    (scanCodes.map codeNumbers).all (fun c => (scanCodes.map codeNumbers).all fun d =>
      !c.1.isPrefixOf d.1 || c == d) = true := by
  decide +kernel

/-- Every pattern has one to eight bytes, none of them zero. -/
theorem scanCodes_bytes_checked :
    (scanCodes.map codeNumbers).all (fun c => !c.1.isEmpty && !c.1.elem 0 && c.1.length ≤ 8) =
      true := by
  decide +kernel

/-- No event stands in two rows. -/
theorem scanCodes_events_checked : ((scanCodes.map codeNumbers).map Prod.snd).Nodup := by
  decide +kernel

/-- Different codes have different events. -/
theorem scanCodes_events_inj {c d : List (BitVec 8) × BitVec 8} (hc : c ∈ scanCodes)
    (hd : d ∈ scanCodes) (h : c.2 = d.2) : c = d := by
  have hinj := List.inj_on_of_nodup_map scanCodes_events_checked
  exact codeNumbers_injective (hinj (List.mem_map_of_mem hc) (List.mem_map_of_mem hd)
    (congrArg BitVec.toNat h))

theorem scanCodes_prefixFree :
    ∀ c ∈ scanCodes, ∀ d ∈ scanCodes, c.1 <+: d.1 → c = d := by
  intro c hc d hd hcd
  have h := List.all_eq_true.mp (List.all_eq_true.mp scanCodes_prefixFree_checked _
    (List.mem_map_of_mem hc)) _ (List.mem_map_of_mem hd)
  have hpre : (codeNumbers c).1.isPrefixOf (codeNumbers d).1 = true :=
    List.isPrefixOf_iff_prefix.mpr (hcd.map _)
  rw [hpre, Bool.not_true, Bool.false_or, beq_iff_eq] at h
  exact codeNumbers_injective h

theorem scanCodes_bytes {c : List (BitVec 8) × BitVec 8} (hc : c ∈ scanCodes) :
    c.1 ≠ [] ∧ 0 ∉ c.1 ∧ c.1.length ≤ 8 := by
  have h := List.all_eq_true.mp scanCodes_bytes_checked _ (List.mem_map_of_mem hc)
  simp only [codeNumbers, Bool.and_eq_true, Bool.not_eq_true', decide_eq_true_eq,
    List.length_map] at h
  obtain ⟨⟨hne, hzero⟩, hlen⟩ := h
  refine ⟨fun hnil => by simp [hnil] at hne, fun hmem => ?_, hlen⟩
  have hmem : 0 ∈ c.1.map BitVec.toNat := List.mem_map_of_mem (f := BitVec.toNat) hmem
  rw [List.elem_iff.mpr hmem] at hzero
  cases hzero

/-- The scan codes with the zero byte as blank. -/
def scanCode : PrefixCode.Code (BitVec 8) (BitVec 8) 0 8 where
  table := scanCodes
  prefixFree := scanCodes_prefixFree
  ne_nil := fun _ hc => (scanCodes_bytes hc).1
  blank_notMem := fun _ hc => (scanCodes_bytes hc).2.1
  length_le := fun _ hc => (scanCodes_bytes hc).2.2

theorem scanCodeToEvent_of_some {iScanCode : Vector (BitVec 8) 8} {e : BitVec 8}
    (h : PrefixCode.lookup scanCodes iScanCode.toList = some e) :
    scanCodeToEvent iScanCode = (true, e) := by
  simp [scanCodeToEvent, h]

theorem scanCodeToEvent_of_none {iScanCode : Vector (BitVec 8) 8}
    (h : PrefixCode.lookup scanCodes iScanCode.toList = none) :
    scanCodeToEvent iScanCode = (false, scNone) := by
  simp [scanCodeToEvent, h]

end DigitalModulation
