import Mathlib.Tactic.Common

/-!
# `drivers.c`: the pointer and its click

`mouse_pos` reads the pointer position and takes the space bar for the mouse button.

* `mousePos`: the function with its two static variables;
* `mousePos_down_iff`: it reports a down event iff bit 4 of the keyboard word is set.
-/

namespace DigitalModulation

/-- The static variables of `mouse_pos`. -/
structure MouseStatics where
  space : BitVec 8
  spaceLast : BitVec 8

/-- What `mouse_pos` leaves and returns: 1 is "down event", 2 "down up", 0 "not pressing". -/
structure MouseRead where
  statics : MouseStatics
  x : BitVec 32
  y : BitVec 32
  event : BitVec 8

/-- `mouse_pos`, with the words it reads at `MOUSE_POS_BASE` and `KEYBOARD_KEYS_BASE`. -/
def mousePos (m : MouseStatics) (pos readKeyboard : BitVec 32) : MouseRead :=
  let x := (pos >>> 10) &&& 0x3ff
  let y := pos &&& 0x3ff
  let spaceKey := (readKeyboard >>> 4) &&& 1
  let spaceLast := m.space
  let space := if spaceLast.signExtend 32 ≠ spaceKey then spaceKey.setWidth 8 else m.space
  let event :=
    if spaceLast = 0 ∧ space = 1 ∨ spaceKey = 1 then 1
    else if spaceLast = 1 ∧ space = 0 then 2
    else 0
  ⟨⟨space, spaceLast⟩, x, y, event⟩

/-- The key bit as `mouse_pos` takes it out of the word. -/
theorem spaceKey_eq (readKeyboard : BitVec 32) :
    (readKeyboard >>> 4) &&& 1 = if readKeyboard.getLsbD 4 then 1 else 0 := by
  have h := BitVec.and_one_eq_setWidth_ofBool_getLsbD (x := readKeyboard >>> 4)
  rw [BitVec.getLsbD_ushiftRight] at h
  refine h.trans ?_
  cases readKeyboard.getLsbD (4 + 0) <;> rfl

theorem mousePos_down_iff (m : MouseStatics) (pos readKeyboard : BitVec 32) :
    (mousePos m pos readKeyboard).event = 1 ↔ readKeyboard.getLsbD 4 = true := by
  simp only [mousePos, spaceKey_eq]
  cases readKeyboard.getLsbD 4 with
  | true => simp
  | false =>
    by_cases h0 : m.space = 0#8
    · simp [h0]
    · by_cases h1 : m.space = 1#8 <;> simp [h0, h1]

end DigitalModulation
