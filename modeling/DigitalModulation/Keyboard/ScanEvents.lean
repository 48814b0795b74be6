/-!
# `scan_events.h`: the events a key can cause

One byte for each key pressed (`scMake…`) and released (`scBreak…`).
-/

namespace DigitalModulation

def scNone : BitVec 8 := 0x00

/-! ### Keys pressed -/

def scMakePause : BitVec 8 := 0x80
def scMakeEsc : BitVec 8 := 0x81
def scMakeF1 : BitVec 8 := 0x82
def scMakeF2 : BitVec 8 := 0x83
def scMakeF3 : BitVec 8 := 0x84
def scMakeF4 : BitVec 8 := 0x85
def scMakeF5 : BitVec 8 := 0x86
def scMakeF6 : BitVec 8 := 0x87
def scMakeF7 : BitVec 8 := 0x88
def scMakeF8 : BitVec 8 := 0x89
def scMakeF9 : BitVec 8 := 0x8A
def scMakeF10 : BitVec 8 := 0x8B
def scMakeF11 : BitVec 8 := 0x8C
def scMakeF12 : BitVec 8 := 0x8D
def scMakePrtScr : BitVec 8 := 0x8E
def scMakeScrLock : BitVec 8 := 0x8F
def scMakeTilde : BitVec 8 := 0x90
def scMake1 : BitVec 8 := 0x91
def scMake2 : BitVec 8 := 0x92
def scMake3 : BitVec 8 := 0x93
def scMake4 : BitVec 8 := 0x94
def scMake5 : BitVec 8 := 0x95
def scMake6 : BitVec 8 := 0x96
def scMake7 : BitVec 8 := 0x97
def scMake8 : BitVec 8 := 0x98
def scMake9 : BitVec 8 := 0x99
def scMake0 : BitVec 8 := 0x9A
def scMakeMinus : BitVec 8 := 0x9B
def scMakeEquals : BitVec 8 := 0x9C
def scMakeBackspace : BitVec 8 := 0x9D
def scMakeTab : BitVec 8 := 0x9E
def scMakeQ : BitVec 8 := 0x9F
def scMakeW : BitVec 8 := 0xA0
def scMakeE : BitVec 8 := 0xA1
def scMakeR : BitVec 8 := 0xA2
def scMakeT : BitVec 8 := 0xA3
def scMakeY : BitVec 8 := 0xA4
def scMakeU : BitVec 8 := 0xA5
def scMakeI : BitVec 8 := 0xA6
def scMakeO : BitVec 8 := 0xA7
def scMakeP : BitVec 8 := 0xA8
def scMakeLfBracket : BitVec 8 := 0xA9
def scMakeRtBracket : BitVec 8 := 0xAA
def scMakeBackslash : BitVec 8 := 0xAB
def scMakeCapsLock : BitVec 8 := 0xAC
def scMakeA : BitVec 8 := 0xAD
def scMakeS : BitVec 8 := 0xAE
def scMakeD : BitVec 8 := 0xAF
def scMakeF : BitVec 8 := 0xB0
def scMakeG : BitVec 8 := 0xB1
def scMakeH : BitVec 8 := 0xB2
def scMakeJ : BitVec 8 := 0xB3
def scMakeK : BitVec 8 := 0xB4
def scMakeL : BitVec 8 := 0xB5
def scMakeSemicolon : BitVec 8 := 0xB6
def scMakeApostrophe : BitVec 8 := 0xB7
def scMakeEnter : BitVec 8 := 0xB8
def scMakeLfShift : BitVec 8 := 0xB9
def scMakeZ : BitVec 8 := 0xBA
def scMakeX : BitVec 8 := 0xBB
def scMakeC : BitVec 8 := 0xBC
def scMakeV : BitVec 8 := 0xBD
def scMakeB : BitVec 8 := 0xBE
def scMakeN : BitVec 8 := 0xBF
def scMakeM : BitVec 8 := 0xC0
def scMakeComma : BitVec 8 := 0xC1
def scMakePeriod : BitVec 8 := 0xC2
def scMakeFrontslash : BitVec 8 := 0xC3
def scMakeRtShift : BitVec 8 := 0xC4
def scMakeLfCtrl : BitVec 8 := 0xC5
def scMakeLfWindows : BitVec 8 := 0xC6
def scMakeLfAlt : BitVec 8 := 0xC7
def scMakeSpace : BitVec 8 := 0xC8
def scMakeRtAlt : BitVec 8 := 0xC9
def scMakeRtWindows : BitVec 8 := 0xCA
def scMakeMenus : BitVec 8 := 0xCB
def scMakeRtCtrl : BitVec 8 := 0xCC
def scMakeInsert : BitVec 8 := 0xCD
def scMakeHome : BitVec 8 := 0xCE
def scMakePageUp : BitVec 8 := 0xCF
def scMakeDel : BitVec 8 := 0xD0
def scMakeEnd : BitVec 8 := 0xD1
def scMakePageDown : BitVec 8 := 0xD2
def scMakeUpArrow : BitVec 8 := 0xD3
def scMakeLeftArrow : BitVec 8 := 0xD4
def scMakeDownArrow : BitVec 8 := 0xD5
def scMakeRightArrow : BitVec 8 := 0xD6
def scMakeNumLock : BitVec 8 := 0xD7
def scMakeNumpadFrontslash : BitVec 8 := 0xD8
def scMakeNumpadAsterisk : BitVec 8 := 0xD9
def scMakeNumpadMinus : BitVec 8 := 0xDA
def scMakeNumpad7 : BitVec 8 := 0xDB
def scMakeNumpad8 : BitVec 8 := 0xDC
def scMakeNumpad9 : BitVec 8 := 0xDD
def scMakeNumpadPlus : BitVec 8 := 0xDE
def scMakeNumpad4 : BitVec 8 := 0xDF
def scMakeNumpad5 : BitVec 8 := 0xE0
def scMakeNumpad6 : BitVec 8 := 0xE1
def scMakeNumpad1 : BitVec 8 := 0xE2
def scMakeNumpad2 : BitVec 8 := 0xE3
def scMakeNumpad3 : BitVec 8 := 0xE4
def scMakeNumpad0 : BitVec 8 := 0xE5
def scMakeNumpadPeriod : BitVec 8 := 0xE6
def scMakeNumpadEnter : BitVec 8 := 0xE7

/-! ### Keys released -/

def scBreakEsc : BitVec 8 := 0x01
def scBreakF1 : BitVec 8 := 0x02
def scBreakF2 : BitVec 8 := 0x03
def scBreakF3 : BitVec 8 := 0x04
def scBreakF4 : BitVec 8 := 0x05
def scBreakF5 : BitVec 8 := 0x06
def scBreakF6 : BitVec 8 := 0x07
def scBreakF7 : BitVec 8 := 0x08
def scBreakF8 : BitVec 8 := 0x09
def scBreakF9 : BitVec 8 := 0x0A
def scBreakF10 : BitVec 8 := 0x0B
def scBreakF11 : BitVec 8 := 0x0C
def scBreakF12 : BitVec 8 := 0x0D
def scBreakPrtScr : BitVec 8 := 0x0E
def scBreakScrLock : BitVec 8 := 0x0F
def scBreakTilde : BitVec 8 := 0x10
def scBreak1 : BitVec 8 := 0x11
def scBreak2 : BitVec 8 := 0x12
def scBreak3 : BitVec 8 := 0x13
def scBreak4 : BitVec 8 := 0x14
def scBreak5 : BitVec 8 := 0x15
def scBreak6 : BitVec 8 := 0x16
def scBreak7 : BitVec 8 := 0x17
def scBreak8 : BitVec 8 := 0x18
def scBreak9 : BitVec 8 := 0x19
def scBreak0 : BitVec 8 := 0x1A
def scBreakMinus : BitVec 8 := 0x1B
def scBreakEquals : BitVec 8 := 0x1C
def scBreakBackspace : BitVec 8 := 0x1D
def scBreakTab : BitVec 8 := 0x1E
def scBreakQ : BitVec 8 := 0x1F
def scBreakW : BitVec 8 := 0x20
def scBreakE : BitVec 8 := 0x21
def scBreakR : BitVec 8 := 0x22
def scBreakT : BitVec 8 := 0x23
def scBreakY : BitVec 8 := 0x24
def scBreakU : BitVec 8 := 0x25
def scBreakI : BitVec 8 := 0x26
def scBreakO : BitVec 8 := 0x27
def scBreakP : BitVec 8 := 0x28
def scBreakLfBracket : BitVec 8 := 0x29
def scBreakRtBracket : BitVec 8 := 0x2A
def scBreakBackslash : BitVec 8 := 0x2B
def scBreakCapsLock : BitVec 8 := 0x2C
def scBreakA : BitVec 8 := 0x2D
def scBreakS : BitVec 8 := 0x2E
def scBreakD : BitVec 8 := 0x2F
def scBreakF : BitVec 8 := 0x30
def scBreakG : BitVec 8 := 0x31
def scBreakH : BitVec 8 := 0x32
def scBreakJ : BitVec 8 := 0x33
def scBreakK : BitVec 8 := 0x34
def scBreakL : BitVec 8 := 0x35
def scBreakSemicolon : BitVec 8 := 0x36
def scBreakApostrophe : BitVec 8 := 0x37
def scBreakEnter : BitVec 8 := 0x38
def scBreakLfShift : BitVec 8 := 0x39
def scBreakZ : BitVec 8 := 0x3A
def scBreakX : BitVec 8 := 0x3B
def scBreakC : BitVec 8 := 0x3C
def scBreakV : BitVec 8 := 0x3D
def scBreakB : BitVec 8 := 0x3E
def scBreakN : BitVec 8 := 0x3F
def scBreakM : BitVec 8 := 0x40
def scBreakComma : BitVec 8 := 0x41
def scBreakPeriod : BitVec 8 := 0x42
def scBreakFrontslash : BitVec 8 := 0x43
def scBreakRtShift : BitVec 8 := 0x44
def scBreakLfCtrl : BitVec 8 := 0x45
def scBreakLfWindows : BitVec 8 := 0x46
def scBreakLfAlt : BitVec 8 := 0x47
def scBreakSpace : BitVec 8 := 0x48
def scBreakRtAlt : BitVec 8 := 0x49
def scBreakRtWindows : BitVec 8 := 0x4A
def scBreakMenus : BitVec 8 := 0x4B
def scBreakRtCtrl : BitVec 8 := 0x4C
def scBreakInsert : BitVec 8 := 0x4D
def scBreakHome : BitVec 8 := 0x4E
def scBreakPageUp : BitVec 8 := 0x4F
def scBreakDel : BitVec 8 := 0x50
def scBreakEnd : BitVec 8 := 0x51
def scBreakPageDown : BitVec 8 := 0x52
def scBreakUpArrow : BitVec 8 := 0x53
def scBreakLeftArrow : BitVec 8 := 0x54
def scBreakDownArrow : BitVec 8 := 0x55
def scBreakRightArrow : BitVec 8 := 0x56
def scBreakNumLock : BitVec 8 := 0x57
def scBreakNumpadFrontslash : BitVec 8 := 0x58
def scBreakNumpadAsterisk : BitVec 8 := 0x59
def scBreakNumpadMinus : BitVec 8 := 0x5A
def scBreakNumpad7 : BitVec 8 := 0x5B
def scBreakNumpad8 : BitVec 8 := 0x5C
def scBreakNumpad9 : BitVec 8 := 0x5D
def scBreakNumpadPlus : BitVec 8 := 0x5E
def scBreakNumpad4 : BitVec 8 := 0x5F
def scBreakNumpad5 : BitVec 8 := 0x60
def scBreakNumpad6 : BitVec 8 := 0x61
def scBreakNumpad1 : BitVec 8 := 0x62
def scBreakNumpad2 : BitVec 8 := 0x63
def scBreakNumpad3 : BitVec 8 := 0x64
def scBreakNumpad0 : BitVec 8 := 0x65
def scBreakNumpadPeriod : BitVec 8 := 0x66
def scBreakNumpadEnter : BitVec 8 := 0x67

end DigitalModulation
