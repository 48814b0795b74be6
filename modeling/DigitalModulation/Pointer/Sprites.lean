import Mathlib.Data.BitVec
import Mathlib.Tactic.Common

/-!
# `FFXII_LB_Cursor.v`, `FFXII_LB_Cursor2.v`: the two sprites of the pointer

Each file is one `case` on the coordinates `{y, x}`. A row below holds columns 1 to 14 and 15 to 28
of one `y`: `0x333_655_…` stands for `{4'd3,4'd3,4'd3}`, `{4'd6,4'd5,4'd5}`, ….

* `ffxiiLbCursor`, `ffxiiLbCursor2`: the texel at `{y, x}`;
* `ffxiiLbCursor_transparent_iff`: the two sprites have one outline.
-/

namespace DigitalModulation

/-- The rows of `FFXII_LB_Cursor`, `y = 0` first. -/
def ffxiiLbCursorRows : List (ℕ × ℕ) :=
  [(0x333_655_665_776_f00_f00_f00_f00_f00_f00_f00_f00_f00_f00,
    0xf00_f00_f00_f00_f00_f00_f00_f00_f00_f00_f00_f00_f00_f00),
   (0x888_ccc_dcc_ddd_bba_887_f00_f00_f00_f00_f00_f00_f00_f00,
    0xf00_f00_f00_f00_f00_f00_f00_f00_f00_f00_f00_f00_f00_f00),
   (0xbbb_fff_fff_fff_fff_edd_a99_f00_f00_f00_f00_f00_f00_f00,
    0xf00_f00_f00_f00_f00_f00_f00_f00_f00_f00_f00_f00_f00_f00),
   (0xbbb_fff_fff_fff_fff_fff_fef_cbb_f00_f00_f00_f00_f00_f00,
    0xf00_f00_f00_f00_f00_f00_f00_f00_f00_f00_f00_f00_f00_f00),
   (0xaaa_dde_fff_fff_fff_fff_fff_fff_dcb_f00_f00_f00_f00_f00,
    0xf00_f00_f00_f00_f00_f00_f00_f00_f00_f00_f00_f00_f00_f00),
   (0x787_bbb_eee_fff_fff_fff_fff_fff_fff_dcc_f00_f00_f00_f00,
    0xf00_f00_f00_f00_f00_f00_f00_f00_f00_f00_f00_f00_f00_f00),
   (0x555_899_ccc_fff_fff_fff_fff_fff_fff_fef_dcd_aaa_f00_f00,
    0xf00_f00_f00_f00_433_433_332_f00_f00_f00_f00_f00_f00_f00),
   (0xf00_555_889_ccc_eee_fff_fff_fff_fff_fff_fff_fee_bbb_f00,
    0xf00_f00_f00_766_998_a99_777_443_f00_f00_f00_f00_f00_f00),
   (0xf00_f00_444_878_bab_eee_fff_fff_fff_fff_fff_fff_eee_cbb,
    0x988_777_766_988_dcc_fee_ccb_877_987_f00_f00_f00_f00_f00),
   (0xf00_f00_f00_434_767_bab_eee_fff_fff_fff_fff_fff_fff_fff,
    0xddd_cbb_aaa_baa_edd_fff_fee_ccb_987_876_f00_f00_f00_f00),
   (0xf00_f00_f00_f00_545_878_bbb_ddd_fff_fff_fff_fff_fff_fff,
    0xfff_fff_eee_ddd_edd_fff_fff_fff_cba_987_f00_f00_f00_f00),
   (0xf00_f00_f00_434_656_999_cbc_ddd_fff_fff_fff_fff_fff_fff,
    0xfff_fff_fff_eee_ede_eee_fff_fff_ffe_dcb_765_f00_f00_f00),
   (0xf00_f00_323_555_888_ccc_fef_fef_fff_fff_fff_fff_fff_fff,
    0xfff_fff_fff_fff_fff_fff_fff_fff_fff_ffe_aa9_f00_f00_f00),
   (0xf00_f00_666_999_ccc_eee_fff_fff_fff_fff_fff_fff_fff_fff,
    0xfff_fff_fff_fff_fff_fff_fff_fff_fff_fee_ba9_f00_f00_f00),
   (0xf00_555_888_ccc_eee_fff_fff_fff_fff_fff_fff_fff_fff_fff,
    0xfff_fff_fff_fff_fff_fff_fff_fff_fff_ffe_baa_f00_f00_f00),
   (0xf00_665_9a9_ded_fff_fff_fff_fff_fff_fff_fff_fff_fff_fff,
    0xfff_fff_fff_fff_fff_fff_fff_fff_fff_ffe_a99_f00_f00_f00),
   (0xf00_554_998_ded_eff_fff_fff_fff_fff_fff_fff_fff_fff_fff,
    0xfff_fff_fff_fff_fff_fff_fff_fff_fff_eee_998_f00_f00_f00),
   (0xf00_433_887_ddd_eff_fff_fff_fff_fff_fff_fff_fff_fff_fff,
    0xfff_fff_fff_fff_fff_fff_fff_fff_fff_eee_888_f00_f00_f00),
   (0xf00_554_998_ddd_eee_fff_fff_fff_fff_fff_fff_fff_fff_fff,
    0xfff_fff_fff_fff_fff_fff_fff_fff_fff_eee_888_f00_f00_f00),
   (0x653_987_bbb_edd_eee_fff_fff_fff_fff_fff_fff_fff_fff_fff,
    0xfff_fff_fff_fff_fff_fff_fff_fff_fff_ded_887_f00_f00_f00),
   (0x764_ba9_edd_fee_eee_fff_fff_fff_fff_fff_fff_fff_fff_fff,
    0xfff_fff_fff_fff_fff_fff_fff_fff_fff_ded_787_f00_f00_f00),
   (0x986_cba_fee_fff_fff_fff_fff_fff_fff_fff_fff_fff_fff_fff,
    0xfff_fff_fff_fff_fff_fff_fff_fff_fff_ccc_787_f00_f00_f00),
   (0xa98_dcb_ffe_fff_fff_fff_fff_fff_fff_fff_fff_fff_fff_fff,
    0xfff_fff_fff_fff_fff_fff_fff_fff_eee_ccc_999_777_555_f00),
   (0xba9_ddc_fff_fff_fff_fff_fff_fff_fff_fff_fff_fff_fff_fff,
    0xfff_fff_fff_fff_fff_fff_fff_eee_bcb_bbb_bbb_ccc_bbb_887),
   (0x998_bcb_eee_fff_fff_fff_fff_fff_fff_fff_fff_fff_fff_fff,
    0xfff_fff_fff_fff_fff_fff_fef_eee_eee_dee_eee_fff_eee_aa9),
   (0x666_888_bbb_dee_eff_fff_fff_fff_fff_fff_fff_fff_fff_fff,
    0xfff_fff_fff_fff_fef_fee_fef_eee_fff_fff_fff_fff_ccb_776),
   (0x333_555_788_bcc_cde_eef_eef_fef_fff_fff_fff_fff_fff_fff,
    0xfff_fff_fff_ede_ddd_ede_fef_fff_fff_fff_fff_bbb_776_333),
   (0xf00_233_455_788_9aa_ccd_ddd_dde_ede_eee_eef_fef_fef_fef,
    0xfef_eee_ddd_ccc_ccc_ede_fff_fff_fff_fff_bbb_777_333_f00),
   (0xf00_f00_222_445_667_99a_bbc_cbc_ccc_ccc_dcd_dcd_dcd_dcd,
    0xdcd_ccc_bbb_bbb_ccc_fef_fff_fff_eee_bbb_666_222_f00_f00),
   (0xf00_f00_f00_f00_433_555_878_988_999_999_999_99a_a9a_999,
    0x888_999_a9a_bbb_dde_fff_fff_ddd_888_554_111_f00_f00_f00),
   (0xf00_f00_f00_f00_f00_322_444_555_666_777_777_666_666_767,
    0x767_777_989_bab_ddd_eee_bbb_777_544_332_f00_f00_f00_f00),
   (0xf00_f00_f00_f00_f00_f00_f00_333_544_666_555_544_555_666,
    0x767_888_999_bab_ccc_bbb_777_323_222_f00_f00_f00_f00_f00),
   (0xf00_f00_f00_f00_f00_f00_f00_f00_f00_f00_f00_f00_f00_555,
    0x877_a99_baa_a9a_878_656_434_222_f00_f00_f00_f00_f00_f00),
   (0xf00_f00_f00_f00_f00_f00_f00_f00_f00_f00_f00_f00_f00_443,
    0x776_888_888_666_333_222_222_f00_f00_f00_f00_f00_f00_f00),
   (0xf00_f00_f00_f00_f00_f00_f00_f00_f00_f00_f00_f00_f00_332,
    0x544_554_444_333_222_f00_f00_f00_f00_f00_f00_f00_f00_f00),
   (0xf00_f00_f00_f00_f00_f00_f00_f00_f00_f00_f00_f00_f00_f00,
    0x332_322_222_221_f00_f00_f00_f00_f00_f00_f00_f00_f00_f00)]

/-- The rows of `FFXII_LB_Cursor2`, `y = 0` first. -/
def ffxiiLbCursor2Rows : List (ℕ × ℕ) :=
  [(0xbb1_cc2_cc2_dc2_f00_f00_f00_f00_f00_f00_f00_f00_f00_f00,
    0xf00_f00_f00_f00_f00_f00_f00_f00_f00_f00_f00_f00_f00_f00),
   (0xdd2_ee4_ee4_ff4_ee3_dd2_f00_f00_f00_f00_f00_f00_f00_f00,
    0xf00_f00_f00_f00_f00_f00_f00_f00_f00_f00_f00_f00_f00_f00),
   (0xee4_ff5_ff5_ff5_ff5_ff4_ed3_f00_f00_f00_f00_f00_f00_f00,
    0xf00_f00_f00_f00_f00_f00_f00_f00_f00_f00_f00_f00_f00_f00),
   (0xee4_ff5_ff5_ff5_ff5_ff5_ff5_ee3_f00_f00_f00_f00_f00_f00,
    0xf00_f00_f00_f00_f00_f00_f00_f00_f00_f00_f00_f00_f00_f00),
   (0xdd3_ff5_ff5_ff5_ff5_ff5_ff5_ff5_ee4_f00_f00_f00_f00_f00,
    0xf00_f00_f00_f00_f00_f00_f00_f00_f00_f00_f00_f00_f00_f00),
   (0xdd2_ee4_ff5_ff5_ff5_ff5_ff5_ff5_ff5_fe4_f00_f00_f00_f00,
    0xf00_f00_f00_f00_f00_f00_f00_f00_f00_f00_f00_f00_f00_f00),
   (0xcc1_dd3_ee4_ff5_ff5_ff5_ff5_ff5_ff5_ff5_fe4_ed3_f00_f00,
    0xf00_f00_f00_f00_bb1_bb1_bb1_f00_f00_f00_f00_f00_f00_f00),
   (0xf00_cc1_dd3_ee4_ff5_ff5_ff5_ff5_ff5_ff5_ff5_ff5_ee4_f00,
    0xf00_f00_f00_cc2_dd3_dd3_dc2_cb1_f00_f00_f00_f00_f00_f00),
   (0xf00_f00_bb1_dd3_ee4_ff5_ff6_ff6_ff6_ff6_ff6_ff6_ff5_ee4,
    0xdd3_cc2_cc2_dd3_ee4_ff5_ee4_dd2_dd2_f00_f00_f00_f00_f00),
   (0xf00_f00_f00_bb1_cc2_ed4_ff5_ff6_ff7_ff7_ff7_ff7_ff7_ff6,
    0xee5_ee5_dd4_dd4_ff5_ff6_ff5_ee4_dd2_dd2_f00_f00_f00_f00),
   (0xf00_f00_f00_f00_bb2_dc3_ed5_fe6_ff8_ff8_ff8_ff8_ff8_ff8,
    0xff8_ff7_ff7_ee6_fe6_ff6_ff6_ff6_ee4_dd2_f00_f00_f00_f00),
   (0xf00_f00_f00_bb1_cb2_dd4_ed5_ee7_ff9_ffa_ffa_ffa_ffa_ff9,
    0xff9_ff9_ff9_ff8_fe7_ff7_ff7_ff6_ff5_ee4_cc2_f00_f00_f00),
   (0xf00_f00_bb1_cb2_dc3_ee5_ff8_ff9_ffa_ffb_ffc_ffc_ffb_ffb,
    0xffb_ffb_ffb_ffb_ffa_ff9_ff8_ff7_ff6_ff5_ed3_f00_f00_f00),
   (0xf00_f00_cc2_dd3_ee5_ff7_ff9_ffa_ffc_ffd_ffd_ffd_ffd_ffd,
    0xffd_ffd_ffd_ffc_ffc_ffa_ff9_ff8_ff6_ff5_ed3_f00_f00_f00),
   (0xf00_cc1_dd3_ee4_ff6_ff8_ffa_ffb_ffd_ffe_ffe_ffe_ffe_ffe,
    0xffe_ffe_ffe_ffe_ffd_ffb_ffa_ff8_ff7_ff6_ed3_f00_f00_f00),
   (0xf00_cc2_dd3_ff5_ff7_ff9_ffb_ffc_ffd_ffe_fff_fff_fff_fff,
    0xfff_fff_fff_ffe_ffe_ffc_ffb_ff9_ff7_ff6_dd3_f00_f00_f00),
   (0xf00_bb1_dd3_ff6_ff7_ff9_ffb_ffd_ffe_fff_fff_fff_fff_fff,
    0xfff_fff_fff_fff_ffe_ffd_ffb_ff9_ff7_ff5_dd3_f00_f00_f00),
   (0xf00_bb1_cc3_ee6_ff8_ffa_ffc_ffd_fff_fff_fff_fff_fff_fff,
    0xfff_fff_fff_fff_ffe_ffd_ffb_ff9_ff8_ff6_dd3_f00_f00_f00),
   (0xf00_cb1_dd3_ee6_ff8_ffb_ffd_ffe_fff_fff_fff_fff_fff_fff,
    0xfff_fff_fff_fff_ffe_ffd_ffb_ff9_ff7_ff6_dd3_f00_f00_f00),
   (0xcc1_dd2_ed4_fe7_fe9_ffb_ffd_ffe_fff_fff_fff_fff_fff_fff,
    0xfff_fff_fff_fff_ffe_ffd_ffb_ff9_ff7_ff5_dd3_f00_f00_f00),
   (0xdc1_ed3_fe5_ff7_fe9_ffc_ffd_ffe_fff_fff_fff_fff_fff_fff,
    0xfff_fff_fff_fff_ffe_ffd_ffb_ff9_ff8_ff5_cc2_f00_f00_f00),
   (0xdd2_ee4_ff6_ff8_ff9_ffc_ffd_ffe_fff_fff_fff_fff_fff_fff,
    0xfff_fff_fff_fff_ffe_ffd_ffb_ff9_ff8_ee5_cd2_f00_f00_f00),
   (0xdd2_ee4_ff6_ff8_ff9_ffb_ffd_ffe_fff_fff_fff_fff_fff_fff,
    0xfff_fff_fff_fff_ffe_ffd_ffb_ff9_ef7_ee5_dd3_dd2_cc1_f00),
   (0xee3_fe4_ff6_ff8_ff9_ffb_ffc_ffd_ffe_fff_fff_fff_fff_fff,
    0xfff_fff_fff_fff_ffe_ffd_ffb_ff9_dd6_de5_ee4_ee4_ee3_dd2),
   (0xdd3_ee4_ff6_ff7_ff8_ffa_ffb_ffc_ffd_ffe_ffe_fff_fff_fff,
    0xfff_fff_fff_fff_ffe_ffc_ffb_ff8_ff7_ff6_ff5_ff5_ff5_dd3),
   (0xcc2_dd3_ee4_ff6_ff7_ff9_ffa_ffb_ffc_ffd_ffd_ffe_ffe_ffe,
    0xffe_fff_fff_ffe_ffd_ffc_ffa_ff8_ff7_ff6_ff6_ff5_ee4_cc2),
   (0xbb1_cc2_cd3_ee5_ee6_ff7_ff8_ff9_ffa_ffb_ffc_ffc_ffd_ffd,
    0xffd_ffe_ffd_eec_ddb_eea_ffa_ff8_ff7_ff6_ff5_ee4_cc2_bb1),
   (0xf00_bb1_bc2_cd3_dd4_ee5_ee6_ee7_ee8_fe9_ffa_ffa_ffb_ffb,
    0xffb_feb_eda_dc9_dd9_ee9_ff9_ff8_ff7_ff6_ee4_cc2_bb1_f00),
   (0xf00_f00_bb0_bc1_cc2_dd4_ee5_ee5_ee6_ee6_ee7_ee7_ee8_ed8,
    0xed8_dd8_dc8_cc7_dd8_ff9_ff8_ff7_ff5_ee4_cc2_bb0_f00_f00),
   (0xf00_f00_f00_f00_bb1_cc2_dc3_dd3_dd4_dd4_dc4_dc4_cc5_cc5,
    0xcb4_cc5_cc5_dd6_ee7_ff8_ff7_ee5_dd3_bb1_aa0_f00_f00_f00),
   (0xf00_f00_f00_f00_f00_bb0_bb1_cc1_cc2_cc2_cc2_cc2_cb2_cb3,
    0xbb3_cc3_cc4_dd5_fe6_ff6_ee4_cc3_bb1_bb1_f00_f00_f00_f00),
   (0xf00_f00_f00_f00_f00_f00_f00_bb1_cc1_cc2_cc2_bb1_cb2_cc2,
    0xcc2_cc3_dd4_ed4_ee5_ee4_cc2_bb1_bb0_f00_f00_f00_f00_f00),
   (0xf00_f00_f00_f00_f00_f00_f00_f00_f00_f00_f00_f00_f00_cc1,
    0xdd2_dd3_ee4_dd3_dc3_cc2_bb1_bb0_f00_f00_f00_f00_f00_f00),
   (0xf00_f00_f00_f00_f00_f00_f00_f00_f00_f00_f00_f00_f00_bb1,
    0xcc2_dd3_dd3_cc2_bb1_bb0_bb0_f00_f00_f00_f00_f00_f00_f00),
   (0xf00_f00_f00_f00_f00_f00_f00_f00_f00_f00_f00_f00_f00_bb0,
    0xcc1_cc1_cb1_bb1_bb0_f00_f00_f00_f00_f00_f00_f00_f00_f00),
   (0xf00_f00_f00_f00_f00_f00_f00_f00_f00_f00_f00_f00_f00_f00,
    0xbb1_bb0_bb0_bb0_f00_f00_f00_f00_f00_f00_f00_f00_f00_f00)]

/-- The texel of a row in column `x`, from 1 to 28. -/
def rowTexel (row : ℕ × ℕ) (x : ℕ) : BitVec 12 :=
  BitVec.ofNat 12 (if x ≤ 14 then row.1 / 2 ^ (12 * (14 - x)) else row.2 / 2 ^ (12 * (28 - x)))

/-- The `case` on `YX`: column 0 has one entry, and what is not listed is black. -/
def spriteRgb (rows : List (ℕ × ℕ)) (yx : BitVec 20) : BitVec 12 :=
  let y := (yx.extractLsb' 10 10).toNat
  let x := (yx.extractLsb' 0 10).toNat
  if y = 0 ∧ x = 0 then 0xF00
  else if 1 ≤ x ∧ x ≤ 28 then rows[y]?.elim 0 fun row => rowTexel row x
  else 0

/-- `FFXII_LB_Cursor`: the pointer. -/
def ffxiiLbCursor (yx : BitVec 20) : BitVec 12 := spriteRgb ffxiiLbCursorRows yx

/-- `FFXII_LB_Cursor2`: the pointer while SPACE is held. -/
def ffxiiLbCursor2 (yx : BitVec 20) : BitVec 12 := spriteRgb ffxiiLbCursor2Rows yx

/-- Holding SPACE changes the colours of the pointer and not its outline. -/
theorem ffxiiLbCursor_transparent_iff (yx : BitVec 20) :
    ffxiiLbCursor yx = 0xF00 ↔ ffxiiLbCursor2 yx = 0xF00 := by
  have hrows : ∀ y < 36, ∀ x < 29,
      (ffxiiLbCursorRows[y]?.elim 0 fun row => rowTexel row x) = 0xF00 ↔
        (ffxiiLbCursor2Rows[y]?.elim 0 fun row => rowTexel row x) = 0xF00 := by
    decide +kernel
  have hlen : ffxiiLbCursorRows.length = 36 ∧ ffxiiLbCursor2Rows.length = 36 := by decide
  unfold ffxiiLbCursor ffxiiLbCursor2 spriteRgb
  dsimp only
  split_ifs with h0 hx
  · rfl
  · by_cases hy : (yx.extractLsb' 10 10).toNat < 36
    · exact hrows _ hy _ (by omega)
    · rw [List.getElem?_eq_none (by omega), List.getElem?_eq_none (by omega)]
  · rfl

end DigitalModulation
