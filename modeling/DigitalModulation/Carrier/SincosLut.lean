import DigitalModulation.Lib.Rom

/-!
# `sincos_lut.vhd`: the two tables

`SIN_ROM` and `COS_ROM` are stored separately, 4096 words of 12 bits each. A row below is one
source line: `0x000_003_006_…` stands for `X"000", X"003", X"006", …`.

What the rest of the carrier needs of the tables is a test on the lists, evaluated once:

* `sinRom_slope`, `cosRom_slope`: neighbouring entries differ by at most 4, the step from entry
  4095 to entry 0 included;
* `cosRom_eq`: the cosine table is the sine table a quarter turn ahead;
* `sinRom_half_turn`: half a turn negates the sine;
* `sinRom_ne_min`, `cosRom_ne_min`: the entry -2048 is not used.
-/

namespace DigitalModulation

/-- `SIN_ROM`, one source line a row. -/
def sinRomRows : List ℕ :=
  [0x000_003_006_009_00d_010_013_016, 0x019_01c_01f_023_026_029_02c_02f,
   0x032_035_039_03c_03f_042_045_048, 0x04b_04e_052_055_058_05b_05e_061,
   0x064_068_06b_06e_071_074_077_07a, 0x07e_081_084_087_08a_08d_090_093,
   0x097_09a_09d_0a0_0a3_0a6_0a9_0ac, 0x0b0_0b3_0b6_0b9_0bc_0bf_0c2_0c6,
   0x0c9_0cc_0cf_0d2_0d5_0d8_0db_0df, 0x0e2_0e5_0e8_0eb_0ee_0f1_0f4_0f7,
   0x0fb_0fe_101_104_107_10a_10d_110, 0x113_117_11a_11d_120_123_126_129,
   0x12c_12f_133_136_139_13c_13f_142, 0x145_148_14b_14e_152_155_158_15b,
   0x15e_161_164_167_16a_16d_171_174, 0x177_17a_17d_180_183_186_189_18c,
   0x18f_192_196_199_19c_19f_1a2_1a5, 0x1a8_1ab_1ae_1b1_1b4_1b7_1ba_1bd,
   0x1c1_1c4_1c7_1ca_1cd_1d0_1d3_1d6, 0x1d9_1dc_1df_1e2_1e5_1e8_1eb_1ee,
   0x1f1_1f4_1f7_1fb_1fe_201_204_207, 0x20a_20d_210_213_216_219_21c_21f,
   0x222_225_228_22b_22e_231_234_237, 0x23a_23d_240_243_246_249_24c_24f,
   0x252_255_258_25b_25e_261_264_267, 0x26a_26d_270_273_276_279_27c_27f,
   0x282_285_288_28b_28e_291_294_297, 0x29a_29d_2a0_2a3_2a6_2a9_2ac_2af,
   0x2b2_2b5_2b8_2ba_2bd_2c0_2c3_2c6, 0x2c9_2cc_2cf_2d2_2d5_2d8_2db_2de,
   0x2e1_2e4_2e7_2e9_2ec_2ef_2f2_2f5, 0x2f8_2fb_2fe_301_304_307_30a_30c,
   0x30f_312_315_318_31b_31e_321_324, 0x327_329_32c_32f_332_335_338_33b,
   0x33e_340_343_346_349_34c_34f_352, 0x354_357_35a_35d_360_363_366_368,
   0x36b_36e_371_374_377_379_37c_37f, 0x382_385_387_38a_38d_390_393_396,
   0x398_39b_39e_3a1_3a4_3a6_3a9_3ac, 0x3af_3b2_3b4_3b7_3ba_3bd_3bf_3c2,
   0x3c5_3c8_3ca_3cd_3d0_3d3_3d6_3d8, 0x3db_3de_3e1_3e3_3e6_3e9_3eb_3ee,
   0x3f1_3f4_3f6_3f9_3fc_3ff_401_404, 0x407_409_40c_40f_412_414_417_41a,
   0x41c_41f_422_424_427_42a_42c_42f, 0x432_435_437_43a_43d_43f_442_444,
   0x447_44a_44c_44f_452_454_457_45a, 0x45c_45f_462_464_467_469_46c_46f,
   0x471_474_476_479_47c_47e_481_483, 0x486_489_48b_48e_490_493_496_498,
   0x49b_49d_4a0_4a2_4a5_4a7_4aa_4ad, 0x4af_4b2_4b4_4b7_4b9_4bc_4be_4c1,
   0x4c3_4c6_4c8_4cb_4cd_4d0_4d2_4d5, 0x4d7_4da_4dc_4df_4e1_4e4_4e6_4e9,
   0x4eb_4ee_4f0_4f3_4f5_4f8_4fa_4fd, 0x4ff_502_504_506_509_50b_50e_510,
   0x513_515_517_51a_51c_51f_521_524, 0x526_528_52b_52d_530_532_534_537,
   0x539_53b_53e_540_543_545_547_54a, 0x54c_54e_551_553_555_558_55a_55c,
   0x55f_561_563_566_568_56a_56d_56f, 0x571_573_576_578_57a_57d_57f_581,
   0x583_586_588_58a_58d_58f_591_593, 0x596_598_59a_59c_59f_5a1_5a3_5a5,
   0x5a7_5aa_5ac_5ae_5b0_5b3_5b5_5b7, 0x5b9_5bb_5bd_5c0_5c2_5c4_5c6_5c8,
   0x5cb_5cd_5cf_5d1_5d3_5d5_5d7_5da, 0x5dc_5de_5e0_5e2_5e4_5e6_5e9_5eb,
   0x5ed_5ef_5f1_5f3_5f5_5f7_5f9_5fb, 0x5fd_600_602_604_606_608_60a_60c,
   0x60e_610_612_614_616_618_61a_61c, 0x61e_620_622_624_626_628_62a_62c,
   0x62e_630_632_634_636_638_63a_63c, 0x63e_640_642_644_646_648_64a_64c,
   0x64e_650_652_654_655_657_659_65b, 0x65d_65f_661_663_665_667_668_66a,
   0x66c_66e_670_672_674_675_677_679, 0x67b_67d_67f_681_682_684_686_688,
   0x68a_68b_68d_68f_691_693_694_696, 0x698_69a_69b_69d_69f_6a1_6a3_6a4,
   0x6a6_6a8_6a9_6ab_6ad_6af_6b0_6b2, 0x6b4_6b6_6b7_6b9_6bb_6bc_6be_6c0,
   0x6c1_6c3_6c5_6c6_6c8_6ca_6cb_6cd, 0x6cf_6d0_6d2_6d4_6d5_6d7_6d9_6da,
   0x6dc_6dd_6df_6e1_6e2_6e4_6e5_6e7, 0x6e9_6ea_6ec_6ed_6ef_6f0_6f2_6f4,
   0x6f5_6f7_6f8_6fa_6fb_6fd_6fe_700, 0x701_703_704_706_707_709_70a_70c,
   0x70d_70f_710_712_713_715_716_718, 0x719_71a_71c_71d_71f_720_722_723,
   0x724_726_727_729_72a_72b_72d_72e, 0x730_731_732_734_735_736_738_739,
   0x73a_73c_73d_73e_740_741_742_744, 0x745_746_748_749_74a_74c_74d_74e,
   0x74f_751_752_753_754_756_757_758, 0x759_75b_75c_75d_75e_760_761_762,
   0x763_764_766_767_768_769_76a_76b, 0x76d_76e_76f_770_771_772_774_775,
   0x776_777_778_779_77a_77b_77d_77e, 0x77f_780_781_782_783_784_785_786,
   0x787_788_789_78a_78c_78d_78e_78f, 0x790_791_792_793_794_795_796_797,
   0x798_799_79a_79b_79c_79d_79e_79e, 0x79f_7a0_7a1_7a2_7a3_7a4_7a5_7a6,
   0x7a7_7a8_7a9_7aa_7aa_7ab_7ac_7ad, 0x7ae_7af_7b0_7b1_7b1_7b2_7b3_7b4,
   0x7b5_7b6_7b7_7b7_7b8_7b9_7ba_7bb, 0x7bb_7bc_7bd_7be_7bf_7bf_7c0_7c1,
   0x7c2_7c2_7c3_7c4_7c5_7c5_7c6_7c7, 0x7c8_7c8_7c9_7ca_7ca_7cb_7cc_7cd,
   0x7cd_7ce_7cf_7cf_7d0_7d1_7d1_7d2, 0x7d3_7d3_7d4_7d5_7d5_7d6_7d6_7d7,
   0x7d8_7d8_7d9_7d9_7da_7db_7db_7dc, 0x7dc_7dd_7de_7de_7df_7df_7e0_7e0,
   0x7e1_7e1_7e2_7e2_7e3_7e3_7e4_7e5, 0x7e5_7e6_7e6_7e6_7e7_7e7_7e8_7e8,
   0x7e9_7e9_7ea_7ea_7eb_7eb_7ec_7ec, 0x7ec_7ed_7ed_7ee_7ee_7ee_7ef_7ef,
   0x7f0_7f0_7f0_7f1_7f1_7f1_7f2_7f2, 0x7f3_7f3_7f3_7f4_7f4_7f4_7f5_7f5,
   0x7f5_7f5_7f6_7f6_7f6_7f7_7f7_7f7, 0x7f7_7f8_7f8_7f8_7f8_7f9_7f9_7f9,
   0x7f9_7fa_7fa_7fa_7fa_7fb_7fb_7fb, 0x7fb_7fb_7fc_7fc_7fc_7fc_7fc_7fc,
   0x7fd_7fd_7fd_7fd_7fd_7fd_7fd_7fd, 0x7fe_7fe_7fe_7fe_7fe_7fe_7fe_7fe,
   0x7fe_7fe_7ff_7ff_7ff_7ff_7ff_7ff, 0x7ff_7ff_7ff_7ff_7ff_7ff_7ff_7ff,
   0x7ff_7ff_7ff_7ff_7ff_7ff_7ff_7ff, 0x7ff_7ff_7ff_7ff_7ff_7ff_7ff_7fe,
   0x7fe_7fe_7fe_7fe_7fe_7fe_7fe_7fe, 0x7fe_7fd_7fd_7fd_7fd_7fd_7fd_7fd,
   0x7fd_7fc_7fc_7fc_7fc_7fc_7fc_7fb, 0x7fb_7fb_7fb_7fb_7fa_7fa_7fa_7fa,
   0x7f9_7f9_7f9_7f9_7f8_7f8_7f8_7f8, 0x7f7_7f7_7f7_7f7_7f6_7f6_7f6_7f5,
   0x7f5_7f5_7f5_7f4_7f4_7f4_7f3_7f3, 0x7f3_7f2_7f2_7f1_7f1_7f1_7f0_7f0,
   0x7f0_7ef_7ef_7ee_7ee_7ee_7ed_7ed, 0x7ec_7ec_7ec_7eb_7eb_7ea_7ea_7e9,
   0x7e9_7e8_7e8_7e7_7e7_7e6_7e6_7e6, 0x7e5_7e5_7e4_7e3_7e3_7e2_7e2_7e1,
   0x7e1_7e0_7e0_7df_7df_7de_7de_7dd, 0x7dc_7dc_7db_7db_7da_7d9_7d9_7d8,
   0x7d8_7d7_7d6_7d6_7d5_7d5_7d4_7d3, 0x7d3_7d2_7d1_7d1_7d0_7cf_7cf_7ce,
   0x7cd_7cd_7cc_7cb_7ca_7ca_7c9_7c8, 0x7c8_7c7_7c6_7c5_7c5_7c4_7c3_7c2,
   0x7c2_7c1_7c0_7bf_7bf_7be_7bd_7bc, 0x7bb_7bb_7ba_7b9_7b8_7b7_7b7_7b6,
   0x7b5_7b4_7b3_7b2_7b1_7b1_7b0_7af, 0x7ae_7ad_7ac_7ab_7aa_7aa_7a9_7a8,
   0x7a7_7a6_7a5_7a4_7a3_7a2_7a1_7a0, 0x79f_79e_79e_79d_79c_79b_79a_799,
   0x798_797_796_795_794_793_792_791, 0x790_78f_78e_78d_78c_78a_789_788,
   0x787_786_785_784_783_782_781_780, 0x77f_77e_77d_77b_77a_779_778_777,
   0x776_775_774_772_771_770_76f_76e, 0x76d_76b_76a_769_768_767_766_764,
   0x763_762_761_760_75e_75d_75c_75b, 0x759_758_757_756_754_753_752_751,
   0x74f_74e_74d_74c_74a_749_748_746, 0x745_744_742_741_740_73e_73d_73c,
   0x73a_739_738_736_735_734_732_731, 0x730_72e_72d_72b_72a_729_727_726,
   0x724_723_722_720_71f_71d_71c_71a, 0x719_718_716_715_713_712_710_70f,
   0x70d_70c_70a_709_707_706_704_703, 0x701_700_6fe_6fd_6fb_6fa_6f8_6f7,
   0x6f5_6f4_6f2_6f0_6ef_6ed_6ec_6ea, 0x6e9_6e7_6e5_6e4_6e2_6e1_6df_6dd,
   0x6dc_6da_6d9_6d7_6d5_6d4_6d2_6d0, 0x6cf_6cd_6cb_6ca_6c8_6c6_6c5_6c3,
   0x6c1_6c0_6be_6bc_6bb_6b9_6b7_6b6, 0x6b4_6b2_6b0_6af_6ad_6ab_6a9_6a8,
   0x6a6_6a4_6a3_6a1_69f_69d_69b_69a, 0x698_696_694_693_691_68f_68d_68b,
   0x68a_688_686_684_682_681_67f_67d, 0x67b_679_677_675_674_672_670_66e,
   0x66c_66a_668_667_665_663_661_65f, 0x65d_65b_659_657_655_654_652_650,
   0x64e_64c_64a_648_646_644_642_640, 0x63e_63c_63a_638_636_634_632_630,
   0x62e_62c_62a_628_626_624_622_620, 0x61e_61c_61a_618_616_614_612_610,
   0x60e_60c_60a_608_606_604_602_600, 0x5fd_5fb_5f9_5f7_5f5_5f3_5f1_5ef,
   0x5ed_5eb_5e9_5e6_5e4_5e2_5e0_5de, 0x5dc_5da_5d7_5d5_5d3_5d1_5cf_5cd,
   0x5cb_5c8_5c6_5c4_5c2_5c0_5bd_5bb, 0x5b9_5b7_5b5_5b3_5b0_5ae_5ac_5aa,
   0x5a7_5a5_5a3_5a1_59f_59c_59a_598, 0x596_593_591_58f_58d_58a_588_586,
   0x583_581_57f_57d_57a_578_576_573, 0x571_56f_56d_56a_568_566_563_561,
   0x55f_55c_55a_558_555_553_551_54e, 0x54c_54a_547_545_543_540_53e_53b,
   0x539_537_534_532_530_52d_52b_528, 0x526_524_521_51f_51c_51a_517_515,
   0x513_510_50e_50b_509_506_504_502, 0x4ff_4fd_4fa_4f8_4f5_4f3_4f0_4ee,
   0x4eb_4e9_4e6_4e4_4e1_4df_4dc_4da, 0x4d7_4d5_4d2_4d0_4cd_4cb_4c8_4c6,
   0x4c3_4c1_4be_4bc_4b9_4b7_4b4_4b2, 0x4af_4ad_4aa_4a7_4a5_4a2_4a0_49d,
   0x49b_498_496_493_490_48e_48b_489, 0x486_483_481_47e_47c_479_476_474,
   0x471_46f_46c_469_467_464_462_45f, 0x45c_45a_457_454_452_44f_44c_44a,
   0x447_444_442_43f_43d_43a_437_435, 0x432_42f_42c_42a_427_424_422_41f,
   0x41c_41a_417_414_412_40f_40c_409, 0x407_404_401_3ff_3fc_3f9_3f6_3f4,
   0x3f1_3ee_3eb_3e9_3e6_3e3_3e1_3de, 0x3db_3d8_3d6_3d3_3d0_3cd_3ca_3c8,
   0x3c5_3c2_3bf_3bd_3ba_3b7_3b4_3b2, 0x3af_3ac_3a9_3a6_3a4_3a1_39e_39b,
   0x398_396_393_390_38d_38a_387_385, 0x382_37f_37c_379_377_374_371_36e,
   0x36b_368_366_363_360_35d_35a_357, 0x354_352_34f_34c_349_346_343_340,
   0x33e_33b_338_335_332_32f_32c_329, 0x327_324_321_31e_31b_318_315_312,
   0x30f_30c_30a_307_304_301_2fe_2fb, 0x2f8_2f5_2f2_2ef_2ec_2e9_2e7_2e4,
   0x2e1_2de_2db_2d8_2d5_2d2_2cf_2cc, 0x2c9_2c6_2c3_2c0_2bd_2ba_2b8_2b5,
   0x2b2_2af_2ac_2a9_2a6_2a3_2a0_29d, 0x29a_297_294_291_28e_28b_288_285,
   0x282_27f_27c_279_276_273_270_26d, 0x26a_267_264_261_25e_25b_258_255,
   0x252_24f_24c_249_246_243_240_23d, 0x23a_237_234_231_22e_22b_228_225,
   0x222_21f_21c_219_216_213_210_20d, 0x20a_207_204_201_1fe_1fb_1f7_1f4,
   0x1f1_1ee_1eb_1e8_1e5_1e2_1df_1dc, 0x1d9_1d6_1d3_1d0_1cd_1ca_1c7_1c4,
   0x1c1_1bd_1ba_1b7_1b4_1b1_1ae_1ab, 0x1a8_1a5_1a2_19f_19c_199_196_192,
   0x18f_18c_189_186_183_180_17d_17a, 0x177_174_171_16d_16a_167_164_161,
   0x15e_15b_158_155_152_14e_14b_148, 0x145_142_13f_13c_139_136_133_12f,
   0x12c_129_126_123_120_11d_11a_117, 0x113_110_10d_10a_107_104_101_0fe,
   0x0fb_0f7_0f4_0f1_0ee_0eb_0e8_0e5, 0x0e2_0df_0db_0d8_0d5_0d2_0cf_0cc,
   0x0c9_0c6_0c2_0bf_0bc_0b9_0b6_0b3, 0x0b0_0ac_0a9_0a6_0a3_0a0_09d_09a,
   0x097_093_090_08d_08a_087_084_081, 0x07e_07a_077_074_071_06e_06b_068,
   0x064_061_05e_05b_058_055_052_04e, 0x04b_048_045_042_03f_03c_039_035,
   0x032_02f_02c_029_026_023_01f_01c, 0x019_016_013_010_00d_009_006_003,
   0x000_ffd_ffa_ff7_ff3_ff0_fed_fea, 0xfe7_fe4_fe1_fdd_fda_fd7_fd4_fd1,
   0xfce_fcb_fc7_fc4_fc1_fbe_fbb_fb8, 0xfb5_fb2_fae_fab_fa8_fa5_fa2_f9f,
   0xf9c_f98_f95_f92_f8f_f8c_f89_f86, 0xf82_f7f_f7c_f79_f76_f73_f70_f6d,
   0xf69_f66_f63_f60_f5d_f5a_f57_f54, 0xf50_f4d_f4a_f47_f44_f41_f3e_f3a,
   0xf37_f34_f31_f2e_f2b_f28_f25_f21, 0xf1e_f1b_f18_f15_f12_f0f_f0c_f09,
   0xf05_f02_eff_efc_ef9_ef6_ef3_ef0, 0xeed_ee9_ee6_ee3_ee0_edd_eda_ed7,
   0xed4_ed1_ecd_eca_ec7_ec4_ec1_ebe, 0xebb_eb8_eb5_eb2_eae_eab_ea8_ea5,
   0xea2_e9f_e9c_e99_e96_e93_e8f_e8c, 0xe89_e86_e83_e80_e7d_e7a_e77_e74,
   0xe71_e6e_e6a_e67_e64_e61_e5e_e5b, 0xe58_e55_e52_e4f_e4c_e49_e46_e43,
   0xe3f_e3c_e39_e36_e33_e30_e2d_e2a, 0xe27_e24_e21_e1e_e1b_e18_e15_e12,
   0xe0f_e0c_e09_e05_e02_dff_dfc_df9, 0xdf6_df3_df0_ded_dea_de7_de4_de1,
   0xdde_ddb_dd8_dd5_dd2_dcf_dcc_dc9, 0xdc6_dc3_dc0_dbd_dba_db7_db4_db1,
   0xdae_dab_da8_da5_da2_d9f_d9c_d99, 0xd96_d93_d90_d8d_d8a_d87_d84_d81,
   0xd7e_d7b_d78_d75_d72_d6f_d6c_d69, 0xd66_d63_d60_d5d_d5a_d57_d54_d51,
   0xd4e_d4b_d48_d46_d43_d40_d3d_d3a, 0xd37_d34_d31_d2e_d2b_d28_d25_d22,
   0xd1f_d1c_d19_d17_d14_d11_d0e_d0b, 0xd08_d05_d02_cff_cfc_cf9_cf6_cf4,
   0xcf1_cee_ceb_ce8_ce5_ce2_cdf_cdc, 0xcd9_cd7_cd4_cd1_cce_ccb_cc8_cc5,
   0xcc2_cc0_cbd_cba_cb7_cb4_cb1_cae, 0xcac_ca9_ca6_ca3_ca0_c9d_c9a_c98,
   0xc95_c92_c8f_c8c_c89_c87_c84_c81, 0xc7e_c7b_c79_c76_c73_c70_c6d_c6a,
   0xc68_c65_c62_c5f_c5c_c5a_c57_c54, 0xc51_c4e_c4c_c49_c46_c43_c41_c3e,
   0xc3b_c38_c36_c33_c30_c2d_c2a_c28, 0xc25_c22_c1f_c1d_c1a_c17_c15_c12,
   0xc0f_c0c_c0a_c07_c04_c01_bff_bfc, 0xbf9_bf7_bf4_bf1_bee_bec_be9_be6,
   0xbe4_be1_bde_bdc_bd9_bd6_bd4_bd1, 0xbce_bcb_bc9_bc6_bc3_bc1_bbe_bbc,
   0xbb9_bb6_bb4_bb1_bae_bac_ba9_ba6, 0xba4_ba1_b9e_b9c_b99_b97_b94_b91,
   0xb8f_b8c_b8a_b87_b84_b82_b7f_b7d, 0xb7a_b77_b75_b72_b70_b6d_b6a_b68,
   0xb65_b63_b60_b5e_b5b_b59_b56_b53, 0xb51_b4e_b4c_b49_b47_b44_b42_b3f,
   0xb3d_b3a_b38_b35_b33_b30_b2e_b2b, 0xb29_b26_b24_b21_b1f_b1c_b1a_b17,
   0xb15_b12_b10_b0d_b0b_b08_b06_b03, 0xb01_afe_afc_afa_af7_af5_af2_af0,
   0xaed_aeb_ae9_ae6_ae4_ae1_adf_adc, 0xada_ad8_ad5_ad3_ad0_ace_acc_ac9,
   0xac7_ac5_ac2_ac0_abd_abb_ab9_ab6, 0xab4_ab2_aaf_aad_aab_aa8_aa6_aa4,
   0xaa1_a9f_a9d_a9a_a98_a96_a93_a91, 0xa8f_a8d_a8a_a88_a86_a83_a81_a7f,
   0xa7d_a7a_a78_a76_a73_a71_a6f_a6d, 0xa6a_a68_a66_a64_a61_a5f_a5d_a5b,
   0xa59_a56_a54_a52_a50_a4d_a4b_a49, 0xa47_a45_a43_a40_a3e_a3c_a3a_a38,
   0xa35_a33_a31_a2f_a2d_a2b_a29_a26, 0xa24_a22_a20_a1e_a1c_a1a_a17_a15,
   0xa13_a11_a0f_a0d_a0b_a09_a07_a05, 0xa03_a00_9fe_9fc_9fa_9f8_9f6_9f4,
   0x9f2_9f0_9ee_9ec_9ea_9e8_9e6_9e4, 0x9e2_9e0_9de_9dc_9da_9d8_9d6_9d4,
   0x9d2_9d0_9ce_9cc_9ca_9c8_9c6_9c4, 0x9c2_9c0_9be_9bc_9ba_9b8_9b6_9b4,
   0x9b2_9b0_9ae_9ac_9ab_9a9_9a7_9a5, 0x9a3_9a1_99f_99d_99b_999_998_996,
   0x994_992_990_98e_98c_98b_989_987, 0x985_983_981_97f_97e_97c_97a_978,
   0x976_975_973_971_96f_96d_96c_96a, 0x968_966_965_963_961_95f_95d_95c,
   0x95a_958_957_955_953_951_950_94e, 0x94c_94a_949_947_945_944_942_940,
   0x93f_93d_93b_93a_938_936_935_933, 0x931_930_92e_92c_92b_929_927_926,
   0x924_923_921_91f_91e_91c_91b_919, 0x917_916_914_913_911_910_90e_90c,
   0x90b_909_908_906_905_903_902_900, 0x8ff_8fd_8fc_8fa_8f9_8f7_8f6_8f4,
   0x8f3_8f1_8f0_8ee_8ed_8eb_8ea_8e8, 0x8e7_8e6_8e4_8e3_8e1_8e0_8de_8dd,
   0x8dc_8da_8d9_8d7_8d6_8d5_8d3_8d2, 0x8d0_8cf_8ce_8cc_8cb_8ca_8c8_8c7,
   0x8c6_8c4_8c3_8c2_8c0_8bf_8be_8bc, 0x8bb_8ba_8b8_8b7_8b6_8b4_8b3_8b2,
   0x8b1_8af_8ae_8ad_8ac_8aa_8a9_8a8, 0x8a7_8a5_8a4_8a3_8a2_8a0_89f_89e,
   0x89d_89c_89a_899_898_897_896_895, 0x893_892_891_890_88f_88e_88c_88b,
   0x88a_889_888_887_886_885_883_882, 0x881_880_87f_87e_87d_87c_87b_87a,
   0x879_878_877_876_874_873_872_871, 0x870_86f_86e_86d_86c_86b_86a_869,
   0x868_867_866_865_864_863_862_862, 0x861_860_85f_85e_85d_85c_85b_85a,
   0x859_858_857_856_856_855_854_853, 0x852_851_850_84f_84f_84e_84d_84c,
   0x84b_84a_849_849_848_847_846_845, 0x845_844_843_842_841_841_840_83f,
   0x83e_83e_83d_83c_83b_83b_83a_839, 0x838_838_837_836_836_835_834_833,
   0x833_832_831_831_830_82f_82f_82e, 0x82d_82d_82c_82b_82b_82a_82a_829,
   0x828_828_827_827_826_825_825_824, 0x824_823_822_822_821_821_820_820,
   0x81f_81f_81e_81e_81d_81d_81c_81b, 0x81b_81a_81a_81a_819_819_818_818,
   0x817_817_816_816_815_815_814_814, 0x814_813_813_812_812_812_811_811,
   0x810_810_810_80f_80f_80f_80e_80e, 0x80d_80d_80d_80c_80c_80c_80b_80b,
   0x80b_80b_80a_80a_80a_809_809_809, 0x809_808_808_808_808_807_807_807,
   0x807_806_806_806_806_805_805_805, 0x805_805_804_804_804_804_804_804,
   0x803_803_803_803_803_803_803_803, 0x802_802_802_802_802_802_802_802,
   0x802_802_801_801_801_801_801_801, 0x801_801_801_801_801_801_801_801,
   0x801_801_801_801_801_801_801_801, 0x801_801_801_801_801_801_801_802,
   0x802_802_802_802_802_802_802_802, 0x802_803_803_803_803_803_803_803,
   0x803_804_804_804_804_804_804_805, 0x805_805_805_805_806_806_806_806,
   0x807_807_807_807_808_808_808_808, 0x809_809_809_809_80a_80a_80a_80b,
   0x80b_80b_80b_80c_80c_80c_80d_80d, 0x80d_80e_80e_80f_80f_80f_810_810,
   0x810_811_811_812_812_812_813_813, 0x814_814_814_815_815_816_816_817,
   0x817_818_818_819_819_81a_81a_81a, 0x81b_81b_81c_81d_81d_81e_81e_81f,
   0x81f_820_820_821_821_822_822_823, 0x824_824_825_825_826_827_827_828,
   0x828_829_82a_82a_82b_82b_82c_82d, 0x82d_82e_82f_82f_830_831_831_832,
   0x833_833_834_835_836_836_837_838, 0x838_839_83a_83b_83b_83c_83d_83e,
   0x83e_83f_840_841_841_842_843_844, 0x845_845_846_847_848_849_849_84a,
   0x84b_84c_84d_84e_84f_84f_850_851, 0x852_853_854_855_856_856_857_858,
   0x859_85a_85b_85c_85d_85e_85f_860, 0x861_862_862_863_864_865_866_867,
   0x868_869_86a_86b_86c_86d_86e_86f, 0x870_871_872_873_874_876_877_878,
   0x879_87a_87b_87c_87d_87e_87f_880, 0x881_882_883_885_886_887_888_889,
   0x88a_88b_88c_88e_88f_890_891_892, 0x893_895_896_897_898_899_89a_89c,
   0x89d_89e_89f_8a0_8a2_8a3_8a4_8a5, 0x8a7_8a8_8a9_8aa_8ac_8ad_8ae_8af,
   0x8b1_8b2_8b3_8b4_8b6_8b7_8b8_8ba, 0x8bb_8bc_8be_8bf_8c0_8c2_8c3_8c4,
   0x8c6_8c7_8c8_8ca_8cb_8cc_8ce_8cf, 0x8d0_8d2_8d3_8d5_8d6_8d7_8d9_8da,
   0x8dc_8dd_8de_8e0_8e1_8e3_8e4_8e6, 0x8e7_8e8_8ea_8eb_8ed_8ee_8f0_8f1,
   0x8f3_8f4_8f6_8f7_8f9_8fa_8fc_8fd, 0x8ff_900_902_903_905_906_908_909,
   0x90b_90c_90e_910_911_913_914_916, 0x917_919_91b_91c_91e_91f_921_923,
   0x924_926_927_929_92b_92c_92e_930, 0x931_933_935_936_938_93a_93b_93d,
   0x93f_940_942_944_945_947_949_94a, 0x94c_94e_950_951_953_955_957_958,
   0x95a_95c_95d_95f_961_963_965_966, 0x968_96a_96c_96d_96f_971_973_975,
   0x976_978_97a_97c_97e_97f_981_983, 0x985_987_989_98b_98c_98e_990_992,
   0x994_996_998_999_99b_99d_99f_9a1, 0x9a3_9a5_9a7_9a9_9ab_9ac_9ae_9b0,
   0x9b2_9b4_9b6_9b8_9ba_9bc_9be_9c0, 0x9c2_9c4_9c6_9c8_9ca_9cc_9ce_9d0,
   0x9d2_9d4_9d6_9d8_9da_9dc_9de_9e0, 0x9e2_9e4_9e6_9e8_9ea_9ec_9ee_9f0,
   0x9f2_9f4_9f6_9f8_9fa_9fc_9fe_a00, 0xa03_a05_a07_a09_a0b_a0d_a0f_a11,
   0xa13_a15_a17_a1a_a1c_a1e_a20_a22, 0xa24_a26_a29_a2b_a2d_a2f_a31_a33,
   0xa35_a38_a3a_a3c_a3e_a40_a43_a45, 0xa47_a49_a4b_a4d_a50_a52_a54_a56,
   0xa59_a5b_a5d_a5f_a61_a64_a66_a68, 0xa6a_a6d_a6f_a71_a73_a76_a78_a7a,
   0xa7d_a7f_a81_a83_a86_a88_a8a_a8d, 0xa8f_a91_a93_a96_a98_a9a_a9d_a9f,
   0xaa1_aa4_aa6_aa8_aab_aad_aaf_ab2, 0xab4_ab6_ab9_abb_abd_ac0_ac2_ac5,
   0xac7_ac9_acc_ace_ad0_ad3_ad5_ad8, 0xada_adc_adf_ae1_ae4_ae6_ae9_aeb,
   0xaed_af0_af2_af5_af7_afa_afc_afe, 0xb01_b03_b06_b08_b0b_b0d_b10_b12,
   0xb15_b17_b1a_b1c_b1f_b21_b24_b26, 0xb29_b2b_b2e_b30_b33_b35_b38_b3a,
   0xb3d_b3f_b42_b44_b47_b49_b4c_b4e, 0xb51_b53_b56_b59_b5b_b5e_b60_b63,
   0xb65_b68_b6a_b6d_b70_b72_b75_b77, 0xb7a_b7d_b7f_b82_b84_b87_b8a_b8c,
   0xb8f_b91_b94_b97_b99_b9c_b9e_ba1, 0xba4_ba6_ba9_bac_bae_bb1_bb4_bb6,
   0xbb9_bbc_bbe_bc1_bc3_bc6_bc9_bcb, 0xbce_bd1_bd4_bd6_bd9_bdc_bde_be1,
   0xbe4_be6_be9_bec_bee_bf1_bf4_bf7, 0xbf9_bfc_bff_c01_c04_c07_c0a_c0c,
   0xc0f_c12_c15_c17_c1a_c1d_c1f_c22, 0xc25_c28_c2a_c2d_c30_c33_c36_c38,
   0xc3b_c3e_c41_c43_c46_c49_c4c_c4e, 0xc51_c54_c57_c5a_c5c_c5f_c62_c65,
   0xc68_c6a_c6d_c70_c73_c76_c79_c7b, 0xc7e_c81_c84_c87_c89_c8c_c8f_c92,
   0xc95_c98_c9a_c9d_ca0_ca3_ca6_ca9, 0xcac_cae_cb1_cb4_cb7_cba_cbd_cc0,
   0xcc2_cc5_cc8_ccb_cce_cd1_cd4_cd7, 0xcd9_cdc_cdf_ce2_ce5_ce8_ceb_cee,
   0xcf1_cf4_cf6_cf9_cfc_cff_d02_d05, 0xd08_d0b_d0e_d11_d14_d17_d19_d1c,
   0xd1f_d22_d25_d28_d2b_d2e_d31_d34, 0xd37_d3a_d3d_d40_d43_d46_d48_d4b,
   0xd4e_d51_d54_d57_d5a_d5d_d60_d63, 0xd66_d69_d6c_d6f_d72_d75_d78_d7b,
   0xd7e_d81_d84_d87_d8a_d8d_d90_d93, 0xd96_d99_d9c_d9f_da2_da5_da8_dab,
   0xdae_db1_db4_db7_dba_dbd_dc0_dc3, 0xdc6_dc9_dcc_dcf_dd2_dd5_dd8_ddb,
   0xdde_de1_de4_de7_dea_ded_df0_df3, 0xdf6_df9_dfc_dff_e02_e05_e09_e0c,
   0xe0f_e12_e15_e18_e1b_e1e_e21_e24, 0xe27_e2a_e2d_e30_e33_e36_e39_e3c,
   0xe3f_e43_e46_e49_e4c_e4f_e52_e55, 0xe58_e5b_e5e_e61_e64_e67_e6a_e6e,
   0xe71_e74_e77_e7a_e7d_e80_e83_e86, 0xe89_e8c_e8f_e93_e96_e99_e9c_e9f,
   0xea2_ea5_ea8_eab_eae_eb2_eb5_eb8, 0xebb_ebe_ec1_ec4_ec7_eca_ecd_ed1,
   0xed4_ed7_eda_edd_ee0_ee3_ee6_ee9, 0xeed_ef0_ef3_ef6_ef9_efc_eff_f02,
   0xf05_f09_f0c_f0f_f12_f15_f18_f1b, 0xf1e_f21_f25_f28_f2b_f2e_f31_f34,
   0xf37_f3a_f3e_f41_f44_f47_f4a_f4d, 0xf50_f54_f57_f5a_f5d_f60_f63_f66,
   0xf69_f6d_f70_f73_f76_f79_f7c_f7f, 0xf82_f86_f89_f8c_f8f_f92_f95_f98,
   0xf9c_f9f_fa2_fa5_fa8_fab_fae_fb2, 0xfb5_fb8_fbb_fbe_fc1_fc4_fc7_fcb,
   0xfce_fd1_fd4_fd7_fda_fdd_fe1_fe4, 0xfe7_fea_fed_ff0_ff3_ff7_ffa_ffd]

/-- `COS_ROM`, one source line a row. -/
def cosRomRows : List ℕ :=
  [0x7ff_7ff_7ff_7ff_7ff_7ff_7ff_7ff, 0x7ff_7ff_7ff_7ff_7ff_7ff_7ff_7fe,
   0x7fe_7fe_7fe_7fe_7fe_7fe_7fe_7fe, 0x7fe_7fd_7fd_7fd_7fd_7fd_7fd_7fd,
   0x7fd_7fc_7fc_7fc_7fc_7fc_7fc_7fb, 0x7fb_7fb_7fb_7fb_7fa_7fa_7fa_7fa,
   0x7f9_7f9_7f9_7f9_7f8_7f8_7f8_7f8, 0x7f7_7f7_7f7_7f7_7f6_7f6_7f6_7f5,
   0x7f5_7f5_7f5_7f4_7f4_7f4_7f3_7f3, 0x7f3_7f2_7f2_7f1_7f1_7f1_7f0_7f0,
   0x7f0_7ef_7ef_7ee_7ee_7ee_7ed_7ed, 0x7ec_7ec_7ec_7eb_7eb_7ea_7ea_7e9,
   0x7e9_7e8_7e8_7e7_7e7_7e6_7e6_7e6, 0x7e5_7e5_7e4_7e3_7e3_7e2_7e2_7e1,
   0x7e1_7e0_7e0_7df_7df_7de_7de_7dd, 0x7dc_7dc_7db_7db_7da_7d9_7d9_7d8,
   0x7d8_7d7_7d6_7d6_7d5_7d5_7d4_7d3, 0x7d3_7d2_7d1_7d1_7d0_7cf_7cf_7ce,
   0x7cd_7cd_7cc_7cb_7ca_7ca_7c9_7c8, 0x7c8_7c7_7c6_7c5_7c5_7c4_7c3_7c2,
   0x7c2_7c1_7c0_7bf_7bf_7be_7bd_7bc, 0x7bb_7bb_7ba_7b9_7b8_7b7_7b7_7b6,
   0x7b5_7b4_7b3_7b2_7b1_7b1_7b0_7af, 0x7ae_7ad_7ac_7ab_7aa_7aa_7a9_7a8,
   0x7a7_7a6_7a5_7a4_7a3_7a2_7a1_7a0, 0x79f_79e_79e_79d_79c_79b_79a_799,
   0x798_797_796_795_794_793_792_791, 0x790_78f_78e_78d_78c_78a_789_788,
   0x787_786_785_784_783_782_781_780, 0x77f_77e_77d_77b_77a_779_778_777,
   0x776_775_774_772_771_770_76f_76e, 0x76d_76b_76a_769_768_767_766_764,
   0x763_762_761_760_75e_75d_75c_75b, 0x759_758_757_756_754_753_752_751,
   0x74f_74e_74d_74c_74a_749_748_746, 0x745_744_742_741_740_73e_73d_73c,
   0x73a_739_738_736_735_734_732_731, 0x730_72e_72d_72b_72a_729_727_726,
   0x724_723_722_720_71f_71d_71c_71a, 0x719_718_716_715_713_712_710_70f,
   0x70d_70c_70a_709_707_706_704_703, 0x701_700_6fe_6fd_6fb_6fa_6f8_6f7,
   0x6f5_6f4_6f2_6f0_6ef_6ed_6ec_6ea, 0x6e9_6e7_6e5_6e4_6e2_6e1_6df_6dd,
   0x6dc_6da_6d9_6d7_6d5_6d4_6d2_6d0, 0x6cf_6cd_6cb_6ca_6c8_6c6_6c5_6c3,
   0x6c1_6c0_6be_6bc_6bb_6b9_6b7_6b6, 0x6b4_6b2_6b0_6af_6ad_6ab_6a9_6a8,
   0x6a6_6a4_6a3_6a1_69f_69d_69b_69a, 0x698_696_694_693_691_68f_68d_68b,
   0x68a_688_686_684_682_681_67f_67d, 0x67b_679_677_675_674_672_670_66e,
   0x66c_66a_668_667_665_663_661_65f, 0x65d_65b_659_657_655_654_652_650,
   0x64e_64c_64a_648_646_644_642_640, 0x63e_63c_63a_638_636_634_632_630,
   0x62e_62c_62a_628_626_624_622_620, 0x61e_61c_61a_618_616_614_612_610,
   0x60e_60c_60a_608_606_604_602_600, 0x5fd_5fb_5f9_5f7_5f5_5f3_5f1_5ef,
   0x5ed_5eb_5e9_5e6_5e4_5e2_5e0_5de, 0x5dc_5da_5d7_5d5_5d3_5d1_5cf_5cd,
   0x5cb_5c8_5c6_5c4_5c2_5c0_5bd_5bb, 0x5b9_5b7_5b5_5b3_5b0_5ae_5ac_5aa,
   0x5a7_5a5_5a3_5a1_59f_59c_59a_598, 0x596_593_591_58f_58d_58a_588_586,
   0x583_581_57f_57d_57a_578_576_573, 0x571_56f_56d_56a_568_566_563_561,
   0x55f_55c_55a_558_555_553_551_54e, 0x54c_54a_547_545_543_540_53e_53b,
   0x539_537_534_532_530_52d_52b_528, 0x526_524_521_51f_51c_51a_517_515,
   0x513_510_50e_50b_509_506_504_502, 0x4ff_4fd_4fa_4f8_4f5_4f3_4f0_4ee,
   0x4eb_4e9_4e6_4e4_4e1_4df_4dc_4da, 0x4d7_4d5_4d2_4d0_4cd_4cb_4c8_4c6,
   0x4c3_4c1_4be_4bc_4b9_4b7_4b4_4b2, 0x4af_4ad_4aa_4a7_4a5_4a2_4a0_49d,
   0x49b_498_496_493_490_48e_48b_489, 0x486_483_481_47e_47c_479_476_474,
   0x471_46f_46c_469_467_464_462_45f, 0x45c_45a_457_454_452_44f_44c_44a,
   0x447_444_442_43f_43d_43a_437_435, 0x432_42f_42c_42a_427_424_422_41f,
   0x41c_41a_417_414_412_40f_40c_409, 0x407_404_401_3ff_3fc_3f9_3f6_3f4,
   0x3f1_3ee_3eb_3e9_3e6_3e3_3e1_3de, 0x3db_3d8_3d6_3d3_3d0_3cd_3ca_3c8,
   0x3c5_3c2_3bf_3bd_3ba_3b7_3b4_3b2, 0x3af_3ac_3a9_3a6_3a4_3a1_39e_39b,
   0x398_396_393_390_38d_38a_387_385, 0x382_37f_37c_379_377_374_371_36e,
   0x36b_368_366_363_360_35d_35a_357, 0x354_352_34f_34c_349_346_343_340,
   0x33e_33b_338_335_332_32f_32c_329, 0x327_324_321_31e_31b_318_315_312,
   0x30f_30c_30a_307_304_301_2fe_2fb, 0x2f8_2f5_2f2_2ef_2ec_2e9_2e7_2e4,
   0x2e1_2de_2db_2d8_2d5_2d2_2cf_2cc, 0x2c9_2c6_2c3_2c0_2bd_2ba_2b8_2b5,
   0x2b2_2af_2ac_2a9_2a6_2a3_2a0_29d, 0x29a_297_294_291_28e_28b_288_285,
   0x282_27f_27c_279_276_273_270_26d, 0x26a_267_264_261_25e_25b_258_255,
   0x252_24f_24c_249_246_243_240_23d, 0x23a_237_234_231_22e_22b_228_225,
   0x222_21f_21c_219_216_213_210_20d, 0x20a_207_204_201_1fe_1fb_1f7_1f4,
   0x1f1_1ee_1eb_1e8_1e5_1e2_1df_1dc, 0x1d9_1d6_1d3_1d0_1cd_1ca_1c7_1c4,
   0x1c1_1bd_1ba_1b7_1b4_1b1_1ae_1ab, 0x1a8_1a5_1a2_19f_19c_199_196_192,
   0x18f_18c_189_186_183_180_17d_17a, 0x177_174_171_16d_16a_167_164_161,
   0x15e_15b_158_155_152_14e_14b_148, 0x145_142_13f_13c_139_136_133_12f,
   0x12c_129_126_123_120_11d_11a_117, 0x113_110_10d_10a_107_104_101_0fe,
   0x0fb_0f7_0f4_0f1_0ee_0eb_0e8_0e5, 0x0e2_0df_0db_0d8_0d5_0d2_0cf_0cc,
   0x0c9_0c6_0c2_0bf_0bc_0b9_0b6_0b3, 0x0b0_0ac_0a9_0a6_0a3_0a0_09d_09a,
   0x097_093_090_08d_08a_087_084_081, 0x07e_07a_077_074_071_06e_06b_068,
   0x064_061_05e_05b_058_055_052_04e, 0x04b_048_045_042_03f_03c_039_035,
   0x032_02f_02c_029_026_023_01f_01c, 0x019_016_013_010_00d_009_006_003,
   0x000_ffd_ffa_ff7_ff3_ff0_fed_fea, 0xfe7_fe4_fe1_fdd_fda_fd7_fd4_fd1,
   0xfce_fcb_fc7_fc4_fc1_fbe_fbb_fb8, 0xfb5_fb2_fae_fab_fa8_fa5_fa2_f9f,
   0xf9c_f98_f95_f92_f8f_f8c_f89_f86, 0xf82_f7f_f7c_f79_f76_f73_f70_f6d,
   0xf69_f66_f63_f60_f5d_f5a_f57_f54, 0xf50_f4d_f4a_f47_f44_f41_f3e_f3a,
   0xf37_f34_f31_f2e_f2b_f28_f25_f21, 0xf1e_f1b_f18_f15_f12_f0f_f0c_f09,
   0xf05_f02_eff_efc_ef9_ef6_ef3_ef0, 0xeed_ee9_ee6_ee3_ee0_edd_eda_ed7,
   0xed4_ed1_ecd_eca_ec7_ec4_ec1_ebe, 0xebb_eb8_eb5_eb2_eae_eab_ea8_ea5,
   0xea2_e9f_e9c_e99_e96_e93_e8f_e8c, 0xe89_e86_e83_e80_e7d_e7a_e77_e74,
   0xe71_e6e_e6a_e67_e64_e61_e5e_e5b, 0xe58_e55_e52_e4f_e4c_e49_e46_e43,
   0xe3f_e3c_e39_e36_e33_e30_e2d_e2a, 0xe27_e24_e21_e1e_e1b_e18_e15_e12,
   0xe0f_e0c_e09_e05_e02_dff_dfc_df9, 0xdf6_df3_df0_ded_dea_de7_de4_de1,
   0xdde_ddb_dd8_dd5_dd2_dcf_dcc_dc9, 0xdc6_dc3_dc0_dbd_dba_db7_db4_db1,
   0xdae_dab_da8_da5_da2_d9f_d9c_d99, 0xd96_d93_d90_d8d_d8a_d87_d84_d81,
   0xd7e_d7b_d78_d75_d72_d6f_d6c_d69, 0xd66_d63_d60_d5d_d5a_d57_d54_d51,
   0xd4e_d4b_d48_d46_d43_d40_d3d_d3a, 0xd37_d34_d31_d2e_d2b_d28_d25_d22,
   0xd1f_d1c_d19_d17_d14_d11_d0e_d0b, 0xd08_d05_d02_cff_cfc_cf9_cf6_cf4,
   0xcf1_cee_ceb_ce8_ce5_ce2_cdf_cdc, 0xcd9_cd7_cd4_cd1_cce_ccb_cc8_cc5,
   0xcc2_cc0_cbd_cba_cb7_cb4_cb1_cae, 0xcac_ca9_ca6_ca3_ca0_c9d_c9a_c98,
   0xc95_c92_c8f_c8c_c89_c87_c84_c81, 0xc7e_c7b_c79_c76_c73_c70_c6d_c6a,
   0xc68_c65_c62_c5f_c5c_c5a_c57_c54, 0xc51_c4e_c4c_c49_c46_c43_c41_c3e,
   0xc3b_c38_c36_c33_c30_c2d_c2a_c28, 0xc25_c22_c1f_c1d_c1a_c17_c15_c12,
   0xc0f_c0c_c0a_c07_c04_c01_bff_bfc, 0xbf9_bf7_bf4_bf1_bee_bec_be9_be6,
   0xbe4_be1_bde_bdc_bd9_bd6_bd4_bd1, 0xbce_bcb_bc9_bc6_bc3_bc1_bbe_bbc,
   0xbb9_bb6_bb4_bb1_bae_bac_ba9_ba6, 0xba4_ba1_b9e_b9c_b99_b97_b94_b91,
   0xb8f_b8c_b8a_b87_b84_b82_b7f_b7d, 0xb7a_b77_b75_b72_b70_b6d_b6a_b68,
   0xb65_b63_b60_b5e_b5b_b59_b56_b53, 0xb51_b4e_b4c_b49_b47_b44_b42_b3f,
   0xb3d_b3a_b38_b35_b33_b30_b2e_b2b, 0xb29_b26_b24_b21_b1f_b1c_b1a_b17,
   0xb15_b12_b10_b0d_b0b_b08_b06_b03, 0xb01_afe_afc_afa_af7_af5_af2_af0,
   0xaed_aeb_ae9_ae6_ae4_ae1_adf_adc, 0xada_ad8_ad5_ad3_ad0_ace_acc_ac9,
   0xac7_ac5_ac2_ac0_abd_abb_ab9_ab6, 0xab4_ab2_aaf_aad_aab_aa8_aa6_aa4,
   0xaa1_a9f_a9d_a9a_a98_a96_a93_a91, 0xa8f_a8d_a8a_a88_a86_a83_a81_a7f,
   0xa7d_a7a_a78_a76_a73_a71_a6f_a6d, 0xa6a_a68_a66_a64_a61_a5f_a5d_a5b,
   0xa59_a56_a54_a52_a50_a4d_a4b_a49, 0xa47_a45_a43_a40_a3e_a3c_a3a_a38,
   0xa35_a33_a31_a2f_a2d_a2b_a29_a26, 0xa24_a22_a20_a1e_a1c_a1a_a17_a15,
   0xa13_a11_a0f_a0d_a0b_a09_a07_a05, 0xa03_a00_9fe_9fc_9fa_9f8_9f6_9f4,
   0x9f2_9f0_9ee_9ec_9ea_9e8_9e6_9e4, 0x9e2_9e0_9de_9dc_9da_9d8_9d6_9d4,
   0x9d2_9d0_9ce_9cc_9ca_9c8_9c6_9c4, 0x9c2_9c0_9be_9bc_9ba_9b8_9b6_9b4,
   0x9b2_9b0_9ae_9ac_9ab_9a9_9a7_9a5, 0x9a3_9a1_99f_99d_99b_999_998_996,
   0x994_992_990_98e_98c_98b_989_987, 0x985_983_981_97f_97e_97c_97a_978,
   0x976_975_973_971_96f_96d_96c_96a, 0x968_966_965_963_961_95f_95d_95c,
   0x95a_958_957_955_953_951_950_94e, 0x94c_94a_949_947_945_944_942_940,
   0x93f_93d_93b_93a_938_936_935_933, 0x931_930_92e_92c_92b_929_927_926,
   0x924_923_921_91f_91e_91c_91b_919, 0x917_916_914_913_911_910_90e_90c,
   0x90b_909_908_906_905_903_902_900, 0x8ff_8fd_8fc_8fa_8f9_8f7_8f6_8f4,
   0x8f3_8f1_8f0_8ee_8ed_8eb_8ea_8e8, 0x8e7_8e6_8e4_8e3_8e1_8e0_8de_8dd,
   0x8dc_8da_8d9_8d7_8d6_8d5_8d3_8d2, 0x8d0_8cf_8ce_8cc_8cb_8ca_8c8_8c7,
   0x8c6_8c4_8c3_8c2_8c0_8bf_8be_8bc, 0x8bb_8ba_8b8_8b7_8b6_8b4_8b3_8b2,
   0x8b1_8af_8ae_8ad_8ac_8aa_8a9_8a8, 0x8a7_8a5_8a4_8a3_8a2_8a0_89f_89e,
   0x89d_89c_89a_899_898_897_896_895, 0x893_892_891_890_88f_88e_88c_88b,
   0x88a_889_888_887_886_885_883_882, 0x881_880_87f_87e_87d_87c_87b_87a,
   0x879_878_877_876_874_873_872_871, 0x870_86f_86e_86d_86c_86b_86a_869,
   0x868_867_866_865_864_863_862_862, 0x861_860_85f_85e_85d_85c_85b_85a,
   0x859_858_857_856_856_855_854_853, 0x852_851_850_84f_84f_84e_84d_84c,
   0x84b_84a_849_849_848_847_846_845, 0x845_844_843_842_841_841_840_83f,
   0x83e_83e_83d_83c_83b_83b_83a_839, 0x838_838_837_836_836_835_834_833,
   0x833_832_831_831_830_82f_82f_82e, 0x82d_82d_82c_82b_82b_82a_82a_829,
   0x828_828_827_827_826_825_825_824, 0x824_823_822_822_821_821_820_820,
   0x81f_81f_81e_81e_81d_81d_81c_81b, 0x81b_81a_81a_81a_819_819_818_818,
   0x817_817_816_816_815_815_814_814, 0x814_813_813_812_812_812_811_811,
   0x810_810_810_80f_80f_80f_80e_80e, 0x80d_80d_80d_80c_80c_80c_80b_80b,
   0x80b_80b_80a_80a_80a_809_809_809, 0x809_808_808_808_808_807_807_807,
   0x807_806_806_806_806_805_805_805, 0x805_805_804_804_804_804_804_804,
   0x803_803_803_803_803_803_803_803, 0x802_802_802_802_802_802_802_802,
   0x802_802_801_801_801_801_801_801, 0x801_801_801_801_801_801_801_801,
   0x801_801_801_801_801_801_801_801, 0x801_801_801_801_801_801_801_802,
   0x802_802_802_802_802_802_802_802, 0x802_803_803_803_803_803_803_803,
   0x803_804_804_804_804_804_804_805, 0x805_805_805_805_806_806_806_806,
   0x807_807_807_807_808_808_808_808, 0x809_809_809_809_80a_80a_80a_80b,
   0x80b_80b_80b_80c_80c_80c_80d_80d, 0x80d_80e_80e_80f_80f_80f_810_810,
   0x810_811_811_812_812_812_813_813, 0x814_814_814_815_815_816_816_817,
   0x817_818_818_819_819_81a_81a_81a, 0x81b_81b_81c_81d_81d_81e_81e_81f,
   0x81f_820_820_821_821_822_822_823, 0x824_824_825_825_826_827_827_828,
   0x828_829_82a_82a_82b_82b_82c_82d, 0x82d_82e_82f_82f_830_831_831_832,
   0x833_833_834_835_836_836_837_838, 0x838_839_83a_83b_83b_83c_83d_83e,
   0x83e_83f_840_841_841_842_843_844, 0x845_845_846_847_848_849_849_84a,
   0x84b_84c_84d_84e_84f_84f_850_851, 0x852_853_854_855_856_856_857_858,
   0x859_85a_85b_85c_85d_85e_85f_860, 0x861_862_862_863_864_865_866_867,
   0x868_869_86a_86b_86c_86d_86e_86f, 0x870_871_872_873_874_876_877_878,
   0x879_87a_87b_87c_87d_87e_87f_880, 0x881_882_883_885_886_887_888_889,
   0x88a_88b_88c_88e_88f_890_891_892, 0x893_895_896_897_898_899_89a_89c,
   0x89d_89e_89f_8a0_8a2_8a3_8a4_8a5, 0x8a7_8a8_8a9_8aa_8ac_8ad_8ae_8af,
   0x8b1_8b2_8b3_8b4_8b6_8b7_8b8_8ba, 0x8bb_8bc_8be_8bf_8c0_8c2_8c3_8c4,
   0x8c6_8c7_8c8_8ca_8cb_8cc_8ce_8cf, 0x8d0_8d2_8d3_8d5_8d6_8d7_8d9_8da,
   0x8dc_8dd_8de_8e0_8e1_8e3_8e4_8e6, 0x8e7_8e8_8ea_8eb_8ed_8ee_8f0_8f1,
   0x8f3_8f4_8f6_8f7_8f9_8fa_8fc_8fd, 0x8ff_900_902_903_905_906_908_909,
   0x90b_90c_90e_910_911_913_914_916, 0x917_919_91b_91c_91e_91f_921_923,
   0x924_926_927_929_92b_92c_92e_930, 0x931_933_935_936_938_93a_93b_93d,
   0x93f_940_942_944_945_947_949_94a, 0x94c_94e_950_951_953_955_957_958,
   0x95a_95c_95d_95f_961_963_965_966, 0x968_96a_96c_96d_96f_971_973_975,
   0x976_978_97a_97c_97e_97f_981_983, 0x985_987_989_98b_98c_98e_990_992,
   0x994_996_998_999_99b_99d_99f_9a1, 0x9a3_9a5_9a7_9a9_9ab_9ac_9ae_9b0,
   0x9b2_9b4_9b6_9b8_9ba_9bc_9be_9c0, 0x9c2_9c4_9c6_9c8_9ca_9cc_9ce_9d0,
   0x9d2_9d4_9d6_9d8_9da_9dc_9de_9e0, 0x9e2_9e4_9e6_9e8_9ea_9ec_9ee_9f0,
   0x9f2_9f4_9f6_9f8_9fa_9fc_9fe_a00, 0xa03_a05_a07_a09_a0b_a0d_a0f_a11,
   0xa13_a15_a17_a1a_a1c_a1e_a20_a22, 0xa24_a26_a29_a2b_a2d_a2f_a31_a33,
   0xa35_a38_a3a_a3c_a3e_a40_a43_a45, 0xa47_a49_a4b_a4d_a50_a52_a54_a56,
   0xa59_a5b_a5d_a5f_a61_a64_a66_a68, 0xa6a_a6d_a6f_a71_a73_a76_a78_a7a,
   0xa7d_a7f_a81_a83_a86_a88_a8a_a8d, 0xa8f_a91_a93_a96_a98_a9a_a9d_a9f,
   0xaa1_aa4_aa6_aa8_aab_aad_aaf_ab2, 0xab4_ab6_ab9_abb_abd_ac0_ac2_ac5,
   0xac7_ac9_acc_ace_ad0_ad3_ad5_ad8, 0xada_adc_adf_ae1_ae4_ae6_ae9_aeb,
   0xaed_af0_af2_af5_af7_afa_afc_afe, 0xb01_b03_b06_b08_b0b_b0d_b10_b12,
   0xb15_b17_b1a_b1c_b1f_b21_b24_b26, 0xb29_b2b_b2e_b30_b33_b35_b38_b3a,
   0xb3d_b3f_b42_b44_b47_b49_b4c_b4e, 0xb51_b53_b56_b59_b5b_b5e_b60_b63,
   0xb65_b68_b6a_b6d_b70_b72_b75_b77, 0xb7a_b7d_b7f_b82_b84_b87_b8a_b8c,
   0xb8f_b91_b94_b97_b99_b9c_b9e_ba1, 0xba4_ba6_ba9_bac_bae_bb1_bb4_bb6,
   0xbb9_bbc_bbe_bc1_bc3_bc6_bc9_bcb, 0xbce_bd1_bd4_bd6_bd9_bdc_bde_be1,
   0xbe4_be6_be9_bec_bee_bf1_bf4_bf7, 0xbf9_bfc_bff_c01_c04_c07_c0a_c0c,
   0xc0f_c12_c15_c17_c1a_c1d_c1f_c22, 0xc25_c28_c2a_c2d_c30_c33_c36_c38,
   0xc3b_c3e_c41_c43_c46_c49_c4c_c4e, 0xc51_c54_c57_c5a_c5c_c5f_c62_c65,
   0xc68_c6a_c6d_c70_c73_c76_c79_c7b, 0xc7e_c81_c84_c87_c89_c8c_c8f_c92,
   0xc95_c98_c9a_c9d_ca0_ca3_ca6_ca9, 0xcac_cae_cb1_cb4_cb7_cba_cbd_cc0,
   0xcc2_cc5_cc8_ccb_cce_cd1_cd4_cd7, 0xcd9_cdc_cdf_ce2_ce5_ce8_ceb_cee,
   0xcf1_cf4_cf6_cf9_cfc_cff_d02_d05, 0xd08_d0b_d0e_d11_d14_d17_d19_d1c,
   0xd1f_d22_d25_d28_d2b_d2e_d31_d34, 0xd37_d3a_d3d_d40_d43_d46_d48_d4b,
   0xd4e_d51_d54_d57_d5a_d5d_d60_d63, 0xd66_d69_d6c_d6f_d72_d75_d78_d7b,
   0xd7e_d81_d84_d87_d8a_d8d_d90_d93, 0xd96_d99_d9c_d9f_da2_da5_da8_dab,
   0xdae_db1_db4_db7_dba_dbd_dc0_dc3, 0xdc6_dc9_dcc_dcf_dd2_dd5_dd8_ddb,
   0xdde_de1_de4_de7_dea_ded_df0_df3, 0xdf6_df9_dfc_dff_e02_e05_e09_e0c,
   0xe0f_e12_e15_e18_e1b_e1e_e21_e24, 0xe27_e2a_e2d_e30_e33_e36_e39_e3c,
   0xe3f_e43_e46_e49_e4c_e4f_e52_e55, 0xe58_e5b_e5e_e61_e64_e67_e6a_e6e,
   0xe71_e74_e77_e7a_e7d_e80_e83_e86, 0xe89_e8c_e8f_e93_e96_e99_e9c_e9f,
   0xea2_ea5_ea8_eab_eae_eb2_eb5_eb8, 0xebb_ebe_ec1_ec4_ec7_eca_ecd_ed1,
   0xed4_ed7_eda_edd_ee0_ee3_ee6_ee9, 0xeed_ef0_ef3_ef6_ef9_efc_eff_f02,
   0xf05_f09_f0c_f0f_f12_f15_f18_f1b, 0xf1e_f21_f25_f28_f2b_f2e_f31_f34,
   0xf37_f3a_f3e_f41_f44_f47_f4a_f4d, 0xf50_f54_f57_f5a_f5d_f60_f63_f66,
   0xf69_f6d_f70_f73_f76_f79_f7c_f7f, 0xf82_f86_f89_f8c_f8f_f92_f95_f98,
   0xf9c_f9f_fa2_fa5_fa8_fab_fae_fb2, 0xfb5_fb8_fbb_fbe_fc1_fc4_fc7_fcb,
   0xfce_fd1_fd4_fd7_fda_fdd_fe1_fe4, 0xfe7_fea_fed_ff0_ff3_ff7_ffa_ffd,
   0x000_003_006_009_00d_010_013_016, 0x019_01c_01f_023_026_029_02c_02f,
   0x032_035_039_03c_03f_042_045_048, 0x04b_04e_052_055_058_05b_05e_061,
   0x064_068_06b_06e_071_074_077_07a, 0x07e_081_084_087_08a_08d_090_093,
   0x097_09a_09d_0a0_0a3_0a6_0a9_0ac, 0x0b0_0b3_0b6_0b9_0bc_0bf_0c2_0c6,
   0x0c9_0cc_0cf_0d2_0d5_0d8_0db_0df, 0x0e2_0e5_0e8_0eb_0ee_0f1_0f4_0f7,
   0x0fb_0fe_101_104_107_10a_10d_110, 0x113_117_11a_11d_120_123_126_129,
   0x12c_12f_133_136_139_13c_13f_142, 0x145_148_14b_14e_152_155_158_15b,
   0x15e_161_164_167_16a_16d_171_174, 0x177_17a_17d_180_183_186_189_18c,
   0x18f_192_196_199_19c_19f_1a2_1a5, 0x1a8_1ab_1ae_1b1_1b4_1b7_1ba_1bd,
   0x1c1_1c4_1c7_1ca_1cd_1d0_1d3_1d6, 0x1d9_1dc_1df_1e2_1e5_1e8_1eb_1ee,
   0x1f1_1f4_1f7_1fb_1fe_201_204_207, 0x20a_20d_210_213_216_219_21c_21f,
   0x222_225_228_22b_22e_231_234_237, 0x23a_23d_240_243_246_249_24c_24f,
   0x252_255_258_25b_25e_261_264_267, 0x26a_26d_270_273_276_279_27c_27f,
   0x282_285_288_28b_28e_291_294_297, 0x29a_29d_2a0_2a3_2a6_2a9_2ac_2af,
   0x2b2_2b5_2b8_2ba_2bd_2c0_2c3_2c6, 0x2c9_2cc_2cf_2d2_2d5_2d8_2db_2de,
   0x2e1_2e4_2e7_2e9_2ec_2ef_2f2_2f5, 0x2f8_2fb_2fe_301_304_307_30a_30c,
   0x30f_312_315_318_31b_31e_321_324, 0x327_329_32c_32f_332_335_338_33b,
   0x33e_340_343_346_349_34c_34f_352, 0x354_357_35a_35d_360_363_366_368,
   0x36b_36e_371_374_377_379_37c_37f, 0x382_385_387_38a_38d_390_393_396,
   0x398_39b_39e_3a1_3a4_3a6_3a9_3ac, 0x3af_3b2_3b4_3b7_3ba_3bd_3bf_3c2,
   0x3c5_3c8_3ca_3cd_3d0_3d3_3d6_3d8, 0x3db_3de_3e1_3e3_3e6_3e9_3eb_3ee,
   0x3f1_3f4_3f6_3f9_3fc_3ff_401_404, 0x407_409_40c_40f_412_414_417_41a,
   0x41c_41f_422_424_427_42a_42c_42f, 0x432_435_437_43a_43d_43f_442_444,
   0x447_44a_44c_44f_452_454_457_45a, 0x45c_45f_462_464_467_469_46c_46f,
   0x471_474_476_479_47c_47e_481_483, 0x486_489_48b_48e_490_493_496_498,
   0x49b_49d_4a0_4a2_4a5_4a7_4aa_4ad, 0x4af_4b2_4b4_4b7_4b9_4bc_4be_4c1,
   0x4c3_4c6_4c8_4cb_4cd_4d0_4d2_4d5, 0x4d7_4da_4dc_4df_4e1_4e4_4e6_4e9,
   0x4eb_4ee_4f0_4f3_4f5_4f8_4fa_4fd, 0x4ff_502_504_506_509_50b_50e_510,
   0x513_515_517_51a_51c_51f_521_524, 0x526_528_52b_52d_530_532_534_537,
   0x539_53b_53e_540_543_545_547_54a, 0x54c_54e_551_553_555_558_55a_55c,
   0x55f_561_563_566_568_56a_56d_56f, 0x571_573_576_578_57a_57d_57f_581,
   0x583_586_588_58a_58d_58f_591_593, 0x596_598_59a_59c_59f_5a1_5a3_5a5,
   0x5a7_5aa_5ac_5ae_5b0_5b3_5b5_5b7, 0x5b9_5bb_5bd_5c0_5c2_5c4_5c6_5c8,
   0x5cb_5cd_5cf_5d1_5d3_5d5_5d7_5da, 0x5dc_5de_5e0_5e2_5e4_5e6_5e9_5eb,
   0x5ed_5ef_5f1_5f3_5f5_5f7_5f9_5fb, 0x5fd_600_602_604_606_608_60a_60c,
   0x60e_610_612_614_616_618_61a_61c, 0x61e_620_622_624_626_628_62a_62c,
   0x62e_630_632_634_636_638_63a_63c, 0x63e_640_642_644_646_648_64a_64c,
   0x64e_650_652_654_655_657_659_65b, 0x65d_65f_661_663_665_667_668_66a,
   0x66c_66e_670_672_674_675_677_679, 0x67b_67d_67f_681_682_684_686_688,
   0x68a_68b_68d_68f_691_693_694_696, 0x698_69a_69b_69d_69f_6a1_6a3_6a4,
   0x6a6_6a8_6a9_6ab_6ad_6af_6b0_6b2, 0x6b4_6b6_6b7_6b9_6bb_6bc_6be_6c0,
   0x6c1_6c3_6c5_6c6_6c8_6ca_6cb_6cd, 0x6cf_6d0_6d2_6d4_6d5_6d7_6d9_6da,
   0x6dc_6dd_6df_6e1_6e2_6e4_6e5_6e7, 0x6e9_6ea_6ec_6ed_6ef_6f0_6f2_6f4,
   0x6f5_6f7_6f8_6fa_6fb_6fd_6fe_700, 0x701_703_704_706_707_709_70a_70c,
   0x70d_70f_710_712_713_715_716_718, 0x719_71a_71c_71d_71f_720_722_723,
   0x724_726_727_729_72a_72b_72d_72e, 0x730_731_732_734_735_736_738_739,
   0x73a_73c_73d_73e_740_741_742_744, 0x745_746_748_749_74a_74c_74d_74e,
   0x74f_751_752_753_754_756_757_758, 0x759_75b_75c_75d_75e_760_761_762,
   0x763_764_766_767_768_769_76a_76b, 0x76d_76e_76f_770_771_772_774_775,
   0x776_777_778_779_77a_77b_77d_77e, 0x77f_780_781_782_783_784_785_786,
   0x787_788_789_78a_78c_78d_78e_78f, 0x790_791_792_793_794_795_796_797,
   0x798_799_79a_79b_79c_79d_79e_79e, 0x79f_7a0_7a1_7a2_7a3_7a4_7a5_7a6,
   0x7a7_7a8_7a9_7aa_7aa_7ab_7ac_7ad, 0x7ae_7af_7b0_7b1_7b1_7b2_7b3_7b4,
   0x7b5_7b6_7b7_7b7_7b8_7b9_7ba_7bb, 0x7bb_7bc_7bd_7be_7bf_7bf_7c0_7c1,
   0x7c2_7c2_7c3_7c4_7c5_7c5_7c6_7c7, 0x7c8_7c8_7c9_7ca_7ca_7cb_7cc_7cd,
   0x7cd_7ce_7cf_7cf_7d0_7d1_7d1_7d2, 0x7d3_7d3_7d4_7d5_7d5_7d6_7d6_7d7,
   0x7d8_7d8_7d9_7d9_7da_7db_7db_7dc, 0x7dc_7dd_7de_7de_7df_7df_7e0_7e0,
   0x7e1_7e1_7e2_7e2_7e3_7e3_7e4_7e5, 0x7e5_7e6_7e6_7e6_7e7_7e7_7e8_7e8,
   0x7e9_7e9_7ea_7ea_7eb_7eb_7ec_7ec, 0x7ec_7ed_7ed_7ee_7ee_7ee_7ef_7ef,
   0x7f0_7f0_7f0_7f1_7f1_7f1_7f2_7f2, 0x7f3_7f3_7f3_7f4_7f4_7f4_7f5_7f5,
   0x7f5_7f5_7f6_7f6_7f6_7f7_7f7_7f7, 0x7f7_7f8_7f8_7f8_7f8_7f9_7f9_7f9,
   0x7f9_7fa_7fa_7fa_7fa_7fb_7fb_7fb, 0x7fb_7fb_7fc_7fc_7fc_7fc_7fc_7fc,
   0x7fd_7fd_7fd_7fd_7fd_7fd_7fd_7fd, 0x7fe_7fe_7fe_7fe_7fe_7fe_7fe_7fe,
   0x7fe_7fe_7ff_7ff_7ff_7ff_7ff_7ff, 0x7ff_7ff_7ff_7ff_7ff_7ff_7ff_7ff]

/-- The eight 12-bit words of a source line, the first word on the left. -/
def romRow (r : ℕ) : List ℕ :=
  [84, 72, 60, 48, 36, 24, 12, 0].map fun k => (r >>> k) % 4096

/-- `signal SIN_ROM : rom_type`. -/
def sinRomList : List ℕ := sinRomRows.flatMap romRow

/-- `signal COS_ROM : rom_type`. -/
def cosRomList : List ℕ := cosRomRows.flatMap romRow

/-- `SIN_ROM(conv_integer(addr))`. -/
def sinRom (addr : BitVec 12) : BitVec 12 := Rom.ofList 12 sinRomList addr

/-- `COS_ROM(conv_integer(addr))`. -/
def cosRom (addr : BitVec 12) : BitVec 12 := Rom.ofList 12 cosRomList addr

/-! ### The tests on the lists -/

theorem length_sinRomList : sinRomList.length = 2 ^ 12 := by decide +kernel

theorem slopeTest_sinRomList : Rom.slopeTest 12 4 sinRomList = true := by decide +kernel

theorem cosRomList_beq : (cosRomList == Rom.rotated 1024 sinRomList) = true := by decide +kernel

theorem sinRomList_beq :
    (Rom.rotated 2048 sinRomList == sinRomList.map fun x => (4096 - x) % 4096) = true := by
  decide +kernel

theorem sinRomList_range : (sinRomList.all fun x => x < 4096 && x != 2048) = true := by
  decide +kernel

theorem cosRomList_eq : cosRomList = Rom.rotated 1024 sinRomList := eq_of_beq cosRomList_beq

/-! ### The tables as functions of the address -/

/-- The cosine is the sine a quarter turn ahead. -/
theorem cosRom_eq (a : BitVec 12) : cosRom a = sinRom (a + 1024#12) := by
  rw [cosRom, cosRomList_eq]
  exact Rom.ofList_rotate length_sinRomList 1024#12 a

/-- Half a turn negates the sine. -/
theorem sinRom_half_turn (a : BitVec 12) : sinRom (a + 2048#12) = -sinRom a := by
  have hle : ∀ x ∈ sinRomList, x ≤ 2 ^ 12 := fun x hx => by
    have := List.all_eq_true.1 sinRomList_range x hx
    simp at this
    omega
  rw [sinRom, sinRom, ← Rom.ofList_rotate length_sinRomList,
    show (2048#12).toNat = 2048 from rfl, eq_of_beq sinRomList_beq]
  exact Rom.ofList_neg length_sinRomList hle a

theorem sinRom_slope : Rom.Slope sinRom 4 :=
  Rom.slope_ofList (by decide) length_sinRomList slopeTest_sinRomList

theorem cosRom_slope : Rom.Slope cosRom 4 := sinRom_slope.rotate cosRom_eq

theorem sinRom_ne_min (a : BitVec 12) : sinRom a ≠ 0x800#12 := by
  refine Rom.ofList_ne length_sinRomList (fun x hx => ?_) a
  have := List.all_eq_true.1 sinRomList_range x hx
  simp at this
  omega

theorem cosRom_ne_min (a : BitVec 12) : cosRom a ≠ 0x800#12 := by
  rw [cosRom_eq]
  exact sinRom_ne_min _

end DigitalModulation
