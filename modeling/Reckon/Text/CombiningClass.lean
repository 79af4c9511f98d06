import Reckon.Text.Ranges

/-! Canonical combining classes: zero for a character that starts a cluster. -/
namespace Reckon.Text.CombiningClass

def combiningFrom300 : List Nat := [
  0x00300_00314_E6, 0x00315_00315_E8, 0x00316_00319_DC, 0x0031A_0031A_E8, 0x0031B_0031B_D8,
  0x0031C_00320_DC, 0x00321_00322_CA, 0x00323_00326_DC, 0x00327_00328_CA, 0x00329_00333_DC,
  0x00334_00338_01, 0x00339_0033C_DC, 0x0033D_00344_E6, 0x00345_00345_F0, 0x00346_00346_E6,
  0x00347_00349_DC, 0x0034A_0034C_E6, 0x0034D_0034E_DC, 0x00350_00352_E6, 0x00353_00356_DC,
  0x00357_00357_E6, 0x00358_00358_E8, 0x00359_0035A_DC, 0x0035B_0035B_E6, 0x0035C_0035C_E9,
  0x0035D_0035E_EA, 0x0035F_0035F_E9, 0x00360_00361_EA, 0x00362_00362_E9, 0x00363_0036F_E6,
  0x00483_00487_E6, 0x00591_00591_DC, 0x00592_00595_E6, 0x00596_00596_DC, 0x00597_00599_E6,
  0x0059A_0059A_DE, 0x0059B_0059B_DC, 0x0059C_005A1_E6, 0x005A2_005A7_DC, 0x005A8_005A9_E6,
  0x005AA_005AA_DC, 0x005AB_005AC_E6, 0x005AD_005AD_DE, 0x005AE_005AE_E4, 0x005AF_005AF_E6,
  0x005B0_005B0_0A, 0x005B1_005B1_0B, 0x005B2_005B2_0C, 0x005B3_005B3_0D, 0x005B4_005B4_0E,
  0x005B5_005B5_0F, 0x005B6_005B6_10, 0x005B7_005B7_11, 0x005B8_005B8_12, 0x005B9_005BA_13,
  0x005BB_005BB_14, 0x005BC_005BC_15, 0x005BD_005BD_16, 0x005BF_005BF_17, 0x005C1_005C1_18,
  0x005C2_005C2_19, 0x005C4_005C4_E6, 0x005C5_005C5_DC, 0x005C7_005C7_12]

def combiningFrom5C8 : List Nat := [
  0x005C8_005C8_0A, 0x00610_00617_E6, 0x00618_00618_1E, 0x00619_00619_1F, 0x0061A_0061A_20,
  0x0064B_0064B_1B, 0x0064C_0064C_1C, 0x0064D_0064D_1D, 0x0064E_0064E_1E, 0x0064F_0064F_1F,
  0x00650_00650_20, 0x00651_00651_21, 0x00652_00652_22, 0x00653_00654_E6, 0x00655_00656_DC,
  0x00657_0065B_E6, 0x0065C_0065C_DC, 0x0065D_0065E_E6, 0x0065F_0065F_DC, 0x00670_00670_23,
  0x006D6_006DC_E6, 0x006DF_006E2_E6, 0x006E3_006E3_DC, 0x006E4_006E4_E6, 0x006E7_006E8_E6,
  0x006EA_006EA_DC, 0x006EB_006EC_E6, 0x006ED_006ED_DC, 0x00711_00711_24, 0x00730_00730_E6,
  0x00731_00731_DC, 0x00732_00733_E6, 0x00734_00734_DC, 0x00735_00736_E6, 0x00737_00739_DC,
  0x0073A_0073A_E6, 0x0073B_0073C_DC, 0x0073D_0073D_E6, 0x0073E_0073E_DC, 0x0073F_00741_E6,
  0x00742_00742_DC, 0x00743_00743_E6, 0x00744_00744_DC, 0x00745_00745_E6, 0x00746_00746_DC,
  0x00747_00747_E6, 0x00748_00748_DC, 0x00749_0074A_E6, 0x007EB_007F1_E6, 0x007F2_007F2_DC,
  0x007F3_007F3_E6, 0x007FD_007FD_DC, 0x00816_00819_E6, 0x0081B_00823_E6, 0x00825_00827_E6,
  0x00829_0082D_E6, 0x00859_0085B_DC, 0x00897_00898_E6, 0x00899_0089B_DC, 0x0089C_0089F_E6,
  0x008CA_008CE_E6, 0x008CF_008D3_DC, 0x008D4_008E1_E6, 0x008E3_008E3_DC]

def combiningFrom8E4 : List Nat := [
  0x008E4_008E5_E6, 0x008E6_008E6_DC, 0x008E7_008E8_E6, 0x008E9_008E9_DC, 0x008EA_008EC_E6,
  0x008ED_008EF_DC, 0x008F0_008F0_1B, 0x008F1_008F1_1C, 0x008F2_008F2_1D, 0x008F3_008F5_E6,
  0x008F6_008F6_DC, 0x008F7_008F8_E6, 0x008F9_008FA_DC, 0x008FB_008FF_E6, 0x0093C_0093C_07,
  0x0094D_0094D_09, 0x00951_00951_E6, 0x00952_00952_DC, 0x00953_00954_E6, 0x009BC_009BC_07,
  0x009CD_009CD_09, 0x009FE_009FE_E6, 0x00A3C_00A3C_07, 0x00A4D_00A4D_09, 0x00ABC_00ABC_07,
  0x00ACD_00ACD_09, 0x00B3C_00B3C_07, 0x00B4D_00B4D_09, 0x00BCD_00BCD_09, 0x00C3C_00C3C_07,
  0x00C4D_00C4D_09, 0x00C55_00C55_54, 0x00C56_00C56_5B, 0x00CBC_00CBC_07, 0x00CCD_00CCD_09,
  0x00D3B_00D3C_09, 0x00D4D_00D4D_09, 0x00DCA_00DCA_09, 0x00E38_00E39_67, 0x00E3A_00E3A_09,
  0x00E48_00E4B_6B, 0x00EB8_00EB9_76, 0x00EBA_00EBA_09, 0x00EC8_00ECB_7A, 0x00F18_00F19_DC,
  0x00F35_00F35_DC, 0x00F37_00F37_DC, 0x00F39_00F39_D8, 0x00F71_00F71_81, 0x00F72_00F72_82,
  0x00F74_00F74_84, 0x00F7A_00F7D_82, 0x00F80_00F80_82, 0x00F82_00F83_E6, 0x00F84_00F84_09,
  0x00F86_00F87_E6, 0x00FC6_00FC6_DC, 0x01037_01037_07, 0x01039_0103A_09, 0x0108D_0108D_DC,
  0x0135D_0135F_E6, 0x01714_01715_09, 0x01734_01734_09, 0x017D2_017D2_09]

def combiningFrom17DD : List Nat := [
  0x017DD_017DD_E6, 0x018A9_018A9_E4, 0x01939_01939_DE, 0x0193A_0193A_E6, 0x0193B_0193B_DC,
  0x01A17_01A17_E6, 0x01A18_01A18_DC, 0x01A60_01A60_09, 0x01A75_01A7C_E6, 0x01A7F_01A7F_DC,
  0x01AB0_01AB4_E6, 0x01AB5_01ABA_DC, 0x01ABB_01ABC_E6, 0x01ABD_01ABD_DC, 0x01ABF_01AC0_DC,
  0x01AC1_01AC2_E6, 0x01AC3_01AC4_DC, 0x01AC5_01AC9_E6, 0x01ACA_01ACA_DC, 0x01ACB_01ADC_E6,
  0x01ADD_01ADD_DC, 0x01AE0_01AE5_E6, 0x01AE6_01AE6_DC, 0x01AE7_01AEA_E6, 0x01AEB_01AEB_EA,
  0x01AEC_01AED_E6, 0x01AEE_01AEE_DC, 0x01AEF_01AF0_E6, 0x01B34_01B34_07, 0x01B44_01B44_09,
  0x01B6B_01B6B_E6, 0x01B6C_01B6C_DC, 0x01B6D_01B73_E6, 0x01BAA_01BAB_09, 0x01BE6_01BE6_07,
  0x01BF2_01BF3_09, 0x01C37_01C37_07, 0x01CD0_01CD2_E6, 0x01CD4_01CD4_01, 0x01CD5_01CD9_DC,
  0x01CDA_01CDB_E6, 0x01CDC_01CDF_DC, 0x01CE0_01CE0_E6, 0x01CE2_01CE8_01, 0x01CED_01CED_DC,
  0x01CF4_01CF4_E6, 0x01CF8_01CF9_E6, 0x01DC0_01DC1_E6, 0x01DC2_01DC2_DC, 0x01DC3_01DC9_E6,
  0x01DCA_01DCA_DC, 0x01DCB_01DCC_E6, 0x01DCD_01DCD_EA, 0x01DCE_01DCE_D6, 0x01DCF_01DCF_DC,
  0x01DD0_01DD0_CA, 0x01DD1_01DF5_E6, 0x01DF6_01DF6_E8, 0x01DF7_01DF8_E4, 0x01DF9_01DF9_DC,
  0x01DFA_01DFA_DA, 0x01DFB_01DFB_E6, 0x01DFC_01DFC_E9, 0x01DFD_01DFD_DC]

def combiningFrom1DFE : List Nat := [
  0x01DFE_01DFE_E6, 0x01DFF_01DFF_DC, 0x020D0_020D1_E6, 0x020D2_020D3_01, 0x020D4_020D7_E6,
  0x020D8_020DA_01, 0x020DB_020DC_E6, 0x020E1_020E1_E6, 0x020E5_020E6_01, 0x020E7_020E7_E6,
  0x020E8_020E8_DC, 0x020E9_020E9_E6, 0x020EA_020EB_01, 0x020EC_020EF_DC, 0x020F0_020F0_E6,
  0x02CEF_02CF1_E6, 0x02D7F_02D7F_09, 0x02DE0_02DFF_E6, 0x0302A_0302A_DA, 0x0302B_0302B_E4,
  0x0302C_0302C_E8, 0x0302D_0302D_DE, 0x0302E_0302F_E0, 0x03099_0309A_08, 0x0A66F_0A66F_E6,
  0x0A674_0A67D_E6, 0x0A69E_0A69F_E6, 0x0A6F0_0A6F1_E6, 0x0A806_0A806_09, 0x0A82C_0A82C_09,
  0x0A8C4_0A8C4_09, 0x0A8E0_0A8F1_E6, 0x0A92B_0A92D_DC, 0x0A953_0A953_09, 0x0A9B3_0A9B3_07,
  0x0A9C0_0A9C0_09, 0x0AAB0_0AAB0_E6, 0x0AAB2_0AAB3_E6, 0x0AAB4_0AAB4_DC, 0x0AAB7_0AAB8_E6,
  0x0AABE_0AABF_E6, 0x0AAC1_0AAC1_E6, 0x0AAF6_0AAF6_09, 0x0ABED_0ABED_09, 0x0FB1E_0FB1E_1A,
  0x0FE20_0FE26_E6, 0x0FE27_0FE2D_DC, 0x0FE2E_0FE2F_E6, 0x101FD_101FD_DC, 0x102E0_102E0_DC,
  0x10376_1037A_E6, 0x10A0D_10A0D_DC, 0x10A0F_10A0F_E6, 0x10A38_10A38_E6, 0x10A39_10A39_01,
  0x10A3A_10A3A_DC, 0x10A3F_10A3F_09, 0x10AE5_10AE5_E6, 0x10AE6_10AE6_DC, 0x10D24_10D27_E6,
  0x10D69_10D6D_E6, 0x10EAB_10EAC_E6, 0x10ECB_10ECC_E6, 0x10ECD_10ECD_DC]

def combiningFrom10EF6 : List Nat := [
  0x10EF6_10EFB_DC, 0x10EFD_10EFF_DC, 0x10F46_10F47_DC, 0x10F48_10F4A_E6, 0x10F4B_10F4B_DC,
  0x10F4C_10F4C_E6, 0x10F4D_10F50_DC, 0x10F82_10F82_E6, 0x10F83_10F83_DC, 0x10F84_10F84_E6,
  0x10F85_10F85_DC, 0x11046_11046_09, 0x11070_11070_09, 0x1107F_1107F_09, 0x110B9_110B9_09,
  0x110BA_110BA_07, 0x11100_11102_E6, 0x11133_11134_09, 0x11173_11173_07, 0x111C0_111C0_09,
  0x111CA_111CA_07, 0x11235_11235_09, 0x11236_11236_07, 0x112E9_112E9_07, 0x112EA_112EA_09,
  0x1133B_1133C_07, 0x1134D_1134D_09, 0x11366_1136C_E6, 0x11370_11374_E6, 0x113CE_113D0_09,
  0x11442_11442_09, 0x11446_11446_07, 0x1145E_1145E_E6, 0x114C2_114C2_09, 0x114C3_114C3_07,
  0x115BF_115BF_09, 0x115C0_115C0_07, 0x1163F_1163F_09, 0x116B6_116B6_09, 0x116B7_116B7_07,
  0x1172B_1172B_09, 0x11839_11839_09, 0x1183A_1183A_07, 0x1193D_1193E_09, 0x11943_11943_07,
  0x119E0_119E0_09, 0x11A34_11A34_09, 0x11A47_11A47_09, 0x11A99_11A99_09, 0x11C3F_11C3F_09,
  0x11D42_11D42_07, 0x11D44_11D45_09, 0x11D97_11D97_09, 0x11F41_11F42_09, 0x1612F_1612F_09,
  0x16AF0_16AF4_01, 0x16B30_16B36_E6, 0x16FF0_16FF1_06, 0x1BC9E_1BC9E_01, 0x1D165_1D166_D8,
  0x1D167_1D169_01, 0x1D16D_1D16D_E2, 0x1D16E_1D172_D8, 0x1D17B_1D182_DC]

def combiningFrom1D185 : List Nat := [
  0x1D185_1D189_E6, 0x1D18A_1D18B_DC, 0x1D1AA_1D1AD_E6, 0x1D242_1D244_E6, 0x1D252_1D252_DC,
  0x1D25B_1D25B_01, 0x1E000_1E006_E6, 0x1E008_1E018_E6, 0x1E01B_1E021_E6, 0x1E023_1E024_E6,
  0x1E026_1E02A_E6, 0x1E08F_1E08F_E6, 0x1E130_1E136_E6, 0x1E2AE_1E2AE_E6, 0x1E2EC_1E2EF_E6,
  0x1E4EC_1E4ED_E8, 0x1E4EE_1E4EE_DC, 0x1E4EF_1E4EF_E6, 0x1E5EE_1E5EE_E6, 0x1E5EF_1E5EF_DC,
  0x1E6E3_1E6E3_E6, 0x1E6E6_1E6E6_E6, 0x1E6EE_1E6EF_E6, 0x1E6F5_1E6F5_E6, 0x1E8D0_1E8D6_DC,
  0x1E944_1E949_E6, 0x1E94A_1E94A_07]

/-- Ranges with their class: two code points of five hexadecimal digits and two for the class. -/
def pages : List Page := [
  ⟨0x300, 0x5C7, combiningFrom300⟩,
  ⟨0x5C8, 0x8E3, combiningFrom5C8⟩,
  ⟨0x8E4, 0x17D2, combiningFrom8E4⟩,
  ⟨0x17DD, 0x1DFD, combiningFrom17DD⟩,
  ⟨0x1DFE, 0x10ECD, combiningFrom1DFE⟩,
  ⟨0x10EF6, 0x1D182, combiningFrom10EF6⟩,
  ⟨0x1D185, 0x1E94A, combiningFrom1D185⟩]

end CombiningClass

def combiningClass (c : Char) : Nat :=
  let code := c.toNat
  let inside (entry : Nat) : Bool :=
    entry / 0x10000000 ≤ code && code ≤ entry / 0x100 % 0x100000
  match (Page.entriesFor CombiningClass.pages code).find? inside with
  | some entry => entry % 0x100
  | none => 0

end Reckon.Text
