import Reckon.Text.Ranges

/-! Characters that extend the one before them (the property Grapheme_Extend). -/
namespace Reckon.Text.GraphemeExtend

def graphemeExtendFrom300 : List Nat := [
  0x000300_00036F, 0x000483_000489, 0x000591_0005BD, 0x0005BF_0005BF, 0x0005C1_0005C2,
  0x0005C4_0005C5, 0x0005C7_0005C7, 0x000610_00061A, 0x00064B_00065F, 0x000670_000670,
  0x0006D6_0006DC, 0x0006DF_0006E4, 0x0006E7_0006E8, 0x0006EA_0006ED, 0x000711_000711,
  0x000730_00074A, 0x0007A6_0007B0, 0x0007EB_0007F3, 0x0007FD_0007FD, 0x000816_000819,
  0x00081B_000823, 0x000825_000827, 0x000829_00082D, 0x000859_00085B, 0x000897_00089F,
  0x0008CA_0008E1, 0x0008E3_000902, 0x00093A_00093A, 0x00093C_00093C, 0x000941_000948,
  0x00094D_00094D, 0x000951_000957, 0x000962_000963, 0x000981_000981, 0x0009BC_0009BC,
  0x0009BE_0009BE, 0x0009C1_0009C4, 0x0009CD_0009CD, 0x0009D7_0009D7, 0x0009E2_0009E3,
  0x0009FE_0009FE, 0x000A01_000A02, 0x000A3C_000A3C, 0x000A41_000A42, 0x000A47_000A48,
  0x000A4B_000A4D, 0x000A51_000A51, 0x000A70_000A71, 0x000A75_000A75, 0x000A81_000A82,
  0x000ABC_000ABC, 0x000AC1_000AC5, 0x000AC7_000AC8, 0x000ACD_000ACD, 0x000AE2_000AE3,
  0x000AFA_000AFF, 0x000B01_000B01, 0x000B3C_000B3C, 0x000B3E_000B3F, 0x000B41_000B44,
  0x000B4D_000B4D, 0x000B55_000B57, 0x000B62_000B63, 0x000B82_000B82]

def graphemeExtendFromBBE : List Nat := [
  0x000BBE_000BBE, 0x000BC0_000BC0, 0x000BCD_000BCD, 0x000BD7_000BD7, 0x000C00_000C00,
  0x000C04_000C04, 0x000C3C_000C3C, 0x000C3E_000C40, 0x000C46_000C48, 0x000C4A_000C4D,
  0x000C55_000C56, 0x000C62_000C63, 0x000C81_000C81, 0x000CBC_000CBC, 0x000CBF_000CC0,
  0x000CC2_000CC2, 0x000CC6_000CC8, 0x000CCA_000CCD, 0x000CD5_000CD6, 0x000CE2_000CE3,
  0x000D00_000D01, 0x000D3B_000D3C, 0x000D3E_000D3E, 0x000D41_000D44, 0x000D4D_000D4D,
  0x000D57_000D57, 0x000D62_000D63, 0x000D81_000D81, 0x000DCA_000DCA, 0x000DCF_000DCF,
  0x000DD2_000DD4, 0x000DD6_000DD6, 0x000DDF_000DDF, 0x000E31_000E31, 0x000E34_000E3A,
  0x000E47_000E4E, 0x000EB1_000EB1, 0x000EB4_000EBC, 0x000EC8_000ECE, 0x000F18_000F19,
  0x000F35_000F35, 0x000F37_000F37, 0x000F39_000F39, 0x000F71_000F7E, 0x000F80_000F84,
  0x000F86_000F87, 0x000F8D_000F97, 0x000F99_000FBC, 0x000FC6_000FC6, 0x00102D_001030,
  0x001032_001037, 0x001039_00103A, 0x00103D_00103E, 0x001058_001059, 0x00105E_001060,
  0x001071_001074, 0x001082_001082, 0x001085_001086, 0x00108D_00108D, 0x00109D_00109D,
  0x00135D_00135F, 0x001712_001715, 0x001732_001734, 0x001752_001753]

def graphemeExtendFrom1772 : List Nat := [
  0x001772_001773, 0x0017B4_0017B5, 0x0017B7_0017BD, 0x0017C6_0017C6, 0x0017C9_0017D3,
  0x0017DD_0017DD, 0x00180B_00180D, 0x00180F_00180F, 0x001885_001886, 0x0018A9_0018A9,
  0x001920_001922, 0x001927_001928, 0x001932_001932, 0x001939_00193B, 0x001A17_001A18,
  0x001A1B_001A1B, 0x001A56_001A56, 0x001A58_001A5E, 0x001A60_001A60, 0x001A62_001A62,
  0x001A65_001A6C, 0x001A73_001A7C, 0x001A7F_001A7F, 0x001AB0_001ADD, 0x001AE0_001AEB,
  0x001B00_001B03, 0x001B34_001B3D, 0x001B42_001B44, 0x001B6B_001B73, 0x001B80_001B81,
  0x001BA2_001BA5, 0x001BA8_001BAD, 0x001BE6_001BE6, 0x001BE8_001BE9, 0x001BED_001BED,
  0x001BEF_001BF3, 0x001C2C_001C33, 0x001C36_001C37, 0x001CD0_001CD2, 0x001CD4_001CE0,
  0x001CE2_001CE8, 0x001CED_001CED, 0x001CF4_001CF4, 0x001CF8_001CF9, 0x001DC0_001DFF,
  0x00200C_00200C, 0x0020D0_0020F0, 0x002CEF_002CF1, 0x002D7F_002D7F, 0x002DE0_002DFF,
  0x00302A_00302F, 0x003099_00309A, 0x00A66F_00A672, 0x00A674_00A67D, 0x00A69E_00A69F,
  0x00A6F0_00A6F1, 0x00A802_00A802, 0x00A806_00A806, 0x00A80B_00A80B, 0x00A825_00A826,
  0x00A82C_00A82C, 0x00A8C4_00A8C5, 0x00A8E0_00A8F1, 0x00A8FF_00A8FF]

def graphemeExtendFromA926 : List Nat := [
  0x00A926_00A92D, 0x00A947_00A951, 0x00A953_00A953, 0x00A980_00A982, 0x00A9B3_00A9B3,
  0x00A9B6_00A9B9, 0x00A9BC_00A9BD, 0x00A9C0_00A9C0, 0x00A9E5_00A9E5, 0x00AA29_00AA2E,
  0x00AA31_00AA32, 0x00AA35_00AA36, 0x00AA43_00AA43, 0x00AA4C_00AA4C, 0x00AA7C_00AA7C,
  0x00AAB0_00AAB0, 0x00AAB2_00AAB4, 0x00AAB7_00AAB8, 0x00AABE_00AABF, 0x00AAC1_00AAC1,
  0x00AAEC_00AAED, 0x00AAF6_00AAF6, 0x00ABE5_00ABE5, 0x00ABE8_00ABE8, 0x00ABED_00ABED,
  0x00FB1E_00FB1E, 0x00FE00_00FE0F, 0x00FE20_00FE2F, 0x00FF9E_00FF9F, 0x0101FD_0101FD,
  0x0102E0_0102E0, 0x010376_01037A, 0x010A01_010A03, 0x010A05_010A06, 0x010A0C_010A0F,
  0x010A38_010A3A, 0x010A3F_010A3F, 0x010AE5_010AE6, 0x010D24_010D27, 0x010D69_010D6D,
  0x010EAB_010EAC, 0x010EFA_010EFF, 0x010F46_010F50, 0x010F82_010F85, 0x011001_011001,
  0x011038_011046, 0x011070_011070, 0x011073_011074, 0x01107F_011081, 0x0110B3_0110B6,
  0x0110B9_0110BA, 0x0110C2_0110C2, 0x011100_011102, 0x011127_01112B, 0x01112D_011134,
  0x011173_011173, 0x011180_011181, 0x0111B6_0111BE, 0x0111C0_0111C0, 0x0111C9_0111CC,
  0x0111CF_0111CF, 0x01122F_011231, 0x011234_011237, 0x01123E_01123E]

def graphemeExtendFrom11241 : List Nat := [
  0x011241_011241, 0x0112DF_0112DF, 0x0112E3_0112EA, 0x011300_011301, 0x01133B_01133C,
  0x01133E_01133E, 0x011340_011340, 0x01134D_01134D, 0x011357_011357, 0x011366_01136C,
  0x011370_011374, 0x0113B8_0113B8, 0x0113BB_0113C0, 0x0113C2_0113C2, 0x0113C5_0113C5,
  0x0113C7_0113C9, 0x0113CE_0113D0, 0x0113D2_0113D2, 0x0113E1_0113E2, 0x011438_01143F,
  0x011442_011444, 0x011446_011446, 0x01145E_01145E, 0x0114B0_0114B0, 0x0114B3_0114B8,
  0x0114BA_0114BA, 0x0114BD_0114BD, 0x0114BF_0114C0, 0x0114C2_0114C3, 0x0115AF_0115AF,
  0x0115B2_0115B5, 0x0115BC_0115BD, 0x0115BF_0115C0, 0x0115DC_0115DD, 0x011633_01163A,
  0x01163D_01163D, 0x01163F_011640, 0x0116AB_0116AB, 0x0116AD_0116AD, 0x0116B0_0116B7,
  0x01171D_01171D, 0x01171F_01171F, 0x011722_011725, 0x011727_01172B, 0x01182F_011837,
  0x011839_01183A, 0x011930_011930, 0x01193B_01193E, 0x011943_011943, 0x0119D4_0119D7,
  0x0119DA_0119DB, 0x0119E0_0119E0, 0x011A01_011A0A, 0x011A33_011A38, 0x011A3B_011A3E,
  0x011A47_011A47, 0x011A51_011A56, 0x011A59_011A5B, 0x011A8A_011A96, 0x011A98_011A99,
  0x011B60_011B60, 0x011B62_011B64, 0x011B66_011B66, 0x011C30_011C36]

def graphemeExtendFrom11C38 : List Nat := [
  0x011C38_011C3D, 0x011C3F_011C3F, 0x011C92_011CA7, 0x011CAA_011CB0, 0x011CB2_011CB3,
  0x011CB5_011CB6, 0x011D31_011D36, 0x011D3A_011D3A, 0x011D3C_011D3D, 0x011D3F_011D45,
  0x011D47_011D47, 0x011D90_011D91, 0x011D95_011D95, 0x011D97_011D97, 0x011EF3_011EF4,
  0x011F00_011F01, 0x011F36_011F3A, 0x011F40_011F42, 0x011F5A_011F5A, 0x013440_013440,
  0x013447_013455, 0x01611E_016129, 0x01612D_01612F, 0x016AF0_016AF4, 0x016B30_016B36,
  0x016F4F_016F4F, 0x016F8F_016F92, 0x016FE4_016FE4, 0x016FF0_016FF1, 0x01BC9D_01BC9E,
  0x01CF00_01CF2D, 0x01CF30_01CF46, 0x01D165_01D169, 0x01D16D_01D172, 0x01D17B_01D182,
  0x01D185_01D18B, 0x01D1AA_01D1AD, 0x01D242_01D244, 0x01DA00_01DA36, 0x01DA3B_01DA6C,
  0x01DA75_01DA75, 0x01DA84_01DA84, 0x01DA9B_01DA9F, 0x01DAA1_01DAAF, 0x01E000_01E006,
  0x01E008_01E018, 0x01E01B_01E021, 0x01E023_01E024, 0x01E026_01E02A, 0x01E08F_01E08F,
  0x01E130_01E136, 0x01E2AE_01E2AE, 0x01E2EC_01E2EF, 0x01E4EC_01E4EF, 0x01E5EE_01E5EF,
  0x01E6E3_01E6E3, 0x01E6E6_01E6E6, 0x01E6EE_01E6EF, 0x01E6F5_01E6F5, 0x01E8D0_01E8D6,
  0x01E944_01E94A, 0x0E0020_0E007F, 0x0E0100_0E01EF]

/-- The ranges in ascending order, in pages. -/
def pages : List Page := [
  ⟨0x300, 0xB82, graphemeExtendFrom300⟩,
  ⟨0xBBE, 0x1753, graphemeExtendFromBBE⟩,
  ⟨0x1772, 0xA8FF, graphemeExtendFrom1772⟩,
  ⟨0xA926, 0x1123E, graphemeExtendFromA926⟩,
  ⟨0x11241, 0x11C36, graphemeExtendFrom11241⟩,
  ⟨0x11C38, 0xE01EF, graphemeExtendFrom11C38⟩]

/-- The character attaches to the one before it. -/
def isGraphemeExtend (c : Char) : Bool := Page.covers pages c.toNat

end Reckon.Text.GraphemeExtend
