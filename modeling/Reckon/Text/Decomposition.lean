import Reckon.Text.Ranges

/-! Canonical decompositions of single characters. An entry writes each code point with five
hexadecimal digits. Syllables of Hangul are composed by rule and are not listed. -/
namespace Reckon.Text.Decomposition

def pairsFromC0 : List Nat := [
  0x000C0_00041_00300, 0x000C1_00041_00301, 0x000C2_00041_00302, 0x000C3_00041_00303,
  0x000C4_00041_00308, 0x000C5_00041_0030A, 0x000C7_00043_00327, 0x000C8_00045_00300,
  0x000C9_00045_00301, 0x000CA_00045_00302, 0x000CB_00045_00308, 0x000CC_00049_00300,
  0x000CD_00049_00301, 0x000CE_00049_00302, 0x000CF_00049_00308, 0x000D1_0004E_00303,
  0x000D2_0004F_00300, 0x000D3_0004F_00301, 0x000D4_0004F_00302, 0x000D5_0004F_00303,
  0x000D6_0004F_00308, 0x000D9_00055_00300, 0x000DA_00055_00301, 0x000DB_00055_00302,
  0x000DC_00055_00308, 0x000DD_00059_00301, 0x000E0_00061_00300, 0x000E1_00061_00301,
  0x000E2_00061_00302, 0x000E3_00061_00303, 0x000E4_00061_00308, 0x000E5_00061_0030A,
  0x000E7_00063_00327, 0x000E8_00065_00300, 0x000E9_00065_00301, 0x000EA_00065_00302,
  0x000EB_00065_00308, 0x000EC_00069_00300, 0x000ED_00069_00301, 0x000EE_00069_00302,
  0x000EF_00069_00308, 0x000F1_0006E_00303, 0x000F2_0006F_00300, 0x000F3_0006F_00301,
  0x000F4_0006F_00302, 0x000F5_0006F_00303, 0x000F6_0006F_00308, 0x000F9_00075_00300,
  0x000FA_00075_00301, 0x000FB_00075_00302, 0x000FC_00075_00308, 0x000FD_00079_00301,
  0x000FF_00079_00308, 0x00100_00041_00304, 0x00101_00061_00304, 0x00102_00041_00306,
  0x00103_00061_00306, 0x00104_00041_00328, 0x00105_00061_00328, 0x00106_00043_00301,
  0x00107_00063_00301, 0x00108_00043_00302, 0x00109_00063_00302, 0x0010A_00043_00307]

def pairsFrom10B : List Nat := [
  0x0010B_00063_00307, 0x0010C_00043_0030C, 0x0010D_00063_0030C, 0x0010E_00044_0030C,
  0x0010F_00064_0030C, 0x00112_00045_00304, 0x00113_00065_00304, 0x00114_00045_00306,
  0x00115_00065_00306, 0x00116_00045_00307, 0x00117_00065_00307, 0x00118_00045_00328,
  0x00119_00065_00328, 0x0011A_00045_0030C, 0x0011B_00065_0030C, 0x0011C_00047_00302,
  0x0011D_00067_00302, 0x0011E_00047_00306, 0x0011F_00067_00306, 0x00120_00047_00307,
  0x00121_00067_00307, 0x00122_00047_00327, 0x00123_00067_00327, 0x00124_00048_00302,
  0x00125_00068_00302, 0x00128_00049_00303, 0x00129_00069_00303, 0x0012A_00049_00304,
  0x0012B_00069_00304, 0x0012C_00049_00306, 0x0012D_00069_00306, 0x0012E_00049_00328,
  0x0012F_00069_00328, 0x00130_00049_00307, 0x00134_0004A_00302, 0x00135_0006A_00302,
  0x00136_0004B_00327, 0x00137_0006B_00327, 0x00139_0004C_00301, 0x0013A_0006C_00301,
  0x0013B_0004C_00327, 0x0013C_0006C_00327, 0x0013D_0004C_0030C, 0x0013E_0006C_0030C,
  0x00143_0004E_00301, 0x00144_0006E_00301, 0x00145_0004E_00327, 0x00146_0006E_00327,
  0x00147_0004E_0030C, 0x00148_0006E_0030C, 0x0014C_0004F_00304, 0x0014D_0006F_00304,
  0x0014E_0004F_00306, 0x0014F_0006F_00306, 0x00150_0004F_0030B, 0x00151_0006F_0030B,
  0x00154_00052_00301, 0x00155_00072_00301, 0x00156_00052_00327, 0x00157_00072_00327,
  0x00158_00052_0030C, 0x00159_00072_0030C, 0x0015A_00053_00301, 0x0015B_00073_00301]

def pairsFrom15C : List Nat := [
  0x0015C_00053_00302, 0x0015D_00073_00302, 0x0015E_00053_00327, 0x0015F_00073_00327,
  0x00160_00053_0030C, 0x00161_00073_0030C, 0x00162_00054_00327, 0x00163_00074_00327,
  0x00164_00054_0030C, 0x00165_00074_0030C, 0x00168_00055_00303, 0x00169_00075_00303,
  0x0016A_00055_00304, 0x0016B_00075_00304, 0x0016C_00055_00306, 0x0016D_00075_00306,
  0x0016E_00055_0030A, 0x0016F_00075_0030A, 0x00170_00055_0030B, 0x00171_00075_0030B,
  0x00172_00055_00328, 0x00173_00075_00328, 0x00174_00057_00302, 0x00175_00077_00302,
  0x00176_00059_00302, 0x00177_00079_00302, 0x00178_00059_00308, 0x00179_0005A_00301,
  0x0017A_0007A_00301, 0x0017B_0005A_00307, 0x0017C_0007A_00307, 0x0017D_0005A_0030C,
  0x0017E_0007A_0030C, 0x001A0_0004F_0031B, 0x001A1_0006F_0031B, 0x001AF_00055_0031B,
  0x001B0_00075_0031B, 0x001CD_00041_0030C, 0x001CE_00061_0030C, 0x001CF_00049_0030C,
  0x001D0_00069_0030C, 0x001D1_0004F_0030C, 0x001D2_0006F_0030C, 0x001D3_00055_0030C,
  0x001D4_00075_0030C, 0x001D5_000DC_00304, 0x001D6_000FC_00304, 0x001D7_000DC_00301,
  0x001D8_000FC_00301, 0x001D9_000DC_0030C, 0x001DA_000FC_0030C, 0x001DB_000DC_00300,
  0x001DC_000FC_00300, 0x001DE_000C4_00304, 0x001DF_000E4_00304, 0x001E0_00226_00304,
  0x001E1_00227_00304, 0x001E2_000C6_00304, 0x001E3_000E6_00304, 0x001E6_00047_0030C,
  0x001E7_00067_0030C, 0x001E8_0004B_0030C, 0x001E9_0006B_0030C, 0x001EA_0004F_00328]

def pairsFrom1EB : List Nat := [
  0x001EB_0006F_00328, 0x001EC_001EA_00304, 0x001ED_001EB_00304, 0x001EE_001B7_0030C,
  0x001EF_00292_0030C, 0x001F0_0006A_0030C, 0x001F4_00047_00301, 0x001F5_00067_00301,
  0x001F8_0004E_00300, 0x001F9_0006E_00300, 0x001FA_000C5_00301, 0x001FB_000E5_00301,
  0x001FC_000C6_00301, 0x001FD_000E6_00301, 0x001FE_000D8_00301, 0x001FF_000F8_00301,
  0x00200_00041_0030F, 0x00201_00061_0030F, 0x00202_00041_00311, 0x00203_00061_00311,
  0x00204_00045_0030F, 0x00205_00065_0030F, 0x00206_00045_00311, 0x00207_00065_00311,
  0x00208_00049_0030F, 0x00209_00069_0030F, 0x0020A_00049_00311, 0x0020B_00069_00311,
  0x0020C_0004F_0030F, 0x0020D_0006F_0030F, 0x0020E_0004F_00311, 0x0020F_0006F_00311,
  0x00210_00052_0030F, 0x00211_00072_0030F, 0x00212_00052_00311, 0x00213_00072_00311,
  0x00214_00055_0030F, 0x00215_00075_0030F, 0x00216_00055_00311, 0x00217_00075_00311,
  0x00218_00053_00326, 0x00219_00073_00326, 0x0021A_00054_00326, 0x0021B_00074_00326,
  0x0021E_00048_0030C, 0x0021F_00068_0030C, 0x00226_00041_00307, 0x00227_00061_00307,
  0x00228_00045_00327, 0x00229_00065_00327, 0x0022A_000D6_00304, 0x0022B_000F6_00304,
  0x0022C_000D5_00304, 0x0022D_000F5_00304, 0x0022E_0004F_00307, 0x0022F_0006F_00307,
  0x00230_0022E_00304, 0x00231_0022F_00304, 0x00232_00059_00304, 0x00233_00079_00304,
  0x00385_000A8_00301, 0x00386_00391_00301, 0x00388_00395_00301, 0x00389_00397_00301]

def pairsFrom38A : List Nat := [
  0x0038A_00399_00301, 0x0038C_0039F_00301, 0x0038E_003A5_00301, 0x0038F_003A9_00301,
  0x00390_003CA_00301, 0x003AA_00399_00308, 0x003AB_003A5_00308, 0x003AC_003B1_00301,
  0x003AD_003B5_00301, 0x003AE_003B7_00301, 0x003AF_003B9_00301, 0x003B0_003CB_00301,
  0x003CA_003B9_00308, 0x003CB_003C5_00308, 0x003CC_003BF_00301, 0x003CD_003C5_00301,
  0x003CE_003C9_00301, 0x003D3_003D2_00301, 0x003D4_003D2_00308, 0x00400_00415_00300,
  0x00401_00415_00308, 0x00403_00413_00301, 0x00407_00406_00308, 0x0040C_0041A_00301,
  0x0040D_00418_00300, 0x0040E_00423_00306, 0x00419_00418_00306, 0x00439_00438_00306,
  0x00450_00435_00300, 0x00451_00435_00308, 0x00453_00433_00301, 0x00457_00456_00308,
  0x0045C_0043A_00301, 0x0045D_00438_00300, 0x0045E_00443_00306, 0x00476_00474_0030F,
  0x00477_00475_0030F, 0x004C1_00416_00306, 0x004C2_00436_00306, 0x004D0_00410_00306,
  0x004D1_00430_00306, 0x004D2_00410_00308, 0x004D3_00430_00308, 0x004D6_00415_00306,
  0x004D7_00435_00306, 0x004DA_004D8_00308, 0x004DB_004D9_00308, 0x004DC_00416_00308,
  0x004DD_00436_00308, 0x004DE_00417_00308, 0x004DF_00437_00308, 0x004E2_00418_00304,
  0x004E3_00438_00304, 0x004E4_00418_00308, 0x004E5_00438_00308, 0x004E6_0041E_00308,
  0x004E7_0043E_00308, 0x004EA_004E8_00308, 0x004EB_004E9_00308, 0x004EC_0042D_00308,
  0x004ED_0044D_00308, 0x004EE_00423_00304, 0x004EF_00443_00304, 0x004F0_00423_00308]

def pairsFrom4F1 : List Nat := [
  0x004F1_00443_00308, 0x004F2_00423_0030B, 0x004F3_00443_0030B, 0x004F4_00427_00308,
  0x004F5_00447_00308, 0x004F8_0042B_00308, 0x004F9_0044B_00308, 0x00622_00627_00653,
  0x00623_00627_00654, 0x00624_00648_00654, 0x00625_00627_00655, 0x00626_0064A_00654,
  0x006C0_006D5_00654, 0x006C2_006C1_00654, 0x006D3_006D2_00654, 0x00929_00928_0093C,
  0x00931_00930_0093C, 0x00934_00933_0093C, 0x009CB_009C7_009BE, 0x009CC_009C7_009D7,
  0x00B48_00B47_00B56, 0x00B4B_00B47_00B3E, 0x00B4C_00B47_00B57, 0x00B94_00B92_00BD7,
  0x00BCA_00BC6_00BBE, 0x00BCB_00BC7_00BBE, 0x00BCC_00BC6_00BD7, 0x00C48_00C46_00C56,
  0x00CC0_00CBF_00CD5, 0x00CC7_00CC6_00CD5, 0x00CC8_00CC6_00CD6, 0x00CCA_00CC6_00CC2,
  0x00CCB_00CCA_00CD5, 0x00D4A_00D46_00D3E, 0x00D4B_00D47_00D3E, 0x00D4C_00D46_00D57,
  0x00DDA_00DD9_00DCA, 0x00DDC_00DD9_00DCF, 0x00DDD_00DDC_00DCA, 0x00DDE_00DD9_00DDF,
  0x01026_01025_0102E, 0x01B06_01B05_01B35, 0x01B08_01B07_01B35, 0x01B0A_01B09_01B35,
  0x01B0C_01B0B_01B35, 0x01B0E_01B0D_01B35, 0x01B12_01B11_01B35, 0x01B3B_01B3A_01B35,
  0x01B3D_01B3C_01B35, 0x01B40_01B3E_01B35, 0x01B41_01B3F_01B35, 0x01B43_01B42_01B35,
  0x01E00_00041_00325, 0x01E01_00061_00325, 0x01E02_00042_00307, 0x01E03_00062_00307,
  0x01E04_00042_00323, 0x01E05_00062_00323, 0x01E06_00042_00331, 0x01E07_00062_00331,
  0x01E08_000C7_00301, 0x01E09_000E7_00301, 0x01E0A_00044_00307, 0x01E0B_00064_00307]

def pairsFrom1E0C : List Nat := [
  0x01E0C_00044_00323, 0x01E0D_00064_00323, 0x01E0E_00044_00331, 0x01E0F_00064_00331,
  0x01E10_00044_00327, 0x01E11_00064_00327, 0x01E12_00044_0032D, 0x01E13_00064_0032D,
  0x01E14_00112_00300, 0x01E15_00113_00300, 0x01E16_00112_00301, 0x01E17_00113_00301,
  0x01E18_00045_0032D, 0x01E19_00065_0032D, 0x01E1A_00045_00330, 0x01E1B_00065_00330,
  0x01E1C_00228_00306, 0x01E1D_00229_00306, 0x01E1E_00046_00307, 0x01E1F_00066_00307,
  0x01E20_00047_00304, 0x01E21_00067_00304, 0x01E22_00048_00307, 0x01E23_00068_00307,
  0x01E24_00048_00323, 0x01E25_00068_00323, 0x01E26_00048_00308, 0x01E27_00068_00308,
  0x01E28_00048_00327, 0x01E29_00068_00327, 0x01E2A_00048_0032E, 0x01E2B_00068_0032E,
  0x01E2C_00049_00330, 0x01E2D_00069_00330, 0x01E2E_000CF_00301, 0x01E2F_000EF_00301,
  0x01E30_0004B_00301, 0x01E31_0006B_00301, 0x01E32_0004B_00323, 0x01E33_0006B_00323,
  0x01E34_0004B_00331, 0x01E35_0006B_00331, 0x01E36_0004C_00323, 0x01E37_0006C_00323,
  0x01E38_01E36_00304, 0x01E39_01E37_00304, 0x01E3A_0004C_00331, 0x01E3B_0006C_00331,
  0x01E3C_0004C_0032D, 0x01E3D_0006C_0032D, 0x01E3E_0004D_00301, 0x01E3F_0006D_00301,
  0x01E40_0004D_00307, 0x01E41_0006D_00307, 0x01E42_0004D_00323, 0x01E43_0006D_00323,
  0x01E44_0004E_00307, 0x01E45_0006E_00307, 0x01E46_0004E_00323, 0x01E47_0006E_00323,
  0x01E48_0004E_00331, 0x01E49_0006E_00331, 0x01E4A_0004E_0032D, 0x01E4B_0006E_0032D]

def pairsFrom1E4C : List Nat := [
  0x01E4C_000D5_00301, 0x01E4D_000F5_00301, 0x01E4E_000D5_00308, 0x01E4F_000F5_00308,
  0x01E50_0014C_00300, 0x01E51_0014D_00300, 0x01E52_0014C_00301, 0x01E53_0014D_00301,
  0x01E54_00050_00301, 0x01E55_00070_00301, 0x01E56_00050_00307, 0x01E57_00070_00307,
  0x01E58_00052_00307, 0x01E59_00072_00307, 0x01E5A_00052_00323, 0x01E5B_00072_00323,
  0x01E5C_01E5A_00304, 0x01E5D_01E5B_00304, 0x01E5E_00052_00331, 0x01E5F_00072_00331,
  0x01E60_00053_00307, 0x01E61_00073_00307, 0x01E62_00053_00323, 0x01E63_00073_00323,
  0x01E64_0015A_00307, 0x01E65_0015B_00307, 0x01E66_00160_00307, 0x01E67_00161_00307,
  0x01E68_01E62_00307, 0x01E69_01E63_00307, 0x01E6A_00054_00307, 0x01E6B_00074_00307,
  0x01E6C_00054_00323, 0x01E6D_00074_00323, 0x01E6E_00054_00331, 0x01E6F_00074_00331,
  0x01E70_00054_0032D, 0x01E71_00074_0032D, 0x01E72_00055_00324, 0x01E73_00075_00324,
  0x01E74_00055_00330, 0x01E75_00075_00330, 0x01E76_00055_0032D, 0x01E77_00075_0032D,
  0x01E78_00168_00301, 0x01E79_00169_00301, 0x01E7A_0016A_00308, 0x01E7B_0016B_00308,
  0x01E7C_00056_00303, 0x01E7D_00076_00303, 0x01E7E_00056_00323, 0x01E7F_00076_00323,
  0x01E80_00057_00300, 0x01E81_00077_00300, 0x01E82_00057_00301, 0x01E83_00077_00301,
  0x01E84_00057_00308, 0x01E85_00077_00308, 0x01E86_00057_00307, 0x01E87_00077_00307,
  0x01E88_00057_00323, 0x01E89_00077_00323, 0x01E8A_00058_00307, 0x01E8B_00078_00307]

def pairsFrom1E8C : List Nat := [
  0x01E8C_00058_00308, 0x01E8D_00078_00308, 0x01E8E_00059_00307, 0x01E8F_00079_00307,
  0x01E90_0005A_00302, 0x01E91_0007A_00302, 0x01E92_0005A_00323, 0x01E93_0007A_00323,
  0x01E94_0005A_00331, 0x01E95_0007A_00331, 0x01E96_00068_00331, 0x01E97_00074_00308,
  0x01E98_00077_0030A, 0x01E99_00079_0030A, 0x01E9B_0017F_00307, 0x01EA0_00041_00323,
  0x01EA1_00061_00323, 0x01EA2_00041_00309, 0x01EA3_00061_00309, 0x01EA4_000C2_00301,
  0x01EA5_000E2_00301, 0x01EA6_000C2_00300, 0x01EA7_000E2_00300, 0x01EA8_000C2_00309,
  0x01EA9_000E2_00309, 0x01EAA_000C2_00303, 0x01EAB_000E2_00303, 0x01EAC_01EA0_00302,
  0x01EAD_01EA1_00302, 0x01EAE_00102_00301, 0x01EAF_00103_00301, 0x01EB0_00102_00300,
  0x01EB1_00103_00300, 0x01EB2_00102_00309, 0x01EB3_00103_00309, 0x01EB4_00102_00303,
  0x01EB5_00103_00303, 0x01EB6_01EA0_00306, 0x01EB7_01EA1_00306, 0x01EB8_00045_00323,
  0x01EB9_00065_00323, 0x01EBA_00045_00309, 0x01EBB_00065_00309, 0x01EBC_00045_00303,
  0x01EBD_00065_00303, 0x01EBE_000CA_00301, 0x01EBF_000EA_00301, 0x01EC0_000CA_00300,
  0x01EC1_000EA_00300, 0x01EC2_000CA_00309, 0x01EC3_000EA_00309, 0x01EC4_000CA_00303,
  0x01EC5_000EA_00303, 0x01EC6_01EB8_00302, 0x01EC7_01EB9_00302, 0x01EC8_00049_00309,
  0x01EC9_00069_00309, 0x01ECA_00049_00323, 0x01ECB_00069_00323, 0x01ECC_0004F_00323,
  0x01ECD_0006F_00323, 0x01ECE_0004F_00309, 0x01ECF_0006F_00309, 0x01ED0_000D4_00301]

def pairsFrom1ED1 : List Nat := [
  0x01ED1_000F4_00301, 0x01ED2_000D4_00300, 0x01ED3_000F4_00300, 0x01ED4_000D4_00309,
  0x01ED5_000F4_00309, 0x01ED6_000D4_00303, 0x01ED7_000F4_00303, 0x01ED8_01ECC_00302,
  0x01ED9_01ECD_00302, 0x01EDA_001A0_00301, 0x01EDB_001A1_00301, 0x01EDC_001A0_00300,
  0x01EDD_001A1_00300, 0x01EDE_001A0_00309, 0x01EDF_001A1_00309, 0x01EE0_001A0_00303,
  0x01EE1_001A1_00303, 0x01EE2_001A0_00323, 0x01EE3_001A1_00323, 0x01EE4_00055_00323,
  0x01EE5_00075_00323, 0x01EE6_00055_00309, 0x01EE7_00075_00309, 0x01EE8_001AF_00301,
  0x01EE9_001B0_00301, 0x01EEA_001AF_00300, 0x01EEB_001B0_00300, 0x01EEC_001AF_00309,
  0x01EED_001B0_00309, 0x01EEE_001AF_00303, 0x01EEF_001B0_00303, 0x01EF0_001AF_00323,
  0x01EF1_001B0_00323, 0x01EF2_00059_00300, 0x01EF3_00079_00300, 0x01EF4_00059_00323,
  0x01EF5_00079_00323, 0x01EF6_00059_00309, 0x01EF7_00079_00309, 0x01EF8_00059_00303,
  0x01EF9_00079_00303, 0x01F00_003B1_00313, 0x01F01_003B1_00314, 0x01F02_01F00_00300,
  0x01F03_01F01_00300, 0x01F04_01F00_00301, 0x01F05_01F01_00301, 0x01F06_01F00_00342,
  0x01F07_01F01_00342, 0x01F08_00391_00313, 0x01F09_00391_00314, 0x01F0A_01F08_00300,
  0x01F0B_01F09_00300, 0x01F0C_01F08_00301, 0x01F0D_01F09_00301, 0x01F0E_01F08_00342,
  0x01F0F_01F09_00342, 0x01F10_003B5_00313, 0x01F11_003B5_00314, 0x01F12_01F10_00300,
  0x01F13_01F11_00300, 0x01F14_01F10_00301, 0x01F15_01F11_00301, 0x01F18_00395_00313]

def pairsFrom1F19 : List Nat := [
  0x01F19_00395_00314, 0x01F1A_01F18_00300, 0x01F1B_01F19_00300, 0x01F1C_01F18_00301,
  0x01F1D_01F19_00301, 0x01F20_003B7_00313, 0x01F21_003B7_00314, 0x01F22_01F20_00300,
  0x01F23_01F21_00300, 0x01F24_01F20_00301, 0x01F25_01F21_00301, 0x01F26_01F20_00342,
  0x01F27_01F21_00342, 0x01F28_00397_00313, 0x01F29_00397_00314, 0x01F2A_01F28_00300,
  0x01F2B_01F29_00300, 0x01F2C_01F28_00301, 0x01F2D_01F29_00301, 0x01F2E_01F28_00342,
  0x01F2F_01F29_00342, 0x01F30_003B9_00313, 0x01F31_003B9_00314, 0x01F32_01F30_00300,
  0x01F33_01F31_00300, 0x01F34_01F30_00301, 0x01F35_01F31_00301, 0x01F36_01F30_00342,
  0x01F37_01F31_00342, 0x01F38_00399_00313, 0x01F39_00399_00314, 0x01F3A_01F38_00300,
  0x01F3B_01F39_00300, 0x01F3C_01F38_00301, 0x01F3D_01F39_00301, 0x01F3E_01F38_00342,
  0x01F3F_01F39_00342, 0x01F40_003BF_00313, 0x01F41_003BF_00314, 0x01F42_01F40_00300,
  0x01F43_01F41_00300, 0x01F44_01F40_00301, 0x01F45_01F41_00301, 0x01F48_0039F_00313,
  0x01F49_0039F_00314, 0x01F4A_01F48_00300, 0x01F4B_01F49_00300, 0x01F4C_01F48_00301,
  0x01F4D_01F49_00301, 0x01F50_003C5_00313, 0x01F51_003C5_00314, 0x01F52_01F50_00300,
  0x01F53_01F51_00300, 0x01F54_01F50_00301, 0x01F55_01F51_00301, 0x01F56_01F50_00342,
  0x01F57_01F51_00342, 0x01F59_003A5_00314, 0x01F5B_01F59_00300, 0x01F5D_01F59_00301,
  0x01F5F_01F59_00342, 0x01F60_003C9_00313, 0x01F61_003C9_00314, 0x01F62_01F60_00300]

def pairsFrom1F63 : List Nat := [
  0x01F63_01F61_00300, 0x01F64_01F60_00301, 0x01F65_01F61_00301, 0x01F66_01F60_00342,
  0x01F67_01F61_00342, 0x01F68_003A9_00313, 0x01F69_003A9_00314, 0x01F6A_01F68_00300,
  0x01F6B_01F69_00300, 0x01F6C_01F68_00301, 0x01F6D_01F69_00301, 0x01F6E_01F68_00342,
  0x01F6F_01F69_00342, 0x01F70_003B1_00300, 0x01F72_003B5_00300, 0x01F74_003B7_00300,
  0x01F76_003B9_00300, 0x01F78_003BF_00300, 0x01F7A_003C5_00300, 0x01F7C_003C9_00300,
  0x01F80_01F00_00345, 0x01F81_01F01_00345, 0x01F82_01F02_00345, 0x01F83_01F03_00345,
  0x01F84_01F04_00345, 0x01F85_01F05_00345, 0x01F86_01F06_00345, 0x01F87_01F07_00345,
  0x01F88_01F08_00345, 0x01F89_01F09_00345, 0x01F8A_01F0A_00345, 0x01F8B_01F0B_00345,
  0x01F8C_01F0C_00345, 0x01F8D_01F0D_00345, 0x01F8E_01F0E_00345, 0x01F8F_01F0F_00345,
  0x01F90_01F20_00345, 0x01F91_01F21_00345, 0x01F92_01F22_00345, 0x01F93_01F23_00345,
  0x01F94_01F24_00345, 0x01F95_01F25_00345, 0x01F96_01F26_00345, 0x01F97_01F27_00345,
  0x01F98_01F28_00345, 0x01F99_01F29_00345, 0x01F9A_01F2A_00345, 0x01F9B_01F2B_00345,
  0x01F9C_01F2C_00345, 0x01F9D_01F2D_00345, 0x01F9E_01F2E_00345, 0x01F9F_01F2F_00345,
  0x01FA0_01F60_00345, 0x01FA1_01F61_00345, 0x01FA2_01F62_00345, 0x01FA3_01F63_00345,
  0x01FA4_01F64_00345, 0x01FA5_01F65_00345, 0x01FA6_01F66_00345, 0x01FA7_01F67_00345,
  0x01FA8_01F68_00345, 0x01FA9_01F69_00345, 0x01FAA_01F6A_00345, 0x01FAB_01F6B_00345]

def pairsFrom1FAC : List Nat := [
  0x01FAC_01F6C_00345, 0x01FAD_01F6D_00345, 0x01FAE_01F6E_00345, 0x01FAF_01F6F_00345,
  0x01FB0_003B1_00306, 0x01FB1_003B1_00304, 0x01FB2_01F70_00345, 0x01FB3_003B1_00345,
  0x01FB4_003AC_00345, 0x01FB6_003B1_00342, 0x01FB7_01FB6_00345, 0x01FB8_00391_00306,
  0x01FB9_00391_00304, 0x01FBA_00391_00300, 0x01FBC_00391_00345, 0x01FC1_000A8_00342,
  0x01FC2_01F74_00345, 0x01FC3_003B7_00345, 0x01FC4_003AE_00345, 0x01FC6_003B7_00342,
  0x01FC7_01FC6_00345, 0x01FC8_00395_00300, 0x01FCA_00397_00300, 0x01FCC_00397_00345,
  0x01FCD_01FBF_00300, 0x01FCE_01FBF_00301, 0x01FCF_01FBF_00342, 0x01FD0_003B9_00306,
  0x01FD1_003B9_00304, 0x01FD2_003CA_00300, 0x01FD6_003B9_00342, 0x01FD7_003CA_00342,
  0x01FD8_00399_00306, 0x01FD9_00399_00304, 0x01FDA_00399_00300, 0x01FDD_01FFE_00300,
  0x01FDE_01FFE_00301, 0x01FDF_01FFE_00342, 0x01FE0_003C5_00306, 0x01FE1_003C5_00304,
  0x01FE2_003CB_00300, 0x01FE4_003C1_00313, 0x01FE5_003C1_00314, 0x01FE6_003C5_00342,
  0x01FE7_003CB_00342, 0x01FE8_003A5_00306, 0x01FE9_003A5_00304, 0x01FEA_003A5_00300,
  0x01FEC_003A1_00314, 0x01FED_000A8_00300, 0x01FF2_01F7C_00345, 0x01FF3_003C9_00345,
  0x01FF4_003CE_00345, 0x01FF6_003C9_00342, 0x01FF7_01FF6_00345, 0x01FF8_0039F_00300,
  0x01FFA_003A9_00300, 0x01FFC_003A9_00345, 0x0219A_02190_00338, 0x0219B_02192_00338,
  0x021AE_02194_00338, 0x021CD_021D0_00338, 0x021CE_021D4_00338, 0x021CF_021D2_00338]

def pairsFrom2204 : List Nat := [
  0x02204_02203_00338, 0x02209_02208_00338, 0x0220C_0220B_00338, 0x02224_02223_00338,
  0x02226_02225_00338, 0x02241_0223C_00338, 0x02244_02243_00338, 0x02247_02245_00338,
  0x02249_02248_00338, 0x02260_0003D_00338, 0x02262_02261_00338, 0x0226D_0224D_00338,
  0x0226E_0003C_00338, 0x0226F_0003E_00338, 0x02270_02264_00338, 0x02271_02265_00338,
  0x02274_02272_00338, 0x02275_02273_00338, 0x02278_02276_00338, 0x02279_02277_00338,
  0x02280_0227A_00338, 0x02281_0227B_00338, 0x02284_02282_00338, 0x02285_02283_00338,
  0x02288_02286_00338, 0x02289_02287_00338, 0x022AC_022A2_00338, 0x022AD_022A8_00338,
  0x022AE_022A9_00338, 0x022AF_022AB_00338, 0x022E0_0227C_00338, 0x022E1_0227D_00338,
  0x022E2_02291_00338, 0x022E3_02292_00338, 0x022EA_022B2_00338, 0x022EB_022B3_00338,
  0x022EC_022B4_00338, 0x022ED_022B5_00338, 0x0304C_0304B_03099, 0x0304E_0304D_03099,
  0x03050_0304F_03099, 0x03052_03051_03099, 0x03054_03053_03099, 0x03056_03055_03099,
  0x03058_03057_03099, 0x0305A_03059_03099, 0x0305C_0305B_03099, 0x0305E_0305D_03099,
  0x03060_0305F_03099, 0x03062_03061_03099, 0x03065_03064_03099, 0x03067_03066_03099,
  0x03069_03068_03099, 0x03070_0306F_03099, 0x03071_0306F_0309A, 0x03073_03072_03099,
  0x03074_03072_0309A, 0x03076_03075_03099, 0x03077_03075_0309A, 0x03079_03078_03099,
  0x0307A_03078_0309A, 0x0307C_0307B_03099, 0x0307D_0307B_0309A, 0x03094_03046_03099]

def pairsFrom309E : List Nat := [
  0x0309E_0309D_03099, 0x030AC_030AB_03099, 0x030AE_030AD_03099, 0x030B0_030AF_03099,
  0x030B2_030B1_03099, 0x030B4_030B3_03099, 0x030B6_030B5_03099, 0x030B8_030B7_03099,
  0x030BA_030B9_03099, 0x030BC_030BB_03099, 0x030BE_030BD_03099, 0x030C0_030BF_03099,
  0x030C2_030C1_03099, 0x030C5_030C4_03099, 0x030C7_030C6_03099, 0x030C9_030C8_03099,
  0x030D0_030CF_03099, 0x030D1_030CF_0309A, 0x030D3_030D2_03099, 0x030D4_030D2_0309A,
  0x030D6_030D5_03099, 0x030D7_030D5_0309A, 0x030D9_030D8_03099, 0x030DA_030D8_0309A,
  0x030DC_030DB_03099, 0x030DD_030DB_0309A, 0x030F4_030A6_03099, 0x030F7_030EF_03099,
  0x030F8_030F0_03099, 0x030F9_030F1_03099, 0x030FA_030F2_03099, 0x030FE_030FD_03099,
  0x105C9_105D2_00307, 0x105E4_105DA_00307, 0x1109A_11099_110BA, 0x1109C_1109B_110BA,
  0x110AB_110A5_110BA, 0x1112E_11131_11127, 0x1112F_11132_11127, 0x1134B_11347_1133E,
  0x1134C_11347_11357, 0x11383_11382_113C9, 0x11385_11384_113BB, 0x1138E_1138B_113C2,
  0x11391_11390_113C9, 0x113C5_113C2_113C2, 0x113C7_113C2_113B8, 0x113C8_113C2_113C9,
  0x114BB_114B9_114BA, 0x114BC_114B9_114B0, 0x114BE_114B9_114BD, 0x115BA_115B8_115AF,
  0x115BB_115B9_115AF, 0x11938_11935_11930, 0x16121_1611E_1611E, 0x16122_1611E_16129,
  0x16123_1611E_1611F, 0x16124_16129_1611F, 0x16125_1611E_16120, 0x16126_16121_1611F,
  0x16127_16122_1611F, 0x16128_16121_16120, 0x16D68_16D67_16D67, 0x16D69_16D63_16D67]

def pairsFrom16D6A : List Nat := [
  0x16D6A_16D69_16D67]

/-- Characters that are the composed form of two others. -/
def composed : List Page := [
  ⟨0xC0, 0x10A, pairsFromC0⟩,
  ⟨0x10B, 0x15B, pairsFrom10B⟩,
  ⟨0x15C, 0x1EA, pairsFrom15C⟩,
  ⟨0x1EB, 0x389, pairsFrom1EB⟩,
  ⟨0x38A, 0x4F0, pairsFrom38A⟩,
  ⟨0x4F1, 0x1E0B, pairsFrom4F1⟩,
  ⟨0x1E0C, 0x1E4B, pairsFrom1E0C⟩,
  ⟨0x1E4C, 0x1E8B, pairsFrom1E4C⟩,
  ⟨0x1E8C, 0x1ED0, pairsFrom1E8C⟩,
  ⟨0x1ED1, 0x1F18, pairsFrom1ED1⟩,
  ⟨0x1F19, 0x1F62, pairsFrom1F19⟩,
  ⟨0x1F63, 0x1FAB, pairsFrom1F63⟩,
  ⟨0x1FAC, 0x21CF, pairsFrom1FAC⟩,
  ⟨0x2204, 0x3094, pairsFrom2204⟩,
  ⟨0x309E, 0x16D69, pairsFrom309E⟩,
  ⟨0x16D6A, 0x16D6A, pairsFrom16D6A⟩]

def splitFrom344 : List Nat := [
  0x00344_00308_00301, 0x00958_00915_0093C, 0x00959_00916_0093C, 0x0095A_00917_0093C,
  0x0095B_0091C_0093C, 0x0095C_00921_0093C, 0x0095D_00922_0093C, 0x0095E_0092B_0093C,
  0x0095F_0092F_0093C, 0x009DC_009A1_009BC, 0x009DD_009A2_009BC, 0x009DF_009AF_009BC,
  0x00A33_00A32_00A3C, 0x00A36_00A38_00A3C, 0x00A59_00A16_00A3C, 0x00A5A_00A17_00A3C,
  0x00A5B_00A1C_00A3C, 0x00A5E_00A2B_00A3C, 0x00B5C_00B21_00B3C, 0x00B5D_00B22_00B3C,
  0x00F43_00F42_00FB7, 0x00F4D_00F4C_00FB7, 0x00F52_00F51_00FB7, 0x00F57_00F56_00FB7,
  0x00F5C_00F5B_00FB7, 0x00F69_00F40_00FB5, 0x00F73_00F71_00F72, 0x00F75_00F71_00F74,
  0x00F76_00FB2_00F80, 0x00F78_00FB3_00F80, 0x00F81_00F71_00F80, 0x00F93_00F92_00FB7,
  0x00F9D_00F9C_00FB7, 0x00FA2_00FA1_00FB7, 0x00FA7_00FA6_00FB7, 0x00FAC_00FAB_00FB7,
  0x00FB9_00F90_00FB5, 0x02ADC_02ADD_00338, 0x0FB1D_005D9_005B4, 0x0FB1F_005F2_005B7,
  0x0FB2A_005E9_005C1, 0x0FB2B_005E9_005C2, 0x0FB2C_0FB49_005C1, 0x0FB2D_0FB49_005C2,
  0x0FB2E_005D0_005B7, 0x0FB2F_005D0_005B8, 0x0FB30_005D0_005BC, 0x0FB31_005D1_005BC,
  0x0FB32_005D2_005BC, 0x0FB33_005D3_005BC, 0x0FB34_005D4_005BC, 0x0FB35_005D5_005BC,
  0x0FB36_005D6_005BC, 0x0FB38_005D8_005BC, 0x0FB39_005D9_005BC, 0x0FB3A_005DA_005BC,
  0x0FB3B_005DB_005BC, 0x0FB3C_005DC_005BC, 0x0FB3E_005DE_005BC, 0x0FB40_005E0_005BC,
  0x0FB41_005E1_005BC, 0x0FB43_005E3_005BC, 0x0FB44_005E4_005BC, 0x0FB46_005E6_005BC,
  0x0FB47_005E7_005BC, 0x0FB48_005E8_005BC, 0x0FB49_005E9_005BC, 0x0FB4A_005EA_005BC,
  0x0FB4B_005D5_005B9, 0x0FB4C_005D1_005BF, 0x0FB4D_005DB_005BF, 0x0FB4E_005E4_005BF,
  0x1D15E_1D157_1D165, 0x1D15F_1D158_1D165, 0x1D160_1D15F_1D16E, 0x1D161_1D15F_1D16F,
  0x1D162_1D15F_1D170, 0x1D163_1D15F_1D171, 0x1D164_1D15F_1D172, 0x1D1BB_1D1B9_1D165,
  0x1D1BC_1D1BA_1D165, 0x1D1BD_1D1BB_1D16E, 0x1D1BE_1D1BC_1D16E, 0x1D1BF_1D1BB_1D16F,
  0x1D1C0_1D1BC_1D16F]

/-- Characters that are two others and are never composed again. -/
def excluded : List Page := [
  ⟨0x344, 0x1D1C0, splitFrom344⟩]

def singleFrom340 : List Nat := [
  0x00340_00300, 0x00341_00301, 0x00343_00313, 0x00374_002B9, 0x0037E_0003B, 0x00387_000B7,
  0x01F71_003AC, 0x01F73_003AD, 0x01F75_003AE, 0x01F77_003AF, 0x01F79_003CC, 0x01F7B_003CD,
  0x01F7D_003CE, 0x01FBB_00386, 0x01FBE_003B9, 0x01FC9_00388, 0x01FCB_00389, 0x01FD3_00390,
  0x01FDB_0038A, 0x01FE3_003B0, 0x01FEB_0038E, 0x01FEE_00385, 0x01FEF_00060, 0x01FF9_0038C,
  0x01FFB_0038F, 0x01FFD_000B4, 0x02000_02002, 0x02001_02003, 0x02126_003A9, 0x0212A_0004B,
  0x0212B_000C5, 0x02329_03008, 0x0232A_03009, 0x0F900_08C48, 0x0F901_066F4, 0x0F902_08ECA,
  0x0F903_08CC8, 0x0F904_06ED1, 0x0F905_04E32, 0x0F906_053E5, 0x0F907_09F9C, 0x0F908_09F9C,
  0x0F909_05951, 0x0F90A_091D1, 0x0F90B_05587, 0x0F90C_05948, 0x0F90D_061F6, 0x0F90E_07669,
  0x0F90F_07F85, 0x0F910_0863F, 0x0F911_087BA, 0x0F912_088F8, 0x0F913_0908F, 0x0F914_06A02,
  0x0F915_06D1B, 0x0F916_070D9, 0x0F917_073DE, 0x0F918_0843D, 0x0F919_0916A, 0x0F91A_099F1,
  0x0F91B_04E82, 0x0F91C_05375, 0x0F91D_06B04, 0x0F91E_0721B, 0x0F91F_0862D, 0x0F920_09E1E,
  0x0F921_05D50, 0x0F922_06FEB, 0x0F923_085CD, 0x0F924_08964, 0x0F925_062C9, 0x0F926_081D8,
  0x0F927_0881F, 0x0F928_05ECA, 0x0F929_06717, 0x0F92A_06D6A, 0x0F92B_072FC, 0x0F92C_090CE,
  0x0F92D_04F86, 0x0F92E_051B7, 0x0F92F_052DE, 0x0F930_064C4, 0x0F931_06AD3, 0x0F932_07210,
  0x0F933_076E7, 0x0F934_08001, 0x0F935_08606, 0x0F936_0865C, 0x0F937_08DEF, 0x0F938_09732,
  0x0F939_09B6F, 0x0F93A_09DFA, 0x0F93B_0788C, 0x0F93C_0797F, 0x0F93D_07DA0, 0x0F93E_083C9]

def singleFromF93F : List Nat := [
  0x0F93F_09304, 0x0F940_09E7F, 0x0F941_08AD6, 0x0F942_058DF, 0x0F943_05F04, 0x0F944_07C60,
  0x0F945_0807E, 0x0F946_07262, 0x0F947_078CA, 0x0F948_08CC2, 0x0F949_096F7, 0x0F94A_058D8,
  0x0F94B_05C62, 0x0F94C_06A13, 0x0F94D_06DDA, 0x0F94E_06F0F, 0x0F94F_07D2F, 0x0F950_07E37,
  0x0F951_0964B, 0x0F952_052D2, 0x0F953_0808B, 0x0F954_051DC, 0x0F955_051CC, 0x0F956_07A1C,
  0x0F957_07DBE, 0x0F958_083F1, 0x0F959_09675, 0x0F95A_08B80, 0x0F95B_062CF, 0x0F95C_06A02,
  0x0F95D_08AFE, 0x0F95E_04E39, 0x0F95F_05BE7, 0x0F960_06012, 0x0F961_07387, 0x0F962_07570,
  0x0F963_05317, 0x0F964_078FB, 0x0F965_04FBF, 0x0F966_05FA9, 0x0F967_04E0D, 0x0F968_06CCC,
  0x0F969_06578, 0x0F96A_07D22, 0x0F96B_053C3, 0x0F96C_0585E, 0x0F96D_07701, 0x0F96E_08449,
  0x0F96F_08AAA, 0x0F970_06BBA, 0x0F971_08FB0, 0x0F972_06C88, 0x0F973_062FE, 0x0F974_082E5,
  0x0F975_063A0, 0x0F976_07565, 0x0F977_04EAE, 0x0F978_05169, 0x0F979_051C9, 0x0F97A_06881,
  0x0F97B_07CE7, 0x0F97C_0826F, 0x0F97D_08AD2, 0x0F97E_091CF, 0x0F97F_052F5, 0x0F980_05442,
  0x0F981_05973, 0x0F982_05EEC, 0x0F983_065C5, 0x0F984_06FFE, 0x0F985_0792A, 0x0F986_095AD,
  0x0F987_09A6A, 0x0F988_09E97, 0x0F989_09ECE, 0x0F98A_0529B, 0x0F98B_066C6, 0x0F98C_06B77,
  0x0F98D_08F62, 0x0F98E_05E74, 0x0F98F_06190, 0x0F990_06200, 0x0F991_0649A, 0x0F992_06F23,
  0x0F993_07149, 0x0F994_07489, 0x0F995_079CA, 0x0F996_07DF4, 0x0F997_0806F, 0x0F998_08F26,
  0x0F999_084EE, 0x0F99A_09023, 0x0F99B_0934A, 0x0F99C_05217, 0x0F99D_052A3, 0x0F99E_054BD]

def singleFromF99F : List Nat := [
  0x0F99F_070C8, 0x0F9A0_088C2, 0x0F9A1_08AAA, 0x0F9A2_05EC9, 0x0F9A3_05FF5, 0x0F9A4_0637B,
  0x0F9A5_06BAE, 0x0F9A6_07C3E, 0x0F9A7_07375, 0x0F9A8_04EE4, 0x0F9A9_056F9, 0x0F9AA_05BE7,
  0x0F9AB_05DBA, 0x0F9AC_0601C, 0x0F9AD_073B2, 0x0F9AE_07469, 0x0F9AF_07F9A, 0x0F9B0_08046,
  0x0F9B1_09234, 0x0F9B2_096F6, 0x0F9B3_09748, 0x0F9B4_09818, 0x0F9B5_04F8B, 0x0F9B6_079AE,
  0x0F9B7_091B4, 0x0F9B8_096B8, 0x0F9B9_060E1, 0x0F9BA_04E86, 0x0F9BB_050DA, 0x0F9BC_05BEE,
  0x0F9BD_05C3F, 0x0F9BE_06599, 0x0F9BF_06A02, 0x0F9C0_071CE, 0x0F9C1_07642, 0x0F9C2_084FC,
  0x0F9C3_0907C, 0x0F9C4_09F8D, 0x0F9C5_06688, 0x0F9C6_0962E, 0x0F9C7_05289, 0x0F9C8_0677B,
  0x0F9C9_067F3, 0x0F9CA_06D41, 0x0F9CB_06E9C, 0x0F9CC_07409, 0x0F9CD_07559, 0x0F9CE_0786B,
  0x0F9CF_07D10, 0x0F9D0_0985E, 0x0F9D1_0516D, 0x0F9D2_0622E, 0x0F9D3_09678, 0x0F9D4_0502B,
  0x0F9D5_05D19, 0x0F9D6_06DEA, 0x0F9D7_08F2A, 0x0F9D8_05F8B, 0x0F9D9_06144, 0x0F9DA_06817,
  0x0F9DB_07387, 0x0F9DC_09686, 0x0F9DD_05229, 0x0F9DE_0540F, 0x0F9DF_05C65, 0x0F9E0_06613,
  0x0F9E1_0674E, 0x0F9E2_068A8, 0x0F9E3_06CE5, 0x0F9E4_07406, 0x0F9E5_075E2, 0x0F9E6_07F79,
  0x0F9E7_088CF, 0x0F9E8_088E1, 0x0F9E9_091CC, 0x0F9EA_096E2, 0x0F9EB_0533F, 0x0F9EC_06EBA,
  0x0F9ED_0541D, 0x0F9EE_071D0, 0x0F9EF_07498, 0x0F9F0_085FA, 0x0F9F1_096A3, 0x0F9F2_09C57,
  0x0F9F3_09E9F, 0x0F9F4_06797, 0x0F9F5_06DCB, 0x0F9F6_081E8, 0x0F9F7_07ACB, 0x0F9F8_07B20,
  0x0F9F9_07C92, 0x0F9FA_072C0, 0x0F9FB_07099, 0x0F9FC_08B58, 0x0F9FD_04EC0, 0x0F9FE_08336]

def singleFromF9FF : List Nat := [
  0x0F9FF_0523A, 0x0FA00_05207, 0x0FA01_05EA6, 0x0FA02_062D3, 0x0FA03_07CD6, 0x0FA04_05B85,
  0x0FA05_06D1E, 0x0FA06_066B4, 0x0FA07_08F3B, 0x0FA08_0884C, 0x0FA09_0964D, 0x0FA0A_0898B,
  0x0FA0B_05ED3, 0x0FA0C_05140, 0x0FA0D_055C0, 0x0FA10_0585A, 0x0FA12_06674, 0x0FA15_051DE,
  0x0FA16_0732A, 0x0FA17_076CA, 0x0FA18_0793C, 0x0FA19_0795E, 0x0FA1A_07965, 0x0FA1B_0798F,
  0x0FA1C_09756, 0x0FA1D_07CBE, 0x0FA1E_07FBD, 0x0FA20_08612, 0x0FA22_08AF8, 0x0FA25_09038,
  0x0FA26_090FD, 0x0FA2A_098EF, 0x0FA2B_098FC, 0x0FA2C_09928, 0x0FA2D_09DB4, 0x0FA2E_090DE,
  0x0FA2F_096B7, 0x0FA30_04FAE, 0x0FA31_050E7, 0x0FA32_0514D, 0x0FA33_052C9, 0x0FA34_052E4,
  0x0FA35_05351, 0x0FA36_0559D, 0x0FA37_05606, 0x0FA38_05668, 0x0FA39_05840, 0x0FA3A_058A8,
  0x0FA3B_05C64, 0x0FA3C_05C6E, 0x0FA3D_06094, 0x0FA3E_06168, 0x0FA3F_0618E, 0x0FA40_061F2,
  0x0FA41_0654F, 0x0FA42_065E2, 0x0FA43_06691, 0x0FA44_06885, 0x0FA45_06D77, 0x0FA46_06E1A,
  0x0FA47_06F22, 0x0FA48_0716E, 0x0FA49_0722B, 0x0FA4A_07422, 0x0FA4B_07891, 0x0FA4C_0793E,
  0x0FA4D_07949, 0x0FA4E_07948, 0x0FA4F_07950, 0x0FA50_07956, 0x0FA51_0795D, 0x0FA52_0798D,
  0x0FA53_0798E, 0x0FA54_07A40, 0x0FA55_07A81, 0x0FA56_07BC0, 0x0FA57_07DF4, 0x0FA58_07E09,
  0x0FA59_07E41, 0x0FA5A_07F72, 0x0FA5B_08005, 0x0FA5C_081ED, 0x0FA5D_08279, 0x0FA5E_08279,
  0x0FA5F_08457, 0x0FA60_08910, 0x0FA61_08996, 0x0FA62_08B01, 0x0FA63_08B39, 0x0FA64_08CD3,
  0x0FA65_08D08, 0x0FA66_08FB6, 0x0FA67_09038, 0x0FA68_096E3, 0x0FA69_097FF, 0x0FA6A_0983B]

def singleFromFA6B : List Nat := [
  0x0FA6B_06075, 0x0FA6C_242EE, 0x0FA6D_08218, 0x0FA70_04E26, 0x0FA71_051B5, 0x0FA72_05168,
  0x0FA73_04F80, 0x0FA74_05145, 0x0FA75_05180, 0x0FA76_052C7, 0x0FA77_052FA, 0x0FA78_0559D,
  0x0FA79_05555, 0x0FA7A_05599, 0x0FA7B_055E2, 0x0FA7C_0585A, 0x0FA7D_058B3, 0x0FA7E_05944,
  0x0FA7F_05954, 0x0FA80_05A62, 0x0FA81_05B28, 0x0FA82_05ED2, 0x0FA83_05ED9, 0x0FA84_05F69,
  0x0FA85_05FAD, 0x0FA86_060D8, 0x0FA87_0614E, 0x0FA88_06108, 0x0FA89_0618E, 0x0FA8A_06160,
  0x0FA8B_061F2, 0x0FA8C_06234, 0x0FA8D_063C4, 0x0FA8E_0641C, 0x0FA8F_06452, 0x0FA90_06556,
  0x0FA91_06674, 0x0FA92_06717, 0x0FA93_0671B, 0x0FA94_06756, 0x0FA95_06B79, 0x0FA96_06BBA,
  0x0FA97_06D41, 0x0FA98_06EDB, 0x0FA99_06ECB, 0x0FA9A_06F22, 0x0FA9B_0701E, 0x0FA9C_0716E,
  0x0FA9D_077A7, 0x0FA9E_07235, 0x0FA9F_072AF, 0x0FAA0_0732A, 0x0FAA1_07471, 0x0FAA2_07506,
  0x0FAA3_0753B, 0x0FAA4_0761D, 0x0FAA5_0761F, 0x0FAA6_076CA, 0x0FAA7_076DB, 0x0FAA8_076F4,
  0x0FAA9_0774A, 0x0FAAA_07740, 0x0FAAB_078CC, 0x0FAAC_07AB1, 0x0FAAD_07BC0, 0x0FAAE_07C7B,
  0x0FAAF_07D5B, 0x0FAB0_07DF4, 0x0FAB1_07F3E, 0x0FAB2_08005, 0x0FAB3_08352, 0x0FAB4_083EF,
  0x0FAB5_08779, 0x0FAB6_08941, 0x0FAB7_08986, 0x0FAB8_08996, 0x0FAB9_08ABF, 0x0FABA_08AF8,
  0x0FABB_08ACB, 0x0FABC_08B01, 0x0FABD_08AFE, 0x0FABE_08AED, 0x0FABF_08B39, 0x0FAC0_08B8A,
  0x0FAC1_08D08, 0x0FAC2_08F38, 0x0FAC3_09072, 0x0FAC4_09199, 0x0FAC5_09276, 0x0FAC6_0967C,
  0x0FAC7_096E3, 0x0FAC8_09756, 0x0FAC9_097DB, 0x0FACA_097FF, 0x0FACB_0980B, 0x0FACC_0983B]

def singleFromFACD : List Nat := [
  0x0FACD_09B12, 0x0FACE_09F9C, 0x0FACF_2284A, 0x0FAD0_22844, 0x0FAD1_233D5, 0x0FAD2_03B9D,
  0x0FAD3_04018, 0x0FAD4_04039, 0x0FAD5_25249, 0x0FAD6_25CD0, 0x0FAD7_27ED3, 0x0FAD8_09F43,
  0x0FAD9_09F8E, 0x2F800_04E3D, 0x2F801_04E38, 0x2F802_04E41, 0x2F803_20122, 0x2F804_04F60,
  0x2F805_04FAE, 0x2F806_04FBB, 0x2F807_05002, 0x2F808_0507A, 0x2F809_05099, 0x2F80A_050E7,
  0x2F80B_050CF, 0x2F80C_0349E, 0x2F80D_2063A, 0x2F80E_0514D, 0x2F80F_05154, 0x2F810_05164,
  0x2F811_05177, 0x2F812_2051C, 0x2F813_034B9, 0x2F814_05167, 0x2F815_0518D, 0x2F816_2054B,
  0x2F817_05197, 0x2F818_051A4, 0x2F819_04ECC, 0x2F81A_051AC, 0x2F81B_051B5, 0x2F81C_291DF,
  0x2F81D_051F5, 0x2F81E_05203, 0x2F81F_034DF, 0x2F820_0523B, 0x2F821_05246, 0x2F822_05272,
  0x2F823_05277, 0x2F824_03515, 0x2F825_052C7, 0x2F826_052C9, 0x2F827_052E4, 0x2F828_052FA,
  0x2F829_05305, 0x2F82A_05306, 0x2F82B_05317, 0x2F82C_05349, 0x2F82D_05351, 0x2F82E_0535A,
  0x2F82F_05373, 0x2F830_0537D, 0x2F831_0537F, 0x2F832_0537F, 0x2F833_0537F, 0x2F834_20A2C,
  0x2F835_07070, 0x2F836_053CA, 0x2F837_053DF, 0x2F838_20B63, 0x2F839_053EB, 0x2F83A_053F1,
  0x2F83B_05406, 0x2F83C_0549E, 0x2F83D_05438, 0x2F83E_05448, 0x2F83F_05468, 0x2F840_054A2,
  0x2F841_054F6, 0x2F842_05510, 0x2F843_05553, 0x2F844_05563, 0x2F845_05584, 0x2F846_05584,
  0x2F847_05599, 0x2F848_055AB, 0x2F849_055B3, 0x2F84A_055C2, 0x2F84B_05716, 0x2F84C_05606,
  0x2F84D_05717, 0x2F84E_05651, 0x2F84F_05674, 0x2F850_05207, 0x2F851_058EE, 0x2F852_057CE]

def singleFrom2F853 : List Nat := [
  0x2F853_057F4, 0x2F854_0580D, 0x2F855_0578B, 0x2F856_05832, 0x2F857_05831, 0x2F858_058AC,
  0x2F859_214E4, 0x2F85A_058F2, 0x2F85B_058F7, 0x2F85C_05906, 0x2F85D_0591A, 0x2F85E_05922,
  0x2F85F_05962, 0x2F860_216A8, 0x2F861_216EA, 0x2F862_059EC, 0x2F863_05A1B, 0x2F864_05A27,
  0x2F865_059D8, 0x2F866_05A66, 0x2F867_036EE, 0x2F868_036FC, 0x2F869_05B08, 0x2F86A_05B3E,
  0x2F86B_05B3E, 0x2F86C_219C8, 0x2F86D_05BC3, 0x2F86E_05BD8, 0x2F86F_05BE7, 0x2F870_05BF3,
  0x2F871_21B18, 0x2F872_05BFF, 0x2F873_05C06, 0x2F874_05F53, 0x2F875_05C22, 0x2F876_03781,
  0x2F877_05C60, 0x2F878_05C6E, 0x2F879_05CC0, 0x2F87A_05C8D, 0x2F87B_21DE4, 0x2F87C_05D43,
  0x2F87D_21DE6, 0x2F87E_05D6E, 0x2F87F_05D6B, 0x2F880_05D7C, 0x2F881_05DE1, 0x2F882_05DE2,
  0x2F883_0382F, 0x2F884_05DFD, 0x2F885_05E28, 0x2F886_05E3D, 0x2F887_05E69, 0x2F888_03862,
  0x2F889_22183, 0x2F88A_0387C, 0x2F88B_05EB0, 0x2F88C_05EB3, 0x2F88D_05EB6, 0x2F88E_05ECA,
  0x2F88F_2A392, 0x2F890_05EFE, 0x2F891_22331, 0x2F892_22331, 0x2F893_08201, 0x2F894_05F22,
  0x2F895_05F22, 0x2F896_038C7, 0x2F897_232B8, 0x2F898_261DA, 0x2F899_05F62, 0x2F89A_05F6B,
  0x2F89B_038E3, 0x2F89C_05F9A, 0x2F89D_05FCD, 0x2F89E_05FD7, 0x2F89F_05FF9, 0x2F8A0_06081,
  0x2F8A1_0393A, 0x2F8A2_0391C, 0x2F8A3_06094, 0x2F8A4_226D4, 0x2F8A5_060C7, 0x2F8A6_06148,
  0x2F8A7_0614C, 0x2F8A8_0614E, 0x2F8A9_0614C, 0x2F8AA_0617A, 0x2F8AB_0618E, 0x2F8AC_061B2,
  0x2F8AD_061A4, 0x2F8AE_061AF, 0x2F8AF_061DE, 0x2F8B0_061F2, 0x2F8B1_061F6, 0x2F8B2_06210]

def singleFrom2F8B3 : List Nat := [
  0x2F8B3_0621B, 0x2F8B4_0625D, 0x2F8B5_062B1, 0x2F8B6_062D4, 0x2F8B7_06350, 0x2F8B8_22B0C,
  0x2F8B9_0633D, 0x2F8BA_062FC, 0x2F8BB_06368, 0x2F8BC_06383, 0x2F8BD_063E4, 0x2F8BE_22BF1,
  0x2F8BF_06422, 0x2F8C0_063C5, 0x2F8C1_063A9, 0x2F8C2_03A2E, 0x2F8C3_06469, 0x2F8C4_0647E,
  0x2F8C5_0649D, 0x2F8C6_06477, 0x2F8C7_03A6C, 0x2F8C8_0654F, 0x2F8C9_0656C, 0x2F8CA_2300A,
  0x2F8CB_065E3, 0x2F8CC_066F8, 0x2F8CD_06649, 0x2F8CE_03B19, 0x2F8CF_06691, 0x2F8D0_03B08,
  0x2F8D1_03AE4, 0x2F8D2_05192, 0x2F8D3_05195, 0x2F8D4_06700, 0x2F8D5_0669C, 0x2F8D6_080AD,
  0x2F8D7_043D9, 0x2F8D8_06717, 0x2F8D9_0671B, 0x2F8DA_06721, 0x2F8DB_0675E, 0x2F8DC_06753,
  0x2F8DD_233C3, 0x2F8DE_03B49, 0x2F8DF_067FA, 0x2F8E0_06785, 0x2F8E1_06852, 0x2F8E2_06885,
  0x2F8E3_2346D, 0x2F8E4_0688E, 0x2F8E5_0681F, 0x2F8E6_06914, 0x2F8E7_03B9D, 0x2F8E8_06942,
  0x2F8E9_069A3, 0x2F8EA_069EA, 0x2F8EB_06AA8, 0x2F8EC_236A3, 0x2F8ED_06ADB, 0x2F8EE_03C18,
  0x2F8EF_06B21, 0x2F8F0_238A7, 0x2F8F1_06B54, 0x2F8F2_03C4E, 0x2F8F3_06B72, 0x2F8F4_06B9F,
  0x2F8F5_06BBA, 0x2F8F6_06BBB, 0x2F8F7_23A8D, 0x2F8F8_21D0B, 0x2F8F9_23AFA, 0x2F8FA_06C4E,
  0x2F8FB_23CBC, 0x2F8FC_06CBF, 0x2F8FD_06CCD, 0x2F8FE_06C67, 0x2F8FF_06D16, 0x2F900_06D3E,
  0x2F901_06D77, 0x2F902_06D41, 0x2F903_06D69, 0x2F904_06D78, 0x2F905_06D85, 0x2F906_23D1E,
  0x2F907_06D34, 0x2F908_06E2F, 0x2F909_06E6E, 0x2F90A_03D33, 0x2F90B_06ECB, 0x2F90C_06EC7,
  0x2F90D_23ED1, 0x2F90E_06DF9, 0x2F90F_06F6E, 0x2F910_23F5E, 0x2F911_23F8E, 0x2F912_06FC6]

def singleFrom2F913 : List Nat := [
  0x2F913_07039, 0x2F914_0701E, 0x2F915_0701B, 0x2F916_03D96, 0x2F917_0704A, 0x2F918_0707D,
  0x2F919_07077, 0x2F91A_070AD, 0x2F91B_20525, 0x2F91C_07145, 0x2F91D_24263, 0x2F91E_0719C,
  0x2F91F_243AB, 0x2F920_07228, 0x2F921_07235, 0x2F922_07250, 0x2F923_24608, 0x2F924_07280,
  0x2F925_07295, 0x2F926_24735, 0x2F927_24814, 0x2F928_0737A, 0x2F929_0738B, 0x2F92A_03EAC,
  0x2F92B_073A5, 0x2F92C_03EB8, 0x2F92D_03EB8, 0x2F92E_07447, 0x2F92F_0745C, 0x2F930_07471,
  0x2F931_07485, 0x2F932_074CA, 0x2F933_03F1B, 0x2F934_07524, 0x2F935_24C36, 0x2F936_0753E,
  0x2F937_24C92, 0x2F938_07570, 0x2F939_2219F, 0x2F93A_07610, 0x2F93B_24FA1, 0x2F93C_24FB8,
  0x2F93D_25044, 0x2F93E_03FFC, 0x2F93F_04008, 0x2F940_076F4, 0x2F941_250F3, 0x2F942_250F2,
  0x2F943_25119, 0x2F944_25133, 0x2F945_0771E, 0x2F946_0771F, 0x2F947_0771F, 0x2F948_0774A,
  0x2F949_04039, 0x2F94A_0778B, 0x2F94B_04046, 0x2F94C_04096, 0x2F94D_2541D, 0x2F94E_0784E,
  0x2F94F_0788C, 0x2F950_078CC, 0x2F951_040E3, 0x2F952_25626, 0x2F953_07956, 0x2F954_2569A,
  0x2F955_256C5, 0x2F956_0798F, 0x2F957_079EB, 0x2F958_0412F, 0x2F959_07A40, 0x2F95A_07A4A,
  0x2F95B_07A4F, 0x2F95C_2597C, 0x2F95D_25AA7, 0x2F95E_25AA7, 0x2F95F_07AEE, 0x2F960_04202,
  0x2F961_25BAB, 0x2F962_07BC6, 0x2F963_07BC9, 0x2F964_04227, 0x2F965_25C80, 0x2F966_07CD2,
  0x2F967_042A0, 0x2F968_07CE8, 0x2F969_07CE3, 0x2F96A_07D00, 0x2F96B_25F86, 0x2F96C_07D63,
  0x2F96D_04301, 0x2F96E_07DC7, 0x2F96F_07E02, 0x2F970_07E45, 0x2F971_04334, 0x2F972_26228]

def singleFrom2F973 : List Nat := [
  0x2F973_26247, 0x2F974_04359, 0x2F975_262D9, 0x2F976_07F7A, 0x2F977_2633E, 0x2F978_07F95,
  0x2F979_07FFA, 0x2F97A_08005, 0x2F97B_264DA, 0x2F97C_26523, 0x2F97D_08060, 0x2F97E_265A8,
  0x2F97F_08070, 0x2F980_2335F, 0x2F981_043D5, 0x2F982_080B2, 0x2F983_08103, 0x2F984_0440B,
  0x2F985_0813E, 0x2F986_05AB5, 0x2F987_267A7, 0x2F988_267B5, 0x2F989_23393, 0x2F98A_2339C,
  0x2F98B_08201, 0x2F98C_08204, 0x2F98D_08F9E, 0x2F98E_0446B, 0x2F98F_08291, 0x2F990_0828B,
  0x2F991_0829D, 0x2F992_052B3, 0x2F993_082B1, 0x2F994_082B3, 0x2F995_082BD, 0x2F996_082E6,
  0x2F997_26B3C, 0x2F998_082E5, 0x2F999_0831D, 0x2F99A_08363, 0x2F99B_083AD, 0x2F99C_08323,
  0x2F99D_083BD, 0x2F99E_083E7, 0x2F99F_08457, 0x2F9A0_08353, 0x2F9A1_083CA, 0x2F9A2_083CC,
  0x2F9A3_083DC, 0x2F9A4_26C36, 0x2F9A5_26D6B, 0x2F9A6_26CD5, 0x2F9A7_0452B, 0x2F9A8_084F1,
  0x2F9A9_084F3, 0x2F9AA_08516, 0x2F9AB_273CA, 0x2F9AC_08564, 0x2F9AD_26F2C, 0x2F9AE_0455D,
  0x2F9AF_04561, 0x2F9B0_26FB1, 0x2F9B1_270D2, 0x2F9B2_0456B, 0x2F9B3_08650, 0x2F9B4_0865C,
  0x2F9B5_08667, 0x2F9B6_08669, 0x2F9B7_086A9, 0x2F9B8_08688, 0x2F9B9_0870E, 0x2F9BA_086E2,
  0x2F9BB_08779, 0x2F9BC_08728, 0x2F9BD_0876B, 0x2F9BE_08786, 0x2F9BF_045D7, 0x2F9C0_087E1,
  0x2F9C1_08801, 0x2F9C2_045F9, 0x2F9C3_08860, 0x2F9C4_08863, 0x2F9C5_27667, 0x2F9C6_088D7,
  0x2F9C7_088DE, 0x2F9C8_04635, 0x2F9C9_088FA, 0x2F9CA_034BB, 0x2F9CB_278AE, 0x2F9CC_27966,
  0x2F9CD_046BE, 0x2F9CE_046C7, 0x2F9CF_08AA0, 0x2F9D0_08AED, 0x2F9D1_08B8A, 0x2F9D2_08C55]

def singleFrom2F9D3 : List Nat := [
  0x2F9D3_27CA8, 0x2F9D4_08CAB, 0x2F9D5_08CC1, 0x2F9D6_08D1B, 0x2F9D7_08D77, 0x2F9D8_27F2F,
  0x2F9D9_20804, 0x2F9DA_08DCB, 0x2F9DB_08DBC, 0x2F9DC_08DF0, 0x2F9DD_208DE, 0x2F9DE_08ED4,
  0x2F9DF_08F38, 0x2F9E0_285D2, 0x2F9E1_285ED, 0x2F9E2_09094, 0x2F9E3_090F1, 0x2F9E4_09111,
  0x2F9E5_2872E, 0x2F9E6_0911B, 0x2F9E7_09238, 0x2F9E8_092D7, 0x2F9E9_092D8, 0x2F9EA_0927C,
  0x2F9EB_093F9, 0x2F9EC_09415, 0x2F9ED_28BFA, 0x2F9EE_0958B, 0x2F9EF_04995, 0x2F9F0_095B7,
  0x2F9F1_28D77, 0x2F9F2_049E6, 0x2F9F3_096C3, 0x2F9F4_05DB2, 0x2F9F5_09723, 0x2F9F6_29145,
  0x2F9F7_2921A, 0x2F9F8_04A6E, 0x2F9F9_04A76, 0x2F9FA_097E0, 0x2F9FB_2940A, 0x2F9FC_04AB2,
  0x2F9FD_29496, 0x2F9FE_0980B, 0x2F9FF_0980B, 0x2FA00_09829, 0x2FA01_295B6, 0x2FA02_098E2,
  0x2FA03_04B33, 0x2FA04_09929, 0x2FA05_099A7, 0x2FA06_099C2, 0x2FA07_099FE, 0x2FA08_04BCE,
  0x2FA09_29B30, 0x2FA0A_09B12, 0x2FA0B_09C40, 0x2FA0C_09CFD, 0x2FA0D_04CCE, 0x2FA0E_04CED,
  0x2FA0F_09D67, 0x2FA10_2A0CE, 0x2FA11_04CF8, 0x2FA12_2A105, 0x2FA13_2A20E, 0x2FA14_2A291,
  0x2FA15_09EBB, 0x2FA16_04D56, 0x2FA17_09EF9, 0x2FA18_09EFE, 0x2FA19_09F05, 0x2FA1A_09F0F,
  0x2FA1B_09F16, 0x2FA1C_09F3B, 0x2FA1D_2A600]

/-- Characters that stand for one other. -/
def singleton : List Page := [
  ⟨0x340, 0xF93E, singleFrom340⟩,
  ⟨0xF93F, 0xF99E, singleFromF93F⟩,
  ⟨0xF99F, 0xF9FE, singleFromF99F⟩,
  ⟨0xF9FF, 0xFA6A, singleFromF9FF⟩,
  ⟨0xFA6B, 0xFACC, singleFromFA6B⟩,
  ⟨0xFACD, 0x2F852, singleFromFACD⟩,
  ⟨0x2F853, 0x2F8B2, singleFrom2F853⟩,
  ⟨0x2F8B3, 0x2F912, singleFrom2F8B3⟩,
  ⟨0x2F913, 0x2F972, singleFrom2F913⟩,
  ⟨0x2F973, 0x2F9D2, singleFrom2F973⟩,
  ⟨0x2F9D3, 0x2FA1D, singleFrom2F9D3⟩]

end Reckon.Text.Decomposition
