import Reckon.Text.Ranges

/-! Characters without a glyph of their own: controls, format characters, private use, unassigned
code points, and all separators but the space (general categories C and Z). -/
namespace Reckon.Text.Unprintable

def unprintableFrom0 : List Nat := [
  0x000000_00001F, 0x00007F_0000A0, 0x0000AD_0000AD, 0x000378_000379, 0x000380_000383,
  0x00038B_00038B, 0x00038D_00038D, 0x0003A2_0003A2, 0x000530_000530, 0x000557_000558,
  0x00058B_00058C, 0x000590_000590, 0x0005C8_0005CF, 0x0005EB_0005EE, 0x0005F5_000605,
  0x00061C_00061C, 0x0006DD_0006DD, 0x00070E_00070F, 0x00074B_00074C, 0x0007B2_0007BF,
  0x0007FB_0007FC, 0x00082E_00082F, 0x00083F_00083F, 0x00085C_00085D, 0x00085F_00085F,
  0x00086B_00086F, 0x000890_000896, 0x0008E2_0008E2, 0x000984_000984, 0x00098D_00098E,
  0x000991_000992, 0x0009A9_0009A9, 0x0009B1_0009B1, 0x0009B3_0009B5, 0x0009BA_0009BB,
  0x0009C5_0009C6, 0x0009C9_0009CA, 0x0009CF_0009D6, 0x0009D8_0009DB, 0x0009DE_0009DE,
  0x0009E4_0009E5, 0x0009FF_000A00, 0x000A04_000A04, 0x000A0B_000A0E, 0x000A11_000A12,
  0x000A29_000A29, 0x000A31_000A31, 0x000A34_000A34, 0x000A37_000A37, 0x000A3A_000A3B,
  0x000A3D_000A3D, 0x000A43_000A46, 0x000A49_000A4A, 0x000A4E_000A50, 0x000A52_000A58,
  0x000A5D_000A5D, 0x000A5F_000A65, 0x000A77_000A80, 0x000A84_000A84, 0x000A8E_000A8E,
  0x000A92_000A92, 0x000AA9_000AA9, 0x000AB1_000AB1, 0x000AB4_000AB4]

def unprintableFromABA : List Nat := [
  0x000ABA_000ABB, 0x000AC6_000AC6, 0x000ACA_000ACA, 0x000ACE_000ACF, 0x000AD1_000ADF,
  0x000AE4_000AE5, 0x000AF2_000AF8, 0x000B00_000B00, 0x000B04_000B04, 0x000B0D_000B0E,
  0x000B11_000B12, 0x000B29_000B29, 0x000B31_000B31, 0x000B34_000B34, 0x000B3A_000B3B,
  0x000B45_000B46, 0x000B49_000B4A, 0x000B4E_000B54, 0x000B58_000B5B, 0x000B5E_000B5E,
  0x000B64_000B65, 0x000B78_000B81, 0x000B84_000B84, 0x000B8B_000B8D, 0x000B91_000B91,
  0x000B96_000B98, 0x000B9B_000B9B, 0x000B9D_000B9D, 0x000BA0_000BA2, 0x000BA5_000BA7,
  0x000BAB_000BAD, 0x000BBA_000BBD, 0x000BC3_000BC5, 0x000BC9_000BC9, 0x000BCE_000BCF,
  0x000BD1_000BD6, 0x000BD8_000BE5, 0x000BFB_000BFF, 0x000C0D_000C0D, 0x000C11_000C11,
  0x000C29_000C29, 0x000C3A_000C3B, 0x000C45_000C45, 0x000C49_000C49, 0x000C4E_000C54,
  0x000C57_000C57, 0x000C5B_000C5B, 0x000C5E_000C5F, 0x000C64_000C65, 0x000C70_000C76,
  0x000C8D_000C8D, 0x000C91_000C91, 0x000CA9_000CA9, 0x000CB4_000CB4, 0x000CBA_000CBB,
  0x000CC5_000CC5, 0x000CC9_000CC9, 0x000CCE_000CD4, 0x000CD7_000CDB, 0x000CDF_000CDF,
  0x000CE4_000CE5, 0x000CF0_000CF0, 0x000CF4_000CFF, 0x000D0D_000D0D]

def unprintableFromD11 : List Nat := [
  0x000D11_000D11, 0x000D45_000D45, 0x000D49_000D49, 0x000D50_000D53, 0x000D64_000D65,
  0x000D80_000D80, 0x000D84_000D84, 0x000D97_000D99, 0x000DB2_000DB2, 0x000DBC_000DBC,
  0x000DBE_000DBF, 0x000DC7_000DC9, 0x000DCB_000DCE, 0x000DD5_000DD5, 0x000DD7_000DD7,
  0x000DE0_000DE5, 0x000DF0_000DF1, 0x000DF5_000E00, 0x000E3B_000E3E, 0x000E5C_000E80,
  0x000E83_000E83, 0x000E85_000E85, 0x000E8B_000E8B, 0x000EA4_000EA4, 0x000EA6_000EA6,
  0x000EBE_000EBF, 0x000EC5_000EC5, 0x000EC7_000EC7, 0x000ECF_000ECF, 0x000EDA_000EDB,
  0x000EE0_000EFF, 0x000F48_000F48, 0x000F6D_000F70, 0x000F98_000F98, 0x000FBD_000FBD,
  0x000FCD_000FCD, 0x000FDB_000FFF, 0x0010C6_0010C6, 0x0010C8_0010CC, 0x0010CE_0010CF,
  0x001249_001249, 0x00124E_00124F, 0x001257_001257, 0x001259_001259, 0x00125E_00125F,
  0x001289_001289, 0x00128E_00128F, 0x0012B1_0012B1, 0x0012B6_0012B7, 0x0012BF_0012BF,
  0x0012C1_0012C1, 0x0012C6_0012C7, 0x0012D7_0012D7, 0x001311_001311, 0x001316_001317,
  0x00135B_00135C, 0x00137D_00137F, 0x00139A_00139F, 0x0013F6_0013F7, 0x0013FE_0013FF,
  0x001680_001680, 0x00169D_00169F, 0x0016F9_0016FF, 0x001716_00171E]

def unprintableFrom1737 : List Nat := [
  0x001737_00173F, 0x001754_00175F, 0x00176D_00176D, 0x001771_001771, 0x001774_00177F,
  0x0017DE_0017DF, 0x0017EA_0017EF, 0x0017FA_0017FF, 0x00180E_00180E, 0x00181A_00181F,
  0x001879_00187F, 0x0018AB_0018AF, 0x0018F6_0018FF, 0x00191F_00191F, 0x00192C_00192F,
  0x00193C_00193F, 0x001941_001943, 0x00196E_00196F, 0x001975_00197F, 0x0019AC_0019AF,
  0x0019CA_0019CF, 0x0019DB_0019DD, 0x001A1C_001A1D, 0x001A5F_001A5F, 0x001A7D_001A7E,
  0x001A8A_001A8F, 0x001A9A_001A9F, 0x001AAE_001AAF, 0x001ADE_001ADF, 0x001AEC_001AFF,
  0x001B4D_001B4D, 0x001BF4_001BFB, 0x001C38_001C3A, 0x001C4A_001C4C, 0x001C8B_001C8F,
  0x001CBB_001CBC, 0x001CC8_001CCF, 0x001CFB_001CFF, 0x001F16_001F17, 0x001F1E_001F1F,
  0x001F46_001F47, 0x001F4E_001F4F, 0x001F58_001F58, 0x001F5A_001F5A, 0x001F5C_001F5C,
  0x001F5E_001F5E, 0x001F7E_001F7F, 0x001FB5_001FB5, 0x001FC5_001FC5, 0x001FD4_001FD5,
  0x001FDC_001FDC, 0x001FF0_001FF1, 0x001FF5_001FF5, 0x001FFF_00200F, 0x002028_00202F,
  0x00205F_00206F, 0x002072_002073, 0x00208F_00208F, 0x00209D_00209F, 0x0020C2_0020CF,
  0x0020F1_0020FF, 0x00218C_00218F, 0x00242A_00243F, 0x00244B_00245F]

def unprintableFrom2B74 : List Nat := [
  0x002B74_002B75, 0x002CF4_002CF8, 0x002D26_002D26, 0x002D28_002D2C, 0x002D2E_002D2F,
  0x002D68_002D6E, 0x002D71_002D7E, 0x002D97_002D9F, 0x002DA7_002DA7, 0x002DAF_002DAF,
  0x002DB7_002DB7, 0x002DBF_002DBF, 0x002DC7_002DC7, 0x002DCF_002DCF, 0x002DD7_002DD7,
  0x002DDF_002DDF, 0x002E5E_002E7F, 0x002E9A_002E9A, 0x002EF4_002EFF, 0x002FD6_002FEF,
  0x003000_003000, 0x003040_003040, 0x003097_003098, 0x003100_003104, 0x003130_003130,
  0x00318F_00318F, 0x0031E6_0031EE, 0x00321F_00321F, 0x00A48D_00A48F, 0x00A4C7_00A4CF,
  0x00A62C_00A63F, 0x00A6F8_00A6FF, 0x00A7DD_00A7F0, 0x00A82D_00A82F, 0x00A83A_00A83F,
  0x00A878_00A87F, 0x00A8C6_00A8CD, 0x00A8DA_00A8DF, 0x00A954_00A95E, 0x00A97D_00A97F,
  0x00A9CE_00A9CE, 0x00A9DA_00A9DD, 0x00A9FF_00A9FF, 0x00AA37_00AA3F, 0x00AA4E_00AA4F,
  0x00AA5A_00AA5B, 0x00AAC3_00AADA, 0x00AAF7_00AB00, 0x00AB07_00AB08, 0x00AB0F_00AB10,
  0x00AB17_00AB1F, 0x00AB27_00AB27, 0x00AB2F_00AB2F, 0x00AB6C_00AB6F, 0x00ABEE_00ABEF,
  0x00ABFA_00ABFF, 0x00D7A4_00D7AF, 0x00D7C7_00D7CA, 0x00D7FC_00F8FF, 0x00FA6E_00FA6F,
  0x00FADA_00FAFF, 0x00FB07_00FB12, 0x00FB18_00FB1C, 0x00FB37_00FB37]

def unprintableFromFB3D : List Nat := [
  0x00FB3D_00FB3D, 0x00FB3F_00FB3F, 0x00FB42_00FB42, 0x00FB45_00FB45, 0x00FDD0_00FDEF,
  0x00FE1A_00FE1F, 0x00FE53_00FE53, 0x00FE67_00FE67, 0x00FE6C_00FE6F, 0x00FE75_00FE75,
  0x00FEFD_00FF00, 0x00FFBF_00FFC1, 0x00FFC8_00FFC9, 0x00FFD0_00FFD1, 0x00FFD8_00FFD9,
  0x00FFDD_00FFDF, 0x00FFE7_00FFE7, 0x00FFEF_00FFFB, 0x00FFFE_00FFFF, 0x01000C_01000C,
  0x010027_010027, 0x01003B_01003B, 0x01003E_01003E, 0x01004E_01004F, 0x01005E_01007F,
  0x0100FB_0100FF, 0x010103_010106, 0x010134_010136, 0x01018F_01018F, 0x01019D_01019F,
  0x0101A1_0101CF, 0x0101FE_01027F, 0x01029D_01029F, 0x0102D1_0102DF, 0x0102FC_0102FF,
  0x010324_01032C, 0x01034B_01034F, 0x01037B_01037F, 0x01039E_01039E, 0x0103C4_0103C7,
  0x0103D6_0103FF, 0x01049E_01049F, 0x0104AA_0104AF, 0x0104D4_0104D7, 0x0104FC_0104FF,
  0x010528_01052F, 0x010564_01056E, 0x01057B_01057B, 0x01058B_01058B, 0x010593_010593,
  0x010596_010596, 0x0105A2_0105A2, 0x0105B2_0105B2, 0x0105BA_0105BA, 0x0105BD_0105BF,
  0x0105F4_0105FF, 0x010737_01073F, 0x010756_01075F, 0x010768_01077F, 0x010786_010786,
  0x0107B1_0107B1, 0x0107BB_0107FF, 0x010806_010807, 0x010809_010809]

def unprintableFrom10836 : List Nat := [
  0x010836_010836, 0x010839_01083B, 0x01083D_01083E, 0x010856_010856, 0x01089F_0108A6,
  0x0108B0_0108DF, 0x0108F3_0108F3, 0x0108F6_0108FA, 0x01091C_01091E, 0x01093A_01093E,
  0x01095A_01097F, 0x0109B8_0109BB, 0x0109D0_0109D1, 0x010A04_010A04, 0x010A07_010A0B,
  0x010A14_010A14, 0x010A18_010A18, 0x010A36_010A37, 0x010A3B_010A3E, 0x010A49_010A4F,
  0x010A59_010A5F, 0x010AA0_010ABF, 0x010AE7_010AEA, 0x010AF7_010AFF, 0x010B36_010B38,
  0x010B56_010B57, 0x010B73_010B77, 0x010B92_010B98, 0x010B9D_010BA8, 0x010BB0_010BFF,
  0x010C49_010C7F, 0x010CB3_010CBF, 0x010CF3_010CF9, 0x010D28_010D2F, 0x010D3A_010D3F,
  0x010D66_010D68, 0x010D86_010D8D, 0x010D90_010E5F, 0x010E7F_010E7F, 0x010EAA_010EAA,
  0x010EAE_010EAF, 0x010EB2_010EC1, 0x010EC8_010ECF, 0x010ED9_010EF9, 0x010F28_010F2F,
  0x010F5A_010F6F, 0x010F8A_010FAF, 0x010FCC_010FDF, 0x010FF7_010FFF, 0x01104E_011051,
  0x011076_01107E, 0x0110BD_0110BD, 0x0110C3_0110CF, 0x0110E9_0110EF, 0x0110FA_0110FF,
  0x011135_011135, 0x011148_01114F, 0x011177_01117F, 0x0111E0_0111E0, 0x0111F5_0111FF,
  0x011212_011212, 0x011242_01127F, 0x011287_011287, 0x011289_011289]

def unprintableFrom1128E : List Nat := [
  0x01128E_01128E, 0x01129E_01129E, 0x0112AA_0112AF, 0x0112EB_0112EF, 0x0112FA_0112FF,
  0x011304_011304, 0x01130D_01130E, 0x011311_011312, 0x011329_011329, 0x011331_011331,
  0x011334_011334, 0x01133A_01133A, 0x011345_011346, 0x011349_01134A, 0x01134E_01134F,
  0x011351_011356, 0x011358_01135C, 0x011364_011365, 0x01136D_01136F, 0x011375_01137F,
  0x01138A_01138A, 0x01138C_01138D, 0x01138F_01138F, 0x0113B6_0113B6, 0x0113C1_0113C1,
  0x0113C3_0113C4, 0x0113C6_0113C6, 0x0113CB_0113CB, 0x0113D6_0113D6, 0x0113D9_0113E0,
  0x0113E3_0113FF, 0x01145C_01145C, 0x011462_01147F, 0x0114C8_0114CF, 0x0114DA_01157F,
  0x0115B6_0115B7, 0x0115DE_0115FF, 0x011645_01164F, 0x01165A_01165F, 0x01166D_01167F,
  0x0116BA_0116BF, 0x0116CA_0116CF, 0x0116E4_0116FF, 0x01171B_01171C, 0x01172C_01172F,
  0x011747_0117FF, 0x01183C_01189F, 0x0118F3_0118FE, 0x011907_011908, 0x01190A_01190B,
  0x011914_011914, 0x011917_011917, 0x011936_011936, 0x011939_01193A, 0x011947_01194F,
  0x01195A_01199F, 0x0119A8_0119A9, 0x0119D8_0119D9, 0x0119E5_0119FF, 0x011A48_011A4F,
  0x011AA3_011AAF, 0x011AF9_011AFF, 0x011B0A_011B5F, 0x011B68_011BBF]

def unprintableFrom11BE2 : List Nat := [
  0x011BE2_011BEF, 0x011BFA_011BFF, 0x011C09_011C09, 0x011C37_011C37, 0x011C46_011C4F,
  0x011C6D_011C6F, 0x011C90_011C91, 0x011CA8_011CA8, 0x011CB7_011CFF, 0x011D07_011D07,
  0x011D0A_011D0A, 0x011D37_011D39, 0x011D3B_011D3B, 0x011D3E_011D3E, 0x011D48_011D4F,
  0x011D5A_011D5F, 0x011D66_011D66, 0x011D69_011D69, 0x011D8F_011D8F, 0x011D92_011D92,
  0x011D99_011D9F, 0x011DAA_011DAF, 0x011DDC_011DDF, 0x011DEA_011EDF, 0x011EF9_011EFF,
  0x011F11_011F11, 0x011F3B_011F3D, 0x011F5B_011FAF, 0x011FB1_011FBF, 0x011FF2_011FFE,
  0x01239A_0123FF, 0x01246F_01246F, 0x012475_01247F, 0x012544_012F8F, 0x012FF3_012FFF,
  0x013430_01343F, 0x013456_01345F, 0x0143FB_0143FF, 0x014647_0160FF, 0x01613A_0167FF,
  0x016A39_016A3F, 0x016A5F_016A5F, 0x016A6A_016A6D, 0x016ABF_016ABF, 0x016ACA_016ACF,
  0x016AEE_016AEF, 0x016AF6_016AFF, 0x016B46_016B4F, 0x016B5A_016B5A, 0x016B62_016B62,
  0x016B78_016B7C, 0x016B90_016D3F, 0x016D7A_016E3F, 0x016E9B_016E9F, 0x016EB9_016EBA,
  0x016ED4_016EFF, 0x016F4B_016F4E, 0x016F88_016F8E, 0x016FA0_016FDF, 0x016FE5_016FEF,
  0x016FF7_016FFF, 0x018CD6_018CFE, 0x018D1F_018D7F, 0x018DF3_01AFEF]

def unprintableFrom1AFF4 : List Nat := [
  0x01AFF4_01AFF4, 0x01AFFC_01AFFC, 0x01AFFF_01AFFF, 0x01B123_01B131, 0x01B133_01B14F,
  0x01B153_01B154, 0x01B156_01B163, 0x01B168_01B16F, 0x01B2FC_01BBFF, 0x01BC6B_01BC6F,
  0x01BC7D_01BC7F, 0x01BC89_01BC8F, 0x01BC9A_01BC9B, 0x01BCA0_01CBFF, 0x01CCFD_01CCFF,
  0x01CEB4_01CEB9, 0x01CED1_01CEDF, 0x01CEF1_01CEFF, 0x01CF2E_01CF2F, 0x01CF47_01CF4F,
  0x01CFC4_01CFFF, 0x01D0F6_01D0FF, 0x01D127_01D128, 0x01D173_01D17A, 0x01D1EB_01D1FF,
  0x01D246_01D2BF, 0x01D2D4_01D2DF, 0x01D2F4_01D2FF, 0x01D357_01D35F, 0x01D379_01D3FF,
  0x01D455_01D455, 0x01D49D_01D49D, 0x01D4A0_01D4A1, 0x01D4A3_01D4A4, 0x01D4A7_01D4A8,
  0x01D4AD_01D4AD, 0x01D4BA_01D4BA, 0x01D4BC_01D4BC, 0x01D4C4_01D4C4, 0x01D506_01D506,
  0x01D50B_01D50C, 0x01D515_01D515, 0x01D51D_01D51D, 0x01D53A_01D53A, 0x01D53F_01D53F,
  0x01D545_01D545, 0x01D547_01D549, 0x01D551_01D551, 0x01D6A6_01D6A7, 0x01D7CC_01D7CD,
  0x01DA8C_01DA9A, 0x01DAA0_01DAA0, 0x01DAB0_01DEFF, 0x01DF1F_01DF24, 0x01DF2B_01DFFF,
  0x01E007_01E007, 0x01E019_01E01A, 0x01E022_01E022, 0x01E025_01E025, 0x01E02B_01E02F,
  0x01E06E_01E08E, 0x01E090_01E0FF, 0x01E12D_01E12F, 0x01E13E_01E13F]

def unprintableFrom1E14A : List Nat := [
  0x01E14A_01E14D, 0x01E150_01E28F, 0x01E2AF_01E2BF, 0x01E2FA_01E2FE, 0x01E300_01E4CF,
  0x01E4FA_01E5CF, 0x01E5FB_01E5FE, 0x01E600_01E6BF, 0x01E6DF_01E6DF, 0x01E6F6_01E6FD,
  0x01E700_01E7DF, 0x01E7E7_01E7E7, 0x01E7EC_01E7EC, 0x01E7EF_01E7EF, 0x01E7FF_01E7FF,
  0x01E8C5_01E8C6, 0x01E8D7_01E8FF, 0x01E94C_01E94F, 0x01E95A_01E95D, 0x01E960_01EC70,
  0x01ECB5_01ED00, 0x01ED3E_01EDFF, 0x01EE04_01EE04, 0x01EE20_01EE20, 0x01EE23_01EE23,
  0x01EE25_01EE26, 0x01EE28_01EE28, 0x01EE33_01EE33, 0x01EE38_01EE38, 0x01EE3A_01EE3A,
  0x01EE3C_01EE41, 0x01EE43_01EE46, 0x01EE48_01EE48, 0x01EE4A_01EE4A, 0x01EE4C_01EE4C,
  0x01EE50_01EE50, 0x01EE53_01EE53, 0x01EE55_01EE56, 0x01EE58_01EE58, 0x01EE5A_01EE5A,
  0x01EE5C_01EE5C, 0x01EE5E_01EE5E, 0x01EE60_01EE60, 0x01EE63_01EE63, 0x01EE65_01EE66,
  0x01EE6B_01EE6B, 0x01EE73_01EE73, 0x01EE78_01EE78, 0x01EE7D_01EE7D, 0x01EE7F_01EE7F,
  0x01EE8A_01EE8A, 0x01EE9C_01EEA0, 0x01EEA4_01EEA4, 0x01EEAA_01EEAA, 0x01EEBC_01EEEF,
  0x01EEF2_01EFFF, 0x01F02C_01F02F, 0x01F094_01F09F, 0x01F0AF_01F0B0, 0x01F0C0_01F0C0,
  0x01F0D0_01F0D0, 0x01F0F6_01F0FF, 0x01F1AE_01F1E5, 0x01F203_01F20F]

def unprintableFrom1F23C : List Nat := [
  0x01F23C_01F23F, 0x01F249_01F24F, 0x01F252_01F25F, 0x01F266_01F2FF, 0x01F6D9_01F6DB,
  0x01F6ED_01F6EF, 0x01F6FD_01F6FF, 0x01F7DA_01F7DF, 0x01F7EC_01F7EF, 0x01F7F1_01F7FF,
  0x01F80C_01F80F, 0x01F848_01F84F, 0x01F85A_01F85F, 0x01F888_01F88F, 0x01F8AE_01F8AF,
  0x01F8BC_01F8BF, 0x01F8C2_01F8CF, 0x01F8D9_01F8FF, 0x01FA58_01FA5F, 0x01FA6E_01FA6F,
  0x01FA7D_01FA7F, 0x01FA8B_01FA8D, 0x01FAC7_01FAC7, 0x01FAC9_01FACC, 0x01FADD_01FADE,
  0x01FAEB_01FAEE, 0x01FAF9_01FAFF, 0x01FB93_01FB93, 0x01FBFB_01FFFF, 0x02A6E0_02A6FF,
  0x02B81E_02B81F, 0x02CEAE_02CEAF, 0x02EBE1_02EBEF, 0x02EE5E_02F7FF, 0x02FA1E_02FFFF,
  0x03134B_03134F, 0x03347A_0E00FF, 0x0E01F0_10FFFF]

/-- The ranges in ascending order, in pages. -/
def pages : List Page := [
  ⟨0x0, 0xAB4, unprintableFrom0⟩,
  ⟨0xABA, 0xD0D, unprintableFromABA⟩,
  ⟨0xD11, 0x171E, unprintableFromD11⟩,
  ⟨0x1737, 0x245F, unprintableFrom1737⟩,
  ⟨0x2B74, 0xFB37, unprintableFrom2B74⟩,
  ⟨0xFB3D, 0x10809, unprintableFromFB3D⟩,
  ⟨0x10836, 0x11289, unprintableFrom10836⟩,
  ⟨0x1128E, 0x11BBF, unprintableFrom1128E⟩,
  ⟨0x11BE2, 0x1AFEF, unprintableFrom11BE2⟩,
  ⟨0x1AFF4, 0x1E13F, unprintableFrom1AFF4⟩,
  ⟨0x1E14A, 0x1F20F, unprintableFrom1E14A⟩,
  ⟨0x1F23C, 0x10FFFF, unprintableFrom1F23C⟩]

/-- The character shows nothing when printed. -/
def isUnprintable (c : Char) : Bool := Page.covers pages c.toNat

end Reckon.Text.Unprintable
