import Reckon.Text.Ranges

/-! Characters that leave no trace where they are not supported (the property
Default_Ignorable_Code_Point). Among them are four letters, the fillers of Hangul. -/
namespace Reckon.Text.DefaultIgnorable

def ignorable : List Nat := [
  0x0000AD_0000AD, 0x00034F_00034F, 0x00061C_00061C, 0x00115F_001160, 0x0017B4_0017B5,
  0x00180B_00180F, 0x00200B_00200F, 0x00202A_00202E, 0x002060_00206F, 0x003164_003164,
  0x00FE00_00FE0F, 0x00FEFF_00FEFF, 0x00FFA0_00FFA0, 0x00FFF0_00FFF8, 0x01BCA0_01BCA3,
  0x01D173_01D17A, 0x0E0000_0E0FFF]

def pages : List Page := [⟨0xAD, 0xE0FFF, ignorable⟩]

/-- The character is not shown. -/
def isDefaultIgnorable (c : Char) : Bool := Page.covers pages c.toNat

end Reckon.Text.DefaultIgnorable
