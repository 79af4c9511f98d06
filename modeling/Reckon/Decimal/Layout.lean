import Reckon.Decimal.Shortest

/-! Texts of doubles. -/
namespace Reckon.Decimal

/-- Plain decimal places without an exponent; a point only when digits follow it. -/
def positional (s : Scaled) : String :=
  let ds := s.digits.repr
  if 0 ≤ s.exponent then ds ++ String.ofList (List.replicate s.exponent.toNat '0')
  else
    let after := (-s.exponent).toNat
    if after < ds.length then
      String.ofList (ds.toList.take (ds.length - after)) ++ "."
        ++ String.ofList (ds.toList.drop (ds.length - after))
    else "0." ++ String.ofList (List.replicate (after - ds.length) '0') ++ ds

def scientific (s : Scaled) : String :=
  let ds := s.digits.repr.toList
  let power := s.exponent + (ds.length - 1 : Nat)
  String.ofList (ds.take 1) ++ (if ds.length = 1 then "" else "." ++ String.ofList (ds.drop 1))
    ++ (if power < 0 then "e-" else "e+") ++ power.natAbs.repr

structure Style where
  tie : Tie
  infinite : String
  zero : String
  /-- The text of a finite magnitude that is not zero. -/
  finite : Scaled → String

def Style.text (style : Style) (x : Float) : String :=
  if x.isNaN then "NaN"
  else
    (if Binary64.isNegative x then "-" else "")
      ++ (if x.isInf then style.infinite
          else if x == 0 then style.zero
          else style.finite (shortest style.tie x))

def resultStyle : Style := ⟨.toUpper, "Infinity", "0", positional⟩

/-- The text of a result, which is `0` for both zeros. -/
def resultText (x : Float) : String := if x == 0 then "0" else resultStyle.text x

/-- The value of a number token is written as a result is, but for the word for infinity. -/
def tokenStyle : Style := { resultStyle with infinite := "inf" }

def tokenText (x : Float) : String := tokenStyle.text x

def writtenPlainly (s : Scaled) : Bool :=
  let power := s.exponent + (s.digits.repr.length - 1 : Nat)
  power ≥ -5 && power < 16

/-- Always with a point or an exponent, so that it is no integer's text. -/
def pointed (s : Scaled) : String :=
  if writtenPlainly s then positional s ++ (if 0 ≤ s.exponent then ".0" else "")
  else scientific s

def jsonStyle : Style := ⟨.toEven, "inf", "0.0", pointed⟩

def jsonText (x : Float) : String := jsonStyle.text x

end Reckon.Decimal
