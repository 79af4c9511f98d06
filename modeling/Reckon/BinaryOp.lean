import Reckon.Binary64.Remainder
import Reckon.Token

/-! The five binary operators. -/
namespace Reckon

inductive BinaryOp where
  | add
  | sub
  | mul
  | div
  | rem
deriving DecidableEq, Repr

namespace BinaryOp

def ofSymbol? : Symbol → Option BinaryOp
  | .plus => some .add
  | .minus => some .sub
  | .star => some .mul
  | .slash => some .div
  | .percent => some .rem
  | _ => none

def ofKind? : TokenKind → Option BinaryOp
  | .symbol s => ofSymbol? s
  | _ => none

/-- Multiplicative operators bind tighter than additive ones. -/
def precedence : BinaryOp → Nat
  | .add | .sub => 0
  | .mul | .div | .rem => 1

/-- Arithmetic on doubles; a remainder has the sign of the dividend. -/
def apply : BinaryOp → Float → Float → Float
  | .add, x, y => x + y
  | .sub, x, y => x - y
  | .mul, x, y => x * y
  | .div, x, y => x / y
  | .rem, x, y => Binary64.remainder x y

theorem precedence_le_one (op : BinaryOp) : op.precedence ≤ 1 := by
  cases op <;> decide

end BinaryOp

end Reckon
