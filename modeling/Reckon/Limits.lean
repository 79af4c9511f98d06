/-! Bounds on one evaluation. -/
namespace Reckon

structure Limits where
  /-- Parentheses that may be open at a time, of groups and argument lists alike. -/
  maxDepth : Nat := 256
  /-- Bytes of source text before normalization. -/
  maxSourceLength : Nat := 65536
deriving DecidableEq, Repr

namespace Limits

/-- No configuration allows deeper nesting. -/
def depthCeiling : Nat := 512

/-- The depth that is enforced. -/
def effectiveDepth (l : Limits) : Nat := min l.maxDepth depthCeiling

theorem effectiveDepth_le (l : Limits) : l.effectiveDepth ≤ depthCeiling := Nat.min_le_right _ _

end Limits

end Reckon
