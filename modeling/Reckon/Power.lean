/-! Powers of integers are the core library's, also where a larger library has powers of its own. -/
namespace Reckon

attribute [scoped instance (high), default_instance high + 1] instPowNat

end Reckon
