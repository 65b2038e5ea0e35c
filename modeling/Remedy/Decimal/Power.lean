/-!
# Powers

The powers of two and of ten that bound words and scale decimals.
-/

namespace Remedy

namespace Power

/-- The powers of two. -/
def two (n : Nat) : Nat := Nat.pow 2 n

/-- The powers of ten. -/
def ten (n : Nat) : Nat := Nat.pow 10 n

end Power

end Remedy
