import Remedy.Decimal.Shortest
/-!
# Doubles without an exponent

The shortest decimal of a double, written out with all its places. A whole
number keeps one zero after the point.
-/

namespace Remedy

namespace Decimal

/-- A positive decimal with all its places. -/
def places (d : Shortest.Decimal) : List Char :=
  let digits := (toString d.digits).toList
  let point := digits.length - (-d.exponent).toNat
  let lead := (-d.exponent).toNat - digits.length
  let whole := digits.take point ++ List.replicate d.exponent.toNat '0'
  let fraction := List.replicate lead '0' ++ digits.drop point
  (if whole.isEmpty then ['0'] else whole) ++
    '.' :: (if fraction.isEmpty then ['0'] else fraction)

/-- **The text of a double**, positional whatever its size. -/
def positional (x : Float) : String :=
  match FloatParts.ofFloat x with
  | .notANumber => "NaN"
  | .infinite minus => if minus then "-inf" else "inf"
  | .finite minus m e =>
    let body := if m = 0 then ['0', '.', '0'] else places (Shortest.digits m e)
    String.ofList (if minus then '-' :: body else body)

end Decimal

end Remedy
