/-!
# Reading a double

A double is written with digits, a point among or beside them and an
exponent, or as an infinity or not a number. The value is the double
nearest to the decimal.
-/

namespace Remedy

namespace Decimal

/-- How far from zero the exponent of a first digit may be for the double
to be neither zero nor infinite. -/
def magnitudeLimit : Int := 400

/-- The double nearest to `digits · 10 ^ exponent`, where there are `count`
digits. -/
def nearest (digits count : Nat) (exponent : Int) : Float :=
  let magnitude := count + exponent
  if digits = 0 ∨ magnitude < -magnitudeLimit then 0.0
  else if 0 ≤ exponent then
    if magnitudeLimit < exponent then 1.0 / 0.0
    else Float.ofScientific digits false exponent.toNat
  else Float.ofScientific digits true (-exponent).toNat

/-- The number that decimal digits stand for. -/
def valueOf (digits : List Char) : Nat :=
  digits.foldl (fun n c => n * 10 + (c.toNat - '0'.toNat)) 0

/-- An exponent with its sign. Nothing may follow it. -/
def exponent? (text : List Char) : Option Int :=
  let (minus, digits) := match text with
    | '-' :: rest => (true, rest)
    | '+' :: rest => (false, rest)
    | rest => (false, rest)
  if digits.isEmpty ∨ !digits.all Char.isDigit then none
  else some (if minus then -(valueOf digits : Int) else valueOf digits)

/-- A finite number without its sign. -/
def magnitude? (text : List Char) : Option Float :=
  let whole := text.takeWhile Char.isDigit
  let rest := text.drop whole.length
  let (fraction, rest) := match rest with
    | '.' :: tail => (tail.takeWhile Char.isDigit, tail.dropWhile Char.isDigit)
    | rest => ([], rest)
  let significant := (whole ++ fraction).dropWhile (· = '0')
  let number (e : Int) := nearest (valueOf significant) significant.length (e - fraction.length)
  if whole.isEmpty ∧ fraction.isEmpty then none
  else
    match rest with
    | [] => some (number 0)
    | mark :: tail => if mark = 'e' ∨ mark = 'E' then (exponent? tail).map number else none

/-- An infinity or not a number, in letters of either case. -/
def special? (text : List Char) : Option Float :=
  let name := String.ofList (text.map Char.toLower)
  if name = "inf" ∨ name = "infinity" then some (1.0 / 0.0)
  else if name = "nan" then some (0.0 / 0.0)
  else none

/-- **The double that a text stands for.** -/
def double? (text : String) : Option Float :=
  let (minus, body) := match text.toList with
    | '-' :: rest => (true, rest)
    | '+' :: rest => (false, rest)
    | rest => (false, rest)
  ((magnitude? body).or (special? body)).map fun x => if minus then -x else x

end Decimal

end Remedy
