/-! # Shortest decimals for binary fractions

A double-precision number is read from its 64 bits as a sign, a whole number and a power of two.
Its shortest decimal has the fewest significant digits among all decimals that lie in the interval
of reals rounding to it, ends included exactly when the whole number is even, and is the one
nearest to it among those. On the grid of decimals with a given number of digits only the two
neighbours of the number have to be tried, because the interval holds the number itself.
-/

namespace TreeQuery.Decimal

def binaryPlace (place : Nat) : Nat := Nat.pow 2 place

def decimalPlace (place : Nat) : Nat := Nat.pow 10 place

/-- A finite double: `(-1) ^ negative * whole * 2 ^ exponent`. -/
structure Binary where
  negative : Bool
  whole : Nat
  exponent : Int
  deriving DecidableEq, Repr

namespace Binary

/-- The double with the given bits. The pattern of all ones in the exponent is read as one more
binary order of magnitude. -/
def ofBits (bits : UInt64) : Binary :=
  let number := bits.toNat
  let fraction : Nat := number % binaryPlace 52
  let order : Nat := number / binaryPlace 52 % binaryPlace 11
  { negative := number / binaryPlace 63 == 1
    whole := if order = 0 then fraction else binaryPlace 52 + fraction
    exponent := if order = 0 then -1074 else (order : Int) - 1075 }

/-- The numerator of the absolute value over `denominator`. -/
def numerator (number : Binary) : Nat :=
  number.whole * binaryPlace number.exponent.toNat

/-- The denominator of the absolute value under `numerator`. -/
def denominator (number : Binary) : Nat :=
  binaryPlace (-number.exponent).toNat

/-- The whole number next to a double in the direction of zero. -/
def truncate (number : Binary) : Int :=
  let size := number.numerator / number.denominator
  if number.negative then -size else size

def equalsInt (number : Binary) (whole : Int) : Bool :=
  let signed : Int := if number.negative then -number.numerator else number.numerator
  signed == whole * number.denominator

end Binary

/-- A positive decimal: `digits * 10 ^ exponent`. -/
structure Scientific where
  digits : Nat
  exponent : Int
  deriving DecidableEq, Repr

namespace Scientific

/-- The absolute value of a double lies below `10 ^ order` for the first such `order` upwards from
`low`, tried at most `fuel` times. -/
def orderFrom (numerator denominator : Nat) : Nat → Int → Int
  | 0, low => low
  | fuel + 1, low =>
      if numerator * decimalPlace (-low).toNat < denominator * decimalPlace low.toNat then low
      else orderFrom numerator denominator fuel (low + 1)

/-- The least power of ten above the absolute value of a nonzero double. -/
def orderOf (number : Binary) : Int :=
  orderFrom number.numerator number.denominator 700 (-330)

/-- Whether a decimal, given by its digits and its exponent, rounds to a double. Everything is
counted in quarters of the last binary place: half a place reaches to the neighbour above, and to
the one below too unless the number is the least of its binary order, where a quarter does. -/
def roundsTo (number : Binary) (digits : Nat) (exponent : Int) : Bool :=
  let scale := binaryPlace (-number.exponent).toNat * decimalPlace exponent.toNat * 4
  let unit := binaryPlace number.exponent.toNat * decimalPlace (-exponent).toNat
  let value := digits * scale
  let below := if number.whole = binaryPlace 52 ∧ number.exponent ≠ -1074 then 1 else 2
  let low := (4 * number.whole - below) * unit
  let high := (4 * number.whole + 2) * unit
  if number.whole % 2 = 0 then low ≤ value && value ≤ high
  else low < value && value < high

/-- The nearer of two neighbouring grid points to a double, the even one of two equally near. -/
def nearer (number : Binary) (digits : Nat) (exponent : Int) : Nat :=
  let target := 2 * number.numerator * decimalPlace (-exponent).toNat
  let middle := (2 * digits + 1) * number.denominator * decimalPlace exponent.toNat
  if target < middle then digits
  else if middle < target then digits + 1
  else if digits % 2 = 0 then digits else digits + 1

/-- The decimal with at most the given number of digits that rounds to a double, if there is one,
and the nearest of two. -/
def onGrid? (number : Binary) (count : Nat) : Option Scientific :=
  let exponent := orderOf number - count
  let digits := number.numerator * decimalPlace (-exponent).toNat /
    (number.denominator * decimalPlace exponent.toNat)
  match roundsTo number digits exponent, roundsTo number (digits + 1) exponent with
  | true, true => some ⟨nearer number digits exponent, exponent⟩
  | true, false => some ⟨digits, exponent⟩
  | false, true => some ⟨digits + 1, exponent⟩
  | false, false => none

/-- The shortest decimal that rounds to a nonzero double. Seventeen digits always do. -/
def shortest (number : Binary) : Scientific :=
  ((List.range 17).findSome? fun count => onGrid? number (count + 1)).getD ⟨0, 0⟩

end Scientific

/-- How the digits of a decimal are laid out. -/
structure Style where
  /-- The least decimal order that is written without an exponent. -/
  leastPositional : Int
  /-- The first decimal order above those written without an exponent. -/
  firstScientific : Int
  /-- The least number of digits of an exponent. -/
  exponentWidth : Nat

/-- The text of digits and a power of ten, where a whole number keeps one zero after the point. -/
def Style.layout (style : Style) (decimal : Scientific) : String :=
  let text := Nat.toDigits 10 decimal.digits
  let digits := (text.reverse.dropWhile (· = '0')).reverse
  let order : Int := decimal.exponent + text.length - 1
  if style.leastPositional ≤ order ∧ order < style.firstScientific then
    if order < 0 then
      String.ofList ('0' :: '.' :: List.replicate (-order - 1).toNat '0' ++ digits)
    else
      let places := order.toNat + 1
      let fraction := digits.drop places
      String.ofList (digits.take places ++ List.replicate (places - digits.length) '0' ++
        '.' :: (if fraction.isEmpty then ['0'] else fraction))
  else
    let size := Nat.toDigits 10 order.natAbs
    let mantissa := match digits with
      | [] => []
      | first :: [] => [first]
      | first :: rest => first :: '.' :: rest
    String.ofList (mantissa ++ 'e' :: (if order < 0 then '-' else '+') ::
      List.replicate (style.exponentWidth - size.length) '0' ++ size)

/-- The text of a finite double: its sign, and zero or the shortest decimal in the given style. -/
def Style.write (style : Style) (number : Binary) : String :=
  let size := if number.whole = 0 then "0.0" else style.layout (Scientific.shortest number)
  if number.negative then "-" ++ size else size

/-- Numbers below `10 ^ 16` and from `10 ^ (-4)` on are written without an exponent, and an exponent
has at least two digits. -/
def standard : Style := ⟨-4, 16, 2⟩

end TreeQuery.Decimal
