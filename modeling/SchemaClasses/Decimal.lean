import SchemaClasses.Digits

/-! Decimal numbers of bounded size: a mantissa of 96 bits over a power of ten of at most 28. A text
with more digits than fit is rounded, half upwards, at the first digit that does not; a whole part
that does not fit is refused. -/

namespace SchemaClasses

structure Decimal where
  negative : Bool
  mantissa : Nat
  scale : Nat
  deriving DecidableEq, Repr

namespace Decimal

def maxMantissa : Nat := Nat.pow 2 96 - 1

def maxScale : Nat := 28

/-- The mantissa with its sign: the value is this over ten to the scale. -/
def signed (d : Decimal) : Int :=
  if d.negative then -d.mantissa else d.mantissa

/-- Adds one unit if the first digit left out asks for it. Should the mantissa then be too large, its
last digit goes as well. -/
def roundUp (mantissa scale digit : Nat) : Option (Nat × Nat) :=
  if digit < 5 then some (mantissa, scale)
  else if mantissa < maxMantissa then some (mantissa + 1, scale)
  else if scale = 0 then none
  else some ((mantissa + 5) / 10, scale - 1)

def isFiller (c : Char) : Bool :=
  c.isDigit || c = '_'

/-- Below this bound a mantissa of 64 bits takes another digit without a further look. -/
def roomBound : Nat := Nat.pow 2 64 / 10 - 255

/-- Whether the last digit of a mantissa was added without a further look. -/
def isShort (mantissa : Nat) : Bool :=
  mantissa / 10 < roomBound

/-- Reads digits, at most one point, and underscores behind the first digit. `point` tells whether
the point was met and `begun` whether a digit was. Behind the last digit that the scale has room for,
an underscore cuts off what follows a short mantissa, without rounding; a long one is rounded at the
next digit. -/
def scan (point begun : Bool) (mantissa scale : Nat) : List Char → Option (Nat × Nat)
  | [] => if begun then some (mantissa, scale) else none
  | c :: rest =>
    match Digits.value? c with
    | some digit =>
      let grown := 10 * mantissa + digit
      if point && (scale = maxScale || maxMantissa < grown) then
        if rest.all isFiller then roundUp mantissa scale digit else none
      else if maxMantissa < grown then none
      else scan point true grown (if point then scale + 1 else scale) rest
    | none =>
      if c = '.' && !point then scan true begun mantissa scale rest
      else if c = '_' && begun then
        if point && scale = maxScale && isShort mantissa then
          if rest.all isFiller then some (mantissa, scale) else none
        else scan point begun mantissa scale rest
      else none

def ofScan? (negative : Bool) (text : List Char) : Option Decimal :=
  (scan false false 0 0 text).map fun (mantissa, scale) => ⟨negative, mantissa, scale⟩

def plain? (text : List Char) : Option Decimal :=
  match text with
  | '-' :: rest => ofScan? true rest
  | '+' :: rest => ofScan? false rest
  | _ => ofScan? false text

/-- The mantissa over a smaller power of ten, rounded half upwards. -/
def reduce (mantissa count : Nat) : Nat :=
  match count with
  | 0 => mantissa
  | n + 1 => mantissa / Digits.tenTo (n + 1) + if 5 ≤ mantissa / Digits.tenTo n % 10 then 1 else 0

/-- Divides by ten to the exponent. The result keeps the largest scale where it needs a larger one. -/
def divide (d : Decimal) (exponent : Nat) : Decimal :=
  if d.scale + exponent ≤ maxScale then { d with scale := d.scale + exponent }
  else { d with mantissa := reduce d.mantissa (d.scale + exponent - maxScale), scale := maxScale }

/-- Multiplies by ten to the exponent, if the result fits. -/
def multiply? (d : Decimal) (exponent : Nat) : Option Decimal :=
  if exponent ≤ d.scale then some { d with scale := d.scale - exponent }
  else
    let mantissa := d.mantissa * Digits.tenTo (exponent - d.scale)
    if mantissa ≤ maxMantissa then some { d with mantissa, scale := 0 } else none

/-- An exponent: a number of 32 bits, at most as large as the largest scale. -/
def exponent? (text : List Char) : Option Nat :=
  Digits.unsigned? (Nat.pow 2 32) text >>= Digits.below (maxScale + 1)

def isExponentMark (c : Char) : Bool :=
  c = 'e' || c = 'E'

/-- A decimal with an exponent behind the first `e` or `E`. -/
def scientific? (text : List Char) : Option Decimal :=
  match text.dropWhile (!isExponentMark ·) with
  | [] => none
  | _ :: power => do
    let base ← plain? (text.takeWhile (!isExponentMark ·))
    match power with
    | '-' :: power => return base.divide (← exponent? power)
    | _ => base.multiply? (← exponent? power)

def read? (text : List Char) : Option Decimal :=
  plain? text <|> scientific? text

/-- The whole part: the value rounded towards zero. -/
def truncate (d : Decimal) : Int :=
  d.signed.tdiv (Digits.tenTo d.scale)

/-- How the value compares with a whole number. -/
def compareInt (d : Decimal) (n : Int) : Ordering :=
  compare d.signed (n * Digits.tenTo d.scale)

end Decimal
end SchemaClasses
