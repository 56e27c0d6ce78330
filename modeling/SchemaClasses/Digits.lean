/-! Whole numbers written in ASCII digits, with the signs and bounds of the fixed-width types. -/

namespace SchemaClasses.Digits

def value? (c : Char) : Option Nat :=
  if c.isDigit then some (c.toNat - '0'.toNat) else none

def readFrom (read : Nat) : List Char → Option Nat
  | [] => some read
  | c :: rest => value? c >>= fun digit => readFrom (10 * read + digit) rest

def number? : List Char → Option Nat
  | [] => none
  | text => readFrom 0 text

def tenTo (exponent : Nat) : Nat :=
  Nat.pow 10 exponent

def below (bound : Nat) (n : Nat) : Option Nat :=
  if n < bound then some n else none

/-- A number below `bound`, perhaps after a plus sign. -/
def unsigned? (bound : Nat) : List Char → Option Nat
  | '+' :: rest => number? rest >>= below bound
  | text => number? text >>= below bound

def fitsInt64 (n : Int) : Bool :=
  -9223372036854775808 ≤ n && n ≤ 9223372036854775807

def int64 (n : Int) : Option Int :=
  if fitsInt64 n then some n else none

/-- A number of the signed 64-bit range, perhaps after a sign. -/
def signed? : List Char → Option Int
  | '-' :: rest => number? rest >>= fun n => int64 (-n)
  | '+' :: rest => number? rest >>= fun n => int64 n
  | text => number? text >>= fun n => int64 n

end SchemaClasses.Digits
