/-! Character properties as lists of closed ranges of code points, and letter-case maps as lists of
shifted ranges. -/

namespace SchemaClasses.Text

abbrev Ranges := List (Nat × Nat)

def Ranges.has (ranges : Ranges) (c : Char) : Bool :=
  ranges.any fun (first, last) => first ≤ c.toNat && c.toNat ≤ last

/-- Every `stride`-th code point from `first` to `last` moves by `delta`. -/
structure Shift where
  first : Nat
  last : Nat
  stride : Nat
  delta : Int

def Shift.applies (shift : Shift) (code : Nat) : Bool :=
  shift.first ≤ code && code ≤ shift.last && (code - shift.first) % shift.stride == 0

/-- The case map of a character: its expansion if it has one, else its shift, else itself. -/
def mapCase (shifts : List Shift) (expansions : List (Nat × List Nat)) (c : Char) : List Char :=
  match expansions.lookup c.toNat with
  | some codes => codes.map Char.ofNat
  | none =>
    match shifts.find? (·.applies c.toNat) with
    | some shift => [Char.ofNat (c.toNat + shift.delta).toNat]
    | none => [c]

end SchemaClasses.Text
