/-! Lists of named values that keep the order in which the names first came. -/

namespace SchemaClasses

abbrev Entries (α : Type) := List (String × α)

namespace Entries
variable {α : Type}

def get? (entries : Entries α) (key : String) : Option α :=
  entries.lookup key

/-- Puts what `f` makes of the value under `key` into its place; a new key goes to the end. -/
def alter (key : String) (f : Option α → α) : Entries α → Entries α
  | [] => [(key, f none)]
  | (k, value) :: rest =>
    if k = key then (k, f (some value)) :: rest else (k, value) :: alter key f rest

/-- A repeated key keeps its place and takes the last value. -/
def insert (key : String) (value : α) (entries : Entries α) : Entries α :=
  entries.alter key fun _ => value

/-- A repeated key keeps its first value. -/
def insertNew (key : String) (value : α) (entries : Entries α) : Entries α :=
  entries.alter key fun
    | some old => old
    | none => value

def ofList (pairs : List (String × α)) : Entries α :=
  pairs.foldl (fun entries (key, value) => entries.insert key value) []

end Entries
end SchemaClasses
