import SchemaClasses.Error

/-! Bounds that documents and schemas are read within, so that a hostile input fails early. -/

namespace SchemaClasses

structure Limits where
  depth : Nat := 1000
  size : Nat := 100 * 1024 * 1024
  attributes : Nat := 1000
  nodes : Nat := 100000

namespace Limits

def standard : Limits := {}

def strict : Limits where
  depth := 100
  size := 10 * 1024 * 1024
  attributes := 100
  nodes := 10000

def permissive : Limits where
  depth := 10000
  size := 1024 * 1024 * 1024
  attributes := 10000
  nodes := 1000000

def maximum (limits : Limits) : Measure → Nat
  | .depth => limits.depth
  | .size => limits.size
  | .attributes => limits.attributes
  | .nodes => limits.nodes

/-- An amount passes up to the maximum, which it may reach. -/
def check (limits : Limits) (measure : Measure) (amount : Nat) : Except Error Unit :=
  if limits.maximum measure < amount then
    .error (.limitExceeded measure amount (limits.maximum measure))
  else .ok ()

end Limits
end SchemaClasses
