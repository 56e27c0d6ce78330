import SchemaClasses.Builder.Basic
import SchemaClasses.Notice
import SchemaClasses.Schema.Node

/-! The state in which builders are derived from nodes, and the steps that change it. A node keeps the
first builder it is given, so a node that leads back to itself finds its own builder. -/

namespace SchemaClasses

structure Derivation where
  builders : Builders := {}
  /-- The builder of each node that has one. -/
  memo : Array (Option BuilderId) := #[]
  notices : Array Notice := #[]
  deriving Repr, Inhabited

namespace Derivation

def ofNodes (nodes : Nodes) : Derivation where
  memo := Array.replicate nodes.size none

def builder? (derivation : Derivation) (id : NodeId) : Option BuilderId :=
  derivation.memo.getD id none

def remember (derivation : Derivation) (id : NodeId) (builder : BuilderId) : Derivation :=
  { derivation with memo := derivation.memo.setIfInBounds id (some builder) }

def report (derivation : Derivation) (notice : Notice) : Derivation :=
  { derivation with notices := derivation.notices.push notice }

end Derivation

/-- Steps of a derivation. Steps that have no end, as they follow references in a circle, have no result. -/
abbrev Derive := StateT Derivation Option

namespace Derive

def builder? (id : NodeId) : Derive (Option BuilderId) :=
  return (← get).builder? id

def remember (id : NodeId) (builder : BuilderId) : Derive Unit :=
  modify (·.remember id builder)

def report (notice : Notice) : Derive Unit :=
  modify (·.report notice)

def edit (change : Builders → Builders) : Derive Unit :=
  modify fun derivation => { derivation with builders := change derivation.builders }

def make (creation : Builders → BuilderId × Builders) : Derive BuilderId :=
  modifyGet fun derivation =>
    let (builder, builders) := creation derivation.builders
    (builder, { derivation with builders })

/-- The builder to fill: the given one, else a new one. -/
def makeUnless : Option BuilderId → Derive BuilderId
  | some builder => return builder
  | none => make Builders.create

end Derive
end SchemaClasses
