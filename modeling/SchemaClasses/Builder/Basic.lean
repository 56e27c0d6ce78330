import SchemaClasses.Builtin
import SchemaClasses.Rule

/-! Class builders: the shapes of the classes to generate. Builders link to each other freely, in
cycles where a schema is recursive, so they stand in one store and are known by their number. Their
rules stand in bags, which several builders may share. -/

namespace SchemaClasses

abbrev BuilderId := Nat

def BuilderId.text (id : BuilderId) : String :=
  "cb" ++ toString id

/-- What a builder stands for where that is no generated class. -/
inductive Target where
  | builtin (type : Builtin)
  | list
  deriving DecidableEq, Repr

structure Builder where
  target : Option Target := none
  className : Option String := none
  /-- The name under which other classes hold it as a field. -/
  fieldTag : Option String := none
  /-- The type of the items, where it stands for a list. -/
  item : Option BuilderId := none
  base : Option BuilderId := none
  fields : List BuilderId := []
  bag : Nat := 0
  deriving DecidableEq, Repr, Inhabited

namespace Builder

def builtin? (builder : Builder) : Option Builtin :=
  match builder.target with
  | some (.builtin type) => some type
  | _ => none

def isList (builder : Builder) : Bool :=
  builder.target = some .list

/-- The name of the field that holds it: its tag, else its class name, else its built-in type, put
into the form of a field name. -/
def fieldName? (builder : Builder) : Option String :=
  (builder.fieldTag <|> builder.className <|> builder.builtin?.map Builtin.label).map Name.field

end Builder

structure Builders where
  store : Array Builder := #[]
  bags : Array (List Rule) := #[]
  deriving DecidableEq, Repr, Inhabited

namespace Builders

def size (builders : Builders) : Nat :=
  builders.store.size

def get (builders : Builders) (id : BuilderId) : Builder :=
  builders.store.getD id {}

def modify (builders : Builders) (id : BuilderId) (f : Builder → Builder) : Builders :=
  { builders with store := builders.store.modify id f }

def create (builders : Builders) (builder : Builder := {}) : BuilderId × Builders :=
  (builders.size, {
    store := builders.store.push { builder with bag := builders.bags.size }
    bags := builders.bags.push [] })

def createBuiltin (builders : Builders) (type : Builtin) : BuilderId × Builders :=
  builders.create { target := some (.builtin type) }

def createNamed (builders : Builders) (className : String) : BuilderId × Builders :=
  builders.create { className := some className }

def setBuiltinBase (builders : Builders) (id : BuilderId) (type : Builtin) : Builders :=
  let (base, builders) := builders.createBuiltin type
  builders.modify id ({ · with base := some base })

def pushField (builders : Builders) (id field : BuilderId) : Builders :=
  builders.modify id fun builder => { builder with fields := builder.fields ++ [field] }

def pushFields (builders : Builders) (id : BuilderId) (fields : List BuilderId) : Builders :=
  builders.modify id fun builder => { builder with fields := builder.fields ++ fields }

def rules (builders : Builders) (id : BuilderId) : List Rule :=
  builders.bags.getD (builders.get id).bag []

/-- Changes the bag of a builder, and so of all that share it. -/
def modifyRules (builders : Builders) (id : BuilderId) (f : List Rule → List Rule) : Builders :=
  { builders with bags := builders.bags.modify (builders.get id).bag f }

def pushRule (builders : Builders) (id : BuilderId) (rule : Rule) : Builders :=
  builders.modifyRules id (· ++ [rule])

def pushRules (builders : Builders) (id : BuilderId) (rules : List Rule) : Builders :=
  builders.modifyRules id (· ++ rules)

/-- Gives a builder a new bag, apart from all that shared the old one. -/
def replaceRules (builders : Builders) (id : BuilderId) (rules : List Rule) : Builders :=
  { builders.modify id ({ · with bag := builders.bags.size }) with
    bags := builders.bags.push rules }

def sharesRules (builders : Builders) (a b : BuilderId) : Bool :=
  (builders.get a).bag == (builders.get b).bag

def fieldName? (builders : Builders) (id : BuilderId) : Option String :=
  (builders.get id).fieldName?

end Builders
end SchemaClasses
