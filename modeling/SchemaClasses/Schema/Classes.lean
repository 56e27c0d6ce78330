import SchemaClasses.Builder.Reach
import SchemaClasses.Definition.Rendering
import SchemaClasses.Derivation.Filling
import SchemaClasses.Schema.Basic

/-! The classes of a schema: the builders of its nodes, derived as far as they are asked for, and the
definitions made from them. -/

namespace SchemaClasses

/-- Derivation that goes at most so many nodes deep. -/
def Recursion.upTo (nodes : Nodes) : Nat → Recursion
  | 0 => { builder := fun _ _ => failure, expansion := fun _ _ => failure }
  | depth + 1 => {
      builder := fun id target => Derive.derive nodes (upTo nodes depth) id target
      expansion := fun path id => Derive.expandOnce nodes (upTo nodes depth) path id }

namespace Schema

/-- How deep a derivation can go without a circle of references. From one node that takes a builder
to the next there are at most all references and all groups, each once. -/
def depth (schema : Schema) : Nat :=
  (schema.nodes.size + 1) * (2 * schema.nodes.size + 3)

def recursion (schema : Schema) : Recursion :=
  .upTo schema.nodes schema.depth

def derivation (schema : Schema) : Derivation :=
  .ofNodes schema.nodes

def builder (schema : Schema) (id : NodeId) : Derive BuilderId :=
  schema.recursion.builder id none

def fields (schema : Schema) (id : NodeId) : Derive (List BuilderId) :=
  return (← schema.recursion.expansion [] id).fields

def classBuilders (schema : Schema) : Derive (List BuilderId) :=
  schema.fields schema.root

def tagged (schema : Schema) (tags : Entries BuilderId) (id : NodeId) :
    Derive (Entries BuilderId) := do
  match (schema.node id).name? with
  | some name => return tags.insert name (← schema.builder id)
  | none => return tags

def tags (schema : Schema) : Derive (Entries BuilderId) :=
  ((schema.node schema.root).childrenOf .element).foldlM schema.tagged []

end Schema

/-- Adds builders, each followed by all that it leads to, and each builder only once. What a builder
that is there already leads to is there as well. -/
def Builders.closureFrom (builders : Builders) (found : List BuilderId) :
    List BuilderId → List BuilderId
  | [] => found
  | root :: rest =>
    if found.contains root then builders.closureFrom found rest
    else
      let reached := (builders.reachable root).filter fun id => id != root && !found.contains id
      builders.closureFrom (found ++ root :: reached) rest

def Builders.closure (builders : Builders) (roots : List BuilderId) : List BuilderId :=
  builders.closureFrom [] roots

/-- The definitions of the classes of a schema. There is no result where one of them cannot be written down. -/
def Schema.definitions (schema : Schema) (style : Style) : Derive (List Definition) := do
  let roots ← schema.classBuilders
  let builders := (← get).builders
  let ids := builders.closure roots
  Derive.report (.renderingBuilders ids.length)
  let renderings ← Rendering.ofBuilders? style builders ids
  (renderings.flatMap Rendering.notices).forM Derive.report
  return renderings.map Rendering.definition

end SchemaClasses
