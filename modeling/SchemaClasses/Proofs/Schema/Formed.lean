import Mathlib
import SchemaClasses.Schema.Reading

/-! What every loaded schema looks like: children come after their parent and know it, and references
lead to declarations of the right kind. -/

namespace SchemaClasses

namespace Kind

/-- The kinds that stand for several fields. -/
def isGroup : Kind → Bool
  | schema | attrGroup | group | sequence | choice | all => true
  | _ => false

def isType : Kind → Bool
  | complexType | simpleType => true
  | _ => false

/-- The kinds that name what stands in a document. -/
def isDeclaration : Kind → Bool
  | element | attr => true
  | _ => false

/-- The kinds whose children are particles. -/
def isModel : Kind → Bool
  | sequence | choice | all => true
  | _ => false

/-- The kinds that let a child fill their builder. -/
def isOuter : Kind → Bool
  | element | attr | complexType | simpleType | simpleContent | complexContent => true
  | _ => false

/-- The kinds that may fill the builder of their parent. -/
def isInner : Kind → Bool
  | complexType | simpleType | simpleContent | complexContent | restriction | extension | list => true
  | _ => false

theorem isInner_of_isType {kind : Kind} (isType : kind.isType) : kind.isInner := by
  cases kind <;> first | rfl | cases isType

theorem not_isDeclaration_of_isInner {kind : Kind} (inner : kind.isInner) : kind.isDeclaration = false := by
  cases kind <;> first | rfl | cases inner

end Kind

namespace Nodes

structure Placed (nodes : Nodes) (id : NodeId) : Prop where
  after : ∀ child ∈ (nodes.get id).children, id < child.id
  inside : ∀ child ∈ (nodes.get id).children, child.id < nodes.size
  kind : ∀ child ∈ (nodes.get id).children, nodes.kindOf child.id = child.kind
  parent : ∀ child ∈ (nodes.get id).children, (nodes.get child.id).parent = some id
  particle : (nodes.kindOf id).isModel → ∀ child ∈ (nodes.get id).children, child.kind ∈ Reading.particles

structure Formed (nodes : Nodes) : Prop where
  placed : ∀ id, nodes.Placed id
  simple : ∀ id type, .simple type ∈ (nodes.get id).construct.typeRefs →
    type < nodes.size ∧ nodes.kindOf type = .simpleType ∧ (nodes.get type).name?.isSome
  complex : ∀ id type, .complex type ∈ (nodes.get id).construct.typeRefs →
    type < nodes.size ∧ nodes.kindOf type = .complexType ∧ (nodes.get type).name?.isSome
  ref : ∀ id referenced, (nodes.get id).construct.nodeRef? = some (.resolved referenced) →
    referenced < nodes.size ∧ nodes.kindOf referenced = nodes.kindOf id ∧ (nodes.get referenced).name?.isSome

/-- Types with a name stand directly in the schema. -/
def TypesOnTop (nodes : Nodes) : Prop :=
  ∀ id, (nodes.kindOf id).isType → (nodes.get id).name?.isSome →
    ∃ parent, (nodes.get id).parent = some parent ∧ nodes.kindOf parent = .schema

variable {nodes : Nodes} {id other : NodeId}

theorem get_outside (outside : nodes.size ≤ id) : nodes.get id = default := by
  rw [get, Array.getD_eq_getD_getElem?, Array.getElem?_eq_none outside, Option.getD_none]

theorem lt_of_get {property : Node → Prop} (holds : property (nodes.get id)) (absent : ¬property default) :
    id < nodes.size := by
  apply Nat.lt_of_not_le
  intro outside
  rw [get_outside outside] at holds
  exact absent holds

theorem mem_childrenOf {node : Node} {kind : Kind} :
    other ∈ node.childrenOf kind ↔ ⟨kind, other⟩ ∈ node.children := by
  simp only [Node.childrenOf, List.mem_map, List.mem_filter, decide_eq_true_eq]
  constructor
  · rintro ⟨⟨_, _⟩, ⟨member, rfl⟩, rfl⟩
    exact member
  · exact fun member => ⟨_, ⟨member, rfl⟩, rfl⟩

theorem mem_childrenOf_of_child? {node : Node} {kind : Kind} (found : node.child? kind = some other) :
    other ∈ node.childrenOf kind :=
  List.mem_of_head? found

namespace Formed
variable (formed : nodes.Formed)
include formed

section Children
variable {kind : Kind} (member : other ∈ (nodes.get id).childrenOf kind)
include member

theorem child_after : id < other := (formed.placed id).after _ (mem_childrenOf.mp member)

theorem child_lt : other < nodes.size := (formed.placed id).inside _ (mem_childrenOf.mp member)

theorem child_kind : nodes.kindOf other = kind := (formed.placed id).kind _ (mem_childrenOf.mp member)

theorem child_parent : (nodes.get other).parent = some id := (formed.placed id).parent _ (mem_childrenOf.mp member)

end Children

end Formed
end Nodes
end SchemaClasses
