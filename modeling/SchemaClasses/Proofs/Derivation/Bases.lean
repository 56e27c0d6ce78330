import SchemaClasses.Proofs.Derivation.Content
import SchemaClasses.Proofs.Derivation.Range

/-! Links of builders. Every link leads to a builder, and the base of a builder is either a built-in type or a
declared type, so that it has one name only. -/

namespace SchemaClasses

namespace Nodes
variable {nodes : Nodes} {id other : NodeId}

theorem base_cases (asked : .ask .base other ∈ nodes.planned id) :
    .simple other ∈ (nodes.get id).construct.typeRefs ∨ .complex other ∈ (nodes.get id).construct.typeRefs := by
  have declared {name : Option String} {type : Option TypeRef} (listed : .ask .base other ∈
    type.toList.map (TypeRef.declared name)) :
      .simple other ∈ type.toList ∨ .complex other ∈ type.toList := by
    rcases type with _ | (_ | _ | _ | _) <;> simp_all [TypeRef.declared]
  have extended {base : Option TypeRef} (listed : .ask .base other ∈ base.toList.map TypeRef.extended) :
      .simple other ∈ base.toList ∨ .complex other ∈ base.toList := by
    rcases base with _ | (_ | _ | _ | _) <;> simp_all [TypeRef.extended]
  have item {node : Node} {itemType : Option TypeRef} : .ask .base other ∉ node.itemEntries itemType := by
    rcases itemType with _ | (_ | _ | _ | _)
    · cases child : node.child? .simpleType <;> simp [Node.itemEntries, child]
    all_goals simp [Node.itemEntries]
  rcases mem_planned asked with listed | ⟨_, ⟨⟩⟩ | ⟨_, _, ⟨⟩, _⟩
  cases construct : (nodes.get id).construct with
  | element decl | attr decl =>
    have listed : .ask .base other ∈ decl.type.toList.map (TypeRef.declared decl.name) := by
      simpa [entries, construct] using listed
    exact declared listed
  | restriction base | extension base =>
    refine extended ?_
    simpa [entries, construct, Node.modelEntries, attributeEntries] using listed
  | simpleType name =>
    by_cases union : ((nodes.get id).child? .union).isSome = true <;> simp [entries, construct, union] at listed
  | _ => simp [entries, construct, item, Node.modelEntries, attributeEntries] at listed

theorem builtin_declaration {type : Builtin} (listed : .mark (.builtin type) ∈ nodes.planned id) :
    (nodes.kindOf id).isDeclaration := by
  rcases mem_planned listed with listed | ⟨_, ⟨⟩⟩ | ⟨_, _, ⟨⟩, _⟩
  obtain ⟨declaration, _⟩ | ⟨_, _, ⟨⟩, _⟩ | same := mark_cases listed
  · exact declaration
  · cases same

/-- A type that is named by others. -/
structure Referable (nodes : Nodes) (id : NodeId) : Prop where
  type : (nodes.kindOf id).isType
  named : (nodes.get id).name?.isSome

theorem Formed.base_referable (formed : nodes.Formed) (asked : .ask .base other ∈ nodes.planned id) :
    nodes.Referable other := by
  rcases base_cases asked with simple | complex
  · obtain ⟨_, kind, named⟩ := formed.simple id other simple
    exact ⟨by rw [kind]; rfl, named⟩
  · obtain ⟨_, kind, named⟩ := formed.complex id other complex
    exact ⟨by rw [kind]; rfl, named⟩

end Nodes

namespace Written
variable {nodes : Nodes} {numbering : Numbering} {id : NodeId} {entries : List Entry} {before after : Builder}
  {rules : List Rule}

theorem base {sort : BuilderId → Prop} (formed : nodes.Formed)
    (plain : ∀ other id type, numbering.ledger[other]? = some (.plain id type) → sort other)
    (asked : ∀ id other, nodes.Referable id → numbering.memo id = some other → sort other)
    (written : Written nodes numbering id entries before after rules) (listed : entries ⊆ nodes.planned id)
    (known : ∀ other, before.base = some other → sort other) : ∀ other, after.base = some other → sort other := by
  induction written with
  | done => exact known
  | @mark id mark rest before after rules written ih =>
    refine ih (List.subset_of_cons_subset listed) ?_
    cases mark <;> exact known
  | rules written ih | notice written ih | append found written ih => exact ih (List.subset_of_cons_subset listed) known
  | @plain id role type other rest before after rules found written ih =>
    refine ih (List.subset_of_cons_subset listed) ?_
    cases role with
    | base => exact fun number same => Option.some.inj same ▸ plain other id type found
    | _ => exact known
  | @ask id role node other rest before after rules found written ih =>
    refine ih (List.subset_of_cons_subset listed) ?_
    cases role with
    | base =>
      exact fun number same => Option.some.inj same ▸
        asked node other (formed.base_referable (listed List.mem_cons_self)) found
    | _ => exact known
  | embed own written ih rest => exact rest (List.subset_of_cons_subset listed) (ih (List.Subset.refl _) known)

theorem builtin (formed : nodes.Formed) (written : Written nodes numbering id entries before after rules)
    (listed : entries ⊆ nodes.planned id) (inner : (nodes.kindOf id).isInner) (plain : before.builtin? = none) :
    after.builtin? = none := by
  induction written with
  | done => exact plain
  | @mark id mark rest before after rules written ih =>
    refine ih (List.subset_of_cons_subset listed) inner ?_
    cases mark with
    | builtin type =>
      have declaration := Nodes.builtin_declaration (listed List.mem_cons_self)
      cases kind : nodes.kindOf id <;> simp [kind, Kind.isInner, Kind.isDeclaration] at inner declaration
    | list => rfl
    | _ => exact plain
  | rules written ih | notice written ih
  | append found written ih => exact ih (List.subset_of_cons_subset listed) inner plain
  | @plain id role type other rest before after rules found written ih =>
    refine ih (List.subset_of_cons_subset listed) inner ?_
    cases role <;> first | exact plain | rfl
  | @ask id role node other rest before after rules found written ih =>
    refine ih (List.subset_of_cons_subset listed) inner ?_
    cases role <;> first | exact plain | rfl
  | embed own written ih rest =>
    have embedded : nodes.Embedded _ := ⟨_, listed List.mem_cons_self⟩
    exact rest (List.subset_of_cons_subset listed) inner (ih (List.Subset.refl _) (formed.embedded_kind embedded) plain)

end Written

namespace Described
variable {nodes : Nodes} {numbering : Numbering} {id : NodeId} {builder : Builder} {rules : List Rule}

theorem plain_className {type : Builtin} (described : Described nodes numbering (.plain id type) builder rules) :
    builder.className = none := by
  cases described
  rfl

theorem base (sort : BuilderId → Prop) {origin : Origin} (formed : nodes.Formed)
    (plain : ∀ other id type, numbering.ledger[other]? = some (.plain id type) → sort other)
    (asked : ∀ id other, nodes.Referable id → numbering.memo id = some other → sort other)
    (described : Described nodes numbering origin builder rules) : ∀ other, builder.base = some other → sort other := by
  have bare {bag : Nat} : ∀ other, ({ bag } : Builder).base = some other → sort other := fun _ found => nomatch found
  cases described with
  | own plan written | item plan written =>
    exact written.base formed plain asked (Nodes.planned_of_plan plan ▸ List.Subset.refl _) bare
  | wrapped plan found => exact @bare 0
  | plain => exact @bare 0

end Described

namespace Nodes.Referable
variable {nodes : Nodes} {id : NodeId} (referable : nodes.Referable id)
include referable

theorem inner : (nodes.kindOf id).isInner := Kind.isInner_of_isType referable.type

theorem plan : nodes.plan id = .build (nodes.derivationNotices id) none (nodes.entries id) :=
  plan_of_inner referable.inner

theorem home (formed : nodes.Formed) (top : nodes.TypesOnTop) {origin : Origin} (home : nodes.Home id origin) :
    origin = .own id := by
  obtain ⟨parent, found, schema⟩ := top id referable.type referable.named
  have apart := formed.not_embedded_of_schema found schema
  cases home with
  | own => rfl
  | shared plan => cases referable.plan.symm.trans plan
  | inside embeds | item embeds => exact absurd ⟨_, embeds⟩ apart

end Nodes.Referable

namespace Derived
variable {nodes : Nodes} {stage : Stage} {ledger : List Origin}

theorem whole (derived : Derived nodes stage ledger) : stage.Whole := by
  induction derived with
  | start => exact .empty
  | more derived run standalone ih => exact (run.growth ih (standalone.target ▸ Stage.nowhere)).whole

theorem inRange (derived : Derived nodes stage ledger) : stage.builders.InRange := by
  induction derived with
  | start => exact fun _ inside => absurd inside (Nat.not_lt_zero _)
  | more derived run standalone ih => exact run.inRange derived.whole (standalone.target ▸ Stage.nowhere) ih

variable (formed : nodes.Formed) (top : nodes.TypesOnTop)
include formed top

theorem described (derived : Derived nodes stage ledger) {builder : BuilderId} (inside : builder < stage.size) :
    ∃ origin, ledger[builder]? = some origin ∧
      Described nodes ⟨stage.memo, ledger⟩ origin (stage.builders.get builder) (stage.builders.facets builder) := by
  have within : builder < ledger.length := (derived.stands formed top).length ▸ inside
  have place : ledger[builder]? = some ledger[builder] := List.getElem?_eq_getElem within
  exact ⟨_, place, derived.describes formed top .refl inside _ place⟩

/-- A base stands for a built-in type, or it has a class name, but not both. -/
theorem base_named (derived : Derived nodes stage ledger) {builder base : BuilderId} (inside : builder < stage.size)
    (found : (stage.builders.get builder).base = some base) :
    (stage.builders.get base).builtin? = none ∨ (stage.builders.get base).className = none := by
  have stands := derived.stands formed top
  have reads {other : BuilderId} {origin : Origin} (place : ledger[other]? = some origin) :
      Described nodes ⟨stage.memo, ledger⟩ origin (stage.builders.get other) (stage.builders.facets other) :=
    derived.describes formed top .refl (stands.length ▸ (List.getElem?_eq_some_iff.mp place).1) origin place
  obtain ⟨origin, _, described⟩ := derived.described formed top inside
  refine described.base (fun other => (stage.builders.get other).builtin? = none ∨
    (stage.builders.get other).className = none)
    formed (fun other id type place => Or.inr (reads place).plain_className)
      (fun id other referable known => ?_) base found
  obtain ⟨origin, home, place⟩ := stands.home id other known
  rw [referable.home formed top home] at place
  obtain ⟨_, written⟩ := (reads place).own_written referable.plan
  exact Or.inl (written.builtin formed (List.Subset.refl _) referable.inner rfl)

end Derived

end SchemaClasses
