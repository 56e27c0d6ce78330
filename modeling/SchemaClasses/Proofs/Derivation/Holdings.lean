import SchemaClasses.Proofs.Derivation.ClassNames
import SchemaClasses.Proofs.Derivation.Fields

/-! What builders hold, wherever types stand. The fields of a builder are among those that the declaration of a
class lists, in the same order, and a class is called after the declaration or after a type inside of it. A type
inside of an element can have a class of its own if it has a name, and what it lists is then missing from the
class of the element. -/

namespace SchemaClasses

namespace Nodes
variable (nodes : Nodes)

/-- The fields of a simple type are those of the restriction in it. -/
def simpleFields (id : NodeId) : List NodeId :=
  ((nodes.get id).child? .restriction).toList.flatMap nodes.derivedFields

/-- The nodes that are fields of the class of a node of the kind, with those that come from types inside of it. -/
def fieldsOf (kind : Kind) (id : NodeId) : List NodeId :=
  match kind with
  | .element =>
    ((nodes.get id).child? .complexType).toList.flatMap nodes.typeFields
      ++ ((nodes.get id).child? .simpleType).toList.flatMap nodes.simpleFields
  | .attr => ((nodes.get id).child? .simpleType).toList.flatMap nodes.simpleFields
  | .complexType => nodes.typeFields id
  | .simpleType => nodes.simpleFields id
  | .simpleContent | .complexContent => nodes.contentFields id
  | .restriction | .extension => nodes.derivedFields id
  | .list | .union => []
  | .schema | .group | .attrGroup | .sequence | .choice | .all => nodes.members [] id

def classFields (id : NodeId) : List NodeId :=
  nodes.fieldsOf (nodes.kindOf id) id

/-- The nodes that an entry makes fields. -/
def entryFields : Entry → List NodeId
  | .ask .field asked => [asked]
  | .append group => nodes.members [] group
  | .embed inner => nodes.classFields inner
  | .ask .. | .mark _ | .rules _ | .plain .. | .notice _ => []

end Nodes

def Entry.isField : Entry → Bool
  | ask .field _ | plain .field _ => true
  | ask .. | plain .. | mark _ | rules _ | embed _ | append _ | notice _ => false

namespace Nodes
variable {nodes : Nodes} {id other : NodeId}

private theorem silent_fields {α : Type} {entry : α → Entry} (silent : ∀ item, nodes.entryFields (entry item) = [])
    (items : List α) :
    (items.map entry).flatMap nodes.entryFields = [] :=
  List.flatMap_eq_nil_iff.mpr (List.forall_mem_map.mpr fun item _ => silent item)

private theorem asked_fields (ids : List NodeId) : (ids.map (.ask .field)).flatMap nodes.entryFields = ids := by
  rw [List.flatMap_map]
  exact List.flatMap_singleton' ids

private theorem appended_fields (ids : List NodeId) : (ids.map .append).flatMap nodes.entryFields = ids.flatMap
    (nodes.members []) :=
  List.flatMap_map ..

private theorem model_fields (node : Node) : node.modelEntries.flatMap nodes.entryFields = nodes.modelFields node :=
  appended_fields _

private theorem attribute_fields (node : Node) : (nodes.attributeEntries node).flatMap nodes.entryFields =
      nodes.attributeFields node := by
  rw [attributeEntries, List.flatMap_append, asked_fields, appended_fields, attributeFields]

private theorem declared_fields (name : Option String) (type : Option TypeRef) :
    (type.toList.map (TypeRef.declared name)).flatMap nodes.entryFields = [] :=
  silent_fields (fun type => by cases type <;> rfl) _

private theorem extended_fields (base : Option TypeRef) :
    (base.toList.map TypeRef.extended).flatMap nodes.entryFields = [] :=
  silent_fields (fun type => by cases type <;> rfl) _

private theorem named_fields (name : Option String) :
    (name.toList.map fun name => Entry.mark (.className name)).flatMap nodes.entryFields = [] :=
  silent_fields (fun _ => rfl) _

private theorem item_fields (node : Node) (type : Option TypeRef) :
    (node.itemEntries type).flatMap nodes.entryFields = [] := by
  cases type with
  | some type => cases type <;> rfl
  | none => cases child : node.child? .simpleType <;> simp [Node.itemEntries, child, entryFields]

section Formed
variable (formed : nodes.Formed)
include formed

private theorem embedded_fields {kind : Kind} :
    (((nodes.get id).child? kind).toList.map .embed).flatMap nodes.entryFields =
    ((nodes.get id).child? kind).toList.flatMap (nodes.fieldsOf kind) := by
  cases found : (nodes.get id).child? kind with
  | none => rfl
  | some inner => simp [entryFields, classFields, formed.child_kind (mem_childrenOf_of_child? found)]

theorem Formed.entries_fields : (nodes.entries id).flatMap nodes.entryFields = nodes.classFields id := by
  have inner (kind : Kind) := @embedded_fields nodes id formed kind
  have types : nodes.fieldsOf .complexType = nodes.typeFields ∧ nodes.fieldsOf .simpleType = nodes.simpleFields :=
    ⟨rfl, rfl⟩
  have contents : nodes.fieldsOf .simpleContent = nodes.contentFields ∧ nodes.fieldsOf .complexContent =
    nodes.contentFields := ⟨rfl, rfl⟩
  have derived : nodes.fieldsOf .restriction = nodes.derivedFields ∧ nodes.fieldsOf .extension =
    nodes.derivedFields := ⟨rfl, rfl⟩
  have list : nodes.fieldsOf .list = fun _ => [] := rfl
  rw [classFields, kindOf, Node.kind]
  cases construct : (nodes.get id).construct with
  | element | attr =>
    simp [entries, construct, Construct.kind, fieldsOf, entryFields, declared_fields, inner, types]
  | complexType =>
    simp [entries, construct, Construct.kind, fieldsOf, typeFields, named_fields, inner, contents, model_fields,
      appended_fields,
      attribute_fields]
  | simpleType =>
    by_cases union : ((nodes.get id).child? .union).isSome <;>
      simp [entries, construct, Construct.kind, fieldsOf, simpleFields, named_fields, inner, derived, list, union,
        entryFields]
  | simpleContent | complexContent => simp [entries, construct, Construct.kind, fieldsOf, contentFields, inner, derived]
  | restriction =>
    simp [entries, construct, Construct.kind, fieldsOf, derivedFields, Node.kind, extended_fields, model_fields,
      attribute_fields,
      asked_fields, entryFields]
  | extension =>
    simp [entries, construct, Construct.kind, fieldsOf, derivedFields, Node.kind, extended_fields, model_fields,
      attribute_fields]
  | list => simp [entries, construct, Construct.kind, fieldsOf, item_fields]
  | union | schema | group | attrGroup | sequence | choice | all =>
    simp [entries, construct, Construct.kind, fieldsOf, entryFields]

theorem Formed.planned_fields : ((nodes.planned id).flatMap nodes.entryFields).Sublist (nodes.classFields id) := by
  rcases nodes.planned_cases id with same | same | ⟨_, same⟩ | ⟨_, _, same, _⟩
  · rw [same, formed.entries_fields]
  all_goals
    rw [same]
    exact List.nil_sublist _

end Formed

private theorem item_quiet (node : Node) (type : Option TypeRef) : ∀ entry ∈ node.itemEntries type, entry.isField =
      false := by
  cases type with
  | some type => cases type <;> simp [Node.itemEntries, Entry.isField]
  | none => cases child : node.child? .simpleType <;> simp [Node.itemEntries, child, Entry.isField]

theorem field_cases {entry : Entry} (listed : entry ∈ nodes.planned id) (isField : entry.isField) :
    ∃ field, entry = .ask .field field ∧
    (field ∈ (nodes.get id).childrenOf .attr ∨ nodes.kindOf id = .restriction ∧
      field ∈ (nodes.get id).childrenOf .simpleType) := by
  have quiet {α : Type} {make : α → Entry} {items : List α} (never : ∀ item, (make item).isField = false) :
      entry ∉ items.map make := by
    intro listed
    obtain ⟨item, _, rfl⟩ := List.mem_map.mp listed
    cases (never item).symm.trans isField
  have declared {name : Option String} {type : Option TypeRef} : entry ∉ type.toList.map (TypeRef.declared name) :=
    quiet fun type => by cases type <;> rfl
  have extended {base : Option TypeRef} : entry ∉ base.toList.map TypeRef.extended :=
    quiet fun type => by cases type <;> rfl
  have named {name : Option String} : entry ∉ name.toList.map fun name => .mark (.className name) := quiet fun _ => rfl
  have embedded {ids : List NodeId} : entry ∉ ids.map .embed := quiet fun _ => rfl
  have appended {ids : List NodeId} : entry ∉ ids.map .append := quiet fun _ => rfl
  have other (single : Entry) (never : single.isField = false) : entry ≠ single := by
    rintro rfl
    cases never.symm.trans isField
  have asked (listed : entry ∈ nodes.attributeEntries (nodes.get id)) :
      ∃ field, entry = .ask .field field ∧ field ∈ (nodes.get id).childrenOf .attr := by
    obtain ⟨field, among, rfl⟩ := List.mem_map.mp ((List.mem_append.mp listed).resolve_right appended)
    exact ⟨field, rfl, (List.mem_filter.mp among).1⟩
  have listed : entry ∈ nodes.entries id := by
    rcases mem_planned listed with listed | ⟨_, tag⟩ | ⟨_, _, repeated, _⟩
    · exact listed
    · exact absurd tag (other _ rfl)
    · exact absurd repeated (other _ rfl)
  cases construct : (nodes.get id).construct with
  | complexType | extension =>
    simp only [entries, construct, List.mem_append, List.map_append, Node.modelEntries, named, extended, embedded,
      appended, false_or] at listed
    obtain ⟨field, same, among⟩ := asked listed
    exact ⟨field, same, Or.inl among⟩
  | restriction =>
    simp only [entries, construct, List.mem_append, List.map_append, Node.modelEntries, extended, appended, false_or,
      List.mem_singleton,
      other (.rules _) rfl, or_false] at listed
    rcases listed with listed | listed
    · obtain ⟨field, same, among⟩ := asked listed
      exact ⟨field, same, Or.inl among⟩
    · obtain ⟨field, found, same⟩ := List.mem_map.mp listed
      refine ⟨field, same.symm, Or.inr ⟨?_, mem_childrenOf_of_child? (Option.mem_toList.mp found)⟩⟩
      rw [kindOf, Node.kind, construct, Construct.kind]
  | element | attr =>
    simp only [entries, construct, List.cons_append, List.mem_cons, List.mem_append, declared, embedded,
      other (.mark _) rfl,
      or_self] at listed
  | simpleType =>
    simp only [entries, construct, List.mem_append, named, embedded, false_or] at listed
    split at listed
    · exact absurd (List.mem_singleton.mp listed) (other _ rfl)
    · cases listed
  | simpleContent | complexContent =>
    simp only [entries, construct, embedded] at listed
  | list =>
    simp only [entries, construct] at listed
    cases (item_quiet _ _ _ listed).symm.trans isField
  | union | schema | group | attrGroup | sequence | choice | all =>
    simp only [entries, construct, List.mem_singleton] at listed
    exact absurd listed (other _ rfl)

theorem plain_ne_field {role : Role} {type : Builtin} (listed : .plain role type ∈ nodes.planned id) :
    role ≠ .field := by
  rintro rfl
  obtain ⟨_, ⟨⟩, _⟩ := field_cases listed rfl

theorem Formed.field_apart (formed : nodes.Formed) (listed : .ask .field other ∈ nodes.planned id) :
    ¬nodes.Embedded other := by
  obtain ⟨_, ⟨⟩, among | ⟨restriction, among⟩⟩ := field_cases listed rfl
  · exact formed.not_embedded_of_kind (by rw [formed.child_kind among]; rfl)
  · rintro ⟨outer, embeds⟩
    obtain ⟨isOuter, _, _, child⟩ := embeds.child
    rw [Option.some.inj ((formed.child_parent child).symm.trans (formed.child_parent among)), restriction] at isOuter
    cases isOuter

/-- What the class of a node may be called, and the built-in types that the node may stand for. -/
inductive Labels (nodes : Nodes) : NodeId → String → Prop where
  | className {id mark className} (listed : .mark mark ∈ nodes.planned id) (names : mark.className? =
    some (some className)) :
      Labels nodes id className
  | builtin {id type} (listed : .mark (.builtin type) ∈ nodes.planned id) : Labels nodes id type.label
  | inner {id inner label} (embeds : nodes.Embeds id inner) (labels : Labels nodes inner label) : Labels nodes id label

theorem Formed.labels_kind (formed : nodes.Formed) {label : String} (labels : nodes.Labels id label) :
    (nodes.kindOf id).isDeclaration ∨ (nodes.kindOf id).isType := by
  have marked {id : NodeId} {mark : Mark} (listed : .mark mark ∈ nodes.planned id) (other : mark ≠ .list)
    (apart : ∀ name, mark ≠ .tag name) :
      (nodes.kindOf id).isDeclaration ∨ (nodes.kindOf id).isType := by
    rcases mem_planned listed with listed | ⟨name, same⟩ | ⟨_, _, ⟨⟩, _⟩
    · rcases mark_cases listed with ⟨declaration, _⟩ | ⟨isType, _⟩ | same
      · exact Or.inl declaration
      · exact Or.inr isType
      · exact absurd same other
    · exact absurd (Entry.mark.inj same) (apart name)
  induction labels with
  | className listed names =>
    refine marked listed ?_ ?_
    · rintro rfl
      cases names
    · rintro _ rfl
      cases names
  | builtin listed => exact marked listed (fun same => nomatch same) fun _ same => nomatch same
  | inner embeds labels ih =>
    rcases ih with declaration | isType
    · have inner := Kind.not_isDeclaration_of_isInner (formed.embedded_kind ⟨_, embeds⟩)
      exact absurd declaration (Bool.eq_false_iff.mp inner)
    · exact Or.inl (formed.embeds_type embeds isType)

end Nodes

/-- What a builder is called after where it has no name as a field: its class or its built-in type. -/
def Builder.GoesBy (builder : Builder) (label : String) : Prop :=
  builder.className = some label ∨ ∃ type, builder.builtin? = some type ∧ type.label = label

theorem Builder.not_goesBy_blank {bag : Nat} {label : String} : ¬({ bag } : Builder).GoesBy label := by
  rintro (none | ⟨_, none, _⟩)
  all_goals cases none

namespace Builder.GoesBy
variable {builder : Builder} {label : String}

theorem mark {mark : Mark} (named : (mark.apply builder).GoesBy label) :
    builder.GoesBy label ∨ mark.className? = some (some label) ∨ ∃ type, mark = .builtin type ∧ type.label = label := by
  rcases named with called | ⟨type, stands, same⟩
  · rw [Mark.apply_className] at called
    cases names : mark.className? with
    | none => exact Or.inl (Or.inl (by simpa [names] using called))
    | some written => exact Or.inr (Or.inl (by simpa [names] using called))
  · cases mark with
    | builtin written =>
      cases stands
      exact Or.inr (Or.inr ⟨_, rfl, same⟩)
    | list => cases stands
    | declared | className | tag => exact Or.inl (Or.inr ⟨type, stands, same⟩)

theorem link {role : Role} {other : BuilderId} (named : (role.link other builder).GoesBy label) :
    builder.GoesBy label := by
  rcases named with called | ⟨type, stands, same⟩
  · exact Or.inl ((Role.link_className role other builder).symm.trans called)
  · cases role with
    | base | field => exact Or.inr ⟨type, stands, same⟩
    | item | repeated => cases stands

end Builder.GoesBy

theorem Mark.apply_fields (mark : Mark) (builder : Builder) : (mark.apply builder).fields = builder.fields := by
  cases mark <;> rfl

theorem Role.link_fields {role : Role} (other : BuilderId) (builder : Builder) (linked : role ≠ .field) :
    (role.link other builder).fields = builder.fields := by
  cases role <;> first | rfl | exact absurd rfl linked

namespace Stage
variable {nodes : Nodes} {stage middle later : Stage} {fields rest : List BuilderId} {ids more : List NodeId}
  {builder : BuilderId}

/-- Fields are the builders of some of the nodes, in the same order. -/
def Holds (nodes : Nodes) (stage : Stage) (fields : List BuilderId) (ids : List NodeId) : Prop :=
  ∃ chosen : List NodeId, chosen.Sublist ids ∧ fields.map some = chosen.map stage.memo ∧
  ∀ id ∈ chosen, ¬nodes.Embedded id

namespace Holds

theorem nil : stage.Holds nodes [] ids :=
  ⟨[], List.nil_sublist _, rfl, fun _ member => absurd member List.not_mem_nil⟩

theorem append (holds : stage.Holds nodes fields ids) (others : stage.Holds nodes rest more) :
    stage.Holds nodes (fields ++ rest) (ids ++ more) := by
  obtain ⟨chosen, among, found, apart⟩ := holds
  obtain ⟨others, within, known, free⟩ := others
  exact ⟨chosen ++ others, among.append within, by rw [List.map_append, List.map_append, found, known],
    List.forall_mem_append.mpr ⟨apart, free⟩⟩

theorem sublist (holds : stage.Holds nodes fields ids) (among : ids.Sublist more) : stage.Holds nodes fields more := by
  obtain ⟨chosen, within, rest⟩ := holds
  exact ⟨chosen, within.trans among, rest⟩

theorem mono (holds : stage.Holds nodes fields ids)
    (keeps : ∀ id builder, stage.memo id = some builder → later.memo id = some builder) :
    later.Holds nodes fields ids := by
  obtain ⟨chosen, among, found, apart⟩ := holds
  refine ⟨chosen, among, found.trans (List.map_congr_left fun id member => ?_), apart⟩
  obtain ⟨builder, _, known⟩ := List.mem_map.mp (found ▸ List.mem_map_of_mem member : stage.memo id ∈ fields.map some)
  exact known.symm.trans (keeps id builder known.symm).symm

end Holds

/-- What a builder gains: fields for some of the nodes, and names of the node that is written. -/
structure Gains (nodes : Nodes) (stage later : Stage) (builder : BuilderId) (ids : List NodeId)
    (labels : String → Prop) : Prop where
  fields : ∃ added, (later.builders.get builder).fields = (stage.builders.get builder).fields ++ added ∧
    later.Holds nodes added ids
  labels : ∀ label, (later.builders.get builder).GoesBy label → (stage.builders.get builder).GoesBy label ∨ labels label

namespace Gains
variable {labels : String → Prop}

theorem refl : Gains nodes stage stage builder ids labels :=
  ⟨⟨[], (List.append_nil _).symm, .nil⟩, fun _ => Or.inl⟩

theorem trans (gains : Gains nodes stage middle builder ids labels)
    (further : Gains nodes middle later builder more labels)
    (keeps : ∀ id builder, middle.memo id = some builder → later.memo id = some builder) :
    Gains nodes stage later builder (ids ++ more) labels where
  fields := by
    obtain ⟨added, own, holds⟩ := gains.fields
    obtain ⟨others, rest, held⟩ := further.fields
    exact ⟨added ++ others, by rw [rest, own, List.append_assoc], (holds.mono keeps).append held⟩
  labels label named := (further.labels label named).elim (gains.labels label) Or.inr

theorem sublist (gains : Gains nodes stage later builder ids labels) (among : ids.Sublist more) :
    Gains nodes stage later builder more labels where
  fields := by
    obtain ⟨added, own, holds⟩ := gains.fields
    exact ⟨added, own, holds.sublist among⟩
  labels := gains.labels

end Gains
end Stage

/-- The node that writes into a builder. -/
def Task.writer? : Task → Option NodeId
  | derive id (some _) | entry id _ _ | entries id _ _ => some id
  | derive _ none | expand .. | part .. | parts .. => none

/-- Only entries of their node are written. -/
def Task.Listed (nodes : Nodes) : Task → Prop
  | entry id _ single => single ∈ nodes.planned id
  | entries id _ several => several ⊆ nodes.planned id
  | derive .. | expand .. | part .. | parts .. => True

/-- The nodes that a task makes fields of the builder that it writes into. -/
def Task.classFields (nodes : Nodes) : Task → List NodeId
  | derive id (some _) => nodes.classFields id
  | entry _ _ single => nodes.entryFields single
  | entries _ _ several => several.flatMap nodes.entryFields
  | derive _ none | expand .. | part .. | parts .. => []

def Task.Labels (nodes : Nodes) (task : Task) (label : String) : Prop :=
  ∃ id, task.writer? = some id ∧ nodes.Labels id label

namespace Run
variable {nodes : Nodes} {busy : List BuilderId} {task : Task} {stage later : Stage} {outcome : Expansion}
  {made : List Origin}

private theorem gains_written {id : NodeId} {builder : BuilderId} {entry : Entry} (inside : builder < stage.size)
    (listed : entry ∈ nodes.planned id) (written : stage.write builder entry = some later) :
    stage.Gains nodes later builder (nodes.entryFields entry) (Task.Labels nodes (.entry id builder entry)) := by
  cases entry with
  | mark mark =>
    cases written
    constructor
    · rw [Stage.edit, Builders.get_modify_same inside, Mark.apply_fields]
      exact ⟨[], (List.append_nil _).symm, .nil⟩
    · rw [Stage.edit, Builders.get_modify_same inside]
      intro label named
      rcases named.mark with own | names | ⟨type, rfl, rfl⟩
      · exact Or.inl own
      · exact Or.inr ⟨id, rfl, .className listed names⟩
      · exact Or.inr ⟨id, rfl, .builtin listed⟩
  | rules rules =>
    cases written
    exact ⟨⟨[], (List.append_nil _).symm, .nil⟩, fun _ named => Or.inl named⟩
  | plain role type =>
    cases written
    constructor
    · rw [Stage.get_plain inside, Role.link_fields _ _ (Nodes.plain_ne_field listed)]
      exact ⟨[], (List.append_nil _).symm, .nil⟩
    · rw [Stage.get_plain inside]
      exact fun _ named => Or.inl named.link
  | notice _ =>
    cases written
    exact .refl
  | ask | embed | append => cases written

/-- What a task writes into a builder are fields that the class of its node lists, and names of that node. -/
theorem gains (formed : nodes.Formed) (run : Run nodes busy task stage outcome later made)
    (underway : Underway nodes busy stage task)
    (listed : task.Listed nodes) {builder : BuilderId} (target : task.target? = some builder) :
    stage.Gains nodes later builder (task.classFields nodes) (task.Labels nodes) := by
  induction run with
  | known | finished => exact .refl
  | cut | unresolved | empty | expanded | leaf | group | more => cases target
  | shared new plan run ih =>
    cases target
    exact absurd (underway.embedded _ _ rfl) (formed.share_not_embedded plan)
  | @opened _ id target' _ _ _ _ _ _ _ _ _ _ _ plan start unwrap run ih =>
    cases target
    have inner := formed.embedded_kind (underway.embedded _ _ rfl)
    cases plan.symm.trans (Nodes.plan_of_inner inner)
    have planned := Nodes.planned_of_plan plan
    have entries := ih (underway.opened start unwrap)
    cases start
    cases unwrap
    have gains := entries (planned ▸ List.Subset.refl _) rfl
    have among : ((nodes.entries id).flatMap nodes.entryFields).Sublist (nodes.classFields id) :=
      planned ▸ formed.planned_fields
    exact ⟨(gains.sublist among).fields, gains.labels⟩
  | written written =>
    cases target
    exact gains_written (underway.inside _ rfl) listed written
  | @ask busy id filled role asked stage other later _ own run ih =>
    cases target
    have inner : Underway nodes busy stage (.derive asked none) := underway.free rfl
    have same := (inner.grows run).get_link (underway.inside builder rfl) role other
    constructor
    · rw [same]
      by_cases field : role = .field
      · subst field
        obtain ⟨_, ⟨⟩, found⟩ := run.answer
        exact ⟨[other], rfl, [asked], List.Sublist.refl _, by simp [Stage.edit, found],
          List.forall_mem_singleton.mpr (formed.field_apart own)⟩
      · exact ⟨[], by rw [Role.link_fields _ _ field, List.append_nil], .nil⟩
    · rw [same]
      exact fun _ named => Or.inl named.link
  | @embed _ id _ inner _ _ _ _ own run ih =>
    cases target
    have gains := ih (underway.embed (underway.held _ rfl) ⟨_, own⟩) trivial rfl
    refine ⟨gains.fields, fun label named => (gains.labels label named).imp_right ?_⟩
    rintro ⟨_, ⟨⟩, labels⟩
    exact ⟨id, rfl, .inner own labels⟩
  | @append busy _ _ group stage content later _ own run ih =>
    cases target
    have inner : Underway nodes busy stage (.expand [] group) := underway.free rfl
    have same := (inner.grows run).get_append (underway.inside builder rfl) content
    constructor
    · rw [same]
      refine ⟨content.fields, rfl, nodes.members [] group, List.Sublist.refl _, run.fields, fun id member => ?_⟩
      exact (run.members_apart formed id member).resolve_left (by rintro ⟨_, ⟨⟩⟩)
    · rw [same]
      exact fun _ named => Or.inl named
  | next run remaining ih rest =>
    obtain ⟨first, others⟩ := List.cons_subset.mp listed
    have gains := (ih underway.first first target).trans (rest (underway.rest run) others target) fun _ _ =>
      remaining.keeps
    exact gains

theorem goes_by (formed : nodes.Formed) (run : Run nodes busy task stage outcome later made)
    (underway : Underway nodes busy stage task)
    {id : NodeId} {builder : BuilderId} (owns : nodes.Owns id) (new : stage.memo id = none)
    (found : later.memo id = some builder)
    {label : String} (named : (later.builders.get builder).GoesBy label) : nodes.Labels id label := by
  obtain ⟨filled, given, leaves⟩ := run.given underway owns new found
  rw [leaves.get] at named
  cases given with
  | @intro _ inner _ _ _ _ _ _ _ _ whole plan start unwrap underway run =>
    obtain ⟨fresh, _, outside⟩ := Stage.opened_new whole start unwrap
    rcases outside with rfl | ⟨name, rfl, linked, _⟩
    · cases unwrap
      have gains := run.gains formed underway (Nodes.planned_of_plan plan ▸ List.Subset.refl _) rfl
      rcases gains.labels label named with none | ⟨_, ⟨⟩, labels⟩
      · exact absurd (fresh ▸ none) Builder.not_goesBy_blank
      · exact labels
    · have opens := Stage.opening whole Stage.nowhere start unwrap
      obtain ⟨_, last⟩ := opens.fill.resolve_left (by rintro ⟨⟨⟩, _⟩)
      obtain ⟨_, first⟩ := opens.start.resolve_left (Option.some_ne_none _).symm
      have small : builder < inner := by
        rw [first, last]
        exact Nat.lt_succ_self _
      have same := (underway.grows run).get builder (Nat.lt_trans small opens.inside)
        (fun same => Nat.lt_irrefl _ (Option.some.inj same ▸ small))
      rw [same, linked] at named
      exact absurd named.link Builder.not_goesBy_blank

end Run

/-- What a builder is comes from a node: its fields, and the name of its class. -/
structure Stage.Stems (nodes : Nodes) (stage : Stage) (id : NodeId) (builder : Builder) : Prop where
  fields : stage.Holds nodes builder.fields (nodes.classFields id)
  named : ∀ className, builder.className = some className → nodes.Labels id className

namespace Stage.Stems
variable {nodes : Nodes} {stage later : Stage} {id : NodeId} {builder : Builder}

theorem blank (fields : builder.fields = []) (unnamed : builder.className = none) : stage.Stems nodes id builder where
  fields := fields ▸ .nil
  named _ same := nomatch unnamed.symm.trans same

theorem mono (stems : stage.Stems nodes id builder)
    (keeps : ∀ id builder, stage.memo id = some builder → later.memo id = some builder) :
    later.Stems nodes id builder :=
  ⟨stems.fields.mono keeps, stems.named⟩

end Stage.Stems

theorem Builders.fields_create {builders : Builders} {id : BuilderId} {target : Option Target} :
    ((builders.create { target }).2.get id).fields = (builders.get id).fields :=
  read_create fun _ => rfl

namespace Run
variable {nodes : Nodes} {busy : List BuilderId} {task : Task} {stage later : Stage} {outcome : Expansion}
  {made : List Origin}

private theorem stems_written {id : NodeId} {builder filled : BuilderId} {entry : Entry}
    (written : stage.write filled entry = some later)
    (inside : filled < stage.size) (new : stage.size ≤ builder) : later.Stems nodes id (later.builders.get builder) :=
  by
  have different : builder ≠ filled := fun same => Nat.lt_irrefl _ (Nat.lt_of_lt_of_le (same ▸ inside) new)
  have blank := Builders.get_outside new
  cases entry with
  | mark mark =>
    cases written
    rw [Stage.edit, Builders.get_modify_other different, blank]
    exact .blank rfl rfl
  | rules rules =>
    cases written
    rw [Stage.edit, Builders.get_pushRules, blank]
    exact .blank rfl rfl
  | plain role type =>
    cases written
    rw [Stage.edit, Builders.get_modify_other different]
    refine .blank ?_ ?_
    · rw [Builders.createBuiltin, Builders.fields_create, blank]
    · rw [Builders.createBuiltin, Builders.className_create, blank]
  | notice _ =>
    cases written
    rw [blank]
    exact .blank rfl rfl
  | ask | embed | append => cases written

/-- What is made to begin with a node is filled by it, or stands for its repetitions and has no fields. -/
private theorem stems_opened (formed : nodes.Formed) {id : NodeId} {target : Option BuilderId}
    {notices : BuilderId → List Notice}
    {wrapped : Option (Option String)} {entries : List Entry} {own filled builder : BuilderId} {started opened : Stage}
    (underway : Underway nodes busy stage (.derive id target)) (plan : nodes.plan id = .build notices wrapped entries)
    (start : stage.start target = (own, started))
    (unwrap : (started.remember id own).unwrap own wrapped = (filled, opened))
    (inner : Underway nodes (filled :: own :: busy) opened (.entries id filled entries))
    (run : Run nodes (filled :: own :: busy) (.entries id filled entries) opened {} later made)
    (new : stage.size ≤ builder) (early : builder < opened.size) : later.Stems nodes id
    (later.builders.get builder) := by
  have planned := Nodes.planned_of_plan plan
  have opens := underway.opening start unwrap
  cases target with
  | some target =>
    obtain ⟨_, embedded⟩ := formed.embedded_plan (underway.embedded _ _ rfl)
    cases plan.symm.trans embedded
    cases start
    cases unwrap
    exact absurd early (Nat.not_lt.mpr new)
  | none =>
    obtain ⟨fresh, _, outside⟩ := Stage.opened_new underway.whole start unwrap
    by_cases same : builder = filled
    · subst same
      have gains := run.gains formed inner (planned ▸ List.Subset.refl _) rfl
      constructor
      · obtain ⟨added, fields, holds⟩ := gains.fields
        rw [fields, fresh]
        exact holds.sublist (planned ▸ formed.planned_fields)
      · intro className named
        rcases gains.labels className (Or.inl named) with none | ⟨_, ⟨⟩, labels⟩
        · exact absurd (fresh ▸ none) Builder.not_goesBy_blank
        · exact labels
    · have inside := opens.grows.size ▸ early
      obtain ⟨_, first⟩ := opens.start.resolve_left (Option.some_ne_none _).symm
      rcases outside with rfl | ⟨name, rfl, linked, _⟩
      · have last := (opens.fill.resolve_right (by rintro ⟨⟨_, ⟨⟩⟩, _⟩)).2
        simp only [startOrigins, unwrapOrigins, List.append_nil, List.length_singleton] at inside
        have only : builder = stage.size := Nat.le_antisymm (Nat.le_of_lt_succ inside) new
        exact absurd (only.trans (first.symm.trans last.symm)) same
      · have last := (opens.fill.resolve_left (by rintro ⟨⟨⟩, _⟩)).2
        simp only [startOrigins, unwrapOrigins, List.length_append, List.length_singleton] at inside last
        have other : builder ≠ stage.size + 1 := fun next => same (next.trans last.symm)
        have small : builder < stage.size + 1 := Nat.lt_of_le_of_ne (Nat.le_of_lt_succ inside) other
        obtain rfl : builder = own := (Nat.le_antisymm (Nat.le_of_lt_succ small) new).trans first.symm
        rw [(inner.grows run).get builder early fun same' => same (Option.some.inj same').symm, linked]
        exact .blank rfl rfl

/-- Every builder that is made is filled for one node, or it stays blank. -/
theorem stems (formed : nodes.Formed) (run : Run nodes busy task stage outcome later made)
    (underway : Underway nodes busy stage task)
    (listed : task.Listed nodes) (shared : stage.Shared nodes) {builder : BuilderId} (new : stage.size ≤ builder) :
    ∃ id, later.Stems nodes id (later.builders.get builder) := by
  have apart {stage : Stage} {busy : List BuilderId} {task : Task} (underway : Underway nodes busy stage task)
    (new : stage.size ≤ builder)
      {filled : BuilderId} (target : task.target? = some filled) : builder ≠ filled :=
    fun same => Nat.lt_irrefl _ (Nat.lt_of_lt_of_le (same ▸ underway.inside filled target) new)
  induction run with
  | known | finished | cut | unresolved | empty =>
    rw [Builders.get_outside new]
    exact ⟨0, .blank rfl rfl⟩
  | shared _ plan run ih =>
    obtain ⟨id, stems⟩ := ih (underway.free rfl) trivial shared new
    obtain ⟨_, ⟨⟩, answer⟩ := run.answer
    exact ⟨id, stems.mono ((run.keeps_shared shared).remembered plan answer)⟩
  | @opened busy id _ stage _ _ entries own _ filled opened _ _ lacking plan start unwrap run ih =>
    have inner : Underway nodes (filled :: own :: busy) opened (.entries id filled entries) :=
      underway.opened start unwrap
    have sharing := Stage.Shared.opened shared lacking plan (Stage.opened_memo start unwrap)
    by_cases late : opened.size ≤ builder
    · exact ih inner (Nodes.planned_of_plan plan ▸ List.Subset.refl _) sharing late
    · exact ⟨id, stems_opened formed underway plan start unwrap inner run new (Nat.lt_of_not_le late)⟩
  | written written => exact ⟨0, stems_written written (underway.inside _ rfl) new⟩
  | @ask busy _ own _ asked stage _ _ _ _ run ih =>
    obtain ⟨id, stems⟩ := ih (underway.free rfl) trivial shared new
    refine ⟨id, ?_⟩
    rw [Stage.edit, Builders.get_modify_other (apart underway new rfl)]
    exact stems.mono fun _ _ known => known
  | embed own run ih => exact ih (underway.embed (underway.held _ rfl) ⟨_, own⟩) trivial shared new
  | append own run ih =>
    obtain ⟨id, stems⟩ := ih (underway.free rfl) trivial shared new
    refine ⟨id, ?_⟩
    rw [Stage.get_append_other (apart underway new rfl)]
    exact stems.mono fun _ _ known => known
  | expanded outside run ih | leaf isGroup listed run ih | group listed run ih =>
    exact ih (underway.free rfl) trivial shared new
  | @next _ _ own _ _ _ middle _ _ _ run remaining ih rest =>
    obtain ⟨first, others⟩ := List.cons_subset.mp listed
    have task := underway.rest run
    by_cases late : middle.size ≤ builder
    · exact rest task others (run.keeps_shared shared) late
    · obtain ⟨id, stems⟩ := ih underway.first first shared new
      refine ⟨id, ?_⟩
      rw [(task.grows remaining).get builder (Nat.lt_of_not_le late) fun same => apart underway new same rfl]
      exact stems.mono fun _ _ => remaining.keeps
  | @more _ path part parts stage _ middle _ _ _ _ run remaining ih rest =>
    have first : Underway nodes _ stage (.part path part) := underway.free rfl
    have task : Underway nodes _ middle (.parts path parts) := first.remaining run
    by_cases late : middle.size ≤ builder
    · exact rest task trivial (run.keeps_shared shared) late
    · obtain ⟨id, stems⟩ := ih first trivial shared new
      refine ⟨id, ?_⟩
      rw [(task.grows remaining).get builder (Nat.lt_of_not_le late) (Option.some_ne_none _).symm]
      exact stems.mono fun _ _ => remaining.keeps

end Run

/-- What holds of names and fields while nothing is being filled. -/
structure Stage.Stemmed (nodes : Nodes) (stage : Stage) : Prop where
  labels : ∀ id builder, nodes.Owns id → stage.memo id = some builder →
    ∀ label, (stage.builders.get builder).GoesBy label → nodes.Labels id label
  stems : ∀ builder, ∃ id, stage.Stems nodes id (stage.builders.get builder)

theorem Stage.Stemmed.after {nodes : Nodes} {stage later : Stage} {task : Task} {outcome : Expansion}
    {made : List Origin}
    (stemmed : stage.Stemmed nodes) (settled : stage.Settled nodes) (formed : nodes.Formed)
    (run : Run nodes [] task stage outcome later made) (asked : task.Asked) : later.Stemmed nodes := by
  have underway := settled.underway asked.target
  have listed : task.Listed nodes := by
    cases task with
    | derive | expand => trivial
    | entry | entries | part | parts => exact asked.elim
  have kept {builder : BuilderId} (inside : builder < stage.size) :
    later.builders.get builder = stage.builders.get builder :=
    (underway.grows run).get builder inside (by rw [asked.target]; exact (Option.some_ne_none _).symm)
  constructor
  · intro id builder owns found label named
    cases early : stage.memo id with
    | none => exact run.goes_by formed underway owns early found named
    | some known =>
      cases (run.keeps early).symm.trans found
      exact stemmed.labels id builder owns early label (kept (settled.whole.range id builder early) ▸ named)
  · intro builder
    rcases Nat.lt_or_ge builder stage.size with inside | new
    · obtain ⟨id, stems⟩ := stemmed.stems builder
      exact ⟨id, kept inside ▸ stems.mono fun _ _ => run.keeps⟩
    · exact run.stems formed underway listed settled.shared new

theorem Answered.stemmed {nodes : Nodes} {stage : Stage} {ledger : List Origin} (formed : nodes.Formed)
    (answered : Answered nodes stage ledger) :
    stage.Stemmed nodes := by
  induction answered with
  | start => exact ⟨fun _ _ _ found => (nomatch found), fun builder => ⟨0, .blank rfl rfl⟩⟩
  | more answered run asked ih => exact ih.after (answered.settled formed) formed run asked

end SchemaClasses
