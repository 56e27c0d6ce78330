import SchemaClasses.Proofs.Derivation.Choices
import SchemaClasses.Proofs.Schema.Places

/-! Content models: trees of sequences and choices over elements. A type with such a tree has one choice in its
content for each choice in the tree. It is between all elements anywhere inside of that one, whatever
alternatives they belong to. -/

namespace SchemaClasses

/-- What must stand in an element: an element, all parts one after the other, or one of several options. -/
inductive Content where
  | element (id : NodeId)
  | sequence (parts : List Content)
  | choice (options : List Content)

namespace Content

mutual

def elements : Content → List NodeId
  | element id => [id]
  | sequence contents | choice contents => elementsOf contents

def elementsOf : List Content → List NodeId
  | [] => []
  | content :: contents => content.elements ++ elementsOf contents

end

mutual

def choices : Content → List (List Content)
  | element _ => []
  | sequence parts => choicesOf parts
  | choice options => choicesOf options ++ [options]

def choicesOf : List Content → List (List Content)
  | [] => []
  | content :: contents => content.choices ++ choicesOf contents

end

mutual

/-- A selection takes all parts of a sequence and one option of a choice. -/
inductive Selects : Content → List NodeId → Prop where
  | element {id} : Selects (element id) [id]
  | sequence {parts picked} (all : SelectsAll parts picked) : Selects (sequence parts) picked
  | choice {options option picked} (member : option ∈ options) (selects : Selects option picked) :
      Selects (choice options) picked

inductive SelectsAll : List Content → List NodeId → Prop where
  | nil : SelectsAll [] []
  | cons {content contents picked others} (first : Selects content picked) (rest : SelectsAll contents others) :
      SelectsAll (content :: contents) (picked ++ others)

end

/-- An option that is a single element. -/
inductive Single : Content → NodeId → Prop where
  | element {id} : Single (element id) id
  | sequence {part id} (single : Single part id) : Single (sequence [part]) id

def Flat (content : Content) : Prop :=
  ∀ options ∈ content.choices, ∀ option ∈ options, ∃ id, option.Single id

/-- Exactly one of the elements inside of each choice is selected. -/
def Alone (content : Content) (picked : List NodeId) : Prop :=
  ∀ options ∈ content.choices, ∃! leaf, leaf ∈ elementsOf options ∧ leaf ∈ picked

variable {content option : Content} {contents options : List Content} {picked : List NodeId} {id : NodeId}

theorem elements_subset (member : content ∈ contents) : content.elements ⊆ elementsOf contents := by
  induction contents with
  | nil => cases member
  | cons first contents ih =>
    rw [elementsOf]
    rcases List.mem_cons.mp member with rfl | member
    · exact List.subset_append_left _ _
    · exact List.subset_append_of_subset_right _ (ih member)

theorem mem_choicesOf : options ∈ choicesOf contents ↔ ∃ content ∈ contents, options ∈ content.choices := by
  induction contents with
  | nil => simp [choicesOf]
  | cons content contents ih => simp [choicesOf, ih]

mutual

theorem choice_sublist : ∀ content : Content, ∀ options ∈ content.choices, (elementsOf options).Sublist content.elements
  | element _, _, member => nomatch member
  | sequence parts, options, member => choiceOf_sublist parts options member
  | choice contents, options, member => by
    rw [choices] at member
    rcases List.mem_append.mp member with inner | own
    · exact choiceOf_sublist contents options inner
    · cases List.mem_singleton.mp own
      exact List.Sublist.refl _

theorem choiceOf_sublist :
    ∀ contents : List Content, ∀ options ∈ choicesOf contents, (elementsOf options).Sublist (elementsOf contents)
  | [], _, member => nomatch member
  | content :: contents, options, member => by
    rw [choicesOf] at member
    rw [elementsOf]
    rcases List.mem_append.mp member with first | rest
    · exact List.sublist_append_of_sublist_left (choice_sublist content options first)
    · exact List.sublist_append_of_sublist_right (choiceOf_sublist contents options rest)

end

mutual

theorem Selects.subset {content : Content} {picked : List NodeId} : content.Selects picked → picked ⊆ content.elements
  | .element => List.Subset.refl _
  | .sequence all => all.subset
  | .choice member selects => List.Subset.trans selects.subset (elements_subset member)

theorem SelectsAll.subset {contents : List Content} {picked : List NodeId} :
    SelectsAll contents picked → picked ⊆ elementsOf contents
  | .nil => List.Subset.refl _
  | .cons first rest => List.append_subset.mpr
      ⟨List.subset_append_of_subset_left _ first.subset, List.subset_append_of_subset_right _ rest.subset⟩

end

namespace Single

theorem elements_eq (single : content.Single id) : content.elements = [id] := by
  induction single with
  | element => rfl
  | sequence single ih => rw [elements, elementsOf, elementsOf, ih, List.append_nil]

theorem choices_eq (single : content.Single id) : content.choices = [] := by
  induction single with
  | element => rfl
  | sequence single ih => rw [choices, choicesOf, choicesOf, ih, List.append_nil]

theorem picked_eq (single : content.Single id) (selects : content.Selects picked) : picked = [id] := by
  induction single generalizing picked with
  | element =>
    cases selects
    rfl
  | sequence single ih =>
    obtain ⟨⟩ | ⟨⟨⟩ | ⟨first, ⟨⟩⟩⟩ := selects
    rw [ih first, List.append_nil]

end Single

private theorem alone_congr {leaves own all : List NodeId} (same : ∀ leaf ∈ leaves, (leaf ∈ all ↔ leaf ∈ own))
    (alone : ∃! leaf, leaf ∈ leaves ∧ leaf ∈ own) : ∃! leaf, leaf ∈ leaves ∧ leaf ∈ all :=
  (existsUnique_congr fun leaf => and_congr_right (same leaf)).mpr alone

mutual

/-- Where every option is a single element, no selection has more or less than one in each choice. -/
theorem Selects.alone {content : Content} {picked : List NodeId} (flat : content.Flat)
    (distinct : content.elements.Nodup) :
    content.Selects picked → content.Alone picked
  | .element => fun _ member => nomatch member
  | .sequence all => all.alone flat distinct
  | @Selects.choice contents option picked member selects => by
    have own : contents ∈ (choice contents).choices := List.mem_append_right _ List.mem_cons_self
    intro options listed
    rcases List.mem_append.mp listed with inner | same
    · -- There are no choices in single elements.
      obtain ⟨other, among, inside⟩ := mem_choicesOf.mp inner
      obtain ⟨_, single⟩ := flat contents own other among
      rw [single.choices_eq] at inside
      cases inside
    · cases List.mem_singleton.mp same
      obtain ⟨id, single⟩ := flat contents own option member
      cases single.picked_eq selects
      refine ⟨id, ⟨elements_subset member ?_, List.mem_cons_self⟩, fun other found => List.mem_singleton.mp found.2⟩
      rw [single.elements_eq]
      exact List.mem_cons_self

theorem SelectsAll.alone {contents : List Content} {picked : List NodeId}
    (flat : ∀ options ∈ choicesOf contents, ∀ option ∈ options, ∃ id, option.Single id)
    (distinct : (elementsOf contents).Nodup) :
    SelectsAll contents picked → ∀ options ∈ choicesOf contents, ∃! leaf, leaf ∈ elementsOf options ∧ leaf ∈ picked
  | .nil => fun _ member => nomatch member
  | @SelectsAll.cons content contents picked others first rest => by
    obtain ⟨left, right, apart⟩ := List.nodup_append.mp distinct
    obtain ⟨early, late⟩ := List.forall_mem_append.mp flat
    intro options listed
    rcases List.mem_append.mp listed with inside | inside
    · have inner := (choice_sublist content options inside).subset
      refine alone_congr (fun leaf member => ?_) (first.alone early left options inside)
      rw [List.mem_append, or_iff_left fun other => apart leaf (inner member) leaf (rest.subset other) rfl]
    · have inner := (choiceOf_sublist contents options inside).subset
      refine alone_congr (fun leaf member => ?_) (rest.alone late right options inside)
      rw [List.mem_append, or_iff_right fun other => apart leaf (first.subset other) leaf (inner member) rfl]

end

end Content

namespace Nodes

mutual

/-- A node declares a content model in which everything occurs exactly once. Its elements state their names, or
they are single uses of elements that do. -/
inductive Models (nodes : Nodes) : Content → NodeId → Prop where
  | element {id decl} (construct : (nodes.get id).construct = .element decl) (once : decl.occurs = {})
      (stated : nodes.Stated id) :
      Models nodes (.element id) id
  | sequence {id parts} (construct : (nodes.get id).construct = .sequence {})
      (each : ModelsAll nodes parts ((nodes.get id).children.map Child.id)) : Models nodes (.sequence parts) id
  | choice {id options} (construct : (nodes.get id).construct = .choice {})
      (each : ModelsAll nodes options ((nodes.get id).children.map Child.id)) : Models nodes (.choice options) id

inductive ModelsAll (nodes : Nodes) : List Content → List NodeId → Prop where
  | nil : ModelsAll nodes [] []
  | cons {content contents id ids} (first : Models nodes content id) (rest : ModelsAll nodes contents ids) :
      ModelsAll nodes (content :: contents) (id :: ids)

end

variable {nodes : Nodes} {path : List NodeId}

mutual

theorem Models.leaf {content : Content} {id : NodeId} :
    nodes.Models content id → ∀ leaf ∈ content.elements, nodes.kindOf leaf = .element ∧ nodes.Stated leaf
  | .element construct _ stated => fun _ member => by
    cases List.mem_singleton.mp member
    exact ⟨by rw [kindOf, Node.kind, construct, Construct.kind], stated⟩
  | .sequence _ each | .choice _ each => each.leaf

theorem ModelsAll.leaf {contents : List Content} {ids : List NodeId} :
    nodes.ModelsAll contents ids → ∀ leaf ∈ Content.elementsOf contents, nodes.kindOf leaf = .element ∧
      nodes.Stated leaf
  | .nil => fun _ member => nomatch member
  | .cons first rest => List.forall_mem_append.mpr ⟨first.leaf, rest.leaf⟩

end

private theorem Formed.below (formed : nodes.Formed) {id : NodeId} (above : ∀ outer ∈ path, outer < id) :
    ∀ child ∈ (nodes.get id).children.map Child.id, ∀ outer ∈ id :: path, outer < child := by
  refine List.forall_mem_map.mpr fun child member => ?_
  have after := (formed.placed id).after child member
  exact List.forall_mem_cons.mpr ⟨after, fun outer inside => Nat.lt_trans (above outer inside) after⟩

private theorem model_parts {id : NodeId} {occurs : Occurs}
    (model : (nodes.get id).construct = .sequence occurs ∨ (nodes.get id).construct = .choice occurs) :
    nodes.particle id = .group id ∧ nodes.parts id = ((nodes.get id).children.map Child.id).map nodes.particle := by
  rcases model with construct | construct <;>
    simp [particle, kindOf, Node.kind, Nodes.parts, construct, Construct.kind]

mutual

/-- A group stands for the elements of its content model, and it has the choices of its content model. -/
theorem Models.expanded (formed : nodes.Formed) {content : Content} {id : NodeId} {path : List NodeId}
    (above : ∀ outer ∈ path, outer < id) :
    nodes.Models content id → nodes.partMembers path (nodes.particle id) = content.elements ∧
      nodes.partChoices path (nodes.particle id) = content.choices.map Content.elementsOf
  | .element construct _ _ => by
    have leaf : nodes.particle id = .leaf id := by simp [particle, kindOf, Node.kind, construct, Construct.kind]
    rw [leaf]
    exact ⟨rfl, rfl⟩
  | .sequence construct each => by
    have outside : id ∉ path := fun inside => Nat.lt_irrefl id (above id inside)
    have plain : nodes.isSingleChoice id = false := by simp only [isSingleChoice, construct]
    obtain ⟨group, parts⟩ := model_parts (Or.inl construct)
    obtain ⟨members, choices⟩ := each.expanded formed (formed.below above)
    rw [group, partMembers, partChoices, members_of_not_mem outside, choices_of_not_mem outside, parts,
      members, choices, plain]
    exact ⟨rfl, List.append_nil _⟩
  | .choice construct each => by
    have outside : id ∉ path := fun inside => Nat.lt_irrefl id (above id inside)
    have single : nodes.isSingleChoice id = true := by simp [isSingleChoice, construct]
    obtain ⟨group, parts⟩ := model_parts (Or.inr construct)
    obtain ⟨members, choices⟩ := each.expanded formed (formed.below above)
    rw [group, partMembers, partChoices, choices_of_not_mem outside, members_of_not_mem outside, parts,
      members, choices, single, Content.choices, List.map_append]
    exact ⟨rfl, rfl⟩

theorem ModelsAll.expanded (formed : nodes.Formed) {contents : List Content} {ids : List NodeId} {path : List NodeId}
    (above : ∀ id ∈ ids, ∀ outer ∈ path, outer < id) :
    nodes.ModelsAll contents ids →
    (ids.map nodes.particle).flatMap (nodes.partMembers path) = Content.elementsOf contents ∧
      (ids.map nodes.particle).flatMap (nodes.partChoices path) = (Content.choicesOf contents).map Content.elementsOf
  | .nil => ⟨rfl, rfl⟩
  | .cons first rest => by
    obtain ⟨own, others⟩ := List.forall_mem_cons.mp above
    obtain ⟨members, choices⟩ := first.expanded formed own
    obtain ⟨moreMembers, moreChoices⟩ := rest.expanded formed others
    rw [List.map_cons, List.flatMap_cons, List.flatMap_cons, members, choices, moreMembers, moreChoices,
      Content.elementsOf, Content.choicesOf, List.map_append]
    exact ⟨rfl, rfl⟩

end

/-- A type has a content model and, besides it, nothing but attributes. -/
structure Holds (nodes : Nodes) (type : NodeId) (content : Content) : Prop where
  kind : nodes.kindOf type = .complexType
  model : ∃ root ∈ (nodes.get type).children, (root.kind = .sequence ∨ root.kind = .choice) ∧
    nodes.Models content root.id ∧
    ∀ other ∈ (nodes.get type).children, other ≠ root → other.kind = .attr ∨ other.kind = .attrGroup

/-- Among the children of a type, its content model is the only one that is no attribute. -/
private theorem child?_of_alone {node : Node} {root : Child} (member : root ∈ node.children)
    (others : ∀ other ∈ node.children, other ≠ root → other.kind = .attr ∨ other.kind = .attrGroup) {kind : Kind}
    (model : kind ≠ .attr ∧ kind ≠ .attrGroup) :
    node.child? kind = if kind = root.kind then some root.id else none := by
  have only {child : NodeId} (listed : ⟨kind, child⟩ ∈ node.children) : ⟨kind, child⟩ = root := by
    by_contra different
    rcases others _ listed different with same | same
    · exact model.1 same
    · exact model.2 same
  cases found : node.child? kind with
  | some child =>
    rw [← only (mem_childrenOf.mp (mem_childrenOf_of_child? found)), if_pos rfl]
  | none =>
    refine (if_neg fun same => ?_).symm
    have listed : root.id ∈ node.childrenOf kind := mem_childrenOf.mpr (same ▸ member)
    rw [List.head?_eq_none_iff.mp found] at listed
    cases listed

/-- A type with a content model appends that and nothing else but attributes. -/
theorem Holds.planned (formed : nodes.Formed) {type : NodeId} {content : Content} (holds : nodes.Holds type content) :
    ∃ root, nodes.Models content root ∧ nodes.particle root = .group root ∧ ∃ marks : List Mark,
      nodes.planned type = marks.map .mark ++ .append root :: nodes.attributeEntries (nodes.get type) := by
  obtain ⟨root, member, model, models, others⟩ := holds.model
  have plan : nodes.plan type = .build (nodes.derivationNotices type) none (nodes.entries type) :=
    plan_of_inner (by rw [holds.kind]; rfl)
  have child (kind : Kind) (other : kind ≠ .attr ∧ kind ≠ .attrGroup) := child?_of_alone member others other
  have group : nodes.particle root.id = .group root.id := by
    rw [particle, (formed.placed type).kind root member]
    rcases model with same | same <;> rw [same]
  have kind := holds.kind
  cases construct : (nodes.get type).construct with
  | complexType name mixed isAbstract =>
    refine ⟨root.id, models, group, name.toList.map .className, ?_⟩
    rcases model with same | same <;>
      simp [planned_of_plan plan, entries, construct, Node.modelEntries, child, same, List.map_map, Function.comp_def]
  | _ => simp [kindOf, Node.kind, construct, Construct.kind] at kind

end Nodes

theorem Reading.place_of_attrGroup {parent : Option Kind} {kind : Kind} (place : kind ∈ places parent .attrGroup) :
    kind = .attr ∨ kind = .attrGroup := by
  simpa [places, slots, attributeSlots, Slot.kind] using place

namespace Schema.Loaded
variable {schema : Schema} (loaded : schema.Loaded) {type id : NodeId} {content : Content}
include loaded

theorem choices_attrGroup {path : List NodeId} (kind : schema.nodes.kindOf id = .attrGroup) :
    schema.nodes.choices path id = [] := by
  fun_induction schema.nodes.choices path id with
  | case1 => rfl
  | case2 path id new ih =>
    have plain : schema.nodes.isSingleChoice id = false := by
      unfold Nodes.isSingleChoice
      split
      · next construct => simp [Nodes.kindOf, Node.kind, construct, Construct.kind] at kind
      · rfl
    rw [plain]
    refine List.append_eq_nil_iff.mpr ⟨List.flatMap_eq_nil_iff.mpr fun part listed => ?_, rfl⟩
    cases part with
    | leaf | notice => rfl
    | group group =>
      refine ih group ?_
      rcases Nodes.group_cases (by rw [kind]; rfl) listed with ⟨own, isGroup, member⟩ | ⟨model, _⟩ | ref
      · have place := (loaded.housed id).children _ (Nodes.mem_childrenOf.mp member)
        rw [kind] at place
        rcases (Reading.place_of_attrGroup place : own = .attr ∨ own = .attrGroup) with rfl | rfl
        · cases isGroup
        · exact loaded.formed.child_kind member
      · rw [kind] at model
        cases model
      · exact (loaded.formed.ref id group ref).2.1.trans kind

/-- The choices in the content of a type are those of its content model, each between all elements in it. -/
theorem contentChoices_eq (holds : schema.nodes.Holds type content) :
    schema.nodes.contentChoices type = content.choices.map Content.elementsOf := by
  obtain ⟨root, models, group, marks, planned⟩ := holds.planned loaded.formed
  have expanded := (models.expanded loaded.formed (List.forall_mem_nil _ : ∀ outer ∈ [], outer < root)).2
  have silent : marks.flatMap (fun mark => Entry.choices schema.nodes (.mark mark)) = [] := by simp [Entry.choices]
  have attributes :
      (schema.nodes.attributeEntries (schema.nodes.get type)).flatMap (Entry.choices schema.nodes) = [] := by
    refine List.flatMap_eq_nil_iff.mpr (List.forall_mem_append.mpr ⟨?_, ?_⟩)
    · exact List.forall_mem_map.mpr fun _ _ => rfl
    · exact List.forall_mem_map.mpr fun group member => loaded.choices_attrGroup (loaded.formed.child_kind member)
  rw [group] at expanded
  rw [Nodes.contentChoices, planned, List.flatMap_append, List.flatMap_map, silent, List.flatMap_cons,
    attributes, ← expanded]
  exact List.append_nil _

theorem leads_element (holds : schema.nodes.Holds type content) {leaf : NodeId} (member : leaf ∈ content.elements) :
    schema.nodes.Leads type leaf := by
  obtain ⟨root, models, group, marks, planned⟩ := holds.planned loaded.formed
  have expanded := (models.expanded loaded.formed (List.forall_mem_nil _ : ∀ outer ∈ [], outer < root)).1
  rw [group, Nodes.partMembers] at expanded
  have listed : .append root ∈ schema.nodes.planned type := by
    rw [planned]
    exact List.mem_append_right _ List.mem_cons_self
  exact .entry listed (expanded ▸ member : leaf ∈ schema.nodes.members [] root)

end Schema.Loaded
end SchemaClasses
