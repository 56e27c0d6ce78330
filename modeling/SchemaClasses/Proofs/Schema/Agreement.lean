import SchemaClasses.Proofs.Schema.Slots

/-! What reading depends on. Trees that differ only in their annotations and in the way they write references
are read into the same nodes, up to the way the references are written. -/

namespace SchemaClasses

theorem map_modify_congr {α β : Type} {see : α → β} {first second : Array α} {change other : α → α}
    (same : first.map see = second.map see)
    (kept : ∀ value value', see value = see value' → see (change value) = see (other value')) (index : Nat) :
    (first.modify index change).map see = (second.modify index other).map see := by
  have size : first.size = second.size := by simpa using congrArg Array.size same
  refine Array.ext (by simpa using size) fun place inside within => ?_
  simp only [Array.size_map, Array.size_modify] at inside within
  have here : see first[place] = see second[place] := by
    have found := congrArg (·[place]?) same
    simpa [inside, within] using found
  simp only [Array.getElem_map, Array.getElem_modify]
  split
  · exact kept _ _ here
  · exact here

namespace Construct

/-- A construct with its references changed. -/
def mapRefs (type : TypeRef → TypeRef) (node : NodeRef → NodeRef) : Construct → Construct
  | element decl => element { decl with type := decl.type.map type, ref := decl.ref.map node }
  | attr decl => attr { decl with type := decl.type.map type, ref := decl.ref.map node }
  | attrGroup name ref => attrGroup name (ref.map node)
  | group name ref occurs => group name (ref.map node) occurs
  | restriction base facets => restriction (base.map type) facets
  | extension base => extension (base.map type)
  | list itemType => list (itemType.map type)
  | union memberTypes => union (memberTypes.map type)
  | other => other

section MapRefs
variable {construct : Construct} {type type' : TypeRef → TypeRef} {node node' : NodeRef → NodeRef}

theorem mapRefs_congr (types : ∀ ref ∈ construct.typeRefs, type ref = type' ref)
    (nodes : ∀ ref, construct.nodeRef? = some ref → node ref = node' ref) :
    construct.mapRefs type node = construct.mapRefs type' node' := by
  have one (ref : Option TypeRef) (same : ∀ found ∈ ref.toList, type found = type' found) :
      ref.map type = ref.map type' := by
    cases ref with
    | none => rfl
    | some found => exact congrArg some (same found List.mem_cons_self)
  have own (ref : Option NodeRef) (same : ∀ found, ref = some found → node found = node' found) :
      ref.map node = ref.map node' := by
    cases ref with
    | none => rfl
    | some found => exact congrArg some (same found rfl)
  cases construct with
  | element decl | attr decl => rw [mapRefs, mapRefs, one decl.type types, own decl.ref nodes]
  | attrGroup _ ref | group _ ref => rw [mapRefs, mapRefs, own ref nodes]
  | restriction base | extension base | list base => rw [mapRefs, mapRefs, one base types]
  | union members => exact congrArg union (List.map_congr_left types)
  | _ => rfl

theorem mapRefs_id : construct.mapRefs id id = construct := by
  cases construct with
  | union => rw [mapRefs, List.map_id]
  | _ => simp only [mapRefs, Option.map_id, id]

theorem mapRefs_mapRefs :
    (construct.mapRefs type node).mapRefs type' node' = construct.mapRefs (type' ∘ type) (node' ∘ node) := by
  cases construct with
  | union => simp only [mapRefs, List.map_map]
  | _ => simp only [mapRefs, Option.map_map]

theorem typeRefs_mapRefs : (construct.mapRefs type node).typeRefs = construct.typeRefs.map type := by
  have one (ref : Option TypeRef) : (ref.map type).toList = ref.toList.map type := by cases ref <;> rfl
  cases construct with
  | element | attr | restriction | extension | list => exact one _
  | _ => rfl

theorem nodeRef_mapRefs : (construct.mapRefs type node).nodeRef? = construct.nodeRef?.map node := by
  cases construct <;> rfl

theorem kind_mapRefs : (construct.mapRefs type node).kind = construct.kind := by
  cases construct <;> rfl

theorem name_mapRefs : (construct.mapRefs type node).name? = construct.name? := by
  cases construct <;> rfl

end MapRefs
end Construct

section Rename
variable (f : String → String)

/-- A reference that is still a name, written in another way. -/
def TypeRef.rename : TypeRef → TypeRef
  | named name => named (f name)
  | type => type

def NodeRef.rename : NodeRef → NodeRef
  | named name => named (f name)
  | ref => ref

def Construct.rename (construct : Construct) : Construct :=
  construct.mapRefs (TypeRef.rename f) (NodeRef.rename f)

def Node.rename (node : Node) : Node :=
  { node with construct := node.construct.rename f }

def Nodes.rename (nodes : Nodes) : Nodes :=
  nodes.map (Node.rename f)

theorem Nodes.rename_id (nodes : Nodes) : nodes.rename id = nodes := by
  have type : TypeRef.rename id = id := by
    funext ref
    cases ref <;> rfl
  have node : NodeRef.rename id = id := by
    funext ref
    cases ref <;> rfl
  have same : Node.rename id = id := by
    funext own
    rw [Node.rename, Construct.rename, type, node, Construct.mapRefs_id]
    rfl
  rw [rename, same, Array.map_id]

end Rename

namespace Tree

/-- Trees one for one, but for annotations that only the second ones have. -/
inductive Aligned (related : Tree → Tree → Prop) : List Tree → List Tree → Prop where
  | nil : Aligned related [] []
  | both {tree other trees others} (same : related tree other) (rest : Aligned related trees others) :
      Aligned related (tree :: trees) (other :: others)
  | inserted {other trees others} (named : other.name = "annotation") (rest : Aligned related trees others) :
      Aligned related trees (other :: others)

/-- Trees of the same elements with related attributes, but for annotations that only the second has. Where the elements
stand in their documents makes no difference. -/
inductive Matches (attributes : Entries String → Entries String → Prop) : Tree → Tree → Prop where
  | node {index place element counterpart children others} (name : element.name = counterpart.name)
      (text : element.text = counterpart.text) (stated : attributes element.attributes counterpart.attributes)
      (inner : Aligned (Matches attributes) children others) :
      Matches attributes (.node index element children) (.node place counterpart others)

/-- A tree, and the same tree with annotations put in anywhere. -/
abbrev Annotated : Tree → Tree → Prop :=
  Matches Eq

namespace Aligned
variable {related : Tree → Tree → Prop} {trees others : List Tree} {tag : String}

/-- The first tree of a name is found in the same place, unless annotations are looked for. -/
theorem find? (aligned : Aligned related trees others)
    (names : ∀ tree other, related tree other → tree.name = other.name) (plain : tag ≠ "annotation") :
    Option.Rel related (trees.find? (·.name == tag)) (others.find? (·.name == tag)) := by
  induction aligned with
  | nil => exact .none
  | both same _ ih =>
    rw [List.find?_cons, List.find?_cons, names _ _ same]
    split
    · exact .some same
    · exact ih
  | inserted named _ ih =>
    rwa [List.find?_cons_of_neg (by simpa [named] using plain.symm)]

theorem filter (aligned : Aligned related trees others)
    (names : ∀ tree other, related tree other → tree.name = other.name) (plain : tag ≠ "annotation") :
    List.Forall₂ related (trees.filter (·.name == tag)) (others.filter (·.name == tag)) := by
  induction aligned with
  | nil => exact .nil
  | both same _ ih =>
    rw [List.filter_cons, List.filter_cons, names _ _ same]
    split
    · exact .cons same ih
    · exact ih
  | inserted named _ ih =>
    rwa [List.filter_cons_of_neg (by simpa [named] using plain.symm)]

end Aligned

namespace Matches
variable {attributes : Entries String → Entries String → Prop} {tree other : Tree} {tag : String}

theorem name (same : Matches attributes tree other) : tree.name = other.name := by
  cases same with
  | node name => exact name

theorem text (same : Matches attributes tree other) : tree.text = other.text := by
  cases same with
  | node _ text => exact text

theorem stated (same : Matches attributes tree other) :
    attributes tree.element.attributes other.element.attributes := by
  cases same with
  | node _ _ stated => exact stated

theorem inner (same : Matches attributes tree other) : Aligned (Matches attributes) tree.children other.children := by
  cases same with
  | node _ _ _ inner => exact inner

theorem child? (same : Matches attributes tree other) (plain : tag ≠ "annotation") :
    Option.Rel (Matches attributes) (tree.child? tag) (other.child? tag) :=
  same.inner.find? (fun _ _ => name) plain

theorem childrenNamed (same : Matches attributes tree other) (plain : tag ≠ "annotation") :
    List.Forall₂ (Matches attributes) (tree.childrenNamed tag) (other.childrenNamed tag) :=
  same.inner.filter (fun _ _ => name) plain

end Matches
end Tree

namespace Reading

/-- The attributes that hold one reference each. -/
def referenceKeys : List String :=
  ["type", "ref", "base", "itemType"]

/-- Attributes that say the same, but for the way they write references. -/
structure SaySame (f : String → String) (first second : Entries String) : Prop where
  plain : ∀ key, key ∉ "memberTypes" :: referenceKeys → first.get? key = second.get? key
  reference : ∀ key ∈ referenceKeys, (first.get? key).map f = (second.get? key).map f
  members : (first.get? "memberTypes").map (fun names => (Text.words names).map f) =
    (second.get? "memberTypes").map fun names => (Text.words names).map f

theorem SaySame.refl (f : String → String) (attributes : Entries String) : SaySame f attributes attributes :=
  ⟨fun _ _ => rfl, fun _ _ => rfl, rfl⟩

section Attributes
variable {f : String → String} {tree other : Tree} (named : tree.name = other.name)
include named

theorem boolean_congr {key : String} (same : tree.attribute? key = other.attribute? key) :
    boolean tree key = boolean other key := by
  unfold boolean
  rw [same, named]

theorem occurs_congr (min : tree.attribute? "minOccurs" = other.attribute? "minOccurs")
    (max : tree.attribute? "maxOccurs" = other.attribute? "maxOccurs") : occurs tree = occurs other := by
  unfold occurs minOccurs maxOccurs
  rw [min, max, named]

theorem usage_congr (same : tree.attribute? "use" = other.attribute? "use") : usage tree = usage other := by
  unfold usage
  rw [same, named]

/-- What an element states is the same construct, but for the way it writes references. -/
theorem stated_rename (same : SaySame f tree.element.attributes other.element.attributes) (kind : Kind) :
    (stated tree kind).map (Construct.rename f) = (stated other kind).map (Construct.rename f) := by
  have plain (key : String) (free : key ∉ "memberTypes" :: referenceKeys) :
    tree.attribute? key = other.attribute? key :=
    same.plain key free
  have flag (key : String) (free : key ∉ "memberTypes" :: referenceKeys) := boolean_congr named (plain key free)
  have counts : occurs tree = occurs other := occurs_congr named (plain _ (by decide)) (plain _ (by decide))
  have type (key : String) (reference : key ∈ referenceKeys) :
      (typeRef? tree key).map (TypeRef.rename f) = (typeRef? other key).map (TypeRef.rename f) := by
    have written := congrArg (Option.map TypeRef.named) (same.reference key reference)
    rw [Option.map_map, Option.map_map] at written
    rw [typeRef?, typeRef?, Option.map_map, Option.map_map]
    exact written
  have node : (nodeRef? tree).map (NodeRef.rename f) = (nodeRef? other).map (NodeRef.rename f) := by
    have written := congrArg (Option.map NodeRef.named) (same.reference "ref" (by decide))
    rw [Option.map_map, Option.map_map] at written
    rw [nodeRef?, nodeRef?, Option.map_map, Option.map_map]
    exact written
  unfold stated
  cases kind with
  | schema => rw [plain "targetNamespace" (by decide)]
  | element =>
    rw [counts, flag "nillable" (by decide), flag "abstract" (by decide), plain "name" (by decide),
      plain "default" (by decide), plain "fixed" (by decide)]
    rcases occurs other with _ | counted
    · rfl
    rcases boolean other "nillable" with _ | nillable
    · rfl
    rcases boolean other "abstract" with _ | isAbstract
    · rfl
    exact congrArg Except.ok (by simp only [Construct.rename, Construct.mapRefs, type "type" (by decide), node])
  | complexType =>
    rw [flag "mixed" (by decide), flag "abstract" (by decide), plain "name" (by decide)]
  | simpleType => rw [plain "name" (by decide)]
  | attr =>
    rw [usage_congr named (plain _ (by decide)), plain "name" (by decide), plain "default" (by decide),
      plain "fixed" (by decide)]
    rcases usage other with _ | usage
    · rfl
    exact congrArg Except.ok (by simp only [Construct.rename, Construct.mapRefs, type "type" (by decide), node])
  | attrGroup =>
    rw [plain "name" (by decide)]
    exact congrArg Except.ok (by simp only [Construct.rename, Construct.mapRefs, node])
  | group =>
    rw [plain "name" (by decide), counts]
    rcases occurs other with _ | counted
    · rfl
    exact congrArg Except.ok (by simp only [Construct.rename, Construct.mapRefs, node])
  | sequence | choice | all => rw [counts]
  | simpleContent | complexContent => rw [flag "mixed" (by decide)]
  | restriction | extension =>
    exact congrArg Except.ok (by simp only [Construct.rename, Construct.mapRefs, type "base" (by decide)])
  | list => exact congrArg Except.ok (by simp only [Construct.rename, Construct.mapRefs, type "itemType" (by decide)])
  | union =>
    have written (found : Option String) :
        ((found.map fun names => (Text.words names).map TypeRef.named).getD []).map (TypeRef.rename f) =
          ((found.map fun names => (Text.words names).map f).getD []).map TypeRef.named := by
      cases found with
      | none => rfl
      | some names => simp only [Option.map_some, Option.getD_some, List.map_map, Function.comp_def, TypeRef.rename]
    refine congrArg Except.ok (congrArg Construct.union ?_)
    rw [written, written, Tree.attribute?, Tree.attribute?, same.members]

end Attributes

section Trees
variable {f : String → String} {attributes : Entries String → Entries String → Prop} {tree other : Tree}
  (agree : ∀ first second, attributes first second → SaySame f first second) (same : Tree.Matches attributes tree other)
include agree same

theorem value?_congr : tree.value? = other.value? := by
  unfold Tree.value? Tree.attribute?
  rw [(agree _ _ same.stated).plain "value" (by decide), same.text]

theorem childText?_congr {tag : String} (plain : tag ≠ "annotation") : tree.childText? tag = other.childText? tag := by
  unfold Tree.childText?
  generalize tree.child? tag = found, other.child? tag = counterpart, same.child? plain = aligned
  cases aligned with
  | none => rfl
  | some same => exact value?_congr agree same

theorem childTexts_congr (tag : String) (plain : tag ≠ "annotation") : tree.childTexts tag = other.childTexts tag := by
  unfold Tree.childTexts
  generalize tree.childrenNamed tag = found, other.childrenNamed tag = counterparts, same.childrenNamed plain = aligned
  induction aligned with
  | nil => rfl
  | cons same _ ih => rw [List.filterMap_cons, List.filterMap_cons, value?_congr agree same, ih]

theorem numericFacet_congr (facet : NumericFacet) : numericFacet tree facet = numericFacet other facet := by
  have plain : facet.tag ≠ "annotation" := by rcases facet with (_ | _ | _ | _) | _ | _ | (_ | _ | _) <;> decide
  unfold numericFacet
  rw [childText?_congr agree same plain]

theorem facets_congr : facets tree = facets other := by
  have text (tag : String) (plain : tag ≠ "annotation") : textFacet tree tag = textFacet other tag := by
    unfold textFacet
    rw [childText?_congr agree same plain]
  unfold facets
  simp only [numericFacet_congr agree same, childTexts_congr agree same "enumeration" (by decide)]
  rw [text "whiteSpace" (by decide), text "whitespace" (by decide), text "pattern" (by decide)]

theorem withFacets_rename (parent : Option Kind) {construct counterpart : Construct}
    (renamed : construct.rename f = counterpart.rename f) :
    (withFacets tree parent construct).1.rename f = (withFacets other parent counterpart).1.rename f ∧
      (withFacets tree parent construct).2 = (withFacets other parent counterpart).2 := by
  -- The facets do not depend on how the base is written, so they can be added to the construct as it is seen.
  have seen (tree : Tree) (construct : Construct) :
      withFacets tree parent (construct.rename f) =
        ((withFacets tree parent construct).1.rename f, (withFacets tree parent construct).2) := by
    cases construct with
    | restriction base plain =>
      unfold withFacets
      dsimp only [Construct.rename, Construct.mapRefs]
      split <;> rfl
    | _ => rfl
  have all : withFacets tree parent (construct.rename f) = withFacets other parent (counterpart.rename f) := by
    unfold withFacets
    rw [renamed, facets_congr agree same]
  rw [seen, seen] at all
  exact Prod.mk.inj all

end Trees

/-- Steps that do the same with related elements. -/
inductive Step.Same (related : Tree → Tree → Prop) : Step → Step → Prop where
  | read {kind tree other} (same : related tree other) : Same related (.read kind tree) (.read kind other)
  | skip (notice : Notice) : Same related (.skip notice) (.skip notice)

section Steps
variable {attributes : Entries String → Entries String → Prop} {tree other : Tree}
  (same : Tree.Matches attributes tree other)
include same

theorem slot_same (slot : Slot) :
    List.Forall₂ (Step.Same (Tree.Matches attributes)) (slot.steps tree) (slot.steps other) := by
  have plain (kind : Kind) : kind.tag ≠ "annotation" := by cases kind <;> decide
  cases slot with
  | first kind =>
    simp only [Slot.steps]
    generalize tree.child? kind.tag = found, other.child? kind.tag = counterpart, same.child? (plain kind) = aligned
    cases aligned with
    | none => exact .nil
    | some same => exact .cons (.read same) .nil
  | every kind =>
    simp only [Slot.steps]
    rw [List.forall₂_map_left_iff, List.forall₂_map_right_iff]
    exact (same.childrenNamed (plain kind)).imp fun _ _ => .read

theorem among_same (kinds : List Kind) (notice : String → Notice) :
    List.Forall₂ (Step.Same (Tree.Matches attributes)) (tree.children.filterMap (stepAmong kinds notice))
      (other.children.filterMap (stepAmong kinds notice)) := by
  have plain (kind : Kind) : kind.tag ≠ "annotation" := by cases kind <;> decide
  generalize tree.children = children, other.children = others, same.inner = aligned
  induction aligned with
  | nil => exact .nil
  | @both child counterpart children others same _ ih =>
    have alike : Option.Rel (Step.Same (Tree.Matches attributes)) (stepAmong kinds notice child)
        (stepAmong kinds notice counterpart) := by
      unfold stepAmong
      rw [same.name]
      split
      · exact .some (.read same)
      · split
        · exact .none
        · exact .some (.skip _)
    rw [List.filterMap_cons, List.filterMap_cons]
    generalize stepAmong kinds notice child = step, stepAmong kinds notice counterpart = step' at alike
    cases alike with
    | none => exact ih
    | some same => exact .cons same ih
  | @inserted counterpart children others named _ ih =>
    have passed : stepAmong kinds notice counterpart = none := by
      have unknown : kinds.find? (·.tag == counterpart.name) = none :=
        List.find?_eq_none.mpr fun kind _ => by simpa [named] using plain kind
      unfold stepAmong
      rw [unknown, if_pos named]
    rwa [List.filterMap_cons_none passed]

theorem steps_same (parent : Option Kind) (kind : Kind) :
    List.Forall₂ (Step.Same (Tree.Matches attributes)) (steps parent kind tree) (steps parent kind other) := by
  have slotted (slots : List Slot) :
      List.Forall₂ (Step.Same (Tree.Matches attributes)) (slots.flatMap (Slot.steps tree))
          (slots.flatMap (Slot.steps other)) := by
    induction slots with
    | nil => exact .nil
    | cons slot slots ih => exact List.rel_append (slot_same same slot) ih
  cases kind with
  | schema => exact among_same same topLevel .skippedSchemaChild
  | sequence | choice | all => exact among_same same particles .skippedParticle
  | _ => exact slotted _

end Steps

/-- States with the same nodes, but for the way references are written, and the same notices. -/
structure AlikeUpTo (f : String → String) (first second : State) : Prop where
  nodes : first.nodes.rename f = second.nodes.rename f
  notices : first.notices = second.notices

theorem AlikeUpTo.size {f : String → String} {first second : State} (alike : AlikeUpTo f first second) :
    first.nodes.size = second.nodes.size := by
  simpa [Nodes.rename] using congrArg Array.size alike.nodes

section Agree
variable {α β γ δ : Type} {f : String → String} {see : α → β} {look : γ → δ}

/-- Steps that have the same outcome from like states, as far as `see` tells results apart. -/
def Agree (f : String → String) (see : α → β) (steps others : M α) : Prop :=
  ∀ left right, AlikeUpTo f left right →
    (steps.run left).1.map see = (others.run right).1.map see ∧ AlikeUpTo f (steps.run left).2 (others.run right).2

namespace Agree

theorem bind {first second : M α} {rest others : α → M γ} (one : Agree f see first second)
    (other : ∀ value value', see value = see value' → Agree f look (rest value) (others value')) :
    Agree f look (first >>= rest) (second >>= others) := by
  intro left right alike
  obtain ⟨same, later⟩ := one left right alike
  rw [run_bind, run_bind]
  rcases outcome : first.run left with ⟨error | value, left'⟩ <;>
    rcases outcome' : second.run right with ⟨error' | value', right'⟩ <;> rw [outcome, outcome'] at same later <;>
    simp only [Except.map, Except.ok.injEq, Except.error.injEq, reduceCtorEq] at same
  · exact ⟨congrArg Except.error same, later⟩
  · exact other value value' same left' right' later

theorem bind_eq {first second : M α} {rest others : α → M γ} (one : Agree f id first second)
    (other : ∀ value, Agree f look (rest value) (others value)) : Agree f look (first >>= rest) (second >>= others) :=
  one.bind fun value _ same => by
    cases same
    exact other value

theorem pure (value : α) : Agree f see (Pure.pure value) (Pure.pure value) :=
  fun _ _ alike => ⟨rfl, alike⟩

theorem lift {value other : Except Error α} (same : value.map see = other.map see) :
    Agree f see (liftM value : M α) (liftM other : M α) := by
  intro left right alike
  rw [run_lift, run_lift]
  exact ⟨same, alike⟩

theorem report {notices others : List Notice} (same : notices = others) :
    Agree f id (Reading.report notices) (Reading.report others) := by
  intro left right alike
  exact ⟨rfl, alike.nodes, congrArg₂ (· ++ ·) alike.notices same⟩

theorem leave (own : NodeId) {construct other : Construct} (same : construct.rename f = other.rename f)
    (children : List Child) :
    Agree f id (Reading.leave own construct children) (Reading.leave own other children) := by
  intro left right alike
  have nodes : Nodes.rename f (left.nodes.modify own ({ · with construct, children })) =
      Nodes.rename f (right.nodes.modify own ({ · with construct := other, children })) := by
    refine map_modify_congr alike.nodes (fun node node' seen => ?_) own
    have label := congrArg Node.label seen
    have parent := congrArg Node.parent seen
    dsimp only [Node.rename] at label parent
    simp only [Node.rename, label, parent, same]
  exact ⟨rfl, nodes, alike.notices⟩

theorem enter (limits : Limits) (parent : Option NodeId) (kind : Kind) {tree other : Tree}
    (same : tree.attribute? "id" = other.attribute? "id") :
    Agree f id (Reading.enter limits parent kind tree) (Reading.enter limits parent kind other) := by
  intro left right alike
  rw [enter_run, enter_run, alike.size]
  cases limits.check .nodes (right.nodes.size + 1) with
  | error error => exact ⟨rfl, alike⟩
  | ok _ =>
    refine ⟨rfl, ?_, alike.notices⟩
    dsimp only
    rw [Nodes.rename, Nodes.rename, Array.map_push, Array.map_push, same]
    exact congrArg (Array.push · _) alike.nodes

end Agree

theorem children_agree {related : Tree → Tree → Prop} {limits : Limits} {own : Child} {steps others : List Step}
    (same : List.Forall₂ (Step.Same related) steps others)
    (inner : ∀ kind tree other, .read kind tree ∈ steps → related tree other →
      Agree f id (node limits (some own) kind tree) (node limits (some own) kind other)) :
    Agree f id (steps.filterMapM (readStep limits own)) (others.filterMapM (readStep limits own)) := by
  induction same with
  | nil => exact .pure []
  | cons first _ ih =>
    have rest := ih fun kind tree other member => inner kind tree other (List.mem_cons_of_mem _ member)
    rw [List.filterMapM_cons, List.filterMapM_cons]
    refine Agree.bind_eq ?_ fun found => ?_
    · cases first with
      | skip notice => exact (Agree.report rfl).bind_eq fun _ => .pure none
      | read same => exact (inner _ _ _ List.mem_cons_self same).bind_eq fun _ => .pure _
    · cases found with
      | none => exact rest
      | some child => exact rest.bind_eq fun _ => .pure _

variable {attributes : Entries String → Entries String → Prop}
  (agree : ∀ first second, attributes first second → SaySame f first second)
include agree

/-- Trees that match are read into the same nodes, but for the way references are written. -/
theorem node_agree (limits : Limits) (parent : Option Child) (kind : Kind) {tree other : Tree}
    (same : Tree.Matches attributes tree other) :
    Agree f id (node limits parent kind tree) (node limits parent kind other) := by
  have alike := agree _ _ same.stated
  rw [node_eq, node_eq]
  refine (Agree.enter limits _ kind (alike.plain "id" (by decide))).bind_eq fun id => ?_
  refine (Agree.lift (stated_rename same.name alike kind)).bind fun construct construct' renamed => ?_
  apply Agree.bind_eq
  · refine children_agree (steps_same same _ kind) fun childKind child other listed same => ?_
    exact node_agree limits (some ⟨kind, id⟩) childKind same
  · intro children
    have facets := withFacets_rename agree same (parent.map Child.kind) renamed
    exact (Agree.report facets.2).bind_eq fun _ => (Agree.leave _ facets.1 _).bind_eq fun _ => .pure _
termination_by sizeOf tree
decreasing_by exact Tree.sizeOf_lt_of_mem_children (mem_children_of_mem_steps listed)

theorem document_agree (limits : Limits) {source copy : Document}
    (same : Option.Rel (Tree.Matches attributes) source.tree? copy.tree?) :
    Agree f id (document limits source) (document limits copy) := by
  unfold document
  generalize source.tree? = found, copy.tree? = counterpart at same
  cases same with
  | none => exact fun _ _ alike => ⟨rfl, alike⟩
  | some same =>
    dsimp only
    rw [same.name]
    split
    · exact fun _ _ alike => ⟨rfl, alike⟩
    · refine (node_agree agree limits none .schema same).bind_eq fun root => ?_
      intro left right alike
      refine ⟨rfl, alike.nodes, ?_⟩
      change left.notices ++ [.schemaParsed left.nodes.size] = right.notices ++ [.schemaParsed right.nodes.size]
      rw [alike.size, alike.notices]

end Agree

/-- Annotations have no influence on what is read, wherever they stand and whatever is in them. The outcome is
the same root or the same error, and the same nodes are read on the way to it. -/
theorem annotations_transparent (limits : Limits) {source annotated : Document}
    (same : Option.Rel Tree.Annotated source.tree? annotated.tree?) (links others : Links) :
    ((document limits annotated).run { links := others }).1 = ((document limits source).run { links }).1 ∧
      ((document limits annotated).run { links := others }).2.nodes = ((document limits source).run { links }).2.nodes ∧
      ((document limits annotated).run { links := others }).2.notices =
          ((document limits source).run { links }).2.notices := by
  have agree (first second : Entries String) (equal : first = second) : SaySame id first second :=
    equal ▸ .refl id first
  obtain ⟨outcome, alike⟩ := document_agree agree limits same { links } { links := others } ⟨rfl, rfl⟩
  have nodes := alike.nodes
  rw [Nodes.rename_id, Nodes.rename_id] at nodes
  rw [Except.map_id] at outcome
  exact ⟨outcome.symm, nodes.symm, alike.notices.symm⟩

end Reading

namespace Document

/-- A type of texts of at most three characters. -/
def bounded : Document where
  elements := #[
    { name := "schema", children := #[1] },
    { name := "simpleType", attributes := [("name", "code")], children := #[2], parent := some 0 },
    { name := "restriction", attributes := [("base", "string")], children := #[3], parent := some 1 },
    { name := "maxLength", attributes := [("value", "3")], parent := some 2 }]
  root := some 0

/-- The same with annotations, in one of which another bound stands. -/
def boundedAnnotated : Document where
  elements := #[
    { name := "schema", children := #[1, 3] },
    { name := "annotation", children := #[2], parent := some 0 },
    { name := "documentation", text := some "codes", parent := some 1 },
    { name := "simpleType", attributes := [("name", "code")], children := #[4, 8], parent := some 0 },
    { name := "restriction", attributes := [("base", "string")], children := #[5, 7], parent := some 3 },
    { name := "annotation", children := #[6], parent := some 4 },
    { name := "maxLength", attributes := [("value", "9")], parent := some 5 },
    { name := "maxLength", attributes := [("value", "3")], parent := some 4 },
    { name := "annotation", parent := some 3 }]
  root := some 0

end Document

namespace Reading
open Document

theorem bounded_annotations_transparent : Option.Rel Tree.Annotated bounded.tree? boundedAnnotated.tree? ∧
    ((document {} boundedAnnotated).run { links := #[] }).1 = ((document {} bounded).run { links := #[] }).1 ∧
      ((document {} boundedAnnotated).run { links := #[] }).2.nodes =
        ((document {} bounded).run { links := #[] }).2.nodes ∧
      ((document {} boundedAnnotated).run { links := #[] }).2.notices =
          ((document {} bounded).run { links := #[] }).2.notices := by
  have same : Option.Rel Tree.Annotated bounded.tree? boundedAnnotated.tree? :=
    .some (.node rfl rfl rfl (.inserted rfl (.both (.node rfl rfl rfl (.both (.node rfl rfl rfl
      (.inserted rfl (.both (.node rfl rfl rfl .nil) .nil))) (.inserted rfl .nil))) .nil)))
  exact ⟨same, annotations_transparent {} same #[] #[]⟩

end Reading
end SchemaClasses
