import SchemaClasses.Graph.Building
import SchemaClasses.Proofs.Graph.PostOrder
import SchemaClasses.Proofs.Grouping
import SchemaClasses.Proofs.Schema.Declarations

/-! Building instances. In an order that has children first nothing fails, and every object gets an instance that
holds those of its children. -/

namespace SchemaClasses.Graph
variable {schema : Schema} {document : Document} {graph : Graph} {object : Object} {id other : ObjectId}
  {known order : List ObjectId}

theorem renderObject_eq {className : String} {tagOf : ObjectId → String} {made : ObjectId → Instance}
    (named : schema.className object.tagName = .ok className) (ready : ∀ child ∈ object.children.toList,
      ∃ inner, graph.get? child = some inner ∧ inner.tagName = tagOf child ∧ inner.rendered = some (made child)) :
    graph.renderObject schema object = .ok {
      className
      tagName := object.tagName
      content := object.content
      attributes := object.attributes
      fields := Instance.grouped (object.children.toList.map fun child =>
        (Name.field (tagOf child), made child)) } := by
  have add (ids : List ObjectId) (ready : ∀ child ∈ ids, ∃ inner, graph.get? child = some inner ∧
    inner.tagName = tagOf child ∧
      inner.rendered = some (made child)) (before : Instance) : ids.foldlM graph.addChild before =
        .ok ((ids.map fun child => (Name.field (tagOf child), made child)).foldl
            (fun object value => object.pushField value.1 value.2) before) := by
    induction ids generalizing before with
    | nil => rfl
    | cons child ids ih =>
      obtain ⟨inner, found, tag, rendered⟩ := ready child List.mem_cons_self
      have first : graph.addChild before child = .ok (before.pushField (Name.field (tagOf child)) (made child)) := by
        simp only [addChild, found, rendered, tag]
      rw [List.foldlM_cons, first]
      exact ih (fun child member => ready child (List.mem_cons_of_mem _ member)) _
  rw [renderObject, named]
  refine (add _ ready _).trans ?_
  rw [Instance.foldl_pushField _ _ [] rfl, List.nil_append]

theorem get?_setRendered {rendered : Option Instance} : (graph.setRendered id rendered).get? other =
    (graph.get? other).map fun object => if other = id then { object with rendered } else object := by
  rw [setRendered, get?_modify]

def instanceOf (graph : Graph) (id : ObjectId) : Instance :=
  (graph.get? id >>= Object.rendered).getD { className := "", tagName := "" }

theorem instanceOf_setRendered {rendered : Option Instance} (different : other ≠ id) :
    (graph.setRendered id rendered).instanceOf other = graph.instanceOf other := by
  rw [instanceOf, get?_setRendered, instanceOf]
  simp only [if_neg different, Option.map_id']

end SchemaClasses.Graph

namespace SchemaClasses

def Document.nameOf (document : Document) (index : Nat) : String :=
  ((document.elements[index]?).map Element.name).getD ""

namespace Instance
variable {schema : Schema} {document : Document} {made other : Nat → Instance} {element : Element} {object : Instance}

/-- An instance that says the same as an element. In its fields are the instances of the children, each in the field
of its name. Fields come in the order in which they first occur. -/
structure Mirrors (schema : Schema) (document : Document) (made : Nat → Instance) (element : Element)
    (object : Instance) : Prop where
  className : schema.className element.name = .ok object.className
  tagName : object.tagName = element.name
  content : object.content = if element.children.isEmpty then element.text else none
  attributes : object.attributes = element.attributes
  keys : object.fields.map Prod.fst = (element.children.toList.map fun child =>
    Name.field (document.nameOf child)).eraseDups
  values : ∀ key, object.values key = (element.children.toList.filter fun child =>
    Name.field (document.nameOf child) = key).map made
  complete : (object.fields.flatMap Prod.snd).Perm (element.children.toList.map made)

theorem mirrors_of_grouped (className : schema.className element.name = .ok object.className)
    (tagName : object.tagName = element.name)
    (content : object.content = if element.children.isEmpty then element.text else none)
    (attributes : object.attributes = element.attributes)
    (fields : object.fields = grouped (element.children.toList.map fun child =>
      (Name.field (document.nameOf child), made child))) :
    Mirrors schema document made element object where
  className := className
  tagName := tagName
  content := content
  attributes := attributes
  keys := by
    rw [fields, grouped_keys, List.map_map]
    rfl
  values key := by
    rw [values, fields, grouped_values, List.filter_map, List.map_map]
    rfl
  complete := by
    have all := @grouped_perm (element.children.toList.map fun child =>
      (Name.field (document.nameOf child), made child))
    rw [List.map_map] at all
    rw [fields]
    exact all

theorem Mirrors.congr (mirrors : Mirrors schema document made element object)
    (same : ∀ child ∈ element.children.toList, other child = made child) :
    Mirrors schema document other element object :=
  { mirrors with
    values := fun key => by
      rw [mirrors.values]
      apply List.map_congr_left
      intro child member
      exact (same child (List.mem_filter.mp member).1).symm
    complete := by
      rw [List.map_congr_left same]
      exact mirrors.complete }

end Instance

namespace Graph
variable {schema : Schema} {document : Document} {graph : Graph} {id : ObjectId} {known order : List ObjectId}

section Mirror
variable {document : Document} {graph : Graph} (mirror : graph.objects = document.elements.map Object.ofElement)
include mirror

theorem get?_mirror (id : ObjectId) : graph.get? id = document.elements[id]?.map Object.ofElement := by
  rw [get?, mirror, Array.getElem?_map]

theorem children_mirror (id : ObjectId) : graph.children id = document.childrenOf id := by
  rw [children, get?_mirror mirror, Document.childrenOf]
  cases document.elements[id]? <;> rfl

theorem parent?_mirror : graph.parent? = document.parent? := by
  funext id
  rw [parent?, get?_mirror mirror, Document.parent?]
  cases document.elements[id]? <;> rfl

theorem size_mirror : graph.size = document.size := by
  rw [size, mirror, Array.size_map, Document.size]

theorem linked_mirror (formed : document.Formed) : graph.Linked := by
  intro id
  rw [children_mirror mirror, formed.children, parent?_mirror mirror, size_mirror mirror]

theorem postOrder_mirror (formed : document.Formed) (filled : 0 < document.size) :
    graph.postOrder.Perm (List.range document.size) ∧ graph.Ready [] graph.postOrder := by
  have linked := linked_mirror mirror formed
  have listed : graph.postOrder = graph.treeOrder 0 := postOrder_eq (linked.root (size_mirror mirror ▸ filled))
  have distinct : graph.postOrder.Nodup := listed ▸ (linked.sorted_treeOrder 0).nodup
  refine ⟨(List.perm_ext_iff_of_nodup distinct List.nodup_range).mpr fun id => ?_, graph.ready_postOrder⟩
  rw [List.mem_range]
  constructor
  · exact fun member => size_mirror mirror ▸ linked.postOrder_lt id member
  · intro inside
    rw [listed, linked.mem_treeOrder, parent?_mirror mirror]
    exact formed.order.within_root inside

end Mirror

/-- A graph of a document in which some objects are built. -/
structure Built (schema : Schema) (document : Document) (graph : Graph) (known : List ObjectId) : Prop where
  frame : ∀ id, (graph.get? id).map ({ · with rendered := none }) = document.elements[id]?.map Object.ofElement
  closed : ∀ id ∈ known, ∀ child ∈ document.childrenOf id, child ∈ known
  made : ∀ id ∈ known, ∀ element, document.elements[id]? = some element →
    (graph.get? id >>= Object.rendered) = some (graph.instanceOf id) ∧
      Instance.Mirrors schema document graph.instanceOf element (graph.instanceOf id)

namespace Built

theorem object (built : Built schema document graph known) {element : Element}
    (found : document.elements[id]? = some element) :
    ∃ object, graph.get? id = some object ∧ { object with rendered := none } = Object.ofElement element := by
  have frame := built.frame id
  rw [found] at frame
  exact Option.map_eq_some_iff.mp frame

theorem object_parts {object : Object} {element : Element}
    (same : { object with rendered := none } = Object.ofElement element) :
    object.tagName = element.name ∧ object.content = (if element.children.isEmpty then element.text else none) ∧
      object.attributes = element.attributes ∧ object.children = element.children :=
  ⟨congrArg Object.tagName same, congrArg Object.content same, congrArg Object.attributes same,
    congrArg Object.children same⟩

theorem render (built : Built schema document graph known) (formed : document.Formed) {element : Element}
    (found : document.elements[id]? = some element) (ready : ∀ child ∈ document.childrenOf id, child ∈ known)
    {className : String} (named : schema.className element.name = .ok className) :
    ∃ object made, graph.get? id = some object ∧
      graph.renderObject schema object = .ok made ∧ Instance.Mirrors schema document graph.instanceOf element made := by
  obtain ⟨object, stored, same⟩ := built.object found
  obtain ⟨tag, content, attributes, children⟩ := object_parts same
  have inner : ∀ child ∈ object.children.toList, ∃ inner, graph.get? child = some inner ∧
      inner.tagName = document.nameOf child ∧ inner.rendered = some (graph.instanceOf child) := by
    intro child member
    rw [children] at member
    have stands := (formed.mem_children found).mp member
    have there := Array.getElem?_eq_getElem (Document.lt_of_parent? stands)
    obtain ⟨object, stored, same⟩ := built.object there
    have made := (built.made child (ready child (Document.childrenOf_eq found ▸ member)) _ there).1
    rw [stored] at made
    refine ⟨object, stored, ?_, made⟩
    rw [Document.nameOf, there, (object_parts same).1]
    rfl
  refine ⟨object, _, stored, renderObject_eq (tag ▸ named) inner, ?_⟩
  apply Instance.mirrors_of_grouped named tag content attributes
  rw [children]

theorem store (built : Built schema document graph known) (new : id ∉ known) {element : Element}
    (found : document.elements[id]? = some element) (ready : ∀ child ∈ document.childrenOf id, child ∈ known)
    {made : Instance} (mirrors : Instance.Mirrors schema document graph.instanceOf element made) :
    Built schema document (graph.setRendered id (some made)) (id :: known) where
  frame other := by
    rw [get?_setRendered, Option.map_map, ← built.frame other]
    congr 1
    funext object
    simp only [Function.comp_apply]
    split <;> rfl
  closed other member child below := by
    rcases List.mem_cons.mp member with rfl | member
    · exact List.mem_cons_of_mem _ (ready child below)
    · exact List.mem_cons_of_mem _ (built.closed other member child below)
  made other member element' found' := by
    have kept (other : ObjectId) (member : other ∈ known) :
        (graph.setRendered id (some made)).instanceOf other = graph.instanceOf other :=
      instanceOf_setRendered fun same => new (same ▸ member)
    rcases List.mem_cons.mp member with rfl | member
    · obtain rfl := Option.some.inj (found.symm.trans found')
      obtain ⟨object, stored, _⟩ := built.object found
      have own : ((graph.setRendered other (some made)).get? other >>= Object.rendered) = some made := by
        rw [get?_setRendered, stored]
        simp
      have same : (graph.setRendered other (some made)).instanceOf other = made := by
        rw [instanceOf, own, Option.getD_some]
      rw [own, same]
      refine ⟨rfl, mirrors.congr fun child below => kept child (ready child ?_)⟩
      rw [Document.childrenOf_eq found]
      exact below
    · obtain ⟨rendered, mirrors⟩ := built.made other member element' found'
      have different : other ≠ id := fun same => new (same ▸ member)
      rw [kept other member, get?_setRendered]
      simp only [if_neg different, Option.map_id']
      refine ⟨rendered, mirrors.congr fun child below => kept child (built.closed other member child ?_)⟩
      rw [Document.childrenOf_eq found']
      exact below

end Built

/-- Building in an order with children first does not fail. -/
theorem buildEach_built {start : Graph} (formed : document.Formed)
    (same : ∀ id, start.children id = document.childrenOf id)
    (named : ∀ element ∈ document.elements.toList, ∃ className, schema.className element.name = .ok className)
    (built : Built schema document graph known) (ready : start.Ready known order) (distinct : order.Nodup)
    (new : ∀ id ∈ order, id ∉ known) (inside : ∀ id ∈ order, id < document.size) :
    (graph.buildEach schema order).failure = none ∧
      Built schema document (graph.buildEach schema order).graph (order.reverse ++ known) := by
  induction order generalizing graph known with
  | nil => exact ⟨rfl, built⟩
  | cons id order ih =>
    obtain ⟨outside, distinct⟩ := List.nodup_cons.mp distinct
    have found := Array.getElem?_eq_getElem (inside id List.mem_cons_self)
    have below : ∀ child ∈ document.childrenOf id, child ∈ known := same id ▸ ready.1
    obtain ⟨_, named⟩ := named _ (Array.getElem_mem_toList (inside id List.mem_cons_self))
    obtain ⟨object, made, stored, rendered, mirrors⟩ := built.render formed found below named
    have own := new id List.mem_cons_self
    have others : ∀ other ∈ order, other ∉ id :: known := by
      intro other member known
      rcases List.mem_cons.mp known with rfl | known
      · exact outside member
      · exact new other (List.mem_cons_of_mem _ member) known
    have rest := ih (built.store own found below mirrors) ready.2 distinct others fun id member =>
      inside id (List.mem_cons_of_mem _ member)
    rw [buildEach, stored]
    simp only [rendered]
    rw [List.reverse_cons, List.append_assoc]
    exact rest

/-- The graph of a document can be built, and then all objects are. -/
theorem build_built (formed : document.Formed) (filled : 0 < document.size)
    (mirror : graph.objects = document.elements.map Object.ofElement)
    (named : ∀ element ∈ document.elements.toList, ∃ className, schema.className element.name = .ok className) :
    (graph.build schema).failure = none ∧
      Built schema document (graph.build schema).graph (List.range document.size) := by
  obtain ⟨perm, ready⟩ := postOrder_mirror mirror formed filled
  have empty : Built schema document graph [] := by
    refine ⟨fun id => ?_, fun id member => absurd member List.not_mem_nil, fun id member =>
      absurd member List.not_mem_nil⟩
    rw [get?_mirror mirror, Option.map_map]
    rfl
  have inside : ∀ id ∈ graph.postOrder, id < document.size :=
    fun id member => List.mem_range.mp (perm.mem_iff.mp member)
  obtain ⟨succeeds, built⟩ := buildEach_built formed (children_mirror mirror) named empty ready
    (perm.nodup_iff.mpr List.nodup_range) (fun _ _ => List.not_mem_nil) inside
  have listed (id : ObjectId) : id ∈ graph.postOrder.reverse ++ [] ↔ id ∈ List.range document.size := by
    rw [List.append_nil, List.mem_reverse, perm.mem_iff]
  refine ⟨succeeds, built.frame, fun id member child below => ?_, fun id member =>
    built.made id ((listed id).mpr member)⟩
  exact (listed child).mp (built.closed id ((listed id).mpr member) child below)

theorem Built.size (built : Built schema document graph known) : graph.size = document.size := by
  refine size_eq fun id => ?_
  have frame := congrArg Option.isSome (built.frame id)
  rwa [Option.isSome_map, Option.isSome_map] at frame

theorem Built.parent? (built : Built schema document graph known) : graph.parent? = document.parent? := by
  funext id
  have same := congrArg (·.bind Object.parent) (built.frame id)
  rwa [Option.bind_map, Option.bind_map] at same

theorem Built.root (formed : document.Formed) (filled : 0 < document.size) (built : Built schema document graph known) :
    graph.root? = some 0 := by
  refine root?_eq_some_iff.mpr ⟨built.size ▸ filled, ?_, fun earlier less => absurd less (Nat.not_lt_zero earlier)⟩
  rw [built.parent?]
  exact formed.order.root

/-- An instance document has an instance for each element, if every tag in it is declared; otherwise the first tag
that is not is reported. -/
theorem instances_mirror (loaded : schema.Loaded) {limits : Limits} {bytes : List UInt8}
    (read : Document.read limits bytes = .ok document) (rooted : document.root ≠ none) :
    (∀ tag, (document.elements.toList.map Element.name).find? (fun tag => (schema.declaration? tag).isNone) = some tag →
      ofDocument schema document = .error (.undeclaredElement tag)) ∧
    ((∀ element ∈ document.elements.toList, (schema.declaration? element.name).isSome) → ∃ graph notices,
      ofDocument schema document = .ok (graph, notices) ∧ graph.objects = document.elements.map Object.ofElement ∧
      ∃ made : Nat → Instance, (graph.build schema).result = .ok (some (made 0)) ∧
      (graph.build schema).graph.size = document.size ∧
        ∀ index element, document.elements[index]? = some element →
          ((graph.build schema).graph.get? index >>= Object.rendered) = some (made index) ∧
            Instance.Mirrors schema document made element (made index)) := by
  have formed := Document.read_formed read
  have filled : 0 < document.size := by
    have root := formed.root
    apply Nat.pos_of_ne_zero
    intro empty
    rw [if_pos empty] at root
    exact rooted root
  obtain ⟨tree, found, root, holds⟩ := formed.tree filled
  have declared := undeclared?_eq formed schema holds root
  constructor
  · intro tag first
    rw [first] at declared
    simp only [ofDocument, found, declared]
  · intro all
    have none : (document.elements.toList.map Element.name).find? (fun tag =>
        (schema.declaration? tag).isNone) = none := by
      rw [List.find?_eq_none]
      intro tag member
      obtain ⟨element, among, rfl⟩ := List.mem_map.mp member
      simp [Option.isSome_iff_ne_none.mp (all element among)]
    rw [none] at declared
    have mirror := ofTree_objects formed holds root
    obtain ⟨succeeds, built⟩ :=
      build_built formed filled mirror fun element member => loaded.className_ok (all element member)
    have made (index : Nat) (element : Element) (found : document.elements[index]? = some element) :=
      built.made index (List.mem_range.mpr (Array.getElem?_eq_some_iff.mp found).1) element found
    refine ⟨ofTree tree, [.graphBuilt (ofTree tree).size], ?_, mirror, ((ofTree tree).build schema).graph.instanceOf,
      ?_, built.size, made⟩
    · simp only [ofDocument, found, declared]
    · have first := (made 0 _ (Array.getElem?_eq_getElem filled)).1
      rw [Building.result, succeeds]
      dsimp only
      rw [built.root formed filled]
      exact congrArg Except.ok first

end Graph

def Document.nested : Document where
  elements := #[{ name := "z", children := #[1] }, { name := "b", text := some "1", parent := some 0 }]
  root := some 0

theorem Graph.instances_mirror_nested :
    Schema.entwined.Loaded ∧ Document.read {} "<z><b>1</b></z>".toUTF8.toList = .ok .nested ∧
    Document.nested.root ≠ none ∧
    (∀ element ∈ Document.nested.elements.toList, (Schema.entwined.declaration? element.name).isSome) ∧
      ∃ graph notices, ofDocument .entwined .nested = .ok (graph, notices) ∧
        graph.objects = Document.nested.elements.map Object.ofElement ∧
        ∃ made : Nat → Instance, (graph.build .entwined).result = .ok (some (made 0)) ∧
          (graph.build .entwined).graph.size = Document.nested.size ∧
            ∀ index element, Document.nested.elements[index]? = some element →
              ((graph.build .entwined).graph.get? index >>= Object.rendered) = some (made index) ∧
              Instance.Mirrors .entwined .nested made element (made index) := by
  have read : Document.read {} "<z><b>1</b></z>".toUTF8.toList = .ok .nested := by cbv
  have rooted : Document.nested.root ≠ none := by decide
  have declared : ∀ element ∈ Document.nested.elements.toList,
      (Schema.entwined.declaration? element.name).isSome := by decide
  exact ⟨Schema.entwined_loaded, read, rooted, declared,
    (instances_mirror Schema.entwined_loaded read rooted).2 declared⟩

end SchemaClasses
