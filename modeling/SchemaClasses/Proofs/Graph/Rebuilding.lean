import SchemaClasses.Proofs.Graph.Building
import SchemaClasses.Proofs.Graph.PostOrder

/-! Building a graph that holds instances already. What it holds never matters: the objects before the first
whose tag is not declared get new instances, which are made from the descriptions alone, and no other object is
changed. -/

namespace SchemaClasses.Graph
variable {schema further : Schema} {start graph other : Graph} {object : Object} {id root : ObjectId}
  {known order before : List ObjectId}

def tagOf (graph : Graph) (id : ObjectId) : String :=
  ((graph.get? id).map Object.tagName).getD ""

theorem tagOf_eq (found : graph.get? id = some object) : graph.tagOf id = object.tagName := by
  rw [tagOf, found, Option.map_some, Option.getD_some]

/-- The instance that the descriptions of an object and of all below it make, whatever instances there are. -/
def made (graph : Graph) (schema : Schema) (id : ObjectId) : Instance := {
    className := (schema.className (graph.tagOf id)).toOption.getD ""
    tagName := graph.tagOf id
    content := (graph.get? id).bind Object.content
    attributes := ((graph.get? id).map Object.attributes).getD []
    fields := Instance.grouped ((graph.children id).attach.map fun child =>
      (Name.field (graph.tagOf child.val), graph.made schema child.val)) }
  termination_by graph.size - id
  decreasing_by
    exact Nat.sub_lt_sub_left (lt_size_of_mem_children child.property)
      (lt_of_mem_children child.property)

theorem made_eq (graph : Graph) (schema : Schema) (id : ObjectId) : graph.made schema id = {
    className := (schema.className (graph.tagOf id)).toOption.getD ""
    tagName := graph.tagOf id
    content := (graph.get? id).bind Object.content
    attributes := ((graph.get? id).map Object.attributes).getD []
    fields := Instance.grouped ((graph.children id).map fun child =>
      (Name.field (graph.tagOf child), graph.made schema child)) } := by
  rw [made, List.attach_map_val (f := fun child => (Name.field (graph.tagOf child), graph.made schema child))]

/-- The objects before the first in the order of building whose tag is not declared. -/
def buildable (graph : Graph) (schema : Schema) : List ObjectId :=
  graph.postOrder.takeWhile fun id => (schema.declaration? (graph.tagOf id)).isSome

def undeclaredObject? (graph : Graph) (schema : Schema) : Option ObjectId :=
  graph.postOrder.find? fun id => (schema.declaration? (graph.tagOf id)).isNone

/-- A graph in which some objects have their new instances, and all else is as it was. -/
def Rebuilt (schema : Schema) (start : Graph) (known : List ObjectId) (graph : Graph) : Prop :=
  ∀ id, graph.get? id = (start.get? id).map fun object =>
    if id ∈ known then { object with rendered := some (start.made schema id) } else object

namespace Rebuilt

theorem initial : Rebuilt schema start [] start := by
  intro id
  simp only [List.not_mem_nil, if_false, Option.map_id']

theorem store (rebuilt : Rebuilt schema start known graph) (id : ObjectId) :
    Rebuilt schema start (id :: known) (graph.setRendered id (some (start.made schema id))) := by
  intro other
  rw [get?_setRendered, rebuilt other, Option.map_map]
  congr 1
  funext object
  by_cases same : other = id
  · subst same
    by_cases member : other ∈ known
    · simp [member]
    · simp [member]
  · simp [same]

theorem get (rebuilt : Rebuilt schema start known graph) (found : start.get? id = some object) : ∃ rendered,
    graph.get? id = some { object with rendered } ∧ (id ∈ known → rendered = some (start.made schema id)) := by
  have stored := rebuilt id
  rw [found, Option.map_some] at stored
  by_cases member : id ∈ known
  · rw [if_pos member] at stored
    exact ⟨_, stored, fun _ => rfl⟩
  · rw [if_neg member] at stored
    exact ⟨object.rendered, stored, fun known => absurd known member⟩

theorem render (rebuilt : Rebuilt schema start known graph) (linked : start.Linked) {rendered : Option Instance}
    (found : start.get? id = some object) (ready : ∀ child ∈ start.children id, child ∈ known) {className : String}
    (named : schema.className object.tagName = .ok className) :
    graph.renderObject schema { object with rendered } = .ok (start.made schema id) := by
  have listed : start.children id = object.children.toList := by
    rw [children_eq, found, Option.map_some, Option.getD_some]
  have inner : ∀ child ∈ object.children.toList, ∃ inner, graph.get? child = some inner ∧
      inner.tagName = start.tagOf child ∧ inner.rendered = some (start.made schema child) := by
    intro child member
    rw [← listed] at member
    have inside := lt_of_parent? (linked.mem_children.mp member)
    have there : start.get? child = some start.objects[child] := Array.getElem?_eq_getElem inside
    obtain ⟨rendered, stored, new⟩ := rebuilt.get there
    exact ⟨_, stored, (tagOf_eq there).symm, new (ready child member)⟩
  refine (renderObject_eq named inner).trans ?_
  rw [made_eq, tagOf_eq found, named, listed, found]
  rfl

end Rebuilt

/-- Objects that come after their children and whose tags are declared get their new instances. -/
theorem buildEach_append (loaded : schema.Loaded) (linked : start.Linked) (rebuilt : Rebuilt schema start known graph)
    (ready : start.Ready known before)
    (declared : ∀ id ∈ before, id < start.size ∧ (schema.declaration? (start.tagOf id)).isSome) (rest : List ObjectId) :
    ∃ later, Rebuilt schema start (before.reverse ++ known) later ∧
      (graph.buildEach schema (before ++ rest)).graph = (later.buildEach schema rest).graph ∧
      (graph.buildEach schema (before ++ rest)).failure = (later.buildEach schema rest).failure := by
  induction before generalizing graph known with
  | nil => exact ⟨graph, rebuilt, rfl, rfl⟩
  | cons id before ih =>
    obtain ⟨⟨inside, known⟩, others⟩ := List.forall_mem_cons.mp declared
    obtain ⟨later, done, same, failure⟩ := ih (rebuilt.store id) ready.2 others
    refine ⟨later, by rwa [List.reverse_cons, List.append_assoc, List.singleton_append], ?_⟩
    have found : start.get? id = some start.objects[id] := Array.getElem?_eq_getElem inside
    obtain ⟨className, named⟩ := loaded.className_ok known
    obtain ⟨rendered, stored, _⟩ := rebuilt.get found
    rw [List.cons_append, buildEach, stored]
    simp only [rebuilt.render linked found ready.1 (tagOf_eq found ▸ named)]
    exact ⟨same, failure⟩

theorem buildEach_undeclared (rebuilt : Rebuilt schema start known graph) (inside : id < start.size)
    (undeclared : schema.declaration? (start.tagOf id) = none) (rest : List ObjectId) :
    (graph.buildEach schema (id :: rest)).graph = graph ∧
      (graph.buildEach schema (id :: rest)).failure = some (.undeclaredElement (start.tagOf id)) := by
  have found : start.get? id = some start.objects[id] := Array.getElem?_eq_getElem inside
  obtain ⟨rendered, stored, _⟩ := rebuilt.get found
  have failed : graph.renderObject schema { start.objects[id] with rendered } =
      .error (.undeclaredElement (start.tagOf id)) := by
    rw [renderObject, ← tagOf_eq found, Schema.className, undeclared]
    rfl
  rw [buildEach, stored]
  simp only [failed, and_self]

theorem Rebuilt.congr (rebuilt : Rebuilt schema start known graph) (same : ∀ id, id ∈ known ↔ id ∈ order) :
    Rebuilt schema start order graph := by
  intro id
  rw [rebuilt id]
  simp only [same]

/-- An order is cut at the first object whose tag is not declared. -/
theorem buildable_cases (graph : Graph) (schema : Schema) :
    graph.undeclaredObject? schema = none ∧ graph.buildable schema = graph.postOrder ∨
    ∃ id rest, graph.undeclaredObject? schema = some id ∧ schema.declaration? (graph.tagOf id) = none ∧
      graph.postOrder = graph.buildable schema ++ id :: rest := by
  cases first : graph.undeclaredObject? schema with
  | none =>
    refine Or.inl ⟨rfl, List.takeWhile_eq_self_iff.mpr fun id member => ?_⟩
    have declared := List.find?_eq_none.mp first id member
    simpa [Option.isSome_iff_ne_none] using declared
  | some id =>
    obtain ⟨undeclared, before, rest, listed, declared⟩ := List.find?_eq_some_iff_append.mp first
    rw [Option.isNone_iff_eq_none] at undeclared
    have all : ∀ id ∈ before, (schema.declaration? (graph.tagOf id)).isSome := by
      intro id member
      simpa [Option.isSome_iff_ne_none] using declared id member
    refine Or.inr ⟨id, rest, rfl, undeclared, ?_⟩
    rw [buildable, listed, List.takeWhile_append_of_pos all, List.takeWhile_cons_of_neg (by simp [undeclared]),
      List.append_nil]

theorem declared_of_mem_buildable (member : id ∈ graph.buildable schema) :
    (schema.declaration? (graph.tagOf id)).isSome := by
  rw [buildable] at member
  exact List.mem_takeWhile_imp (p := fun id => (schema.declaration? (graph.tagOf id)).isSome) member

theorem ready_buildable (graph : Graph) (schema : Schema) : graph.Ready [] (graph.buildable schema) := by
  have ready := graph.ready_postOrder
  rw [← List.takeWhile_append_dropWhile (p := fun id => (schema.declaration? (graph.tagOf id)).isSome)
    (l := graph.postOrder)] at ready
  exact ready.left

/-- What is built before the first object whose tag is not declared, and what becomes of that. -/
theorem build_rebuilt (loaded : schema.Loaded) (linked : graph.Linked) :
    Rebuilt schema graph (graph.buildable schema) (graph.build schema).graph ∧
      (graph.build schema).failure = (graph.undeclaredObject? schema).map fun id =>
        .undeclaredElement (graph.tagOf id) := by
  have inside : ∀ id ∈ graph.buildable schema, id < graph.size :=
    fun id member => linked.postOrder_lt id ((List.takeWhile_prefix _).subset member)
  obtain build := buildEach_append loaded linked .initial (graph.ready_buildable schema)
    fun id member => ⟨inside id member, declared_of_mem_buildable member⟩
  have kept {later : Graph} (rebuilt : Rebuilt schema graph ((graph.buildable schema).reverse ++ []) later) :
      Rebuilt schema graph (graph.buildable schema) later :=
    rebuilt.congr fun id => by rw [List.append_nil, List.mem_reverse]
  rw [Graph.build]
  rcases graph.buildable_cases schema with ⟨none, all⟩ | ⟨id, rest, first, undeclared, listed⟩
  · obtain ⟨later, rebuilt, same, failure⟩ := build []
    rw [List.append_nil, all] at same failure
    rw [same, failure, none]
    exact ⟨kept rebuilt, rfl⟩
  · obtain ⟨later, rebuilt, same, failure⟩ := build (id :: rest)
    rw [← listed] at same failure
    have there : id < graph.size := linked.postOrder_lt id (listed ▸ List.mem_append_right _ List.mem_cons_self)
    obtain ⟨unchanged, failed⟩ := buildEach_undeclared rebuilt there undeclared rest
    rw [same, failure, unchanged, failed, first]
    exact ⟨kept rebuilt, rfl⟩

/-- Graphs that differ in nothing but the instances that they hold. -/
def Alike (graph other : Graph) : Prop :=
  ∀ id, (graph.get? id).map ({ · with rendered := none }) = (other.get? id).map ({ · with rendered := none })

namespace Alike
variable (alike : graph.Alike other)
include alike

theorem read {α : Type} (f : Object → α) (blind : ∀ object rendered, f { object with rendered } = f object)
    (id : ObjectId) :
    (graph.get? id).map f = (other.get? id).map f := by
  have same := congrArg (Option.map f) (alike id)
  simpa only [Option.map_map, Function.comp_def, blind] using same

theorem children (id : ObjectId) : graph.children id = other.children id := by
  rw [children_eq, children_eq, alike.read (fun object => object.children.toList) fun _ _ => rfl]

theorem parent? (id : ObjectId) : graph.parent? id = other.parent? id := by
  have same := alike.read Object.parent (fun _ _ => rfl) id
  have join (graph : Graph) : graph.parent? id = ((graph.get? id).map Object.parent).join := by
    rw [Graph.parent?]
    cases graph.get? id <;> rfl
  rw [join, join, same]

theorem tagOf : graph.tagOf = other.tagOf := by
  funext id
  rw [Graph.tagOf, Graph.tagOf, alike.read Object.tagName fun _ _ => rfl]

theorem size : graph.size = other.size := by
  refine size_eq fun id => ?_
  have same := congrArg Option.isSome (alike id)
  rwa [Option.isSome_map, Option.isSome_map] at same

theorem linked (linked : graph.Linked) : other.Linked := by
  intro id
  rw [← alike.children, linked, alike.size]
  simp only [alike.parent?]

theorem root? : graph.root? = other.root? := by
  ext root
  rw [root?_eq_some_iff, root?_eq_some_iff, alike.size]
  simp only [alike.parent?]

theorem treeOrder (id : ObjectId) : graph.treeOrder id = other.treeOrder id := by
  rw [treeOrder_eq, treeOrder_eq, ← alike.children, List.flatMap_congr fun child member => treeOrder child]
termination_by graph.size - id
decreasing_by
  exact Nat.sub_lt_sub_left (lt_size_of_mem_children member) (lt_of_mem_children member)

theorem postOrder : graph.postOrder = other.postOrder := by
  cases first : graph.root? with
  | none => rw [Graph.postOrder, Graph.postOrder, ← alike.root?, first]
  | some root => rw [postOrder_eq first, postOrder_eq (alike.root? ▸ first), alike.treeOrder]

theorem made (schema : Schema) (id : ObjectId) : graph.made schema id = other.made schema id := by
  have attributes := alike.read Object.attributes (fun _ _ => rfl) id
  have content : (graph.get? id).bind Object.content = (other.get? id).bind Object.content := by
    have same := alike.read Object.content (fun _ _ => rfl) id
    have join (graph : Graph) : (graph.get? id).bind Object.content = ((graph.get? id).map Object.content).join := by
      cases graph.get? id <;> rfl
    rw [join, join, same]
  rw [made_eq, made_eq, ← alike.children, alike.tagOf, attributes, content]
  rw [List.map_congr_left fun child member => by rw [made schema child]]
termination_by graph.size - id
decreasing_by
  exact Nat.sub_lt_sub_left (lt_size_of_mem_children member) (lt_of_mem_children member)

theorem buildable (schema : Schema) : graph.buildable schema = other.buildable schema := by
  rw [Graph.buildable, Graph.buildable, alike.postOrder, alike.tagOf]

theorem undeclaredObject? (schema : Schema) : graph.undeclaredObject? schema = other.undeclaredObject? schema := by
  rw [Graph.undeclaredObject?, Graph.undeclaredObject?, alike.postOrder, alike.tagOf]

end Alike

theorem Rebuilt.alike (rebuilt : Rebuilt schema start known graph) : start.Alike graph := by
  intro id
  rw [rebuilt id, Option.map_map]
  congr 1
  funext object
  simp only [Function.comp_apply]
  split <;> rfl

theorem made_congr (ready : graph.Ready [] order)
    (same : ∀ id ∈ order, schema.className (graph.tagOf id) = further.className (graph.tagOf id)) :
    ∀ id ∈ order, graph.made schema id = graph.made further id := by
  refine ready.forall_mem (List.forall_mem_nil _) fun id member below => ?_
  rw [made_eq, made_eq, same id member, List.map_congr_left fun child member => by rw [below child member]]

theorem build_result (loaded : schema.Loaded) (linked : graph.Linked) (succeeds : (graph.build schema).failure = none) :
    graph.buildable schema = graph.postOrder ∧
    (graph.build schema).result = .ok (graph.root?.map (graph.made schema)) := by
  obtain ⟨rebuilt, failure⟩ := build_rebuilt loaded linked
  have all : graph.buildable schema = graph.postOrder := by
    rcases graph.buildable_cases schema with ⟨_, all⟩ | ⟨id, rest, first, _⟩
    · exact all
    · rw [failure, first] at succeeds
      cases succeeds
  refine ⟨all, ?_⟩
  rw [Building.result, succeeds, ← rebuilt.alike.root?]
  cases first : graph.root? with
  | none => rfl
  | some root =>
    have inside := (root?_eq_some_iff.mp first).1
    have found : graph.get? root = some graph.objects[root] := Array.getElem?_eq_getElem inside
    have member : root ∈ graph.buildable schema := by
      rw [all, postOrder_eq first, linked.mem_treeOrder]
      exact .refl
    obtain ⟨rendered, stored, new⟩ := rebuilt.get found
    have reached : ((graph.build schema).graph.get? root >>= Object.rendered) = some (graph.made schema root) := by
      rw [stored, new member]
      rfl
    exact congrArg Except.ok reached

/-- Building takes the objects of the tree up to the first whose tag is not declared, and what instances the graph held
before has no part in it. -/
structure BuildsAnew (schema : Schema) (graph : Graph) : Prop where
  succeeds : (graph.build schema).failure = none ↔ ∀ id ∈ graph.postOrder, (schema.declaration? (graph.tagOf id)).isSome
  result : (graph.build schema).failure = none →
    graph.buildable schema = graph.postOrder ∧ (graph.build schema).result = .ok (graph.root?.map (graph.made schema))
  failure : (graph.build schema).failure = (graph.undeclaredObject? schema).map fun id =>
    .undeclaredElement (graph.tagOf id)
  slots : ∀ id, (graph.build schema).graph.get? id = (graph.get? id).map fun object =>
    if id ∈ graph.buildable schema then { object with rendered := some (graph.made schema id) } else object
  stale : ∀ other, graph.Alike other → (other.build schema).result = (graph.build schema).result ∧
    ∀ id ∈ graph.buildable schema, (other.build schema).graph.get? id = (graph.build schema).graph.get? id
  complete : ∀ further : Schema, further.Loaded → (graph.build further).failure = none →
    (∀ id ∈ graph.buildable schema, schema.className (graph.tagOf id) = further.className (graph.tagOf id)) →
    ∀ id ∈ graph.buildable schema, (graph.build schema).graph.get? id = (graph.build further).graph.get? id

theorem builds_anew (loaded : schema.Loaded) (grown : graph.Grown) : graph.BuildsAnew schema := by
  have linked := grown.linked
  obtain ⟨rebuilt, failure⟩ := build_rebuilt loaded linked
  have cut := graph.buildable_cases schema
  refine ⟨?_, build_result loaded linked, failure, rebuilt, fun other alike => ?_,
    fun further known succeeds same id member => ?_⟩
  · rw [failure, Option.map_eq_none_iff]
    rcases cut with ⟨none, all⟩ | ⟨id, rest, first, undeclared, listed⟩
    · exact iff_of_true none fun id member => declared_of_mem_buildable (all ▸ member)
    · refine iff_of_false (by rw [first]; exact Option.some_ne_none id) fun declared => ?_
      have member : id ∈ graph.postOrder := listed ▸ List.mem_append_right _ List.mem_cons_self
      have known := declared id member
      rw [undeclared] at known
      cases known
  · have linked' := alike.linked linked
    obtain ⟨others, failed⟩ := build_rebuilt loaded linked'
    have new : other.made schema = graph.made schema := funext fun id => (alike.made schema id).symm
    have same : (other.build schema).failure = (graph.build schema).failure := by
      rw [failed, failure, alike.undeclaredObject?, alike.tagOf]
    refine ⟨?_, fun id member => ?_⟩
    · cases outcome : (graph.build schema).failure with
      | some error => rw [Building.result, Building.result, same, outcome]
      | none =>
        rw [(build_result loaded linked outcome).2, (build_result loaded linked' (same.trans outcome)).2, alike.root?,
          new]
    · rw [others id, rebuilt id, ← alike.buildable, new]
      simp only [if_pos member]
      exact (alike.read (fun object => { object with rendered := some (graph.made schema id) })
        (fun _ _ => rfl) id).symm
  · obtain ⟨completed, _⟩ := build_rebuilt known linked
    have all := (build_result known linked succeeds).1
    have there : id ∈ graph.buildable further := all ▸ (List.takeWhile_prefix _).subset member
    rw [rebuilt id, completed id, made_congr (graph.ready_buildable schema) same id member]
    simp only [if_pos member, if_pos there]

namespace Grown
variable (grown : graph.Grown)
include grown

theorem setContent (id : ObjectId) (content : Option String) : (graph.setContent id content).Grown :=
  grown.edit id ({ · with content }) (fun _ => rfl) fun _ => rfl

theorem setAttribute (id : ObjectId) (name value : String) : (graph.setAttribute id name value).Grown :=
  grown.edit id (fun object => { object with attributes := object.attributes.insert name value })
    (fun _ => rfl) fun _ => rfl

theorem setRendered (id : ObjectId) (rendered : Option Instance) : (graph.setRendered id rendered).Grown :=
  grown.edit id ({ · with rendered }) (fun _ => rfl) fun _ => rfl

end Grown

/-- A graph that holds old instances, with an object whose tag is not declared and one outside of the tree. -/
def interrupted : Graph :=
  let old : Instance := { className := "Old", tagName := "old" }
  let tree := ((nothing.add none "z").2.add (some 0) "b").2
  let whole := ((tree.add (some 0) "q").2.add none "a").2
  (((whole.setContent 1 (some "1")).setAttribute 0 "n" "2").setRendered 1 (some old)).setRendered 3 (some old)

theorem interrupted_grown : interrupted.Grown := by
  have root : (nothing.add none "z").2.Grown := .add .nothing (fun _ same => by cases same) _ _ _
  have first : ((nothing.add none "z").2.add (some 0) "b").2.Grown :=
    .add root (fun _ same => Option.some.inj same ▸ (by decide : 0 < 1)) _ _ _
  have tree : (((nothing.add none "z").2.add (some 0) "b").2.add (some 0) "q").2.Grown :=
    .add first (fun _ same => Option.some.inj same ▸ (by decide : 0 < 2)) _ _ _
  have whole := Grown.add tree (fun id (same : none = some id) => by cases same) "a" none []
  exact (((whole.setContent 1 (some "1")).setAttribute 0 "n" "2").setRendered 1 _).setRendered 3 _

theorem builds_anew_interrupted : Schema.entwined.Loaded ∧ interrupted.Grown ∧ interrupted.postOrder = [1, 2, 0] ∧
    interrupted.undeclaredObject? .entwined = some 2 ∧ interrupted.buildable .entwined = [1] ∧
      interrupted.BuildsAnew .entwined :=
  ⟨Schema.entwined_loaded, interrupted_grown, by cbv, by cbv, by cbv,
    builds_anew Schema.entwined_loaded interrupted_grown⟩

end SchemaClasses.Graph
