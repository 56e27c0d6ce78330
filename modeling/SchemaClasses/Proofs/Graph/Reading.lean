import SchemaClasses.Graph.Reading
import SchemaClasses.Proofs.Document.Trees

/-! The graph of a document has an object for each element under the number of the element. -/

namespace SchemaClasses

/-- What becomes of an element. Its text counts only if there are no elements inside of it. -/
def Object.ofElement (element : Element) : Object where
  tagName := element.name
  content := if element.children.isEmpty then element.text else none
  attributes := element.attributes
  children := element.children
  parent := element.parent

namespace Graph
variable {document : Document} {graph : Graph} {tree : Tree} {id : ObjectId}

theorem size_adopt {parent : Option ObjectId} : (graph.adopt parent).size = graph.size := by
  unfold adopt
  split
  · rfl
  · split
    · exact Array.size_modify
    · rfl

theorem get?_adopt_none : (graph.adopt none).get? id = graph.get? id := rfl

theorem get?_adopt_some {parent : ObjectId} (inside : parent < graph.size) : (graph.adopt (some parent)).get? id =
    (graph.get? id).map fun object =>
      if id = parent then { object with children := object.children.push graph.size } else object := by
  rw [adopt, dif_pos inside, get?, Array.getElem?_modify]
  split
  · next same => simp [same, get?]
  · next other => simp [Ne.symm other, get?]

theorem get?_add {parent : Option ObjectId} {tagName : String} {content : Option String} {attributes : Entries String} :
    (graph.add parent tagName content attributes).2.get? id =
      if id = graph.size then some { tagName, content, attributes, parent } else (graph.adopt parent).get? id := by
  have last : (graph.adopt parent).objects.size = graph.size := size_adopt
  rw [add, get?, Array.getElem?_push, last]
  rfl

theorem size_add {parent : Option ObjectId} {tagName : String} {content : Option String} {attributes : Entries String} :
    (graph.add parent tagName content attributes).2.size = graph.size + 1 := by
  have last : (graph.adopt parent).objects.size = graph.size := size_adopt
  rw [add, size, Array.size_push, last]

/-- Objects that are there, one of which has more children, and those of so many further elements. -/
structure Fills (document : Document) (graph later : Graph) (outer : Option ObjectId) (ids : List ObjectId)
    (count : Nat) : Prop where
  size : later.size = graph.size + count
  old : ∀ id < graph.size, later.get? id = (graph.get? id).map fun object =>
    if outer = some id then { object with children := object.children ++ ids.toArray } else object
  new : ∀ id, graph.size ≤ id → id < graph.size + count → later.get? id = document.elements[id]?.map Object.ofElement

namespace Fills
variable {middle later : Graph} {outer : Option ObjectId} {parent : ObjectId} {first rest : List ObjectId}
  {count more : Nat}

theorem trans (fills : Fills document graph middle (some parent) first count)
    (further : Fills document middle later (some parent) rest more) (inside : parent < graph.size) :
    Fills document graph later (some parent) (first ++ rest) (count + more) where
  size := by rw [further.size, fills.size, Nat.add_assoc]
  old id there := by
    rw [further.old id (fills.size ▸ Nat.lt_add_right _ there), fills.old id there, Option.map_map]
    congr 1
    funext object
    by_cases same : some parent = some id
    · simp [same]
    · simp [same]
  new id after before := by
    rcases Nat.lt_or_ge id middle.size with there | new
    · have other : some parent ≠ some id := fun same => Nat.not_lt.mpr after (Option.some.inj same ▸ inside)
      rw [further.old id there, fills.new id after (fills.size ▸ there)]
      simp only [if_neg other, Option.map_id']
    · exact further.new id new (by rw [fills.size]; omega)

theorem add {element : Element} {ids : List ObjectId}
    (fills : Fills document (graph.add element.parent element.name (if ids.isEmpty then element.text else none)
      element.attributes).2
      later (some graph.size) ids count)
    (found : document.elements[graph.size]? = some element) (listed : ids = element.children.toList)
    (inside : ∀ parent, element.parent = some parent → parent < graph.size) :
    Fills document graph later element.parent [graph.size] (count + 1) where
  size := by rw [fills.size, size_add, Nat.add_assoc, Nat.add_comm 1]
  old id there := by
    have other : some graph.size ≠ some id := fun same => Nat.ne_of_gt there (Option.some.inj same)
    rw [fills.old id (by rw [size_add]; omega), get?_add, if_neg (Nat.ne_of_lt there)]
    simp only [if_neg other, Option.map_id']
    cases outer : element.parent with
    | none => simp [get?_adopt_none]
    | some parent =>
      rw [get?_adopt_some (inside parent outer)]
      simp [eq_comm]
  new id after before := by
    rcases Nat.eq_or_lt_of_le after with rfl | behind
    · rw [fills.old _ (by rw [size_add]; omega), get?_add, if_pos rfl, found]
      simp [Object.ofElement, listed]
    · exact fills.new id (by rw [size_add]; exact behind) (by rw [size_add]; omega)

end Fills

/-- Trees one after the other, each of which is numbered from the size of the graph on. -/
theorem addTrees_fills {parent : ObjectId} {trees : List Tree}
    (each : ∀ tree ∈ trees, ∀ graph : Graph, graph.size = tree.index → parent < graph.size →
      Fills document graph (graph.addTree (some parent) tree) (some parent) [graph.size] tree.parts.length)
    (inside : parent < graph.size)
    (numbers : (trees.flatMap Tree.parts).map Tree.index = List.range' graph.size (trees.flatMap Tree.parts).length) :
    Fills document graph (graph.addTrees parent trees) (some parent) (trees.map Tree.index)
    (trees.flatMap Tree.parts).length := by
  induction trees generalizing graph with
  | nil =>
    rw [addTrees]
    exact { size := rfl, old := fun id _ => by simp, new := fun id after before =>
      absurd before (Nat.not_lt.mpr after) }
  | cons tree trees ih =>
    rw [List.flatMap_cons, List.map_append, List.length_append, ← List.range'_append_1] at numbers
    obtain ⟨own, further⟩ := List.append_inj numbers (by rw [List.length_map, List.length_range'])
    have start : graph.size = tree.index := by
      rw [Tree.parts_eq, List.map_cons, List.length_cons, List.range'_succ] at own
      exact (List.cons.inj own).1.symm
    have first := each tree List.mem_cons_self graph start inside
    rw [addTrees, List.flatMap_cons, List.length_append]
    have within : parent < (graph.addTree (some parent) tree).size := by
      rw [first.size]
      exact Nat.lt_add_right _ inside
    have rest := ih (fun tree member => each tree (List.mem_cons_of_mem _ member)) within
      (by rw [first.size]; exact further)
    rw [List.map_cons, ← start]
    exact first.trans rest inside

theorem addTree_fills (formed : document.Formed) (holds : document.Holds tree) :
    ∀ graph : Graph, graph.size = tree.index →
    (∀ parent, tree.element.parent = some parent → parent < graph.size) →
      Fills document graph (graph.addTree tree.element.parent tree) tree.element.parent
      [graph.size] tree.parts.length := by
  induction holds with
  | @node index element children found listed below ih =>
    intro graph start inside
    obtain rfl : graph.size = index := start
    have numbers := Document.Holds.parts_range formed (.node found listed below)
    rw [Tree.parts_eq, List.map_cons, List.length_cons, List.range'_succ] at numbers
    rw [Tree.parts_eq, List.length_cons, addTree]
    apply Fills.add _ found listed inside
    rw [List.isEmpty_map]
    have each : ∀ tree ∈ children, ∀ later : Graph, later.size = tree.index → graph.size < later.size →
        Fills document later (later.addTree (some graph.size) tree) (some graph.size)
            [later.size] tree.parts.length := by
      intro tree member later start inside
      have stands := (formed.mem_children found).mp (listed ▸ List.mem_map_of_mem member)
      have outer : tree.element.parent = some graph.size := (below tree member).parent?.symm.trans stands
      rw [← outer]
      apply ih tree member later start
      intro parent same
      rw [outer] at same
      cases same
      exact inside
    exact addTrees_fills each (by rw [size_add]; exact Nat.lt_succ_self _)
      (by rw [size_add]; exact (List.cons.inj numbers).2)

theorem ofTree_objects (formed : document.Formed) (holds : document.Holds tree) (root : tree.index = 0) :
    (ofTree tree).objects = document.elements.map Object.ofElement := by
  have top := holds.root_parent formed root
  have fills := addTree_fills formed holds {} root.symm (by simp [top])
  have count : tree.parts.length = document.size := by
    rw [← List.length_map Tree.index, holds.parts_root formed root, List.length_range]
  rw [top] at fills
  apply Array.ext_getElem?
  intro id
  rw [Array.getElem?_map]
  have size : (ofTree tree).size = document.size := (fills.size.trans (Nat.zero_add _)).trans count
  rcases Nat.lt_or_ge id document.size with inside | outside
  · exact fills.new id (Nat.zero_le _) (Nat.lt_of_lt_of_eq inside (count.symm.trans (Nat.zero_add _).symm))
  · rw [Array.getElem?_eq_none (Nat.le_trans (Nat.le_of_eq size) outside), Array.getElem?_eq_none outside]
    rfl

theorem undeclared?_eq (formed : document.Formed) (schema : Schema) (holds : document.Holds tree)
    (root : tree.index = 0) :
    undeclared? schema tree = (document.elements.toList.map Element.name).find? fun tag =>
    (schema.declaration? tag).isNone := by
  rw [← holds.elements_root formed root, Tree.parts, undeclared?, List.map_map, List.map_map]
  rfl

end Graph

end SchemaClasses
