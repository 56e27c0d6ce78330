import SchemaClasses.Proofs.Schema.Arena
import SchemaClasses.Proofs.Schema.Selection

/-! Links from elements to nodes. Reading links the elements that it reads, one after the other, to the nodes with the
next numbers, and leaves all other links alone. What was linked before makes no difference to it. -/

namespace SchemaClasses.Reading

def Links.node? (links : Links) (index : Nat) : Option NodeId :=
  links[index]?.join

def linkAll : List Tree → NodeId → Links → Links
  | [], _, links => links
  | tree :: trees, id, links => linkAll trees (id + 1) (links.setIfInBounds tree.index (some id))

section LinkAll
variable {trees : List Tree} {id : NodeId} {links : Links} {index : Nat}

theorem linkAll_append (first last : List Tree) (id : NodeId) (links : Links) :
    linkAll (first ++ last) id links = linkAll last (id + first.length) (linkAll first id links) := by
  induction first generalizing id links with
  | nil => rfl
  | cons tree first ih =>
    rw [List.cons_append, linkAll, ih, List.length_cons, linkAll, Nat.add_assoc, Nat.add_comm 1]

theorem linkAll_size : (linkAll trees id links).size = links.size := by
  induction trees generalizing id links with
  | nil => rfl
  | cons tree trees ih => rw [linkAll, ih, Array.size_setIfInBounds]

theorem linkAll_other (other : index ∉ trees.map Tree.index) :
    (linkAll trees id links).node? index = links.node? index := by
  induction trees generalizing id links with
  | nil => rfl
  | cons tree trees ih =>
    rw [List.map_cons, List.mem_cons, not_or] at other
    rw [linkAll, ih other.2, Links.node?, Links.node?, Array.getElem?_setIfInBounds_ne (Ne.symm other.1)]

theorem linkAll_get (distinct : (trees.map Tree.index).Nodup) (inside : ∀ tree ∈ trees, tree.index < links.size)
    {place : Nat} {tree : Tree}
    (found : trees[place]? = some tree) : (linkAll trees id links).node? tree.index = some (id + place) := by
  induction trees generalizing id links place with
  | nil => cases found
  | cons first trees ih =>
    obtain ⟨new, distinct⟩ := List.nodup_cons.mp distinct
    have within := inside first List.mem_cons_self
    rw [linkAll]
    cases place with
    | zero =>
      obtain rfl : first = tree := by simpa using found
      rw [linkAll_other new, Links.node?, Array.getElem?_setIfInBounds_self_of_lt within]
      rfl
    | succ place =>
      have rest : ∀ tree ∈ trees, tree.index < (links.setIfInBounds first.index (some id)).size := by
        intro tree member
        rw [Array.size_setIfInBounds]
        exact inside tree (List.mem_cons_of_mem _ member)
      rw [ih distinct rest (by simpa using found), Nat.add_assoc, Nat.add_comm 1]

end LinkAll

theorem run_bind {α β : Type} (first : M α) (rest : α → M β) (before : State) :
    (first >>= rest).run before =
      match first.run before with
      | (.ok value, middle) => (rest value).run middle
      | (.error error, middle) => (.error error, middle) := by
  rw [ExceptT.run_bind]
  simp only [Bind.bind, StateT.bind]
  rcases first.run before with ⟨_ | _, _⟩ <;> rfl

theorem run_lift {α : Type} (value : Except Error α) (before : State) :
    (liftM value : M α).run before = (value, before) := by
  cases value <;> rfl

theorem enter_run (limits : Limits) (parent : Option NodeId) (kind : Kind) (tree : Tree) (before : State) :
    (enter limits parent kind tree).run before =
      match limits.check .nodes (before.nodes.size + 1) with
      | .ok _ => (.ok before.nodes.size, { before with
          nodes := before.nodes.push { label := tree.attribute? "id", parent, construct := .bare kind }
          links := before.links.setIfInBounds tree.index (some before.nodes.size) })
      | .error error => (.error error, before) := by
  unfold enter
  rw [run_bind]
  change (liftM (limits.check .nodes (before.nodes.size + 1)) >>= _ : M NodeId).run before = _
  rw [run_bind, run_lift]
  cases limits.check .nodes (before.nodes.size + 1) <;> rfl

section Traces
variable {α β : Type} {trees later : List Tree}

/-- Steps that link elements to new nodes, if they fail only the first few. -/
def Traces (trees : List Tree) (steps : M α) : Prop :=
  ∀ before, ∃ linked, linked <+: trees ∧ (steps.run before).2.nodes.size = before.nodes.size + linked.length ∧
    (steps.run before).2.links = linkAll linked before.nodes.size before.links ∧
    ∀ value, (steps.run before).1 = .ok value → linked = trees

namespace Traces

theorem quiet {steps : M α}
    (still : ∀ before, (steps.run before).2.nodes.size = before.nodes.size ∧
      (steps.run before).2.links = before.links) :
    Traces [] steps := by
  intro before
  obtain ⟨size, links⟩ := still before
  exact ⟨[], List.prefix_rfl, size, links, fun _ _ => rfl⟩

theorem bind {first : M α} {rest : α → M β} (one : Traces trees first) (other : ∀ value, Traces later (rest value)) :
    Traces (trees ++ later) (first >>= rest) := by
  intro before
  obtain ⟨linked, begun, size, links, whole⟩ := one before
  rw [run_bind]
  rcases outcome : first.run before with ⟨error | value, middle⟩
  · rw [outcome] at size links
    exact ⟨linked, begun.trans (List.prefix_append _ _), size, links, fun _ ok => by cases ok⟩
  · rw [outcome] at size links whole
    obtain rfl := whole value rfl
    obtain ⟨more, continued, size', links', whole'⟩ := other value middle
    refine ⟨linked ++ more, (List.prefix_append_right_inj _).mpr continued, ?_, ?_, fun value ok => ?_⟩
    · rw [size', size, List.length_append, Nat.add_assoc]
    · rw [links', links, size, linkAll_append]
    · rw [whole' value ok]

theorem bind_quiet {first : M α} {rest : α → M β} (one : Traces trees first) (other : ∀ value, Traces [] (rest value)) :
    Traces trees (first >>= rest) := by
  rw [← List.append_nil trees]
  exact one.bind other

theorem lift (value : Except Error α) : Traces [] (liftM value : M α) := by
  apply quiet
  intro before
  rw [run_lift]
  exact ⟨rfl, rfl⟩

theorem pure (value : α) : Traces [] (Pure.pure value : M α) :=
  quiet fun _ => ⟨rfl, rfl⟩

theorem report (notices : List Notice) : Traces [] (Reading.report notices) :=
  quiet fun _ => ⟨rfl, rfl⟩

theorem leave (id : NodeId) (construct : Construct) (children : List Child) :
    Traces [] (Reading.leave id construct children) :=
  quiet fun _ => ⟨Array.size_modify, rfl⟩

theorem enter (limits : Limits) (parent : Option NodeId) (kind : Kind) (tree : Tree) :
    Traces [tree] (enter limits parent kind tree) := by
  intro before
  rw [enter_run]
  cases limits.check .nodes (before.nodes.size + 1) with
  | error error => exact ⟨[], List.nil_prefix, rfl, rfl, fun _ ok => by cases ok⟩
  | ok _ => exact ⟨[tree], List.prefix_rfl, Array.size_push _, rfl, fun _ _ => rfl⟩

end Traces

theorem children_trace {limits : Limits} {own : Child} {steps : List Step}
    (inner : ∀ kind tree, .read kind tree ∈ steps →
      Traces ((reads (some own.kind) kind tree).map Prod.snd) (node limits (some own) kind tree)) :
    Traces ((steps.flatMap (Step.reads own.kind)).map Prod.snd) (steps.filterMapM (readStep limits own)) := by
  induction steps with
  | nil => exact .pure []
  | cons step steps ih =>
    have rest := ih fun kind tree member => inner kind tree (List.mem_cons_of_mem _ member)
    rw [List.filterMapM_cons, List.flatMap_cons, List.map_append]
    refine Traces.bind ?_ fun found => ?_
    · cases step with
      | skip notice => exact (Traces.report [notice]).bind fun _ => .pure none
      | read kind tree => exact (inner kind tree List.mem_cons_self).bind_quiet fun _ => .pure _
    · cases found with
      | none => exact rest
      | some child => exact rest.bind_quiet fun _ => .pure _

/-- A node and all inside of it are linked. -/
theorem node_trace (limits : Limits) (parent : Option Child) (kind : Kind) (tree : Tree) :
    Traces ((reads (parent.map Child.kind) kind tree).map Prod.snd) (node limits parent kind tree) := by
  rw [node_eq, reads_eq]
  refine (Traces.enter limits _ kind tree).bind fun id => ?_
  refine (Traces.lift _).bind fun construct => ?_
  apply Traces.bind_quiet
  · exact children_trace fun childKind child listed => node_trace limits (some ⟨kind, id⟩) childKind child
  · intro children
    exact (Traces.report _).bind fun _ => (Traces.leave _ _ _).bind fun _ => .pure _
termination_by sizeOf tree
decreasing_by exact Tree.sizeOf_lt_of_mem_children (mem_children_of_mem_steps listed)

theorem document_trace (limits : Limits) {source : Document} {tree : Tree} (found : source.tree? = some tree) :
    Traces ((reads none .schema tree).map Prod.snd) (document limits source) := by
  unfold document
  rw [found]
  dsimp only
  split
  · exact fun before => ⟨[], List.nil_prefix, rfl, rfl, fun _ ok => by cases ok⟩
  · refine (node_trace limits none .schema tree).bind_quiet fun root => ?_
    exact Traces.bind (.quiet fun _ => ⟨rfl, rfl⟩) fun state => (Traces.report _).bind fun _ => .pure root

end Traces

/-- The links that runs over a document leave, however they end. -/
inductive Left (source : Document) : Links → Prop where
  | fresh : Left source (Array.replicate source.size none)
  | run {links} (limits : Limits) (left : Left source links) :
      Left source ((document limits source).run { links }).2.links

namespace Left
variable {source : Document} {links : Links}

theorem size (left : Left source links) : links.size = source.size := by
  induction left with
  | fresh => exact Array.size_replicate
  | @run links limits left ih =>
    cases found : source.tree? with
    | none =>
      unfold document
      rw [found]
      exact ih
    | some tree =>
      obtain ⟨linked, _, _, same, _⟩ := document_trace limits found { links }
      rw [same, linkAll_size]
      exact ih

theorem read {tree : Tree} (found : source.tree? = some tree) (left : Left source links) {index : Nat} {id : NodeId}
    (linked : links.node? index = some id) : index ∈ ((reads none .schema tree).map Prod.snd).map Tree.index := by
  induction left generalizing id with
  | fresh =>
    rw [Links.node?, Array.getElem?_replicate] at linked
    split at linked <;> cases linked
  | @run links limits left ih =>
    obtain ⟨trees, begun, _, same, _⟩ := document_trace limits found { links }
    rw [same] at linked
    by_contra other
    have outside : index ∉ trees.map Tree.index := fun member => other ((begun.map _).subset member)
    rw [linkAll_other outside] at linked
    exact other (ih linked)

end Left

/-- A property that steps have whenever the steps that they consist of do. Of the notices that may be reported
it can ask something of its own. -/
structure Closed (told : Notice → Prop) (holds : ∀ {α : Type}, M α → Prop) : Prop where
  bind : ∀ {α β : Type} {first : M α} {rest : α → M β}, holds first → (∀ value, holds (rest value)) →
    holds (first >>= rest)
  pure : ∀ {α : Type} (value : α), holds (Pure.pure value)
  lift : ∀ {α : Type} (value : Except Error α), holds (liftM value)
  enter : ∀ limits parent kind tree, holds (enter limits parent kind tree)
  report : ∀ {notices}, (∀ notice ∈ notices, told notice) → holds (report notices)
  leave : ∀ id construct children, holds (leave id construct children)
  skipped : ∀ {parent kind tree notice}, .skip notice ∈ steps parent kind tree → told notice
  stated : ∀ {tree parent construct}, ∀ notice ∈ (withFacets tree parent construct).2, told notice

namespace Closed
variable {told : Notice → Prop} {holds : ∀ {α : Type}, M α → Prop} (closed : Closed told holds)
include closed

theorem children_hold {limits : Limits} {own : Child} {steps : List Step}
    (skips : ∀ notice, .skip notice ∈ steps → told notice)
    (inner : ∀ kind tree, .read kind tree ∈ steps → holds (node limits (some own) kind tree)) :
    holds (steps.filterMapM (readStep limits own)) := by
  induction steps with
  | nil => exact closed.pure []
  | cons step steps ih =>
    have rest := ih (fun notice member => skips notice (List.mem_cons_of_mem _ member))
      fun kind tree member => inner kind tree (List.mem_cons_of_mem _ member)
    rw [List.filterMapM_cons]
    refine closed.bind ?_ fun found => ?_
    · cases step with
      | skip notice =>
        have reported := closed.report (List.forall_mem_singleton.mpr (skips notice List.mem_cons_self))
        exact closed.bind reported fun _ => closed.pure none
      | read kind tree => exact closed.bind (inner kind tree List.mem_cons_self) fun _ => closed.pure _
    · cases found with
      | none => exact rest
      | some child => exact closed.bind rest fun _ => closed.pure _

theorem node_holds (limits : Limits) (parent : Option Child) (kind : Kind) (tree : Tree) :
    holds (node limits parent kind tree) := by
  rw [node_eq]
  refine closed.bind (closed.enter limits _ kind tree) fun id => closed.bind (closed.lift _) fun construct => ?_
  apply closed.bind
  · exact closed.children_hold (fun _ => closed.skipped) fun childKind child listed =>
      node_holds limits (some ⟨kind, id⟩) childKind child
  · intro children
    exact closed.bind (closed.report closed.stated) fun _ => closed.bind (closed.leave _ _ _) fun _ => closed.pure _
termination_by sizeOf tree
decreasing_by exact Tree.sizeOf_lt_of_mem_children (mem_children_of_mem_steps listed)

end Closed

section Blind
variable {α β : Type}

/-- States that differ at most in their links. -/
structure Alike (first second : State) : Prop where
  nodes : first.nodes = second.nodes
  notices : first.notices = second.notices

/-- Steps that do not look at links. -/
def Blind (steps : M α) : Prop :=
  ∀ first second, Alike first second →
    (steps.run first).1 = (steps.run second).1 ∧ Alike (steps.run first).2 (steps.run second).2

namespace Blind

theorem bind {first : M α} {rest : α → M β} (one : Blind first) (other : ∀ value, Blind (rest value)) :
    Blind (first >>= rest) := by
  intro left right alike
  obtain ⟨same, later⟩ := one left right alike
  rw [run_bind, run_bind]
  rcases outcome : first.run left with ⟨error | value, left'⟩ <;>
    rcases outcome' : first.run right with ⟨error' | value', right'⟩ <;> rw [outcome, outcome']
      at same later <;> cases same
  · exact ⟨rfl, later⟩
  · exact other value left' right' later

theorem pure (value : α) : Blind (Pure.pure value : M α) :=
  fun _ _ alike => ⟨rfl, alike⟩

theorem lift (value : Except Error α) : Blind (liftM value : M α) := by
  intro left right alike
  rw [run_lift, run_lift]
  exact ⟨rfl, alike⟩

theorem modify {change : State → State}
    (same : ∀ first second, Alike first second → Alike (change first) (change second)) :
    Blind (modify change : M PUnit) :=
  fun left right alike => ⟨rfl, same left right alike⟩

theorem report (notices : List Notice) : Blind (Reading.report notices) :=
  modify fun _ _ alike => ⟨alike.nodes, congrArg (· ++ notices) alike.notices⟩

theorem leave (id : NodeId) (construct : Construct) (children : List Child) :
    Blind (Reading.leave id construct children) :=
  modify fun _ _ alike => ⟨by simp only [alike.nodes], alike.notices⟩

theorem enter (limits : Limits) (parent : Option NodeId) (kind : Kind) (tree : Tree) :
    Blind (enter limits parent kind tree) := by
  intro left right alike
  rw [enter_run, enter_run, alike.nodes]
  cases limits.check .nodes (right.nodes.size + 1) with
  | error error => exact ⟨rfl, alike⟩
  | ok _ => exact ⟨rfl, rfl, alike.notices⟩

end Blind

theorem blind_closed : Closed (fun _ => True) Blind where
  bind := Blind.bind
  pure := Blind.pure
  lift := Blind.lift
  enter := Blind.enter
  report _ := Blind.report _
  leave := Blind.leave
  skipped _ := trivial
  stated _ _ := trivial

/-- What was linked before a run over a document has no influence on what it reads. -/
theorem document_blind (limits : Limits) (source : Document) : Blind (document limits source) := by
  intro left right alike
  unfold document
  split
  · exact ⟨rfl, alike⟩
  · next tree _ =>
    split
    · exact ⟨rfl, alike⟩
    · refine Blind.bind (blind_closed.node_holds limits none .schema tree) (fun root => ?_) left right alike
      intro left right alike
      have notices : left.notices ++ [.schemaParsed left.nodes.size] = right.notices ++
          [.schemaParsed right.nodes.size] := by
        rw [alike.nodes, alike.notices]
      exact ⟨rfl, alike.nodes, notices⟩

end Blind

end SchemaClasses.Reading
