import SchemaClasses.Proofs.Document.Bounds
import SchemaClasses.Proofs.Schema.Slots

/-! Loading within limits. A schema that is loaded within some limits is the same within all others that its
document and its nodes keep to, and is refused by the rest. -/

namespace SchemaClasses

namespace Reading

section Counted
variable {limits granted : Limits} {α β : Type}

def outcome (steps : M α) (before : State) : Except Error (α × State) :=
  match steps.run before with
  | (.ok value, after) => .ok (value, after)
  | (.error error, _) => .error error

theorem outcome_ok {steps : M α} {before after : State} {value : α} :
    outcome steps before = .ok (value, after) ↔ Ends steps before value after := by
  rw [outcome, Ends]
  rcases steps.run before with ⟨error | found, middle⟩
  · constructor <;> intro same <;> cases same
  · constructor <;> intro same <;> cases same <;> rfl

theorem outcome_bind (first : M α) (rest : α → M β) (before : State) :
    outcome (first >>= rest) before = outcome first before >>= fun (value, middle) => outcome (rest value) middle := by
  rw [outcome, outcome, run_bind]
  rcases first.run before with ⟨_ | _, _⟩ <;> rfl

/-- Steps within two limits. Where the first end well the others end so too, unless there are more nodes then than their
limits allow. -/
def Counted (limits : Limits) (wide narrow : M α) : Prop :=
  ∀ before value after, Ends wide before value after → before.nodes.size ≤ after.nodes.size ∧
    (before.nodes.size ≤ limits.nodes →
    limits.Decides (after.nodes.size ≤ limits.nodes) (outcome narrow before) (value, after))

namespace Counted

theorem bind {wide narrow : M α} {rest rest' : α → M β} (one : Counted limits wide narrow)
    (two : ∀ value, Counted limits (rest value) (rest' value)) : Counted limits (wide >>= rest) (narrow >>= rest') := by
  intro before result after ends
  obtain ⟨value, middle, first, last⟩ := ends.bind
  obtain ⟨grows, decides⟩ := one before value middle first
  obtain ⟨grows', decides'⟩ := two value middle result after last
  refine ⟨Nat.le_trans grows grows', fun room => ?_⟩
  rw [outcome_bind]
  exact (decides room).bind decides' (Nat.le_trans grows')

theorem quiet {steps : M α} (still : ∀ before, (steps.run before).2.nodes.size = before.nodes.size) :
    Counted limits steps steps := by
  intro before value after ends
  have size : after.nodes.size = before.nodes.size := by
    have same := still before
    rw [show steps.run before = (.ok value, after) from ends] at same
    exact same
  exact ⟨Nat.le_of_eq size.symm, fun room => Or.inl ⟨size ▸ room, outcome_ok.mpr ends⟩⟩

theorem of_traces {steps : M α} (traces : Traces [] steps) : Counted limits steps steps := by
  apply quiet
  intro before
  obtain ⟨linked, begun, size, _⟩ := traces before
  obtain rfl := List.prefix_nil.mp begun
  exact size

theorem enter (parent : Option NodeId) (kind : Kind) (tree : Tree) :
    Counted limits (enter granted parent kind tree) (enter limits parent kind tree) := by
  intro before value after ends
  have run (limits : Limits) := enter_run limits parent kind tree before
  have size : after.nodes.size = before.nodes.size + 1 := by
    rw [(enter_ends ends).2, Array.size_push]
  refine ⟨Nat.le_of_lt (Nat.lt_of_lt_of_eq (Nat.lt_succ_self _) size.symm), fun _ => ?_⟩
  rw [size]
  rw [Ends, run granted] at ends
  rw [outcome, run limits]
  rcases Limits.Decides.check limits .nodes (before.nodes.size + 1) with ⟨fits, passed⟩ | ⟨beyond,
    error, refused, failed⟩
  · rw [passed]
    split at ends
    · cases ends
      exact Or.inl ⟨fits, rfl⟩
    · cases ends
  · rw [failed]
    exact Or.inr ⟨beyond, error, refused, rfl⟩

end Counted

theorem children_counted {own : Child} {steps : List Step}
    (inner : ∀ kind tree, .read kind tree ∈ steps → Counted limits (node granted (some own) kind tree)
      (node limits (some own) kind tree)) :
    Counted limits (steps.filterMapM (readStep granted own)) (steps.filterMapM (readStep limits own)) := by
  induction steps with
  | nil => exact .of_traces (.pure [])
  | cons step steps ih =>
    have rest := ih fun kind tree member => inner kind tree (List.mem_cons_of_mem _ member)
    rw [List.filterMapM_cons, List.filterMapM_cons]
    refine Counted.bind ?_ fun found => ?_
    · cases step with
      | skip notice => exact .of_traces ((Traces.report [notice]).bind fun _ => .pure none)
      | read kind tree => exact (inner kind tree List.mem_cons_self).bind fun _ => .of_traces (.pure _)
    · cases found with
      | none => exact rest
      | some child => exact rest.bind fun _ => .of_traces (.pure _)

theorem node_counted (parent : Option Child) (kind : Kind) (tree : Tree) :
    Counted limits (node granted parent kind tree) (node limits parent kind tree) := by
  rw [node_eq, node_eq]
  refine (Counted.enter _ kind tree).bind fun id => (Counted.of_traces (.lift _)).bind fun construct => ?_
  apply Counted.bind
  · exact children_counted fun childKind child listed => node_counted (some ⟨kind, id⟩) childKind child
  · intro children
    exact .of_traces ((Traces.report _).bind fun _ => (Traces.leave _ _ _).bind fun _ => .pure _)
termination_by sizeOf tree
decreasing_by exact Tree.sizeOf_lt_of_mem_children (mem_children_of_mem_steps listed)

theorem document_counted (source : Document) : Counted limits (document granted source) (document limits source) := by
  unfold document
  split
  · exact fun _ _ _ ends => by cases ends
  · next tree _ =>
    split
    · exact fun _ _ _ ends => by cases ends
    · refine (node_counted none .schema tree).bind fun root => .of_traces ?_
      exact Traces.bind (.quiet fun _ => ⟨rfl, rfl⟩) fun state => (Traces.report _).bind fun _ => .pure root

end Counted

end Reading

namespace Schema
variable {granted : Limits} {document : Document} {links : Reading.Links} {schema : Schema}

/-- What is loaded from a document within some limits is the same within others that its nodes keep to. -/
theorem load_decides (loaded : (load granted document links).result = .ok schema) (limits : Limits) :
    limits.Decides (schema.nodes.size ≤ limits.nodes) (load limits document links).result schema ∧
      (schema.nodes.size ≤ limits.nodes → load limits document links = load granted document links) := by
  unfold load at loaded ⊢
  rcases wide : (Reading.document granted document).run { links } with ⟨failed | root, state⟩
  · rw [wide] at loaded
    cases loaded
  · rw [wide] at loaded
    obtain rfl := Except.ok.inj loaded
    have size : (ofNodes state.nodes root).1.nodes.size = state.nodes.size := by simp [ofNodes, Nodes.resolve]
    have counted : Reading.Counted limits (Reading.document granted document) _ := Reading.document_counted document
    obtain ⟨_, decides⟩ := counted { links } root state wide
    rw [size]
    rcases decides (Nat.zero_le _) with ⟨fits, same⟩ | ⟨beyond, error, refused, failed⟩
    · rw [show (Reading.document limits document).run { links } = (.ok root, state) from Reading.outcome_ok.mp same]
      exact ⟨Or.inl ⟨fits, rfl⟩, fun _ => rfl⟩
    · refine ⟨Or.inr ⟨beyond, error, refused, ?_⟩, fun fits => absurd fits beyond⟩
      rw [Reading.outcome] at failed
      rcases narrow : (Reading.document limits document).run { links } with ⟨other | _, after⟩
      · rw [narrow] at failed
        cases failed
        rfl
      · rw [narrow] at failed
        cases failed

/-- What the limits allow of a text, the document it holds and the schema that is loaded from it. -/
structure Allowed (schema : Schema) (document : Document) (bytes : List UInt8) (limits : Limits) : Prop where
  size : bytes.length ≤ limits.size
  depth : ∀ index depth, document.Nested index depth → depth ≤ limits.depth
  attributes : ∀ element ∈ document.elements, element.attributes.length ≤ limits.attributes
  nodes : schema.nodes.size ≤ limits.nodes

theorem allowed_iff {bytes : List UInt8} {limits : Limits} : schema.Allowed document bytes limits ↔
    (bytes.length ≤ limits.size ∧ document.Fits limits) ∧ schema.nodes.size ≤ limits.nodes := by
  have stored : (∀ element ∈ document.elements, element.attributes.length ≤ limits.attributes) ↔
      ∀ attributes ∈ document.stored, attributes.length ≤ limits.attributes := by
    simp [Document.stored]
  constructor
  · rintro ⟨size, depth, attributes, nodes⟩
    exact ⟨⟨size, depth, stored.mp attributes⟩, nodes⟩
  · rintro ⟨⟨size, depth, attributes⟩, nodes⟩
    exact ⟨size, depth, stored.mpr attributes, nodes⟩

theorem result_ofBytes (limits : Limits) (bytes : List UInt8) :
    (ofBytes limits bytes).result = Document.read limits bytes >>= fun document =>
    (ofDocument limits document).result := by
  rw [ofBytes]
  cases Document.read limits bytes <;> rfl

/-- A text that is accepted within some limits is accepted within just those that it keeps to. They all give the
same schema, and the others refuse it for being beyond them. An element has as many attributes as its tag has
names for them. -/
theorem limits_exact {bytes : List UInt8} (accepted : (ofBytes granted bytes).result = .ok schema) :
    ∃ document, Document.read granted bytes = .ok document ∧
      document.elements.toList.map (·.attributes.length) =
        ((Xml.tokens bytes).filterMap Document.tagOf).map Document.nameCount ∧
      ∀ limits, ((ofBytes limits bytes).result.isOk ↔ schema.Allowed document bytes limits) ∧
        (schema.Allowed document bytes limits → ofBytes limits bytes = ofBytes granted bytes) ∧
        ∀ error, (ofBytes limits bytes).result = .error error → limits.Refuses error := by
  rcases read : Document.read granted bytes with failed | document
  · rw [ofBytes, read] at accepted
    cases accepted
  · rw [ofBytes, read] at accepted
    obtain ⟨counts, decides⟩ := Document.read_decides read
    refine ⟨document, rfl, by rwa [Document.stored, List.map_map] at counts, fun limits => ?_⟩
    obtain ⟨loads, same⟩ := load_decides accepted limits
    have all : schema.Allowed document bytes limits ↔
        (bytes.length ≤ limits.size ∧ document.Fits limits) ∧ schema.nodes.size ≤ limits.nodes := allowed_iff
    have whole : limits.Decides (schema.Allowed document bytes limits) (ofBytes limits bytes).result schema := by
      rw [result_ofBytes]
      exact (decides limits).bind (fun fits => loads.congr (by rw [all, and_iff_right fits])) fun allowed =>
        (all.mp allowed).1
    refine ⟨whole.isOk, fun allowed => ?_, fun error => whole.refused⟩
    obtain ⟨fits, room⟩ := all.mp allowed
    rw [ofBytes, ofBytes, (decides limits).ok fits, read]
    exact same room

/-- An element in the root, with one attribute stated twice. -/
def twiceNamed : List UInt8 :=
  Xml.ascii "<s:schema xmlns:s='u'><s:element name='a' s:name='b'/></s:schema>"

/-- No bound can be lower than those that it is accepted within. -/
theorem twiceNamed_limits_exact : ∃ schema, (ofBytes ⟨2, 66, 1, 2⟩ twiceNamed).result = .ok schema ∧
    ∃ document, Document.read ⟨2, 66, 1, 2⟩ twiceNamed = .ok document ∧
      document.elements.toList.map (·.attributes.length) =
        ((Xml.tokens twiceNamed).filterMap Document.tagOf).map Document.nameCount ∧
      ∀ limits, ((ofBytes limits twiceNamed).result.isOk ↔ schema.Allowed document twiceNamed limits) ∧
        (schema.Allowed document twiceNamed limits → ofBytes limits twiceNamed = ofBytes ⟨2, 66, 1, 2⟩ twiceNamed) ∧
        ∀ error, (ofBytes limits twiceNamed).result = .error error → limits.Refuses error := by
  have accepted : (ofBytes ⟨2, 66, 1, 2⟩ twiceNamed).result.isOk := by decide +kernel
  rcases outcome : (ofBytes ⟨2, 66, 1, 2⟩ twiceNamed).result with error | schema
  · rw [outcome] at accepted
    cases accepted
  · exact ⟨schema, rfl, limits_exact outcome⟩

end Schema

end SchemaClasses
