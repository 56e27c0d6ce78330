import SchemaClasses.Proofs.Derivation.Ledger
import SchemaClasses.Proofs.Derivation.Options
import SchemaClasses.Proofs.Schema.Places

/-! Which nodes have a builder together. Whatever is asked for first, a node has the builder that was made for
it, or that of a node that it refers to or that it fills the builder of. So besides a type without a base, no
node with the builder of the type has content of its own. -/

namespace SchemaClasses

/-- A node may have the builder that was made for an origin. Which of several it has depends on what is asked
for first. -/
inductive Nodes.Lodges (nodes : Nodes) : NodeId → Origin → Prop where
  | own {id} : Lodges nodes id (.own id)
  | shared {id referenced origin} (plan : nodes.plan id = .share referenced) (lodges : Lodges nodes referenced origin) :
      Lodges nodes id origin
  | inside {id outer notices entries origin} (embeds : nodes.Embeds outer id)
      (plan : nodes.plan outer = .build notices none entries)
        (lodges : Lodges nodes outer origin) : Lodges nodes id origin
  | item {id outer notices name entries} (embeds : nodes.Embeds outer id)
      (plan : nodes.plan outer = .build notices (some name) entries) : Lodges nodes id (.item outer)

/-- What a task writes into is a builder that the nodes it is about may have. -/
def Task.Lodged (nodes : Nodes) (ledger : List Origin) : Task → Prop
  | .derive id (some builder) => ∃ origin, nodes.Lodges id origin ∧ ledger[builder]? = some origin
  | .entry id builder _ | .entries id builder _ =>
    ∃ origin, (∀ inner, nodes.Embeds id inner → nodes.Lodges inner origin) ∧ ledger[builder]? = some origin
  | .derive _ none | .expand .. | .part .. | .parts .. => True

namespace Task.Lodged
variable {nodes : Nodes} {ledger made : List Origin} {task : Task}

theorem inside (lodged : task.Lodged nodes ledger) {size : Nat} (length : ledger.length = size) (builder : BuilderId)
    (target : task.target? = some builder) : builder < size := by
  cases task with
  | derive id other =>
    cases target
    obtain ⟨_, _, found⟩ := lodged
    exact Origin.inside length found
  | entry | entries =>
    cases target
    obtain ⟨_, _, found⟩ := lodged
    exact Origin.inside length found
  | expand | part | parts => cases target

theorem kept (lodged : task.Lodged nodes ledger) : task.Lodged nodes (ledger ++ made) := by
  cases task with
  | derive id target =>
    cases target with
    | none => exact trivial
    | some builder =>
      obtain ⟨origin, lodges, found⟩ := lodged
      exact ⟨origin, lodges, Origin.kept found⟩
  | entry | entries =>
    obtain ⟨origin, lodges, found⟩ := lodged
    exact ⟨origin, lodges, Origin.kept found⟩
  | expand | part | parts => exact trivial

end Task.Lodged

theorem Task.Asked.lodged {nodes : Nodes} {ledger : List Origin} {task : Task} (asked : task.Asked) :
    task.Lodged nodes ledger := by
  cases task with
  | derive id target => cases target <;> [trivial; exact asked.elim]
  | expand => trivial
  | entry | entries | part | parts => exact asked.elim

/-- Every node with a builder may have it, by the origins of all builders in order. -/
structure Stage.Lodged (nodes : Nodes) (stage : Stage) (ledger : List Origin) : Prop where
  length : ledger.length = stage.size
  lodges : ∀ id builder, stage.memo id = some builder → ∃ origin, nodes.Lodges id origin ∧
    ledger[builder]? = some origin

namespace Stage.Lodged
variable {nodes : Nodes} {stage later : Stage} {ledger made : List Origin}

theorem empty : Lodged nodes { builders := {}, memo := fun _ => none } [] where
  length := rfl
  lodges _ _ found := nomatch found

theorem grow (lodged : stage.Lodged nodes ledger) (size : later.size = stage.size + made.length)
    (memo : later.memo = stage.memo) :
    later.Lodged nodes (ledger ++ made) where
  length := by rw [List.length_append, lodged.length, size]
  lodges id builder known := by
    obtain ⟨origin, lodges, found⟩ := lodged.lodges id builder (memo ▸ known)
    exact ⟨origin, lodges, Origin.kept found⟩

theorem same (lodged : stage.Lodged nodes ledger) (size : later.size = stage.size) (memo : later.memo = stage.memo) :
    later.Lodged nodes ledger := by
  have grown : later.Lodged nodes (ledger ++ []) := lodged.grow size memo
  rwa [List.append_nil] at grown

theorem remember (lodged : stage.Lodged nodes ledger) {id : NodeId} {builder : BuilderId} {origin : Origin}
    (lodges : nodes.Lodges id origin) (found : ledger[builder]? = some origin) :
    (stage.remember id builder).Lodged nodes ledger where
  length := lodged.length
  lodges other known member := by
    by_cases same : other = id
    · subst same
      simp only [Stage.remember, Function.update_self, Option.some.injEq] at member
      exact ⟨origin, lodges, member ▸ found⟩
    · simp only [Stage.remember, Function.update_of_ne same] at member
      exact lodged.lodges other known member

/-- When the entries of a node are to be written, the nodes inside of it may have the builder that is filled. -/
theorem opened (lodged : stage.Lodged nodes ledger) {id : NodeId} {target : Option BuilderId}
    {notices : BuilderId → List Notice} {wrapped : Option (Option String)} {entries : List Entry}
    {builder filled : BuilderId} {opened : Stage} (plan : nodes.plan id = .build notices wrapped entries)
    (placed : (Task.derive id target).Lodged nodes ledger)
    (memo : opened.memo = Function.update stage.memo id (some builder))
    (opens : Opening stage id target wrapped builder filled opened) :
    opened.Lodged nodes (ledger ++ (startOrigins id target ++ unwrapOrigins id wrapped)) ∧
      (Task.entries id filled entries).Lodged nodes
      (ledger ++ (startOrigins id target ++ unwrapOrigins id wrapped)) := by
  obtain ⟨start, fill⟩ := opens.places lodged.length
  have own : ∃ origin, nodes.Lodges id origin ∧
      (ledger ++ (startOrigins id target ++ unwrapOrigins id wrapped))[builder]? = some origin := by
    rcases start with rfl | ⟨rfl, place⟩
    · obtain ⟨origin, lodges, found⟩ := placed
      exact ⟨origin, lodges, Origin.kept found⟩
    · exact ⟨_, .own, place⟩
  obtain ⟨origin, lodges, found⟩ := own
  constructor
  · refine ⟨by rw [List.length_append, lodged.length, opens.grows.size], fun other known member => ?_⟩
    by_cases same : other = id
    · subst same
      rw [memo, Function.update_self] at member
      cases member
      exact ⟨origin, lodges, found⟩
    · rw [memo, Function.update_of_ne same] at member
      obtain ⟨origin, lodges, found⟩ := lodged.lodges other known member
      exact ⟨origin, lodges, Origin.kept found⟩
  · rcases fill with ⟨rfl, rfl⟩ | ⟨⟨name, rfl⟩, place⟩
    · exact ⟨origin, fun inner embeds => .inside embeds plan lodges, found⟩
    · exact ⟨.item id, fun inner embeds => .item embeds plan, place⟩

end Stage.Lodged

/-- A run gives nodes no other builders than those that they may have. -/
theorem Run.lodged {nodes : Nodes} {busy : List BuilderId} {task : Task} {stage later : Stage} {outcome : Expansion}
    {made : List Origin} (run : Run nodes busy task stage outcome later made) {ledger : List Origin}
    (whole : stage.Whole) (lodged : stage.Lodged nodes ledger) (placed : task.Lodged nodes ledger) :
    later.Lodged nodes (ledger ++ made) := by
  induction run generalizing ledger with
  | known | finished | cut | unresolved | empty =>
    rw [List.append_nil]
    exact lodged
  | shared new plan run ih =>
    have lodged := ih whole lodged trivial
    obtain ⟨_, ⟨⟩, found⟩ := run.answer
    obtain ⟨origin, lodges, stands⟩ := lodged.lodges _ _ found
    exact lodged.remember (.shared plan lodges) stands
  | opened new plan start unwrap run ih =>
    have opens := Stage.opening whole (placed.inside lodged.length) start unwrap
    obtain ⟨opened, fills⟩ := lodged.opened plan placed (Stage.opened_memo start unwrap) opens
    rw [← List.append_assoc ledger]
    exact ih opens.grows.whole opened fills
  | @written busy id builder entry stage later written =>
    have grows : Stage.Growth stage later (some builder) (entry.origins id) :=
      Stage.growth_write whole (placed.inside lodged.length _ rfl) written
    exact lodged.grow grows.size (Stage.write_memo written)
  | ask listed run ih => exact (ih whole lodged trivial).same Builders.size_modify rfl
  | append listed run ih => exact (ih whole lodged trivial).same Builders.size_modify rfl
  | embed listed run ih =>
    obtain ⟨origin, inner, found⟩ := placed
    exact ih whole lodged ⟨origin, inner _ listed, found⟩
  | next run remaining ih rest =>
    have grows := run.growth whole (Task.Lodged.inside placed lodged.length)
    rw [← List.append_assoc]
    exact rest grows.whole (ih whole lodged placed) (Task.Lodged.kept placed)
  | expanded outside run ih | leaf isGroup listed run ih | group listed run ih => exact ih whole lodged trivial
  | more run remaining ih rest =>
    have grows := run.growth whole Stage.nowhere
    rw [← List.append_assoc]
    exact rest grows.whole (ih whole lodged trivial) trivial

theorem Answered.lodged {nodes : Nodes} (formed : nodes.Formed) {stage : Stage} {ledger : List Origin}
    (answered : Answered nodes stage ledger) : stage.Lodged nodes ledger := by
  induction answered with
  | start => exact .empty
  | more answered run asked ih => exact run.lodged (answered.settled formed).whole ih asked.lodged

namespace Reading
variable {parent : Option Kind} {kind : Kind}

theorem inner_of_element (place : kind ∈ places parent .element) : kind = .simpleType ∨ kind = .complexType := by
  simpa [places, slots, Slot.kind] using place

theorem inner_of_complexType (place : kind ∈ places parent .complexType) (inner : kind.isInner) :
    kind = .simpleContent ∨ kind = .complexContent := by
  simp only [places, slots, modelSlots, attributeSlots] at place
  cases kind <;> simp_all [Slot.kind, Kind.isInner]

theorem inner_of_simpleType (place : kind ∈ places parent .simpleType) (inner : kind.isInner) :
    kind = .restriction ∨ kind = .list := by
  simp only [places, slots] at place
  cases kind <;> simp_all [Slot.kind, Kind.isInner]

end Reading

namespace Nodes

/-- The nodes that may have the builder of a type without a base. -/
inductive Companion (nodes : Nodes) (type : NodeId) : NodeId → Prop where
  | self : Companion nodes type type
  | outer {outer} (embeds : nodes.Embeds outer type) : Companion nodes type outer
  | use {id referenced} (plan : nodes.plan id = .share referenced) : Companion nodes type id
  | simpleType {id} (kind : nodes.kindOf id = .simpleType) : Companion nodes type id
  | list {id} (kind : nodes.kindOf id = .list) : Companion nodes type id
  | restriction {id outer} (kind : nodes.kindOf id = .restriction) (parent : (nodes.get id).parent = some outer)
      (simple : nodes.kindOf outer = .simpleType) : Companion nodes type id

/-- A type that declares all of its content itself. -/
structure Baseless (nodes : Nodes) (type : NodeId) : Prop where
  kind : nodes.kindOf type = .complexType
  plain : ∀ child ∈ (nodes.get type).children, child.kind ≠ .simpleContent ∧ child.kind ≠ .complexContent

variable {nodes : Nodes} {type id : NodeId} {origin : Origin}

theorem contentChoices_nil (plain : (nodes.kindOf id).isGroup = false)
    (none : ∀ child ∈ (nodes.get id).children, child.kind.isGroup = false) : nodes.contentChoices id = [] := by
  refine List.flatMap_eq_nil_iff.mpr fun entry listed => ?_
  cases entry with
  | append group =>
    rcases append_cases listed with ⟨kind, isGroup, member⟩ | ⟨_, isGroup⟩
    · rw [none _ (mem_childrenOf.mp member)] at isGroup
      cases isGroup
    · rw [plain] at isGroup
      cases isGroup
  | _ => rfl

/-- A type has a builder of its own, or that of the element that it stands in. -/
theorem Baseless.lodges (baseless : nodes.Baseless type) (formed : nodes.Formed) (lodges : nodes.Lodges type origin) :
    origin = .own type ∨ ∃ outer, nodes.Embeds outer type ∧ (origin = .own outer ∨ origin = .item outer) := by
  have plan : nodes.plan type = .build (nodes.derivationNotices type) none (nodes.entries type) :=
    plan_of_inner (by rw [baseless.kind]; rfl)
  cases lodges with
  | own => exact Or.inl rfl
  | shared share =>
    rw [plan] at share
    cases share
  | item embeds => exact Or.inr ⟨_, embeds, Or.inr rfl⟩
  | @inside _ outer _ _ _ embeds builds lodges =>
    have declaration := formed.embeds_type embeds (by rw [baseless.kind]; rfl)
    have apart : ¬nodes.Embedded outer := by
      intro embedded
      rw [Kind.not_isDeclaration_of_isInner (formed.embedded_kind embedded)] at declaration
      cases declaration
    cases lodges with
    | own => exact Or.inr ⟨_, embeds, Or.inl rfl⟩
    | shared share =>
      rw [builds] at share
      cases share
    | inside other | item other => exact absurd ⟨_, other⟩ apart

end Nodes

/-- Where only one node of a builder has content, what is recorded for the builder is recorded for the node. -/
theorem filter_alone {occurrences : List (NodeId × List NodeId)} {memo : NodeId → Option BuilderId} {type : NodeId}
    {builder : BuilderId} (found : memo type = some builder)
    (alone : ∀ id, memo id = some builder → id ≠ type → contentOf occurrences id = []) :
    (occurrences.filter fun occurrence => memo occurrence.1 = some builder) = occurrences.filter fun occurrence =>
      occurrence.1 = type := by
  refine List.filter_congr fun occurrence member => decide_eq_decide.mpr ⟨fun shared => ?_, fun same => same ▸ found⟩
  by_contra different
  have listed : occurrence.2 ∈ contentOf occurrences occurrence.1 :=
    List.mem_map_of_mem (List.mem_filter.mpr ⟨member, decide_eq_true rfl⟩)
  rw [alone occurrence.1 shared different] at listed
  cases listed

namespace Schema.Loaded
variable {schema : Schema} (loaded : schema.Loaded) {type id outer inner : NodeId} {origin : Origin}
include loaded

theorem embeds_place (embeds : schema.nodes.Embeds outer inner) :
    (schema.nodes.kindOf outer).isOuter ∧ (schema.nodes.get outer).child? (schema.nodes.kindOf inner) = some inner ∧
      (schema.nodes.kindOf inner).isInner ∧
      (schema.nodes.kindOf inner = .complexType → schema.nodes.kindOf outer = .element) ∧
        schema.nodes.kindOf inner ∈ Reading.places ((schema.nodes.get outer).parent.map schema.nodes.kindOf)
        (schema.nodes.kindOf outer) := by
  obtain ⟨isOuter, kind, isInner, element, _, found⟩ := embeds.child?
  have member := Nodes.mem_childrenOf_of_child? found
  have own := loaded.formed.child_kind member
  subst own
  exact ⟨isOuter, found, isInner, element, (loaded.housed outer).children _ (Nodes.mem_childrenOf.mp member)⟩

theorem beside (kind : schema.nodes.kindOf type = .complexType) (holds : schema.nodes.Embeds outer type)
    (embeds : schema.nodes.Embeds outer id) : schema.nodes.Companion type id := by
  obtain ⟨_, first, _, element, _⟩ := loaded.embeds_place holds
  obtain ⟨_, found, _, _, place⟩ := loaded.embeds_place embeds
  rw [element kind] at place
  rcases Reading.inner_of_element place with simple | complex
  · exact .simpleType simple
  · rw [kind] at first
    rw [complex, first] at found
    cases found
    exact .self

theorem companion (baseless : schema.nodes.Baseless type) (own : schema.nodes.Lodges type origin)
    (lodges : schema.nodes.Lodges id origin) :
    schema.nodes.Companion type id := by
  have origins := baseless.lodges loaded.formed own
  clear own
  -- From the node that the builder was made for inwards: in each companion only further companions may fill the
  -- builder.
  induction lodges with
  | own =>
    rcases origins with same | ⟨outer, embeds, same | same⟩
    · cases same
      exact .self
    · cases same
      exact .outer embeds
    · cases same
  | shared plan => exact .use plan
  | item embeds plan =>
    rcases origins with same | ⟨outer, holds, same | same⟩
    · cases same
    · cases same
    · cases same
      exact loaded.beside baseless.kind holds embeds
  | @inside inner outer _ _ _ embeds plan lodges ih =>
    obtain ⟨isOuter, found, isInner, _, place⟩ := loaded.embeds_place embeds
    cases ih origins with
    | self =>
      have child := Nodes.mem_childrenOf.mp (Nodes.mem_childrenOf_of_child? found)
      obtain ⟨simple, complex⟩ := baseless.plain _ child
      rw [baseless.kind] at place
      rcases Reading.inner_of_complexType place isInner with same | same
      · exact absurd same simple
      · exact absurd same complex
    | outer holds => exact loaded.beside baseless.kind holds embeds
    | use share =>
      rw [share] at plan
      cases plan
    | simpleType kind =>
      rw [kind] at place
      have parent := loaded.formed.child_parent (Nodes.mem_childrenOf_of_child? found)
      rcases Reading.inner_of_simpleType place isInner with restriction | list
      · exact .restriction restriction parent kind
      · exact .list list
    | list kind | restriction kind =>
      rw [kind] at isOuter
      cases isOuter

/-- Besides a type without a base, no node with the builder of the type has content of its own. -/
theorem content_alone (baseless : schema.nodes.Baseless type) (own : schema.nodes.Lodges type origin)
    (lodges : schema.nodes.Lodges id origin) (different : id ≠ type) : schema.nodes.contentChoices id = [] := by
  have holds (plain : (schema.nodes.kindOf id).isGroup = false)
      (places : ∀ kind ∈ Reading.places ((schema.nodes.get id).parent.map schema.nodes.kindOf)
        (schema.nodes.kindOf id), kind.isGroup = false) :
      schema.nodes.contentChoices id = [] :=
    Nodes.contentChoices_nil plain fun child member => places _ ((loaded.housed id).children child member)
  cases loaded.companion baseless own lodges with
  | self => exact absurd rfl different
  | outer embeds =>
    obtain ⟨_, _, _, element, _⟩ := loaded.embeds_place embeds
    refine holds ?_ ?_ <;> rw [element baseless.kind]
    · rfl
    · simp [Reading.places, Reading.slots, Reading.Slot.kind, Kind.isGroup]
  | use plan => rw [Nodes.contentChoices, Nodes.planned_of_share plan, List.flatMap_nil]
  | simpleType kind | list kind =>
    refine holds ?_ ?_ <;> rw [kind]
    · rfl
    · simp [Reading.places, Reading.slots, Reading.Slot.kind, Kind.isGroup]
  | restriction kind parent simple =>
    refine holds ?_ ?_ <;> rw [kind]
    · rfl
    · simp [Reading.places, Reading.slots, Reading.Slot.kind, Kind.isGroup, parent, simple]

theorem shared_alone (baseless : schema.nodes.Baseless type) {stage : Stage} {ledger : List Origin}
    (answered : Answered schema.nodes stage ledger) {builder : BuilderId} (found : stage.memo type = some builder)
    (shared : stage.memo id = some builder) (different : id ≠ type) : schema.nodes.contentChoices id = [] := by
  have lodged := answered.lodged loaded.formed
  obtain ⟨origin, own, place⟩ := lodged.lodges type builder found
  obtain ⟨other, lodges, there⟩ := lodged.lodges id builder shared
  cases place.symm.trans there
  exact loaded.content_alone baseless own lodges different

/-- The rules for choices in the builder of a type without a base are those of its own content, and they name
all fields that have a name, unless a field is late. -/
theorem type_choices (baseless : schema.nodes.Baseless type) {stage : Stage} {ledger : List Origin}
    (answered : Answered schema.nodes stage ledger) {builder : BuilderId} (found : stage.memo type = some builder)
    (timely : ∀ leaves ∈ schema.nodes.contentChoices type, ∀ leaf ∈ leaves, ¬schema.nodes.Late stage.memo leaf type) :
    stage.builders.choices builder = (schema.nodes.contentChoices type).map (List.filterMap stage.fieldName?) := by
  have settled := answered.settled loaded.formed
  have ahead : stage.Ahead stage [] := ⟨fun _ _ found => found, fun _ _ _ => rfl⟩
  obtain ⟨occurrences, logged⟩ := answered.logged loaded.formed settled.titled settled.shared ahead
  have content (id : NodeId) (known : stage.memo id ≠ none) :
      contentOf occurrences id = schema.nodes.contentChoices id := by
    rw [logged.content, if_pos ⟨rfl, known⟩]
    rfl
  have own : contentOf occurrences type = schema.nodes.contentChoices type :=
    content type (by rw [found]; exact Option.some_ne_none _)
  have only := filter_alone found fun id shared different => by
    rw [content id (by rw [shared]; exact Option.some_ne_none _),
      loaded.shared_alone baseless answered found shared different]
  obtain ⟨added, recorded, offered⟩ := logged.recorded builder
  have offers : List.Forall₂ (Offered schema.nodes stage type) (schema.nodes.contentChoices type) added := by
    rw [only] at offered
    rw [← own, contentOf, List.forall₂_map_left_iff]
    have both := (List.forall₂_and_left _ _).mpr ⟨fun occurrence member =>
      of_decide_eq_true (List.mem_filter.mp member).2, offered⟩
    exact both.imp fun occurrence options offered => offered.1 ▸ offered.2
  have exact := (List.forall₂_and_left _ _).mpr ⟨timely, offers⟩
  have named : List.Forall₂ (· = ·) ((schema.nodes.contentChoices type).map (List.filterMap stage.fieldName?)) added :=
    List.forall₂_map_left_iff.mpr (exact.imp fun leaves options offered => (offered.2.exact offered.1).symm)
  rw [List.forall₂_eq_eq_eq] at named
  rw [named]
  exact recorded

end Schema.Loaded

end SchemaClasses
