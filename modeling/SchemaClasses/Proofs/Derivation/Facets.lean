import SchemaClasses.Proofs.Derivation.Lodgers
import SchemaClasses.Proofs.Derivation.Names

/-! Facets of simple types. The restriction inside of a type writes its facets into the builder of the type, if
it has that builder, and nothing else in a simple type writes rules. No plan asks for a restriction, so only a
direct request gives it a builder of its own. What a type is based on writes into its own builder alone. -/

namespace SchemaClasses

namespace Nodes
variable {nodes : Nodes} {id inner : NodeId}

def facets (nodes : Nodes) (type : NodeId) : Facets :=
  match ((nodes.get type).child? .restriction).map fun inner => (nodes.get inner).construct with
  | some (.restriction _ facets) => facets
  | _ => {}

def Unasked (nodes : Nodes) (id : NodeId) : Prop :=
  ∀ other role, .ask role id ∉ nodes.planned other

theorem Formed.unasked (formed : nodes.Formed) (content : (nodes.kindOf id).isType = false)
    (declared : (nodes.kindOf id).isDeclaration = false) : nodes.Unasked id := by
  intro other role asked
  have isType {kind : Kind} (same : nodes.kindOf id = kind) (isType : kind.isType) : False := by
    rw [same, isType] at content
    cases content
  have isDeclaration {kind : Kind} (same : nodes.kindOf id = kind) (isDeclaration : kind.isDeclaration) : False := by
    rw [same, isDeclaration] at declared
    cases declared
  rcases ask_cases asked with (simple | complex) | member | ⟨_, member⟩ | ⟨element, use⟩
  · exact isType (formed.simple other id simple).2.1 rfl
  · exact isType (formed.complex other id complex).2.1 rfl
  · exact isDeclaration (formed.child_kind member) rfl
  · exact isType (formed.child_kind member) rfl
  · exact isDeclaration ((formed.ref other id use).2.1.trans element) rfl

end Nodes

/-- An inner node has no other builder than the node around it. -/
def Stage.Joins (stage : Stage) (outer inner : NodeId) : Prop :=
  ∀ builder, stage.memo inner = some builder → stage.memo outer = some builder

/-- The task gives the inner node no other builder than that of the outer one. -/
def Task.Joins (stage : Stage) (outer inner : NodeId) : Task → Prop
  | .derive id none => id ≠ inner
  | .derive id (some builder) => id = inner → stage.memo outer = some builder
  | .entry id builder _ | .entries id builder _ => id = outer → stage.memo outer = some builder
  | .expand .. | .part .. | .parts .. => True

theorem Stage.Joins.opened {stage started opened : Stage} {outer inner id : NodeId} {target : Option BuilderId}
    {builder filled : BuilderId} {wrapped : Option (Option String)} (joins : stage.Joins outer inner)
    (different : outer ≠ inner) (new : stage.memo id = none)
    (proper : (Task.derive id target).Joins stage outer inner) (start : stage.start target = (builder, started))
    (unwrap : (started.remember id builder).unwrap builder wrapped = (filled, opened)) : opened.Joins outer inner := by
  have memo := Stage.opened_memo start unwrap
  intro number found
  rw [memo] at found ⊢
  by_cases within : inner = id
  · subst within
    rw [Function.update_self] at found
    cases target with
    | none => exact absurd rfl proper
    | some target =>
      cases start
      rw [Function.update_of_ne different, proper rfl]
      exact found
  · rw [Function.update_of_ne within] at found
    have known := joins number found
    have outside : outer ≠ id := by
      rintro rfl
      rw [new] at known
      cases known
    rw [Function.update_of_ne outside]
    exact known

namespace Run
variable {nodes : Nodes} {busy : List BuilderId} {task : Task} {stage later : Stage} {outcome : Expansion}
  {made : List Origin}

/-- What no plan asks for only gets the builder of the node that it fills. -/
theorem joins (formed : nodes.Formed) (run : Run nodes busy task stage outcome later made) {outer inner : NodeId}
    {notices : BuilderId → List Notice} {entries : List Entry} (embeds : nodes.Embeds outer inner)
    (unasked : nodes.Unasked inner) (plan : nodes.plan outer = .build notices none entries)
    (proper : task.Joins stage outer inner) (joins : stage.Joins outer inner) : later.Joins outer inner := by
  have different : outer ≠ inner := Nat.ne_of_lt (formed.embeds_after embeds)
  induction run with
  | known | finished | cut | unresolved | empty => exact joins
  | @shared _ id _ _ referenced _ _ _ _ shares run ih =>
    have apart : referenced ≠ inner := by
      rintro rfl
      exact formed.share_apart shares ⟨outer, embeds⟩
    have within : inner ≠ id := by
      rintro rfl
      exact formed.share_not_embedded shares ⟨outer, embeds⟩
    have outside : outer ≠ id := by
      rintro rfl
      cases plan.symm.trans shares
    intro builder found
    simp only [Stage.remember, Function.update_of_ne within, Function.update_of_ne outside] at found ⊢
    exact ih apart joins builder found
  | @opened _ id _ _ _ _ _ _ _ _ _ _ _ new builds start unwrap run ih =>
    refine ih (fun same => ?_) (joins.opened different new proper start unwrap)
    subst same
    cases plan.symm.trans builds
    cases unwrap
    exact Function.update_self _ _ _
  | written written =>
    rw [Stage.Joins, Stage.write_memo written]
    exact joins
  | ask listed run ih => exact ih (fun same => unasked _ _ (same ▸ listed)) joins
  | embed listed run ih => exact ih (fun same => proper (formed.embeds_unique (same ▸ listed) embeds)) joins
  | append listed run ih | expanded outside run ih | group listed run ih => exact ih trivial joins
  | leaf isGroup listed run ih =>
    exact ih (fun same => formed.leaf_apart isGroup listed ⟨outer, same ▸ embeds⟩) joins
  | next run remaining ih rest => exact rest (fun same => run.keeps (proper same)) (ih proper joins)
  | more run remaining ih rest => exact rest trivial (ih trivial joins)

end Run

def Entry.pushed : Entry → List Rule
  | .rules listed => listed
  | _ => []

/-- Whenever a node writes the entry, it adds the rules of the entry to the builder and no others. -/
def Entry.Adds (nodes : Nodes) (id : NodeId) (entry : Entry) : Prop :=
  ∀ ⦃busy builder stage outcome later made⦄, Underway nodes busy stage (.entry id builder entry) →
    Run nodes busy (.entry id builder entry) stage outcome later made →
      later.builders.rules builder = stage.builders.rules builder ++ entry.pushed

def Entry.isPlain : Entry → Bool
  | .embed _ | .append _ => false
  | _ => true

namespace Entry.Adds
variable {nodes : Nodes} {id : NodeId}

theorem of_isPlain {entry : Entry} (plain : entry.isPlain) : entry.Adds nodes id := by
  intro busy builder stage outcome later made underway run
  have inside : builder < stage.size := underway.inside builder rfl
  cases run with
  | written written =>
    cases entry with
    | mark mark =>
      cases written
      exact (Builders.rules_modify mark.apply_bag).trans (List.append_nil _).symm
    | rules rules =>
      cases written
      exact Builders.rules_pushRules_same underway.whole.tidy inside
    | plain role type =>
      cases written
      have kept : (stage.builders.createBuiltin type).2.rules builder = stage.builders.rules builder :=
        Builders.rules_create_old underway.whole.tidy inside
      exact ((Builders.rules_modify (role.link_bag _)).trans kept).trans (List.append_nil _).symm
    | notice _ =>
      cases written
      exact (List.append_nil _).symm
    | ask | embed | append => cases written
  | @ask _ _ _ role asked _ other _ _ _ run =>
    have free : Underway nodes busy stage (.derive asked none) := underway.free rfl
    have kept := (free.grows run).rules builder inside (Option.some_ne_none _).symm
    exact ((Builders.rules_modify (role.link_bag other)).trans kept).trans (List.append_nil _).symm
  | embed | append => cases plain

end Entry.Adds

namespace Run
variable {nodes : Nodes} {busy : List BuilderId} {task : Task} {stage later : Stage} {outcome : Expansion}
  {made : List Origin}
  {id inner : NodeId} {builder : BuilderId} {entries : List Entry}

theorem adds (run : Run nodes busy (.entries id builder entries) stage outcome later made)
    (underway : Underway nodes busy stage (.entries id builder entries))
    (each : ∀ entry ∈ entries, entry.Adds nodes id) :
    later.builders.rules builder = stage.builders.rules builder ++ entries.flatMap Entry.pushed := by
  induction entries generalizing stage outcome made with
  | nil =>
    cases run with
    | finished => exact (List.append_nil _).symm
  | cons entry entries ih =>
    obtain ⟨first, others⟩ := List.forall_mem_cons.mp each
    cases run with
    | next run remaining =>
      rw [ih remaining (underway.rest run) others, first underway.first run, List.flatMap_cons, List.append_assoc]

/-- A node that fills the builder of another adds its rules when it is derived for that, and not again. -/
theorem embed_adds (formed : nodes.Formed)
    (run : Run nodes busy (.entry id builder (.embed inner)) stage outcome later made)
    (underway : Underway nodes busy stage (.entry id builder (.embed inner)))
    (plain : ∀ entry ∈ nodes.planned inner, entry.isPlain) :
    later.builders.rules builder = stage.builders.rules builder ++
      if stage.memo inner = none then (nodes.planned inner).flatMap Entry.pushed else [] := by
  cases run with
  | written written => cases written
  | embed listed run =>
    cases run with
    | known found =>
      rw [found, if_neg (Option.some_ne_none _), List.append_nil]
    | shared new plan => exact absurd ⟨_, listed⟩ (formed.share_not_embedded plan)
    | opened new plan start unwrap run =>
      have underway : Underway nodes busy stage (.derive inner (some builder)) :=
        underway.embed (underway.held builder rfl) ⟨_, listed⟩
      obtain ⟨_, own⟩ := formed.embedded_plan ⟨_, listed⟩
      cases plan.symm.trans own
      rw [if_pos new]
      have planned := Nodes.planned_of_plan plan
      rw [planned] at plain ⊢
      have filled := run.adds (underway.opened start unwrap) fun entry member =>
        Entry.Adds.of_isPlain (plain entry member)
      cases start
      cases unwrap
      exact filled

end Run

namespace Nodes
variable {nodes : Nodes} {id inner : NodeId}

theorem pushed_of_restriction {base : Option TypeRef} {facets : Facets}
    (construct : (nodes.get id).construct = .restriction base facets) :
    (nodes.planned id).flatMap Entry.pushed = facets.rules := by
  have nothing {α : Type} {entry : α → Entry} (items : List α) (none : ∀ item, (entry item).pushed = []) :
      (items.map entry).flatMap Entry.pushed = [] :=
    List.flatMap_eq_nil_iff.mpr (List.forall_mem_map.mpr fun item _ => none item)
  have kind : (nodes.kindOf id).isInner := by simp [kindOf, Node.kind, construct, Construct.kind, Kind.isInner]
  rw [planned_of_plan (plan_of_inner kind)]
  simp only [entries, construct, Node.modelEntries, attributeEntries, List.flatMap_append]
  rw [nothing _ fun type => by cases type <;> rfl, nothing _ fun _ => rfl, nothing _ fun _ => rfl,
    nothing _ fun _ => rfl, nothing _ fun _ => rfl]
  exact List.append_nil _

theorem pushed_of_list (kind : nodes.kindOf id = .list) : (nodes.planned id).flatMap Entry.pushed = [] := by
  rw [planned_of_plan (plan_of_inner (by rw [kind]; rfl))]
  cases construct : (nodes.get id).construct with
  | list itemType =>
    rcases itemType with _ | (_ | _ | _ | _)
    · cases child : (nodes.get id).child? .simpleType <;> simp [entries, construct, Node.itemEntries,
        child, Entry.pushed]
    all_goals simp [entries, construct, Node.itemEntries, Entry.pushed]
  | _ => simp [kindOf, Node.kind, construct, Construct.kind] at kind

/-- What a simple type writes after it has let its restriction fill its builder. -/
def simpleRest (nodes : Nodes) (id : NodeId) : List Entry :=
  ((nodes.get id).child? .list).toList.map .embed
    ++ if ((nodes.get id).child? .union).isSome then [.plain .base .anySimpleType] else []

/-- A simple type writes its name first, and then lets its restriction fill its builder. -/
theorem plan_of_simpleType (kind : nodes.kindOf id = .simpleType) : ∃ name : Option String,
    nodes.plan id = .build (nodes.derivationNotices id) none (name.toList.map (fun name => .mark (.className name))
      ++ (((nodes.get id).child? .restriction).toList.map .embed ++ nodes.simpleRest id)) := by
  rw [plan_of_inner (by rw [kind]; rfl)]
  cases construct : (nodes.get id).construct with
  | simpleType name =>
    refine ⟨name, ?_⟩
    simp only [entries, construct, simpleRest, List.map_append, List.append_assoc]
  | _ => simp [kindOf, Node.kind, construct, Construct.kind] at kind

/-- The first restriction in a simple type fills its builder, and so does the first list. -/
theorem embeds_of_simpleType (kind : nodes.kindOf id = .simpleType) {other : Kind}
    (member : other ∈ [Kind.restriction, .list]) (found : (nodes.get id).child? other = some inner) :
    nodes.Embeds id inner := by
  obtain ⟨name, plan⟩ := plan_of_simpleType kind
  rw [Embeds, planned_of_plan plan]
  simp only [List.mem_cons, List.not_mem_nil, or_false] at member
  rcases member with rfl | rfl <;> simp [found, simpleRest]

end Nodes

/-- What fills the builder of another node and writes no rules adds none, whether it is derived then or was before. -/
theorem Entry.Adds.of_embed {nodes : Nodes} {id inner : NodeId} (formed : nodes.Formed)
    (plain : ∀ entry ∈ nodes.planned inner, entry.isPlain) (nothing : (nodes.planned inner).flatMap Entry.pushed = []) :
    (Entry.embed inner).Adds nodes id := by
  intro busy builder stage outcome later made underway run
  rw [run.embed_adds formed underway plain, nothing, ite_self]
  rfl

namespace Schema.Loaded
variable {schema : Schema} (loaded : schema.Loaded) {type inner : NodeId}
  (kind : schema.nodes.kindOf type = .simpleType)
include loaded kind

/-- What fills the builder of a simple type is its restriction or its list, and those hold simple types only. -/
theorem inner_of_simpleType (embeds : schema.nodes.Embeds type inner) :
    (schema.nodes.kindOf inner = .restriction ∨ schema.nodes.kindOf inner = .list) ∧
      ∀ child ∈ (schema.nodes.get inner).children, child.kind = .simpleType := by
  obtain ⟨_, found, isInner, _, place⟩ := loaded.embeds_place embeds
  have parent := loaded.formed.child_parent (Nodes.mem_childrenOf_of_child? found)
  rw [kind] at place
  have kinds := Reading.inner_of_simpleType place isInner
  refine ⟨kinds, fun child member => ?_⟩
  have stands := (loaded.housed inner).children child member
  rw [parent, Option.map_some, kind] at stands
  rcases kinds with same | same
  all_goals
    rw [same] at stands
    simpa [Reading.places, Reading.slots, Reading.Slot.kind] using stands

theorem inner_plain (embeds : schema.nodes.Embeds type inner) :
    ∀ entry ∈ schema.nodes.planned inner, entry.isPlain := by
  obtain ⟨kinds, simple⟩ := loaded.inner_of_simpleType kind embeds
  intro entry listed
  cases entry with
  | embed other =>
    have outer := (Nodes.Embeds.child? (show schema.nodes.Embeds inner other from listed)).1
    rcases kinds with same | same <;> rw [same] at outer <;> cases outer
  | append group =>
    rcases Nodes.append_cases listed with ⟨other, isGroup, member⟩ | ⟨_, isGroup⟩
    · have same : other = .simpleType := simple _ (Nodes.mem_childrenOf.mp member)
      rw [same] at isGroup
      cases isGroup
    · rcases kinds with same | same <;> rw [same] at isGroup <;> cases isGroup
  | _ => rfl

theorem inner_unasked (embeds : schema.nodes.Embeds type inner) : schema.nodes.Unasked inner := by
  obtain ⟨same | same, _⟩ := loaded.inner_of_simpleType kind embeds
  all_goals exact loaded.formed.unasked (by rw [same]; rfl) (by rw [same]; rfl)

theorem rest_adds : ∀ entry ∈ schema.nodes.simpleRest type, entry.Adds schema.nodes type ∧ entry.pushed = [] := by
  refine List.forall_mem_append.mpr ⟨List.forall_mem_map.mpr fun list member => ⟨?_, rfl⟩, fun entry listed => ?_⟩
  · have found := Option.mem_toList.mp member
    have embeds := Nodes.embeds_of_simpleType kind (by simp) found
    have own := loaded.formed.child_kind (Nodes.mem_childrenOf_of_child? found)
    exact .of_embed loaded.formed (loaded.inner_plain kind embeds) (Nodes.pushed_of_list own)
  · split at listed
    · cases List.mem_singleton.mp listed
      exact ⟨.of_isPlain rfl, rfl⟩
    · cases listed

section Filling
variable {busy : List BuilderId} {stage later : Stage} {outcome : Expansion} {made : List Origin} {builder : BuilderId}

/-- After its name, a simple type adds the rules for its facets, if its restriction is not derived yet. -/
theorem rest_facets (run : Run schema.nodes busy
      (.entries type builder (((schema.nodes.get type).child? .restriction).toList.map .embed ++
        schema.nodes.simpleRest type))
      stage outcome later made)
    (underway : Underway schema.nodes busy stage
      (.entries type builder (((schema.nodes.get type).child? .restriction).toList.map .embed ++
        schema.nodes.simpleRest type)))
    (fresh : ∀ inner, schema.nodes.Embeds type inner → stage.memo inner = none) :
    later.builders.rules builder = stage.builders.rules builder ++ (schema.nodes.facets type).rules := by
  have nothing : (schema.nodes.simpleRest type).flatMap Entry.pushed = [] :=
    List.flatMap_eq_nil_iff.mpr fun entry listed => (loaded.rest_adds kind entry listed).2
  have adds (entry : Entry) (listed : entry ∈ schema.nodes.simpleRest type) := (loaded.rest_adds kind entry listed).1
  cases found : (schema.nodes.get type).child? .restriction with
  | none =>
    rw [found] at run underway
    rw [run.adds underway adds, Nodes.facets, found]
    exact congrArg _ nothing
  | some inner =>
    rw [found] at run underway
    have embeds := Nodes.embeds_of_simpleType kind (by simp) found
    have own := loaded.formed.child_kind (Nodes.mem_childrenOf_of_child? found)
    obtain ⟨base, facets, construct⟩ : ∃ base facets, (schema.nodes.get inner).construct =
        .restriction base facets := by
      cases construct : (schema.nodes.get inner).construct with
      | restriction base facets => exact ⟨base, facets, rfl⟩
      | _ => simp [Nodes.kindOf, Node.kind, construct, Construct.kind] at own
    cases run with
    | next run remaining =>
      have first := run.embed_adds loaded.formed underway.first (loaded.inner_plain kind embeds)
      rw [if_pos (fresh inner embeds), Nodes.pushed_of_restriction construct] at first
      have last : later.builders.rules builder = _ ++ (schema.nodes.simpleRest type).flatMap Entry.pushed :=
        remaining.adds (underway.rest run) adds
      rw [last, nothing, List.append_nil, first, Nodes.facets, found, Option.map_some, construct]

/-- The rules of a simple type are those for the facets that it states itself, if what fills its builder has no
other. -/
theorem type_facets (apart : ¬schema.nodes.Embedded type) {task : Task}
    (run : Run schema.nodes busy task stage outcome later made) (underway : Underway schema.nodes busy stage task)
    (new : stage.memo type = none) (found : later.memo type = some builder)
    (joins : ∀ inner, schema.nodes.Embeds type inner → later.Joins type inner) :
    later.builders.rules builder = (schema.nodes.facets type).rules := by
  obtain ⟨name, plan⟩ := Nodes.plan_of_simpleType kind
  have owns : schema.nodes.Owns type := ⟨apart, fun referenced share => by cases plan.symm.trans share⟩
  obtain ⟨filled, given, leaves⟩ := run.given underway owns new found
  rw [leaves.rules]
  cases given with
  | @intro _ _ _ _ _ _ stage _ opened _ whole same start unwrap underway run =>
    cases plan.symm.trans same
    obtain ⟨_, bare, _⟩ := Stage.opened_new whole start unwrap
    have memo := Stage.opened_memo start unwrap
    -- What had a builder before would keep it, but the builder of the type is a new one.
    have fresh (inner : NodeId) (embeds : schema.nodes.Embeds type inner) : opened.memo inner = none := by
      by_contra known
      obtain ⟨number, known⟩ := Option.ne_none_iff_exists'.mp known
      obtain ⟨_, own⟩ := loaded.formed.embedded_plan ⟨_, embeds⟩
      have late := leaves.memo inner number (fun referenced share => by cases own.symm.trans share) (run.keeps known)
      have joined : number = builder := Option.some.inj ((joins inner embeds number late).symm.trans found)
      have different : inner ≠ type := Nat.ne_of_gt (loaded.formed.embeds_after embeds)
      rw [memo, Function.update_of_ne different] at known
      have small := whole.range inner number known
      cases start
      exact absurd joined (Nat.ne_of_lt small)
    cases unwrap
    cases name with
    | none => rw [loaded.rest_facets kind run underway fresh, bare, List.nil_append]
    | some name =>
      cases run with
      | next run remaining =>
        cases run with
        | written written =>
          have memo := Stage.write_memo written
          have kept := Entry.Adds.of_isPlain rfl underway.first (.written written)
          rw [loaded.rest_facets kind remaining (underway.rest (.written written)) (memo ▸ fresh), kept, bare]
          rfl

end Filling

end Schema.Loaded

end SchemaClasses
