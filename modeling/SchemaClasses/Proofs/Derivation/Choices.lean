import SchemaClasses.Proofs.Derivation.Names
import SchemaClasses.Proofs.Derivation.Calls

/-! The options of choices. They are the names that the fields of a choice have when the choice is met. All
that is stated has its name by then, but a repeated use that is still waiting for its declaration has none. -/

namespace SchemaClasses

def Rule.options? : Rule → Option (List String)
  | choice options => some options
  | _ => none

theorem Facets.rules_options (facets : Facets) : facets.rules.filterMap Rule.options? = [] := by
  obtain ⟨numbers, enumerations, whitespace, pattern⟩ := facets
  cases enumerations <;> cases whitespace <;> cases pattern <;>
    simp [Facets.rules, List.filterMap_map, Function.comp_def, Rule.options?]

namespace Nodes
variable (nodes : Nodes)

/-- What each choice in a group is between, inner choices first. Only choices that are made exactly once count. -/
def choices (path : List NodeId) (id : NodeId) : List (List NodeId) :=
  if _new : id ∈ path ∨ nodes.size ≤ id then []
  else ((nodes.parts id).flatMap fun
      | .group group => choices (id :: path) group
      | .leaf _ | .notice _ => []) ++ if nodes.isSingleChoice id then [nodes.members path id] else []
  termination_by nodes.outside path
  decreasing_by exact outside_lt _new

def partChoices (path : List NodeId) : Part → List (List NodeId)
  | .group group => nodes.choices path group
  | .leaf _ | .notice _ => []

variable {nodes} {path : List NodeId} {id : NodeId}

theorem choices_of_mem (inside : id ∈ path) : nodes.choices path id = [] := by
  rw [choices, dif_pos (Or.inl inside)]

theorem choices_of_not_mem (outside : id ∉ path) : nodes.choices path id =
    (nodes.parts id).flatMap (nodes.partChoices (id :: path)) ++
      if nodes.isSingleChoice id then [nodes.members path id] else [] := by
  by_cases within : nodes.size ≤ id
  · have absent := Nodes.get_outside within
    have plain : nodes.isSingleChoice id = false := by
      rw [isSingleChoice, absent]
      rfl
    rw [choices, dif_pos (Or.inr within), parts_outside within, plain]
    rfl
  · rw [choices, dif_neg (not_or.mpr ⟨outside, within⟩)]
    rfl

end Nodes

def Entry.choices (nodes : Nodes) : Entry → List (List NodeId)
  | append group => nodes.choices [] group
  | _ => []

/-- What the choices in the content of a node are between. -/
def Nodes.contentChoices (nodes : Nodes) (id : NodeId) : List (List NodeId) :=
  (nodes.planned id).flatMap (Entry.choices nodes)

/-- The choices that are met while a task goes on, apart from those of other nodes. -/
def Task.choices (nodes : Nodes) : Task → List (List NodeId)
  | .expand path id => nodes.choices path id
  | .part path single => nodes.partChoices path single
  | .parts path several => several.flatMap (nodes.partChoices path)
  | .derive .. | .entry .. | .entries .. => []

namespace Builders
variable {builders : Builders} {builder other : BuilderId}

def choices (builders : Builders) (builder : BuilderId) : List (List String) :=
  if builder < builders.size then (builders.rules builder).filterMap Rule.options? else []

theorem choices_inside (inside : builder < builders.size) :
    builders.choices builder = (builders.rules builder).filterMap Rule.options? :=
  if_pos inside

theorem choices_outside (outside : ¬builder < builders.size) : builders.choices builder = [] :=
  if_neg outside

theorem choices_modify {f : Builder → Builder} (keeps : ∀ builder, (f builder).bag = builder.bag) :
    (builders.modify other f).choices builder = builders.choices builder := by
  simp only [choices, size_modify, rules_modify keeps]

theorem choices_create (tidy : builders.Tidy) {made : Builder} :
    (builders.create made).2.choices builder = builders.choices builder := by
  have size : (builders.create made).2.size = builders.size + 1 := size_create
  rcases Nat.lt_trichotomy builder builders.size with inside | rfl | outside
  · rw [choices_inside (size ▸ Nat.lt_succ_of_lt inside), choices_inside inside, rules_create_old tidy inside]
  · rw [choices_inside (size ▸ Nat.lt_succ_self _), choices_outside (Nat.lt_irrefl _), rules_create_new tidy]
    rfl
  · rw [choices_outside (size ▸ Nat.not_lt.mpr outside), choices_outside (Nat.lt_asymm outside)]

theorem choices_pushRules (tidy : builders.Tidy) (inside : other < builders.size) (rules : List Rule) :
    (builders.pushRules other rules).choices builder =
      builders.choices builder ++ if builder = other then rules.filterMap Rule.options? else [] := by
  by_cases same : builder = other
  · subst same
    rw [if_pos rfl, choices_inside inside, ← List.filterMap_append, ← rules_pushRules_same tidy inside]
    exact choices_inside inside
  · rw [if_neg same, List.append_nil]
    by_cases within : builder < builders.size
    · rw [choices_inside within, ← rules_pushRules_other tidy inside within same]
      exact choices_inside within
    · rw [choices_outside within]
      exact choices_outside within

end Builders

namespace Stage
variable {stage : Stage} {builder other : BuilderId}

def fieldName? (stage : Stage) (id : NodeId) : Option String :=
  stage.memo id >>= stage.builders.fieldName?

theorem opened_choices {id : NodeId} {target : Option BuilderId} {wrapped : Option (Option String)} {filled : BuilderId}
    {started opened : Stage} (whole : stage.Whole) (start : stage.start target = (other, started))
    (unwrap : (started.remember id other).unwrap other wrapped = (filled, opened)) :
    opened.builders.choices builder = stage.builders.choices builder := by
  have starts : started.builders.choices builder = stage.builders.choices builder ∧ started.builders.Tidy := by
    cases target with
    | some target =>
      cases start
      exact ⟨rfl, whole.tidy⟩
    | none =>
      cases start
      exact ⟨Builders.choices_create whole.tidy, whole.tidy.create⟩
  obtain ⟨same, tidy⟩ := starts
  cases wrapped with
  | none =>
    cases unwrap
    exact same
  | some name =>
    cases unwrap
    exact (Builders.choices_modify (Role.link_bag _ _)).trans ((Builders.choices_create tidy).trans same)

theorem write_choices {entry : Entry} {later : Stage} (whole : stage.Whole) (inside : other < stage.size)
    (quiet : ∀ rules, entry = .rules rules → rules.filterMap Rule.options? = [])
    (written : stage.write other entry = some later) :
    later.builders.choices builder = stage.builders.choices builder := by
  cases entry with
  | mark mark =>
    cases written
    exact Builders.choices_modify mark.apply_bag
  | rules rules =>
    cases written
    refine (Builders.choices_pushRules whole.tidy inside rules).trans ?_
    rw [quiet rules rfl, ite_self, List.append_nil]
  | plain role type =>
    cases written
    exact (Builders.choices_modify (Role.link_bag _ _)).trans (Builders.choices_create whole.tidy)
  | notice _ =>
    cases written
    rfl
  | ask _ _ | embed _ | append _ => cases written

theorem append_choices (whole : stage.Whole) (inside : other < stage.size) (content : Expansion) :
    (stage.append other content).builders.choices builder =
      stage.builders.choices builder ++ if builder = other then content.choices else [] := by
  have tidy : (stage.builders.pushFields other content.fields).Tidy := whole.tidy.modify fun _ => rfl
  have larger : other < (stage.builders.pushFields other content.fields).size :=
    Nat.lt_of_lt_of_eq inside Builders.size_modify.symm
  have fields : (stage.builders.pushFields other content.fields).choices builder = stage.builders.choices builder :=
    Builders.choices_modify fun _ => rfl
  have options : (content.choices.map Rule.choice).filterMap Rule.options? = content.choices := by
    simp [List.filterMap_map, Function.comp_def, Rule.options?]
  refine (Builders.choices_pushRules tidy larger _).trans ?_
  rw [fields, options]

end Stage

namespace Nodes

/-- A declaration that states its name, or what is the same as one. -/
inductive Stated (nodes : Nodes) : NodeId → Prop where
  | own {id name} (stated : nodes.stated? id = some name) : Stated nodes id
  | share {id referenced} (plan : nodes.plan id = .share referenced) (stated : Stated nodes referenced) :
      Stated nodes id

/-- A repeated use, or what is the same as one. -/
inductive Repeats (nodes : Nodes) : NodeId → Prop where
  | own {id} (reuses : nodes.Reuses id) : Repeats nodes id
  | share {id referenced} (plan : nodes.plan id = .share referenced) (repeats : Repeats nodes referenced) :
      Repeats nodes id

/-- A field that states no name and was not finished when the content of a node was filled. -/
def Late (nodes : Nodes) (memo : NodeId → Option BuilderId) (leaf id : NodeId) : Prop :=
  nodes.Awaits memo leaf id ∧ ¬nodes.Stated leaf

end Nodes

/-- What a choice in the content of a node calls a field. A repeated use that is late has no name yet. -/
structure Offers (nodes : Nodes) (final : Stage) (id leaf : NodeId) (name : Option String) : Prop where
  timely : ¬nodes.Late final.memo leaf id → name = final.fieldName? leaf
  late : nodes.Late final.memo leaf id → nodes.Repeats leaf → name = none ∧ (final.fieldName? leaf).isSome

/-- The options of a choice in the content of a node are what it calls the fields. -/
def Offered (nodes : Nodes) (final : Stage) (id : NodeId) (leaves : List NodeId) (options : List String) : Prop :=
  ∃ names, List.Forall₂ (Offers nodes final id) leaves names ∧ options = names.reduceOption

theorem Offered.exact {nodes : Nodes} {final : Stage} {id : NodeId} {leaves : List NodeId} {options : List String}
    (offered : Offered nodes final id leaves options) (timely : ∀ leaf ∈ leaves, ¬nodes.Late final.memo leaf id) :
    options = leaves.filterMap final.fieldName? := by
  obtain ⟨names, offers, rfl⟩ := offered
  induction offers with
  | nil => rfl
  | @cons leaf name leaves names first _ ih =>
    rw [first.timely (timely leaf List.mem_cons_self), List.filterMap_cons]
    have rest := ih fun leaf member => timely leaf (List.mem_cons_of_mem _ member)
    cases final.fieldName? leaf with
    | none => rw [List.reduceOption_cons_of_none, rest]
    | some name => rw [List.reduceOption_cons_of_some, rest]

end SchemaClasses
