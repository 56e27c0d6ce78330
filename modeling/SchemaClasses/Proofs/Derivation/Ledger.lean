import SchemaClasses.Proofs.Derivation.Folding

/-! What builders are made for. Every builder has an origin of its own, and the builder of a node has an
origin that depends on the schema alone: the node itself, the one that it stands for, or the one that it
fills the builder of. -/

namespace SchemaClasses

namespace Nodes

/-- The origin of the builder of a node. -/
inductive Home (nodes : Nodes) : NodeId → Origin → Prop where
  | own {id notices wrapped entries} (plan : nodes.plan id = .build notices wrapped entries)
      (apart : ¬nodes.Embedded id) :
      Home nodes id (.own id)
  | shared {id referenced origin} (plan : nodes.plan id = .share referenced) (home : Home nodes referenced origin) :
      Home nodes id origin
  | inside {id outer notices entries origin} (embeds : nodes.Embeds outer id)
      (plan : nodes.plan outer = .build notices none entries) (home : Home nodes outer origin) : Home nodes id origin
  | item {id outer notices name entries} (embeds : nodes.Embeds outer id)
      (plan : nodes.plan outer = .build notices (some name) entries) : Home nodes id (.item outer)

theorem Home.unique {nodes : Nodes} (formed : nodes.Formed) {id : NodeId} {first second : Origin}
    (left : nodes.Home id first) (right : nodes.Home id second) : first = second := by
  induction left generalizing second with
  | own plan apart =>
    cases right with
    | own => rfl
    | shared share => rw [plan] at share; cases share
    | inside embeds | item embeds => exact absurd ⟨_, embeds⟩ apart
  | shared plan home ih =>
    cases right with
    | own build => rw [plan] at build; cases build
    | shared share right =>
      rw [plan] at share
      cases share
      exact ih right
    | inside embeds | item embeds => exact absurd ⟨_, embeds⟩ (formed.share_not_embedded plan)
  | inside embeds plan home ih =>
    cases right with
    | own _ apart => exact absurd ⟨_, embeds⟩ apart
    | shared share => exact absurd ⟨_, embeds⟩ (formed.share_not_embedded share)
    | inside others _ right =>
      cases formed.embeds_unique embeds others
      exact ih right
    | item others wraps =>
      cases formed.embeds_unique embeds others
      rw [plan] at wraps
      cases wraps
  | item embeds plan =>
    cases right with
    | own _ apart => exact absurd ⟨_, embeds⟩ apart
    | shared share => exact absurd ⟨_, embeds⟩ (formed.share_not_embedded share)
    | inside others builds =>
      cases formed.embeds_unique embeds others
      rw [plan] at builds
      cases builds
    | item others =>
      cases formed.embeds_unique embeds others
      rfl

/-- The origin of the builder that the entries of a node are written into. -/
inductive Fills (nodes : Nodes) (id : NodeId) : Origin → Prop where
  | own {notices entries origin} (plan : nodes.plan id = .build notices none entries) (home : nodes.Home id origin) :
      Fills nodes id origin
  | item {notices name entries} (plan : nodes.plan id = .build notices (some name) entries) : Fills nodes id (.item id)

theorem Fills.home {nodes : Nodes} {id inner : NodeId} {origin : Origin} (fills : nodes.Fills id origin)
    (embeds : nodes.Embeds id inner) : nodes.Home inner origin := by
  cases fills with
  | own plan home => exact .inside embeds plan home
  | item plan => exact .item embeds plan

end Nodes

/-- The origins of all builders in order, and where those of the nodes stand among them. -/
structure Stage.Ledger (nodes : Nodes) (stage : Stage) (ledger : List Origin) : Prop where
  length : ledger.length = stage.size
  distinct : ledger.Nodup
  known : ∀ origin ∈ ledger, stage.memo origin.node ≠ none
  home : ∀ id builder, stage.memo id = some builder → ∃ origin, nodes.Home id origin ∧ ledger[builder]? = some origin

def Task.origins : Task → List Origin
  | .entry id _ single => single.origins id
  | .entries id _ several => several.flatMap (Entry.origins id)
  | _ => []

/-- What a task writes into is the right builder. -/
def Task.Placed (nodes : Nodes) (ledger : List Origin) : Task → Prop
  | .derive id none => ¬nodes.Embedded id
  | .derive id (some builder) => ∃ origin, nodes.Home id origin ∧ ledger[builder]? = some origin
  | .entry id builder _ | .entries id builder _ => ∃ origin, nodes.Fills id origin ∧ ledger[builder]? = some origin
  | _ => True

theorem Origin.kept {ledger made : List Origin} {builder : BuilderId} {origin : Origin}
    (found : ledger[builder]? = some origin) :
    (ledger ++ made)[builder]? = some origin := by
  rw [List.getElem?_append_left (List.getElem?_eq_some_iff.mp found).1]
  exact found

theorem Origin.inside {ledger : List Origin} {size : Nat} (length : ledger.length = size)
    {builder : BuilderId} {origin : Origin} (found : ledger[builder]? = some origin) : builder < size :=
  length ▸ (List.getElem?_eq_some_iff.mp found).1

theorem Stage.Opening.places {stage opened : Stage} {id : NodeId} {target : Option BuilderId}
    {wrapped : Option (Option String)} {builder filled : BuilderId} {ledger : List Origin}
    (opens : Opening stage id target wrapped builder filled opened) (length : ledger.length = stage.size) :
    (target = some builder ∨
      target = none ∧ (ledger ++ (startOrigins id target ++ unwrapOrigins id wrapped))[builder]? = some (.own id)) ∧
    (wrapped = none ∧ filled = builder ∨
      (∃ name, wrapped = some name) ∧
        (ledger ++ (startOrigins id target ++ unwrapOrigins id wrapped))[filled]? = some (.item id)) := by
  constructor
  · refine opens.start.imp_right fun ⟨free, new⟩ => ⟨free, ?_⟩
    rw [new, List.getElem?_append_right (Nat.le_of_eq length), length, free]
    simp [startOrigins]
  · refine opens.fill.imp_right fun ⟨⟨name, wraps⟩, new⟩ => ⟨⟨name, wraps⟩, ?_⟩
    rw [new, List.getElem?_append_right (by rw [length]; exact Nat.le_add_right _ _), length, Nat.add_sub_cancel_left,
      List.getElem?_append_right (Nat.le_refl _), Nat.sub_self, wraps]
    rfl

theorem Task.Placed.inside {nodes : Nodes} {stage : Stage} {ledger : List Origin} {task : Task}
    (placed : task.Placed nodes ledger) (length : ledger.length = stage.size) (builder : BuilderId)
    (target : task.target? = some builder) : builder < stage.size := by
  cases task with
  | derive id other =>
    cases target
    obtain ⟨_, _, found⟩ := placed
    exact Origin.inside length found
  | entry | entries =>
    cases target
    obtain ⟨_, _, found⟩ := placed
    exact Origin.inside length found
  | expand | part | parts => cases target

theorem Origin.started {id : NodeId} {target : Option BuilderId} {wrapped : Option (Option String)} {origin : Origin}
    (member : origin ∈ startOrigins id target ++ unwrapOrigins id wrapped) : origin = .own id ∨ origin = .item id := by
  cases target <;> cases wrapped <;> simp_all [startOrigins, unwrapOrigins]

theorem Entry.origins_plain {id : NodeId} {entry : Entry} {origin : Origin} (member : origin ∈ entry.origins id) :
    ∃ type, origin = .plain id type := by
  cases entry <;> simp_all [Entry.origins]

theorem Task.origins_plain {id : NodeId} {builder : BuilderId} {entries : List Entry} {origin : Origin}
    (member : origin ∈ (Task.entries id builder entries).origins) : ∃ type, origin = .plain id type := by
  obtain ⟨entry, _, member⟩ := List.mem_flatMap.mp member
  exact Entry.origins_plain member

namespace Nodes

/-- The entries of a node name at most one built-in type that a builder is made for, those of an element none. -/
private theorem entries_origins (nodes : Nodes) (id : NodeId) :
    ((nodes.entries id).flatMap (Entry.origins id)).length ≤ 1 ∧
      (nodes.kindOf id = .element → (nodes.entries id).flatMap (Entry.origins id) = []) := by
  have model (node : Node) : node.modelEntries.flatMap (Entry.origins id) = [] := by
    simp [Node.modelEntries, Entry.origins]
  have attributes (node : Node) : (nodes.attributeEntries node).flatMap (Entry.origins id) = [] := by
    simp [attributeEntries, Entry.origins]
  have declared (name : Option String) (type : Option TypeRef) :
      (type.toList.map (TypeRef.declared name)).flatMap (Entry.origins id) = [] := by
    rcases type with _ | (_ | _ | _ | _) <;> simp [TypeRef.declared, Entry.origins]
  have extended (base : Option TypeRef) :
      ((base.toList.map TypeRef.extended).flatMap (Entry.origins id)).length ≤ 1 := by
    rcases base with _ | (_ | _ | _ | _) <;> simp [TypeRef.extended, Entry.origins]
  have item (node : Node) (type : Option TypeRef) :
      ((node.itemEntries type).flatMap (Entry.origins id)).length ≤ 1 := by
    cases type with
    | some type => cases type <;> simp [Node.itemEntries, Entry.origins]
    | none => cases child : node.child? .simpleType <;> simp [Node.itemEntries, child, Entry.origins]
  have named (name : Option String) :
      (name.toList.map fun name => Entry.mark (.className name)).flatMap (Entry.origins id) = [] := by
    cases name <;> simp [Entry.origins]
  have quiet (entry : NodeId → Entry) (none : ∀ other, (entry other).origins id = []) (ids : List NodeId) :
      (ids.map entry).flatMap (Entry.origins id) = [] := by simp [none]
  have embedded := quiet .embed fun _ => rfl
  have appended := quiet .append fun _ => rfl
  cases construct : (nodes.get id).construct with
  | element decl =>
    have none : (nodes.entries id).flatMap (Entry.origins id) = [] := by
      simp [entries, construct, declared, embedded, Entry.origins]
    exact ⟨none ▸ Nat.zero_le _, fun _ => none⟩
  | restriction base facets =>
    have asked := quiet (.ask .field) fun _ => rfl
    have rules : [Entry.rules facets.rules].flatMap (Entry.origins id) = [] := rfl
    refine ⟨?_, by simp [kindOf, Node.kind, construct, Construct.kind]⟩
    simpa only [entries, construct, List.flatMap_append, model, attributes, asked, rules, List.append_nil]
      using extended base
  | extension base =>
    refine ⟨?_, by simp [kindOf, Node.kind, construct, Construct.kind]⟩
    simpa only [entries, construct, List.flatMap_append, model, attributes, List.append_nil] using extended base
  | list itemType =>
    refine ⟨?_, by simp [kindOf, Node.kind, construct, Construct.kind]⟩
    simp only [entries, construct]
    exact item _ itemType
  | simpleType name =>
    refine ⟨?_, by simp [kindOf, Node.kind, construct, Construct.kind]⟩
    by_cases union : ((nodes.get id).child? .union).isSome = true <;>
      simp [entries, construct, union, named, embedded, Entry.origins]
  | _ =>
    refine ⟨?_, by simp [kindOf, Node.kind, construct, Construct.kind]⟩
    simp [entries, construct, model, attributes, declared, named, embedded, appended, Entry.origins]

/-- Besides the builder of the node a plan makes at most one: that of an item or that of a built-in type. -/
theorem plan_origins {nodes : Nodes} {id : NodeId} {notices : BuilderId → List Notice}
    {wrapped : Option (Option String)} {entries : List Entry} (plan : nodes.plan id = .build notices wrapped entries) :
    (unwrapOrigins id wrapped ++ entries.flatMap (Entry.origins id)).length ≤ 1 := by
  obtain ⟨few, none⟩ := nodes.entries_origins id
  unfold Nodes.plan at plan
  split at plan
  · next decl construct =>
    have none := none (by simp [kindOf, Node.kind, construct, Construct.kind])
    split at plan
    · cases plan
      simp [unwrapOrigins, Entry.origins]
    · split at plan
      · cases plan
        simp [unwrapOrigins, Entry.origins]
      · cases plan
    · cases plan
      rw [none]
      split <;> simp [unwrapOrigins]
  · cases plan
  · cases plan
    exact few

/-- A plan names at most one built-in type that a builder is made for. -/
theorem planned_origins (nodes : Nodes) (id : NodeId) : ((nodes.planned id).flatMap (Entry.origins id)).Nodup := by
  cases plan : nodes.plan id with
  | share referenced => simp [planned, plan]
  | build notices wrapped entries =>
    have few := plan_origins plan
    rw [planned_of_plan plan]
    rw [List.length_append] at few
    generalize entries.flatMap (Entry.origins id) = origins at few ⊢
    rcases origins with _ | ⟨origin, _ | ⟨second, rest⟩⟩
    · exact .nil
    · exact List.nodup_singleton origin
    · simp only [List.length_cons] at few
      omega

end Nodes

namespace Stage.Ledger
variable {nodes : Nodes} {stage : Stage} {ledger : List Origin} (stands : stage.Ledger nodes ledger)
include stands

theorem same {later : Stage} (size : later.size = stage.size) (memo : later.memo = stage.memo) :
    later.Ledger nodes ledger where
  length := by rw [size]; exact stands.length
  distinct := stands.distinct
  known := by rw [memo]; exact stands.known
  home := by rw [memo]; exact stands.home

theorem remember {id : NodeId} {builder : BuilderId} {origin : Origin} (home : nodes.Home id origin)
    (found : ledger[builder]? = some origin) : (stage.remember id builder).Ledger nodes ledger where
  length := stands.length
  distinct := stands.distinct
  known other member := by
    by_cases same : other.node = id
    · simp [Stage.remember, same]
    · simpa [Stage.remember, same] using stands.known other member
  home other known member := by
    by_cases same : other = id
    · subst same
      simp only [Stage.remember, Function.update_self, Option.some.injEq] at member
      exact ⟨origin, home, member ▸ found⟩
    · simp only [Stage.remember, Function.update_of_ne same] at member
      exact stands.home other known member

theorem grow {later : Stage} {origins : List Origin} (size : later.size = stage.size + origins.length)
    (memo : later.memo = stage.memo) (distinct : origins.Nodup)
    (fresh : ∀ origin ∈ origins, origin ∉ ledger ∧ stage.memo origin.node ≠ none) :
    later.Ledger nodes (ledger ++ origins) where
  length := by rw [List.length_append, stands.length, size]
  distinct := List.nodup_append.mpr ⟨stands.distinct, distinct,
    fun _ old _ new same => (fresh _ new).1 (same ▸ old)⟩
  known origin member := by
    rw [memo]
    rcases List.mem_append.mp member with old | new
    · exact stands.known origin old
    · exact (fresh origin new).2
  home id builder known := by
    obtain ⟨origin, home, found⟩ := stands.home id builder (memo ▸ known)
    exact ⟨origin, home, Origin.kept found⟩

theorem opened {id : NodeId} {target : Option BuilderId} {notices : BuilderId → List Notice}
    {wrapped : Option (Option String)} {entries : List Entry} {builder filled : BuilderId} {opened : Stage}
    (new : stage.memo id = none) (plan : nodes.plan id = .build notices wrapped entries)
    (placed : (Task.derive id target).Placed nodes ledger)
    (memo : opened.memo = Function.update stage.memo id (some builder))
    (opens : Opening stage id target wrapped builder filled opened) :
    opened.Ledger nodes (ledger ++ (startOrigins id target ++ unwrapOrigins id wrapped)) ∧
      (Task.entries id filled entries).Placed nodes
      (ledger ++ (startOrigins id target ++ unwrapOrigins id wrapped)) := by
  obtain ⟨start, fill⟩ := opens.places stands.length
  have home : ∃ origin, nodes.Home id origin ∧
      (ledger ++ (startOrigins id target ++ unwrapOrigins id wrapped))[builder]? = some origin := by
    rcases start with rfl | ⟨rfl, place⟩
    · obtain ⟨origin, home, found⟩ := placed
      exact ⟨origin, home, Origin.kept found⟩
    · exact ⟨_, .own plan placed, place⟩
  have nodeOf : ∀ origin ∈ startOrigins id target ++ unwrapOrigins id wrapped, origin.node = id :=
    fun origin member => by
    rcases Origin.started member with rfl | rfl <;> rfl
  have distinct : (startOrigins id target ++ unwrapOrigins id wrapped).Nodup := by
    cases target <;> cases wrapped <;> simp [startOrigins, unwrapOrigins]
  obtain ⟨origin, home, found⟩ := home
  refine ⟨⟨?_, ?_, ?_, ?_⟩, ?_⟩
  · rw [List.length_append, stands.length, opens.grows.size]
  · refine List.nodup_append.mpr ⟨stands.distinct, distinct, fun other old _ made same => ?_⟩
    exact stands.known other old (by rw [same, nodeOf _ made]; exact new)
  · intro other member
    rw [memo]
    by_cases same : other.node = id
    · simp [same]
    · rw [Function.update_of_ne same]
      rcases List.mem_append.mp member with old | made
      · exact stands.known other old
      · exact absurd (nodeOf other made) same
  · intro other known member
    by_cases same : other = id
    · subst same
      rw [memo, Function.update_self] at member
      cases member
      exact ⟨origin, home, found⟩
    · rw [memo, Function.update_of_ne same] at member
      obtain ⟨origin, home, found⟩ := stands.home other known member
      exact ⟨origin, home, Origin.kept found⟩
  · rcases fill with ⟨rfl, rfl⟩ | ⟨⟨name, rfl⟩, place⟩
    · exact ⟨origin, .own plan home, found⟩
    · exact ⟨_, .item plan, place⟩

end Stage.Ledger

theorem Task.Placed.kept {nodes : Nodes} {ledger made : List Origin} {task : Task} (placed : task.Placed nodes ledger) :
    task.Placed nodes (ledger ++ made) := by
  cases task with
  | derive id target =>
    cases target with
    | none => exact placed
    | some builder =>
      obtain ⟨origin, home, found⟩ := placed
      exact ⟨origin, home, Origin.kept found⟩
  | entry | entries =>
    obtain ⟨origin, fills, found⟩ := placed
    exact ⟨origin, fills, Origin.kept found⟩
  | expand | part | parts => trivial

/-- What a task makes gets origins of its own, for nodes that have no builder or for the task itself. -/
private structure Stage.Enters (nodes : Nodes) (task : Task) (stage : Stage) (ledger : List Origin) (later : Stage)
    (made : List Origin) : Prop where
  stands : later.Ledger nodes (ledger ++ made)
  fresh : ∀ origin ∈ made, stage.memo origin.node = none ∨ origin ∈ task.origins

namespace Stage.Enters
variable {nodes : Nodes} {task inner first second : Task} {stage opened middle later last : Stage}
  {ledger made more : List Origin}

private theorem nothing (stands : stage.Ledger nodes ledger) : Enters nodes task stage ledger stage [] :=
  ⟨(List.append_nil ledger).symm ▸ stands, List.forall_mem_nil _⟩

private theorem within (enters : Enters nodes inner stage ledger later made) (none : inner.origins = [])
    (size : last.size = later.size) (memo : last.memo = later.memo) : Enters nodes task stage ledger last made where
  stands := enters.stands.same size memo
  fresh origin member := Or.inl ((enters.fresh origin member).resolve_right (none ▸ List.not_mem_nil))

private theorem trans (enters : Enters nodes first stage ledger middle made)
    (further : Enters nodes second middle (ledger ++ made) later more)
    (lacks : ∀ id, middle.memo id = none → stage.memo id = none)
    (listed : ∀ origin, origin ∈ first.origins ∨ origin ∈ second.origins → origin ∈ task.origins) :
    Enters nodes task stage ledger later (made ++ more) where
  stands := List.append_assoc ledger made more ▸ further.stands
  fresh origin member := by
    rcases List.mem_append.mp member with member | member
    · exact (enters.fresh origin member).imp_right fun own => listed origin (Or.inl own)
    · exact (further.fresh origin member).imp (lacks _) fun own => listed origin (Or.inr own)

section Opened
variable {id : NodeId} {target : Option BuilderId} {wrapped : Option (Option String)} {builder filled : BuilderId}
  {entries : List Entry}
  (new : stage.memo id = none) (memo : opened.memo = Function.update stage.memo id (some builder))
include new memo

private theorem opened_fresh (stands : stage.Ledger nodes ledger) : ∀ origin ∈ (Task.entries id filled entries).origins,
    origin ∉ ledger ++ (startOrigins id target ++ unwrapOrigins id wrapped) ∧ opened.memo origin.node ≠ none := by
  intro origin member
  obtain ⟨type, rfl⟩ := Task.origins_plain member
  refine ⟨fun old => ?_, by simp [memo, Origin.node]⟩
  rcases List.mem_append.mp old with old | made
  · exact stands.known _ old new
  · rcases Origin.started made with same | same <;> cases same

private theorem derived (enters : Enters nodes (.entries id filled entries) opened
      (ledger ++ (startOrigins id target ++ unwrapOrigins id wrapped)) later made) :
    Enters nodes (.derive id target) stage ledger later
    (startOrigins id target ++ unwrapOrigins id wrapped ++ made) where
  stands := List.append_assoc ledger _ made ▸ enters.stands
  fresh origin member := by
    refine Or.inl ?_
    rcases List.mem_append.mp member with member | member
    · rcases Origin.started member with rfl | rfl <;> exact new
    · rcases enters.fresh origin member with lacking | plain
      · rw [memo] at lacking
        by_cases same : origin.node = id
        · rw [same]
          exact new
        · rwa [Function.update_of_ne same] at lacking
      · obtain ⟨type, rfl⟩ := Task.origins_plain plain
        exact new

end Opened
end Stage.Enters

namespace Run
variable {nodes : Nodes} {busy : List BuilderId} {task : Task} {stage later : Stage} {outcome : Expansion}
  {made : List Origin}

private theorem enters (formed : nodes.Formed) (top : nodes.TypesOnTop)
    (run : Run nodes busy task stage outcome later made) {ledger : List Origin} (whole : stage.Whole)
    (stands : stage.Ledger nodes ledger) (placed : task.Placed nodes ledger) (distinct : task.origins.Nodup)
    (fresh : ∀ origin ∈ task.origins, origin ∉ ledger ∧ stage.memo origin.node ≠ none) :
    Stage.Enters nodes task stage ledger later made := by
  induction run generalizing ledger with
  | known | finished | cut | unresolved | empty => exact .nothing stands
  | shared new plan run ih =>
    have enters := ih whole stands (formed.share_apart plan) .nil (List.forall_mem_nil _)
    obtain ⟨_, ⟨⟩, found⟩ := run.answer
    obtain ⟨origin, home, place⟩ := enters.stands.home _ _ found
    exact ⟨enters.stands.remember (.shared plan home) place, enters.fresh⟩
  | @opened busy id target stage notices wrapped entries builder started filled opened later made new plan
    start unwrap run ih =>
    have opens := Stage.opening whole (placed.inside stands.length) start unwrap
    have memo := Stage.opened_memo start unwrap
    obtain ⟨stood, fills⟩ := stands.opened new plan placed memo opens
    have planned := Nodes.planned_of_plan plan
    exact .derived new memo (ih opens.grows.whole stood fills (planned ▸ nodes.planned_origins id)
      (Stage.Enters.opened_fresh new memo stands))
  | @written busy id builder entry stage later written =>
    have grows : Stage.Growth stage later (some builder) (entry.origins id) :=
      Stage.growth_write whole (placed.inside stands.length _ rfl) written
    exact ⟨stands.grow grows.size (Stage.write_memo written) distinct fresh, fun _ member => Or.inr member⟩
  | ask listed run ih =>
    exact (ih whole stands (formed.ask_apart top listed) .nil (List.forall_mem_nil _)).within rfl
      Builders.size_modify rfl
  | embed listed run ih =>
    obtain ⟨origin, fills, found⟩ := placed
    exact (ih whole stands ⟨origin, fills.home listed, found⟩ .nil (List.forall_mem_nil _)).within rfl rfl rfl
  | append listed run ih =>
    exact (ih whole stands trivial .nil (List.forall_mem_nil _)).within rfl Builders.size_modify rfl
  | @next busy id builder entry entries stage middle later first rest run remaining ih others =>
    have listed (origin : Origin) : origin ∈ (Task.entries id builder (entry :: entries)).origins ↔
        origin ∈ entry.origins id ∨ origin ∈ (Task.entries id builder entries).origins := by
      simp only [Task.origins, List.flatMap_cons, List.mem_append]
    rw [Task.origins, List.flatMap_cons] at distinct
    obtain ⟨head, tail, apart⟩ := List.nodup_append.mp distinct
    have enters := ih whole stands placed head fun origin member => fresh origin ((listed origin).mpr (Or.inl member))
    have grows := run.growth whole (Task.Placed.inside placed stands.length)
    refine enters.trans (others grows.whole enters.stands (Task.Placed.kept placed) tail fun origin member => ?_)
      (fun _ => run.lacks)
      fun origin => (listed origin).mpr
    -- What the other entries name was new before the first one, which made nothing of it.
    obtain ⟨new, known⟩ := fresh origin ((listed origin).mpr (Or.inr member))
    refine ⟨fun old => ?_, fun lacking => known (run.lacks lacking)⟩
    rcases List.mem_append.mp old with old | made
    · exact new old
    · rcases enters.fresh origin made with lacking | own
      · exact known lacking
      · exact apart origin own origin member rfl
  | expanded outside run ih | group listed run ih =>
    exact (ih whole stands trivial .nil (List.forall_mem_nil _)).within rfl rfl rfl
  | leaf isGroup listed run ih =>
    exact (ih whole stands (formed.leaf_apart isGroup listed) .nil (List.forall_mem_nil _)).within rfl rfl rfl
  | more run remaining ih others =>
    have enters := ih whole stands trivial .nil (List.forall_mem_nil _)
    have grows := run.growth whole (by rintro _ ⟨⟩)
    exact enters.trans (others grows.whole enters.stands trivial .nil (List.forall_mem_nil _))
      (fun _ => run.lacks) fun _ none => none.elim id id

/-- Every builder that a run makes has an origin of its own. -/
theorem ledger (formed : nodes.Formed) (top : nodes.TypesOnTop) (run : Run nodes busy task stage outcome later made)
    {ledger : List Origin} (whole : stage.Whole) (stands : stage.Ledger nodes ledger)
    (placed : task.Placed nodes ledger) (distinct : task.origins.Nodup)
    (fresh : ∀ origin ∈ task.origins, origin ∉ ledger ∧ stage.memo origin.node ≠ none) :
    later.Ledger nodes (ledger ++ made) :=
  (run.enters formed top whole stands placed distinct fresh).stands

/-- Builders are made only for nodes that have none, or for the task itself. -/
theorem made_new (formed : nodes.Formed) (top : nodes.TypesOnTop) (run : Run nodes busy task stage outcome later made)
    {ledger : List Origin} (whole : stage.Whole) (stands : stage.Ledger nodes ledger)
    (placed : task.Placed nodes ledger) (distinct : task.origins.Nodup)
    (fresh : ∀ origin ∈ task.origins, origin ∉ ledger ∧ stage.memo origin.node ≠ none) :
    ∀ origin ∈ made, stage.memo origin.node = none ∨ origin ∈ task.origins :=
  (run.enters formed top whole stands placed distinct fresh).fresh

end Run

end SchemaClasses
