import SchemaClasses.Proofs.Builder.Likeness
import SchemaClasses.Proofs.Derivation.Calls
import SchemaClasses.Proofs.Derivation.Ledger
import SchemaClasses.Proofs.Derivation.Members

/-! What is in a builder once it is filled. Every builder holds what the entries of its origin say, those of
the nodes that fill it included, whatever was derived before and whatever else was being filled. -/

namespace SchemaClasses

/-- Which builders the nodes and the origins have in the end. -/
structure Numbering where
  memo : NodeId → Option BuilderId
  ledger : List Origin

structure Numbering.Above (numbering : Numbering) (stage : Stage) (ledger : List Origin) : Prop where
  memo : ∀ id builder, stage.memo id = some builder → numbering.memo id = some builder
  ledger : ledger <+: numbering.ledger

/-- Entries of a node turn one builder into another, and add rules to it. -/
inductive Written (nodes : Nodes) (numbering : Numbering) :
    NodeId → List Entry → Builder → Builder → List Rule → Prop where
  | done {id builder} : Written nodes numbering id [] builder builder []
  | mark {id mark rest before after rules} (written : Written nodes numbering id rest (mark.apply before) after rules) :
      Written nodes numbering id (.mark mark :: rest) before after rules
  | rules {id pushed rest before after rules} (written : Written nodes numbering id rest before after rules) :
      Written nodes numbering id (.rules pushed :: rest) before after (pushed.filter (!·.isChoice) ++ rules)
  | notice {id notice rest before after rules} (written : Written nodes numbering id rest before after rules) :
      Written nodes numbering id (.notice notice :: rest) before after rules
  | plain {id role type other rest before after rules} (found : numbering.ledger[other]? = some (.plain id type))
      (written : Written nodes numbering id rest (role.link other before) after rules) :
      Written nodes numbering id (.plain role type :: rest) before after rules
  | ask {id role asked other rest before after rules} (found : numbering.memo asked = some other)
      (written : Written nodes numbering id rest (role.link other before) after rules) :
      Written nodes numbering id (.ask role asked :: rest) before after rules
  | append {id group fields rest before after rules}
      (found : fields.map some = (nodes.members [] group).map numbering.memo)
      (written : Written nodes numbering id rest { before with fields := before.fields ++ fields } after rules) :
      Written nodes numbering id (.append group :: rest) before after rules
  | embed {id inner rest before middle after first rules}
      (own : Written nodes numbering inner (nodes.planned inner) before middle first)
      (written : Written nodes numbering id rest middle after rules) :
      Written nodes numbering id (.embed inner :: rest) before after (first ++ rules)

/-- What a builder holds that was made for an origin. -/
inductive Described (nodes : Nodes) (numbering : Numbering) : Origin → Builder → List Rule → Prop where
  | own {id notices entries bag after rules} (plan : nodes.plan id = .build notices none entries)
      (written : Written nodes numbering id entries { bag } after rules) :
      Described nodes numbering (.own id) after rules
  | wrapped {id notices name entries item bag} (plan : nodes.plan id = .build notices (some name) entries)
      (found : numbering.ledger[item]? = some (.item id)) :
      Described nodes numbering (.own id) ((Role.repeated name).link item { bag }) []
  | item {id notices name entries bag after rules} (plan : nodes.plan id = .build notices (some name) entries)
      (written : Written nodes numbering id entries { bag } after rules) :
      Described nodes numbering (.item id) after rules
  | plain {id type bag} : Described nodes numbering (.plain id type) { target := some (.builtin type), bag } []

namespace Described
variable {nodes : Nodes} {numbering : Numbering} {id : NodeId} {builder : Builder} {rules : List Rule}

theorem own_written {notices : BuilderId → List Notice} {entries : List Entry}
    (plan : nodes.plan id = .build notices none entries)
    (described : Described nodes numbering (.own id) builder rules) :
    ∃ bag, Written nodes numbering id (nodes.planned id) { bag } builder rules := by
  cases described with
  | own built written => exact ⟨_, Nodes.planned_of_plan built ▸ written⟩
  | wrapped built =>
    rw [plan] at built
    cases built

theorem item_written (described : Described nodes numbering (.item id) builder rules) :
    ∃ bag, Written nodes numbering id (nodes.planned id) { bag } builder rules := by
  cases described with
  | item built written => exact ⟨_, Nodes.planned_of_plan built ▸ written⟩

end Described

theorem Written.then {nodes : Nodes} {numbering : Numbering} {id : NodeId} {first rest : List Entry}
    {before middle after : Builder} {rules more : List Rule}
    (written : Written nodes numbering id first before middle rules)
    (remaining : Written nodes numbering id rest middle after more) :
    Written nodes numbering id (first ++ rest) before after (rules ++ more) := by
  induction written with
  | done => exact remaining
  | mark _ ih => exact .mark (ih remaining)
  | rules _ ih =>
    rw [List.append_assoc]
    exact .rules (ih remaining)
  | notice _ ih => exact .notice (ih remaining)
  | plain found _ ih => exact .plain found (ih remaining)
  | ask found _ ih => exact .ask found (ih remaining)
  | append found _ ih => exact .append found (ih remaining)
  | embed own _ _ ih =>
    rw [List.append_assoc]
    exact .embed own (ih remaining)

namespace Builders
variable {builders : Builders} {id other : BuilderId}

theorem facets_modify {f : Builder → Builder} (keeps : ∀ builder, (f builder).bag = builder.bag) :
    (builders.modify id f).facets other = builders.facets other := by
  rw [facets, rules_modify keeps, facets]

theorem facets_pushRules (tidy : builders.Tidy) (inside : id < builders.size) {more : List Rule} :
    (builders.pushRules id more).facets id = builders.facets id ++ more.filter (!·.isChoice) := by
  rw [facets, rules_pushRules_same tidy inside, List.filter_append, facets]

end Builders

namespace Nodes

theorem planned_embedded {nodes : Nodes} (formed : nodes.Formed) (id : NodeId) :
    ((nodes.planned id).filterMap Entry.embedded?).Nodup := by
  have quiet {α : Type} (entry : α → Entry) (none : ∀ other, (entry other).embedded? = none) (others : List α) :
      (others.map entry).filterMap Entry.embedded? = [] := by
    simp [List.filterMap_map, none]
  have embedded (ids : List NodeId) : (ids.map Entry.embed).filterMap Entry.embedded? = ids := by
    simp [List.filterMap_map, Function.comp_def, Entry.embedded?]
  have declared (name : Option String) (types : List TypeRef) :
      (types.map (TypeRef.declared name)).filterMap Entry.embedded? = [] :=
    quiet _ (fun type => by cases type <;> rfl) types
  have extended (types : List TypeRef) : (types.map TypeRef.extended).filterMap Entry.embedded? = [] :=
    quiet _ (fun type => by cases type <;> rfl) types
  have model (node : Node) : node.modelEntries.filterMap Entry.embedded? = [] := quiet _ (fun _ => rfl) _
  have attributes (node : Node) : (nodes.attributeEntries node).filterMap Entry.embedded? = [] := by
    simp only [attributeEntries, List.filterMap_append]
    rw [quiet _ (fun _ => rfl), quiet _ (fun _ => rfl)]
    rfl
  have item (node : Node) (type : Option TypeRef) : (node.itemEntries type).filterMap Entry.embedded? = [] := by
    cases type with
    | some type => cases type <;> rfl
    | none => cases child : node.child? .simpleType <;> simp [Node.itemEntries, child, Entry.embedded?]
  have named (names : List String) :
      (names.map fun name => Entry.mark (.className name)).filterMap Entry.embedded? = [] := quiet _ (fun _ => rfl) _
  have asked := quiet (Entry.ask .field) fun _ => rfl
  have appended := quiet Entry.append fun _ => rfl
  -- Children of different kinds are different.
  have children {first second : Kind} (different : first ≠ second) :
      (((nodes.get id).child? first).toList ++ ((nodes.get id).child? second).toList).Nodup := by
    refine List.nodup_append.mpr ⟨?_, ?_, fun left found right other same => different ?_⟩
    · cases (nodes.get id).child? first <;> simp
    · cases (nodes.get id).child? second <;> simp
    · have left := formed.child_kind (mem_childrenOf_of_child? (Option.mem_toList.mp found))
      have right := formed.child_kind (mem_childrenOf_of_child? (Option.mem_toList.mp other))
      rw [← left, same, right]
  have whole : ((nodes.entries id).filterMap Entry.embedded?).Nodup := by
    cases construct : (nodes.get id).construct with
    | element decl =>
      simp only [entries, construct, List.cons_append, List.filterMap_cons, Entry.embedded?, List.filterMap_append,
        declared, embedded, List.nil_append]
      exact children (by decide)
    | attr decl =>
      simp only [entries, construct, List.cons_append, List.filterMap_cons, Entry.embedded?, List.filterMap_append,
        declared, embedded, List.nil_append]
      cases (nodes.get id).child? .simpleType <;> simp
    | complexType name mixed isAbstract =>
      simp only [entries, construct, List.filterMap_append, named, embedded, model, appended, attributes,
        List.nil_append, List.append_nil]
      exact children (by decide)
    | simpleType name =>
      have union : (if ((nodes.get id).child? .union).isSome then [Entry.plain .base .anySimpleType] else []).filterMap
          Entry.embedded? = [] := by split <;> rfl
      simp only [entries, construct, List.filterMap_append, named, embedded, union, List.nil_append, List.append_nil]
      exact children (by decide)
    | simpleContent mixed | complexContent mixed =>
      simp only [entries, construct, embedded]
      exact children (by decide)
    | restriction base facets =>
      simp [entries, construct, extended, model, attributes, asked, List.filterMap_cons, Entry.embedded?]
    | extension base => simp [entries, construct, extended, model, attributes]
    | list itemType => simp [entries, construct, item]
    | union _ => simp [entries, construct, List.filterMap_cons, Entry.embedded?]
    | schema _ | group _ _ _ | attrGroup _ _ | sequence _ | choice _
    | all _ => simp [entries, construct, List.filterMap_cons, Entry.embedded?]
  rcases nodes.planned_cases id with same | same | ⟨_, same⟩ | ⟨_, _, same, _⟩ <;> rw [same]
  · exact whole
  all_goals simp [List.filterMap_cons, Entry.embedded?]

end Nodes

/-- Everything that a task relies on. -/
structure Prepared (nodes : Nodes) (stage : Stage) (ledger : List Origin) (task : Task) : Prop where
  whole : stage.Whole
  stands : stage.Ledger nodes ledger
  folded : stage.Folded nodes
  placed : task.Placed nodes ledger
  proper : task.Proper nodes stage
  distinct : task.origins.Nodup
  fresh : ∀ origin ∈ task.origins, origin ∉ ledger ∧ stage.memo origin.node ≠ none
  apart : task.embedded.Nodup
  lacking : ∀ inner ∈ task.embedded, stage.memo inner = none

namespace Prepared
variable {nodes : Nodes} {stage later : Stage} {ledger made : List Origin} {task : Task} {busy : List BuilderId}
  {outcome : Expansion}

theorem free (prepared : Prepared nodes stage ledger task) {other : Task} (placed : other.Placed nodes ledger)
    (proper : other.Proper nodes stage) (origins : other.origins = []) (embedded : other.embedded = []) :
    Prepared nodes stage ledger other where
  whole := prepared.whole
  stands := prepared.stands
  folded := prepared.folded
  placed := placed
  proper := proper
  distinct := origins ▸ .nil
  fresh := origins ▸ List.forall_mem_nil _
  apart := embedded ▸ .nil
  lacking := embedded ▸ List.forall_mem_nil _

theorem standalone (whole : stage.Whole) (stands : stage.Ledger nodes ledger) (folded : stage.Folded nodes)
    (standalone : task.Standalone nodes) : Prepared nodes stage ledger task := by
  cases task with
  | derive id target =>
    cases target with
    | none => exact ⟨whole, stands, folded, standalone, standalone, .nil, List.forall_mem_nil _, .nil,
      List.forall_mem_nil _⟩
    | some _ => cases standalone
  | expand path id => exact ⟨whole, stands, folded, trivial, trivial, .nil, List.forall_mem_nil _, .nil,
    List.forall_mem_nil _⟩
  | entry | entries | part | parts => cases standalone

theorem grows (prepared : Prepared nodes stage ledger task) (run : Run nodes busy task stage outcome later made) :
    Stage.Growth stage later task.target? made :=
  run.growth prepared.whole (prepared.placed.inside prepared.stands.length)

section Formed
variable (formed : nodes.Formed) (top : nodes.TypesOnTop)
include formed top

theorem after (prepared : Prepared nodes stage ledger task) (run : Run nodes busy task stage outcome later made) :
    later.Ledger nodes (ledger ++ made) :=
  run.ledger formed top prepared.whole prepared.stands prepared.placed prepared.distinct prepared.fresh

omit top in
theorem filled {id : NodeId} {target : Option BuilderId} {notices : BuilderId → List Notice}
    {wrapped : Option (Option String)} {entries : List Entry} {builder filled : BuilderId} {started opened : Stage}
    (prepared : Prepared nodes stage ledger (.derive id target)) (new : stage.memo id = none)
    (plan : nodes.plan id = .build notices wrapped entries) (start : stage.start target = (builder, started))
    (unwrap : (started.remember id builder).unwrap builder wrapped = (filled, opened)) :
    Prepared nodes opened (ledger ++ (startOrigins id target ++ unwrapOrigins id wrapped))
    (.entries id filled entries) := by
  have opens := Stage.opening prepared.whole (prepared.placed.inside prepared.stands.length) start unwrap
  have memo := Stage.opened_memo start unwrap
  have planned := Nodes.planned_of_plan plan
  obtain ⟨stands, placed⟩ := prepared.stands.opened new plan prepared.placed memo opens
  have known : opened.memo id ≠ none := by rw [memo, Function.update_self]; exact Option.some_ne_none _
  have listed {inner : NodeId} (member : inner ∈ entries.filterMap Entry.embedded?) : nodes.Embeds id inner := by
    obtain ⟨entry, member, embedded⟩ := List.mem_filterMap.mp member
    cases entry <;> cases embedded
    rw [Nodes.Embeds, planned]
    exact member
  refine ⟨opens.grows.whole, stands, prepared.folded.opened formed new prepared.proper memo, placed,
    ⟨known, planned ▸ fun _ member => member⟩, planned ▸ nodes.planned_origins id, ?_,
    planned ▸ Nodes.planned_embedded formed id, ?_⟩
  · intro origin member
    obtain ⟨entry, _, member⟩ := List.mem_flatMap.mp member
    obtain ⟨type, rfl⟩ := Entry.origins_plain member
    refine ⟨fun old => ?_, known⟩
    rcases List.mem_append.mp old with old | started
    · exact prepared.stands.known _ old new
    · cases target <;> cases wrapped <;> simp [startOrigins, unwrapOrigins] at started
  · intro inner member
    have embeds := listed member
    rw [memo, Function.update_of_ne (Nat.ne_of_gt (formed.embeds_after embeds))]
    exact prepared.folded id inner embeds new

section Entries
variable {id : NodeId} {builder : BuilderId} {entry : Entry} {entries : List Entry}
  (prepared : Prepared nodes stage ledger (.entries id builder (entry :: entries)))
include prepared

omit formed top in
theorem first : Prepared nodes stage ledger (.entry id builder entry) where
  whole := prepared.whole
  stands := prepared.stands
  folded := prepared.folded
  placed := prepared.placed
  proper := prepared.proper.1
  distinct := by
    have distinct := prepared.distinct
    rw [Task.origins, List.flatMap_cons] at distinct
    exact (List.nodup_append.mp distinct).1
  fresh origin member := prepared.fresh origin (by
    rw [Task.origins, List.flatMap_cons]
    exact List.mem_append_left _ member)
  apart := by cases entry <;> simp [Task.embedded, Entry.embedded?]
  lacking inner member := prepared.lacking inner
    (List.mem_filterMap.mpr ⟨entry, List.mem_cons_self, Option.mem_toList.mp member⟩)

theorem rest (run : Run nodes busy (.entry id builder entry) stage outcome later made) :
    Prepared nodes later (ledger ++ made) (.entries id builder entries) := by
  have distinct := prepared.distinct
  rw [Task.origins, List.flatMap_cons] at distinct
  obtain ⟨_, tail, different⟩ := List.nodup_append.mp distinct
  have own := prepared.first
  have made := run.made_new formed top own.whole own.stands own.placed own.distinct own.fresh
  have kept {id : NodeId} (known : stage.memo id ≠ none) : later.memo id ≠ none :=
    fun lacking => known (run.lacks lacking)
  have listed {origin : Origin} (member : origin ∈ entries.flatMap (Entry.origins id)) :
      origin ∈ (Task.entries id builder (entry :: entries)).origins := by
    rw [Task.origins, List.flatMap_cons]
    exact List.mem_append_right _ member
  refine ⟨(own.grows run).whole, own.after formed top run, run.folded formed top own.proper own.folded,
    prepared.placed.kept,
    ⟨kept prepared.proper.1, fun other member => prepared.proper.2 other (List.mem_cons_of_mem _ member)⟩,
    tail, ?_, ?_, ?_⟩
  · intro origin member
    obtain ⟨new, known⟩ := prepared.fresh origin (listed member)
    refine ⟨fun old => ?_, kept known⟩
    rcases List.mem_append.mp old with old | started
    · exact new old
    · rcases made origin started with lacking | first
      · exact known lacking
      · exact different origin first origin member rfl
  · have apart := prepared.apart
    simp only [Task.embedded, List.filterMap_cons] at apart ⊢
    split at apart
    · exact apart
    · exact (List.nodup_cons.mp apart).2
  · intro inner member
    have lacking : stage.memo inner = none := by
      refine prepared.lacking inner ?_
      obtain ⟨other, member, embedded⟩ := List.mem_filterMap.mp member
      exact List.mem_filterMap.mpr ⟨other, List.mem_cons_of_mem _ member, embedded⟩
    have embeds : nodes.Embeds id inner := by
      obtain ⟨other, member, embedded⟩ := List.mem_filterMap.mp member
      cases other <;> cases embedded
      exact prepared.proper.2 _ (List.mem_cons_of_mem _ member)
    refine run.lacks_embedded formed top own.proper own.folded embeds prepared.proper.1 lacking fun first => ?_
    have apart := prepared.apart
    have embedded := Option.mem_toList.mp first
    simp only [Task.embedded, List.filterMap_cons, Option.mem_def.mp embedded] at apart
    exact (List.nodup_cons.mp apart).1 member

end Entries

end Formed
end Prepared

/-- The entries that a task writes into a builder that is there. -/
def Task.content? (nodes : Nodes) : Task → Option (NodeId × BuilderId × List Entry)
  | .derive id (some builder) => some (id, builder, nodes.planned id)
  | .entry id builder single => some (id, builder, [single])
  | .entries id builder several => some (id, builder, several)
  | _ => none

/-- A builder holds what its origin says. -/
def Stage.Describes (nodes : Nodes) (numbering : Numbering) (stage : Stage) (builder : BuilderId) : Prop :=
  ∀ origin, numbering.ledger[builder]? = some origin →
    Described nodes numbering origin (stage.builders.get builder) (stage.builders.facets builder)

structure Filled (nodes : Nodes) (numbering : Numbering) (task : Task) (stage later : Stage) : Prop where
  written : ∀ id builder entries, task.content? nodes = some (id, builder, entries) →
    ∃ rules, Written nodes numbering id entries (stage.builders.get builder) (later.builders.get builder) rules ∧
      later.builders.facets builder = stage.builders.facets builder ++ rules
  made : ∀ builder, stage.size ≤ builder → builder < later.size → later.Describes nodes numbering builder

section Frame
variable {nodes : Nodes} {numbering : Numbering} {stage later : Stage} {target : Option BuilderId} {made : List Origin}
  {builder : BuilderId}

theorem Stage.Growth.facets (grows : Growth stage later target made) (inside : builder < stage.size)
    (other : target ≠ some builder) : later.builders.facets builder = stage.builders.facets builder := by
  rw [Builders.facets, grows.rules builder inside other, Builders.facets]

theorem Stage.Describes.kept (describes : stage.Describes nodes numbering builder)
    (grows : Growth stage later target made) (inside : builder < stage.size) (other : target ≠ some builder) :
    later.Describes nodes numbering builder := by
  intro origin found
  rw [grows.get builder inside other, grows.facets inside other]
  exact describes origin found

theorem made_nothing (same : later.size = stage.size) (builder : BuilderId) (large : stage.size ≤ builder)
    (small : builder < later.size) : later.Describes nodes numbering builder :=
  absurd (same ▸ small) (Nat.not_lt.mpr large)

theorem Numbering.Above.before {busy : List BuilderId} {task : Task} {middle : Stage} {outcome : Expansion}
    {ledger : List Origin} (above : numbering.Above later (ledger ++ made))
    (run : Run nodes busy task middle outcome later made) :
    numbering.Above middle ledger where
  memo id builder found := above.memo id builder (run.keeps found)
  ledger := (List.prefix_append _ _).trans above.ledger

theorem Numbering.Above.refl {ledger : List Origin} : Numbering.Above ⟨stage.memo, ledger⟩ stage ledger :=
  ⟨fun _ _ found => found, List.prefix_refl _⟩

theorem Numbering.Above.at {ledger : List Origin} {origin : Origin} (above : numbering.Above stage ledger)
    (found : ledger[builder]? = some origin) : numbering.ledger[builder]? = some origin := by
  obtain ⟨more, whole⟩ := above.ledger
  rw [← whole]
  exact Origin.kept found

theorem Builders.facets_of_rules {builders : Builders} {builder : BuilderId} (empty : builders.rules builder = []) :
    builders.facets builder = [] := by
  rw [Builders.facets, empty]
  rfl

end Frame

theorem Stage.Ledger.shared {nodes : Nodes} {stage : Stage} {ledger : List Origin} (formed : nodes.Formed)
    (stands : stage.Ledger nodes ledger) {id referenced : NodeId} {builder other : BuilderId}
    (plan : nodes.plan id = .share referenced) (found : stage.memo referenced = some builder)
    (known : stage.memo id = some other) : other = builder := by
  obtain ⟨origin, home, place⟩ := stands.home referenced builder found
  obtain ⟨same, shared, stood⟩ := stands.home id other known
  cases shared.unique formed (.shared plan home)
  exact (List.getElem?_inj (List.getElem?_eq_some_iff.mp stood).1 stands.distinct).mp (stood.trans place.symm)

namespace Run
variable {nodes : Nodes} {numbering : Numbering} {busy : List BuilderId} {task : Task} {stage later : Stage}
  {outcome : Expansion} {made ledger : List Origin}

private theorem write_filled {id : NodeId} {builder : BuilderId} {entry : Entry} (whole : stage.Whole)
    (inside : builder < stage.size) (length : ledger.length = stage.size)
    (written : stage.write builder entry = some later) (above : numbering.Above later (ledger ++ entry.origins id)) :
    Filled nodes numbering (.entry id builder entry) stage later := by
  cases entry with
  | mark mark =>
    cases written
    refine ⟨?_, made_nothing Builders.size_modify⟩
    rintro _ _ _ ⟨⟩
    refine ⟨[], ?_, by rw [List.append_nil]; exact Builders.facets_modify mark.apply_bag⟩
    rw [Stage.edit, Builders.get_modify_same inside]
    exact .mark .done
  | rules rules =>
    cases written
    refine ⟨?_, made_nothing rfl⟩
    rintro _ _ _ ⟨⟩
    refine ⟨_, .rules .done, ?_⟩
    rw [List.append_nil]
    exact Builders.facets_pushRules whole.tidy inside
  | plain role type =>
    cases written
    have place : numbering.ledger[stage.size]? = some (.plain id type) := above.at (by
      rw [← length, List.getElem?_append_right (Nat.le_refl _), Nat.sub_self]
      rfl)
    have created := Stage.growth_create whole { target := some (.builtin type) } (.plain id type)
    constructor
    · rintro _ _ _ ⟨⟩
      refine ⟨[], ?_, ?_⟩
      · rw [Stage.get_plain inside]
        exact .plain place .done
      · rw [List.append_nil]
        exact (Builders.facets_modify (Role.link_bag _ _)).trans (created.facets inside (Option.some_ne_none _).symm)
    · intro other large small
      have same : other = stage.size := by
        have small : other < ((stage.builders.createBuiltin type).2.modify builder (role.link stage.size)).size := small
        rw [Builders.size_modify, Builders.createBuiltin, Builders.size_create] at small
        exact Nat.le_antisymm (Nat.le_of_lt_succ small) large
      subst same
      intro origin found
      rw [place] at found
      cases found
      have different : stage.size ≠ builder := Nat.ne_of_gt inside
      have get : (stage.edit fun builders =>
          (builders.createBuiltin type).2.modify builder (role.link stage.size)).builders.get stage.size =
            { target := some (.builtin type), bag := stage.size } := by
        rw [Stage.edit, Builders.get_modify_other different]
        exact Builders.get_create_new whole.tidy
      have facets : (stage.edit fun builders =>
          (builders.createBuiltin type).2.modify builder (role.link stage.size)).builders.facets stage.size = [] :=
        (Builders.facets_modify (Role.link_bag _ _)).trans
          (Builders.facets_of_rules (Builders.rules_create_new whole.tidy))
      rw [get, facets]
      exact .plain
  | notice _ =>
    cases written
    refine ⟨?_, made_nothing rfl⟩
    rintro _ _ _ ⟨⟩
    exact ⟨[], .notice .done, by rw [List.append_nil]⟩
  | ask _ _ | embed _ | append _ => cases written

private theorem changed_filled {id : NodeId} {builder : BuilderId} {inner : Task} {entry : Entry} {changed : Stage}
    (filled : Filled nodes numbering inner stage later) (inside : builder < stage.size)
    (changes : Stage.Growth later changed (some builder) [])
    (written : Written nodes numbering id [entry] (stage.builders.get builder) (changed.builders.get builder) [])
    (facets : changed.builders.facets builder = stage.builders.facets builder) :
    Filled nodes numbering (.entry id builder entry) stage changed := by
  constructor
  · rintro _ _ _ ⟨⟩
    exact ⟨[], written, by rw [facets, List.append_nil]⟩
  · intro other large small
    have small : other < later.size := Nat.lt_of_lt_of_eq small changes.size
    refine (filled.made other large small).kept changes small fun same => ?_
    cases same
    exact absurd inside (Nat.not_lt.mpr large)

private theorem ask_filled {id asked : NodeId} {builder other : BuilderId} {role : Role} {inner : Task}
    (filled : Filled nodes numbering inner stage later) (grows : Stage.Growth stage later none made)
    (inside : builder < stage.size) (found : numbering.memo asked = some other) :
    Filled nodes numbering (.entry id builder (.ask role asked)) stage
    (later.edit (·.modify builder (role.link other))) := by
  refine changed_filled filled inside (Stage.growth_modify grows.whole (Role.link_bag role other)) ?_ ?_
  · rw [grows.get_link inside]
    exact .ask found .done
  · exact (Builders.facets_modify (Role.link_bag _ _)).trans (grows.facets inside (Option.some_ne_none _).symm)

private theorem append_filled {id group : NodeId} {builder : BuilderId} {content : Expansion} {inner : Task}
    (filled : Filled nodes numbering inner stage later) (grows : Stage.Growth stage later none made)
    (inside : builder < stage.size) (found : content.fields.map some = (nodes.members [] group).map numbering.memo) :
    Filled nodes numbering (.entry id builder (.append group)) stage (later.append builder content) := by
  have larger := Nat.lt_of_lt_of_le inside grows.le
  refine changed_filled filled inside (Stage.growth_append grows.whole larger) ?_ ?_
  · rw [grows.get_append inside]
    exact .append found .done
  · have choices : (content.choices.map Rule.choice).filter (!·.isChoice) = [] := by
      simp [List.filter_eq_nil_iff, Rule.isChoice]
    have tidy : (later.builders.pushFields builder content.fields).Tidy := grows.whole.tidy.modify fun _ => rfl
    have within : builder < (later.builders.pushFields builder content.fields).size :=
      Nat.lt_of_lt_of_eq larger Builders.size_modify.symm
    have pushed : (later.builders.pushFields builder content.fields).facets builder = later.builders.facets builder :=
      Builders.facets_modify fun _ => rfl
    rw [Stage.append, Stage.edit, Builders.facets_pushRules tidy within, choices, List.append_nil, pushed]
    exact grows.facets inside (Option.some_ne_none _).symm

theorem numbered (run : Run nodes busy task stage outcome later made) (above : numbering.Above later ledger) :
    outcome.fields.map some = (task.members nodes).map numbering.memo := by
  have fields := run.fields
  refine fields.trans (List.map_congr_left fun member listed => ?_)
  have known : later.memo member ∈ outcome.fields.map some := fields ▸ List.mem_map_of_mem listed
  obtain ⟨builder, _, found⟩ := List.mem_map.mp known
  exact found.symm.trans (above.memo member builder found.symm).symm

section Opened
variable {id : NodeId} {notices : BuilderId → List Notice} {wrapped : Option (Option String)} {entries : List Entry}
  {builder filled : BuilderId} {started opened : Stage} (plan : nodes.plan id = .build notices wrapped entries)
include plan

/-- A builder that is opened for a node is described by what is written into it, and one around it by what it wraps. -/
private theorem opened_describes (start : stage.start none = (builder, started))
    (unwrap : (started.remember id builder).unwrap builder wrapped = (filled, opened)) (whole : stage.Whole)
    (length : ledger.length = stage.size) (opens : Stage.Opening stage id none wrapped builder filled opened)
    (grows : Stage.Growth opened later (some filled) made)
    (above : ∀ (builder : BuilderId) (origin : Origin),
      (ledger ++ (startOrigins id none ++ unwrapOrigins id wrapped))[builder]? = some origin →
        numbering.ledger[builder]? = some origin)
    (inner : Filled nodes numbering (.entries id filled entries) opened later) {other : BuilderId}
    (large : stage.size ≤ other) (small : other < opened.size) : later.Describes nodes numbering other := by
  obtain ⟨rules, written, pushed⟩ := inner.written id filled entries rfl
  obtain ⟨fresh, empty, outside⟩ := Stage.opened_new whole start unwrap
  rw [fresh] at written
  rw [Builders.facets_of_rules empty, List.nil_append] at pushed
  have size := opens.grows.size
  have first : builder = stage.size := (opens.start.resolve_left (Option.some_ne_none _).symm).2
  have own : numbering.ledger[stage.size]? = some (.own id) := above _ _ (by
    rw [List.getElem?_append_right (Nat.le_of_eq length), length, Nat.sub_self]
    rfl)
  rcases outside with rfl | ⟨name, rfl, linked, bare⟩
  · obtain ⟨_, rfl⟩ : _ ∧ filled = builder := opens.fill.resolve_right (by rintro ⟨⟨_, ⟨⟩⟩, _⟩)
    have small : other < stage.size + 1 := Nat.lt_of_lt_of_eq small size
    have same : other = filled := first ▸ Nat.le_antisymm (Nat.le_of_lt_succ small) large
    intro origin found
    rw [same, first, own] at found
    cases found
    rw [same, pushed]
    exact .own plan written
  · obtain ⟨_, last⟩ : _ ∧ filled = stage.size + 1 := opens.fill.resolve_left (by rintro ⟨⟨⟩, _⟩)
    have item : numbering.ledger[filled]? = some (.item id) := above _ _ (by
      rw [last, List.getElem?_append_right (by rw [length]; exact Nat.le_add_right _ _), length,
        Nat.add_sub_cancel_left]
      rfl)
    have inside : builder < opened.size := by rw [first, size]; exact Nat.lt_add_of_pos_right (Nat.succ_pos _)
    have different : some filled ≠ some builder := fun same => by
      rw [last, first] at same
      exact Nat.succ_ne_self _ (Option.some.inj same)
    intro origin found
    rcases Nat.eq_or_lt_of_le large with same | larger
    · rw [← same, own] at found
      cases found
      rw [← same, ← first, grows.get builder inside different, grows.facets inside different, linked,
        Builders.facets_of_rules bare]
      exact .wrapped plan item
    · have small : other < stage.size + 1 + 1 := Nat.lt_of_lt_of_eq small size
      have same : other = filled := last ▸ Nat.le_antisymm (Nat.le_of_lt_succ small) larger
      rw [same, item] at found
      cases found
      rw [same, pushed]
      exact .item plan written

private theorem opened_filled (formed : nodes.Formed) {target : Option BuilderId}
    (start : stage.start target = (builder, started))
    (unwrap : (started.remember id builder).unwrap builder wrapped = (filled, opened))
    (opens : Stage.Opening stage id target wrapped builder filled opened)
    (prepared : Prepared nodes stage ledger (.derive id target))
    (grows : Stage.Growth opened later (some filled) made) (above : ∀ (builder : BuilderId) (origin : Origin),
      (ledger ++ (startOrigins id target ++ unwrapOrigins id wrapped))[builder]? = some origin →
        numbering.ledger[builder]? = some origin)
    (inner : Filled nodes numbering (.entries id filled entries) opened later) :
    Filled nodes numbering (.derive id target) stage later := by
  cases target with
  | some target =>
    obtain ⟨outer, embeds, _⟩ := prepared.proper
    obtain ⟨_, own⟩ := formed.embedded_plan ⟨outer, embeds⟩
    rw [plan] at own
    cases own
    cases start
    cases unwrap
    refine ⟨?_, inner.made⟩
    rintro _ _ _ ⟨⟩
    rw [Nodes.planned_of_plan plan]
    exact inner.written id _ _ rfl
  | none =>
    refine ⟨by rintro _ _ _ ⟨⟩, fun other large small => ?_⟩
    by_cases old : other < opened.size
    · exact opened_describes plan start unwrap prepared.whole prepared.stands.length opens grows above inner large old
    · exact inner.made other (Nat.not_lt.mp old) small

end Opened

/-- What is made before and after some stage, by a task that fills no other builder than one that was there. -/
private theorem made_then {middle : Stage} {target : Option BuilderId} (grows : Stage.Growth middle later target made)
    (behind : ∀ builder, target = some builder → builder < stage.size)
    (first : ∀ builder, stage.size ≤ builder → builder < middle.size → middle.Describes nodes numbering builder)
    (rest : ∀ builder, middle.size ≤ builder → builder < later.size → later.Describes nodes numbering builder)
    (builder : BuilderId) (large : stage.size ≤ builder) (small : builder < later.size) :
    later.Describes nodes numbering builder := by
  by_cases old : builder < middle.size
  · exact (first builder large old).kept grows old fun same => absurd (behind builder same) (Nat.not_lt.mpr large)
  · exact rest builder (Nat.not_lt.mp old) small

private theorem shared_filled {id referenced : NodeId} {target : Option BuilderId} {builder : BuilderId}
    (formed : nodes.Formed) (plan : nodes.plan id = .share referenced)
    (prepared : Prepared nodes stage ledger (.derive id target))
    (inner : Filled nodes numbering (.derive referenced none) stage later) :
    Filled nodes numbering (.derive id target) stage (later.remember id builder) := by
  refine ⟨?_, inner.made⟩
  rintro _ _ _ content
  cases target with
  | none => cases content
  | some _ =>
    obtain ⟨outer, embeds, _⟩ := prepared.proper
    exact absurd ⟨outer, embeds⟩ (formed.share_not_embedded plan)

/-- A node that shares its builder had that one already, if it had any, when the other got it. -/
private theorem shared_above {id referenced : NodeId} {builder : BuilderId} (formed : nodes.Formed)
    (plan : nodes.plan id = .share referenced) (stands : later.Ledger nodes ledger)
    (found : later.memo referenced = some builder) (above : numbering.Above (later.remember id builder) ledger) :
    numbering.Above later ledger := by
  refine ⟨fun other known member => above.memo other known ?_, above.ledger⟩
  by_cases same : other = id
  · subst same
    rw [stands.shared formed plan found member]
    exact Function.update_self _ _ _
  · simpa only [Stage.remember, Function.update_of_ne same] using member

private theorem next_filled {id : NodeId} {builder : BuilderId} {entry : Entry} {entries : List Entry} {middle : Stage}
    (first : Filled nodes numbering (.entry id builder entry) stage middle)
    (rest : Filled nodes numbering (.entries id builder entries) middle later)
    (grows : Stage.Growth middle later (some builder) made) (inside : builder < stage.size) :
    Filled nodes numbering (.entries id builder (entry :: entries)) stage later := by
  refine ⟨?_, made_then grows (fun _ same => Option.some.inj same ▸ inside) first.made rest.made⟩
  rintro _ _ _ ⟨⟩
  obtain ⟨rules, written, pushed⟩ := first.written id builder _ rfl
  obtain ⟨more, remaining, added⟩ := rest.written id builder _ rfl
  exact ⟨rules ++ more, written.then remaining, by rw [added, pushed, List.append_assoc]⟩

/-- What a run fills holds what the schema says, and so does all that it makes on the way. -/
theorem filled (formed : nodes.Formed) (top : nodes.TypesOnTop) (run : Run nodes busy task stage outcome later made)
    (prepared : Prepared nodes stage ledger task) (above : numbering.Above later (ledger ++ made)) :
    Filled nodes numbering task stage later := by
  induction run generalizing ledger with
  | @known busy id target stage builder found =>
    refine ⟨?_, made_nothing rfl⟩
    rintro _ _ _ content
    cases target with
    | none => cases content
    | some _ =>
      rw [prepared.lacking id List.mem_cons_self] at found
      cases found
  | @shared busy id target stage referenced builder later made new plan run ih =>
    have inner : Prepared nodes stage ledger (.derive referenced none) :=
      prepared.free (formed.share_apart plan) (formed.share_apart plan) rfl rfl
    obtain ⟨_, ⟨⟩, found⟩ := run.answer
    exact shared_filled formed plan prepared
      (ih inner (shared_above formed plan (inner.after formed top run) found above))
  | @opened busy id target stage notices wrapped entries builder started filled opened later made new plan
    start unwrap run ih =>
    have opens := Stage.opening prepared.whole (prepared.placed.inside prepared.stands.length) start unwrap
    have inner := prepared.filled formed new plan start unwrap
    rw [← List.append_assoc] at above
    exact opened_filled plan formed start unwrap opens prepared (inner.grows run)
      (fun _ _ => (above.before run).at) (ih inner above)
  | @written busy id builder entry stage later written =>
    have inside := prepared.placed.inside prepared.stands.length builder rfl
    exact write_filled prepared.whole inside prepared.stands.length written above
  | @ask busy id builder role asked stage other later made listed run ih =>
    have apart := formed.ask_apart top listed
    have inner : Prepared nodes stage ledger (.derive asked none) := prepared.free apart apart rfl rfl
    have inside := prepared.placed.inside prepared.stands.length builder rfl
    obtain ⟨_, ⟨⟩, found⟩ := run.answer
    exact ask_filled (ih inner ⟨above.memo, above.ledger⟩) (inner.grows run) inside (above.memo _ _ found)
  | @embed busy id builder inner stage other later made listed run ih =>
    obtain ⟨origin, fills, found⟩ := prepared.placed
    have task : Prepared nodes stage ledger (.derive inner (some builder)) :=
      ⟨prepared.whole, prepared.stands, prepared.folded, ⟨origin, fills.home listed, found⟩,
        ⟨id, listed, prepared.proper⟩, .nil, List.forall_mem_nil _, prepared.apart, prepared.lacking⟩
    obtain ⟨written, filled⟩ := ih task above
    refine ⟨?_, filled⟩
    rintro _ _ _ ⟨⟩
    obtain ⟨rules, written, pushed⟩ := written inner builder _ rfl
    exact ⟨rules, by simpa using Written.embed written .done, pushed⟩
  | @append busy id builder group stage content later made listed run ih =>
    have inner : Prepared nodes stage ledger (.expand [] group) := prepared.free trivial trivial rfl rfl
    have inside := prepared.placed.inside prepared.stands.length builder rfl
    have before : numbering.Above later (ledger ++ made) := ⟨above.memo, above.ledger⟩
    exact append_filled (ih inner before) (inner.grows run) inside (run.numbered before)
  | finished =>
    refine ⟨?_, made_nothing rfl⟩
    rintro _ _ _ ⟨⟩
    exact ⟨[], .done, by rw [List.append_nil]⟩
  | @next busy id builder entry entries stage middle later first rest run remaining ih others =>
    have task := prepared.rest formed top run
    have inside := prepared.placed.inside prepared.stands.length builder rfl
    rw [← List.append_assoc] at above
    exact next_filled (ih prepared.first (above.before remaining)) (others task above) (task.grows remaining) inside
  | @expanded busy path id stage content later made outside run ih =>
    have inner : Prepared nodes stage ledger (.parts (id :: path) (nodes.parts id)) :=
      prepared.free trivial trivial rfl rfl
    exact ⟨by rintro _ _ _ ⟨⟩, (ih inner above).made⟩
  | @group busy path outer id stage content later made listed run ih =>
    have inner : Prepared nodes stage ledger (.expand (outer :: path) id) := prepared.free trivial trivial rfl rfl
    exact ⟨by rintro _ _ _ ⟨⟩, (ih inner above).made⟩
  | @leaf busy path group id stage content later made isGroup listed run ih =>
    have apart := formed.leaf_apart isGroup listed
    have inner : Prepared nodes stage ledger (.derive id none) := prepared.free apart apart rfl rfl
    exact ⟨by rintro _ _ _ ⟨⟩, (ih inner above).made⟩
  | cut | unresolved | empty => exact ⟨by rintro _ _ _ ⟨⟩, made_nothing rfl⟩
  | @more busy path part parts stage content middle contents later first rest run remaining ih others =>
    have first : Prepared nodes stage ledger (.part path part) := prepared.free trivial trivial rfl rfl
    rw [← List.append_assoc] at above
    have task : Prepared nodes middle _ (.parts path parts) :=
      ⟨(first.grows run).whole, first.after formed top run, run.folded formed top trivial prepared.folded, trivial,
        trivial, .nil, List.forall_mem_nil _, .nil, List.forall_mem_nil _⟩
    have made := made_then (task.grows remaining) (by rintro _ ⟨⟩) (ih first (above.before remaining)).made
      (others task above).made
    exact ⟨by rintro _ _ _ ⟨⟩, made⟩

end Run

namespace Derived
variable {nodes : Nodes} {stage : Stage} {ledger : List Origin} (formed : nodes.Formed) (top : nodes.TypesOnTop)
include formed top

theorem prepared (derived : Derived nodes stage ledger) {task : Task} (standalone : task.Standalone nodes) :
    Prepared nodes stage ledger task := by
  induction derived generalizing task with
  | start =>
    refine .standalone .empty ⟨rfl, .nil, List.forall_mem_nil _, fun _ _ found => ?_⟩ (fun _ _ _ _ => rfl) standalone
    exact absurd found.symm (Option.some_ne_none _)
  | more derived run first ih =>
    have before := ih first
    exact .standalone (before.grows run).whole (before.after formed top run)
      (run.folded formed top before.proper before.folded) standalone

theorem stands (derived : Derived nodes stage ledger) : stage.Ledger nodes ledger := by
  have standalone : (Task.expand [] 0).Standalone nodes := trivial
  exact (derived.prepared formed top standalone).stands

/-- Whatever was derived in whatever order, every builder holds what its origin says. -/
theorem describes (derived : Derived nodes stage ledger) {numbering : Numbering} (above : numbering.Above stage ledger)
    {builder : BuilderId} (inside : builder < stage.size) : stage.Describes nodes numbering builder := by
  induction derived with
  | start => exact absurd inside (Nat.not_lt_zero _)
  | @more stage ledger task outcome later made derived run standalone ih =>
    have prepared := derived.prepared formed top standalone
    by_cases old : builder < stage.size
    · have describes := ih (above.before run) old
      exact describes.kept (prepared.grows run) old (standalone.target ▸ (Option.some_ne_none _).symm)
    · exact (run.filled formed top prepared above).made builder (Nat.not_lt.mp old) inside

end Derived

end SchemaClasses
