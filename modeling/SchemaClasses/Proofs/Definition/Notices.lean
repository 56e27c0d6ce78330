import SchemaClasses.Proofs.Derivation.Notices
import SchemaClasses.Proofs.Derivation.Requests
import SchemaClasses.Proofs.Schema.Bounds

/-! What is reported while definitions are made. Each entry of the warnings of a definition is reported as well,
with its class and its kind, so that nothing of what a schema lacks and a class leaves out is lost. -/

namespace SchemaClasses

/-- A notice has the class and the kind that an entry of the warnings of a definition is about. -/
def Notice.TellsOf (notice : Notice) (entry : Definition × String) : Prop :=
  ∃ kind, notice.details = [("class", entry.1.name), ("kind", kind)] ∧
    entry.2 = entry.1.name ++ ": unsupported validation '" ++ kind ++ "' omitted"

open Notice

def Definition.allWarnings (definitions : List Definition) : List (Definition × String) :=
  definitions.flatMap fun definition => definition.warnings.map (definition, ·)

namespace Rendering
variable {style : Style} {builders : Builders} {id : BuilderId} {rendering : Rendering}

theorem ofClass_tells (className : String) (accessors : List Accessor) :
    List.Forall₂ TellsOf (warnings omissionSentences (ofClass style builders id className accessors).notices)
      ((ofClass style builders id className accessors).definition.warnings.map
        ((ofClass style builders id className accessors).definition, ·)) := by
  have unnamed : warnings omissionSentences
      ((unnamed builders (builders.get id).fields).map fun field => .unnamedField className field.text) = [] := by
    refine List.filter_eq_nil_iff.mpr fun notice listed => ?_
    obtain ⟨field, _, rfl⟩ := List.mem_map.mp listed
    simp [omissionSentences, message]
  have omitted (rules : List Rule) :
    warnings omissionSentences (rules.map fun rule => .omittedRule className rule.label) =
      rules.map fun rule => .omittedRule className rule.label := by
    refine List.filter_eq_self.mpr fun notice listed => ?_
    obtain ⟨rule, _, rfl⟩ := List.mem_map.mp listed
    simp [omissionSentences, message, level]
  simp only [ofClass, warnings_append, unnamed, omitted, List.nil_append, List.map_map, List.forall₂_map_left_iff,
    List.forall₂_map_right_iff]
  exact List.forall₂_same.mpr fun rule _ => ⟨rule.label, rfl, rfl⟩

theorem ofBuilder?_tells (rendered : ofBuilder? style builders id = some rendering) :
    List.Forall₂ TellsOf (warnings omissionSentences rendering.notices)
    (rendering.definition.warnings.map (rendering.definition, ·)) := by
  rcases ofBuilder?_eq_some_iff.mp rendered with ⟨_, _, rfl⟩ | ⟨_, className, accessors, _, _, rfl⟩
  · exact .nil
  · exact ofClass_tells className accessors

theorem ofBuilders?_tells {ids : List BuilderId} {renderings : List Rendering}
    (written : ofBuilders? style builders ids = some renderings) :
    List.Forall₂ TellsOf (warnings omissionSentences (renderings.flatMap notices))
      (Definition.allWarnings (renderings.map definition)) := by
  rw [Definition.allWarnings, List.flatMap_map, warnings, List.filter_flatMap]
  have each : List.Forall₂ (fun first second : Rendering => first = second ∧
      List.Forall₂ TellsOf (warnings omissionSentences first.notices)
        (first.definition.warnings.map (first.definition, ·)))
      renderings renderings := by
    refine List.forall₂_same.mpr fun rendering listed => ⟨rfl, ?_⟩
    obtain ⟨id, _, rendered⟩ := List.mem_filterMap.mp (ofBuilders?_eq written ▸ listed)
    exact ofBuilder?_tells rendered
  refine List.rel_flatMap each ?_
  rintro rendering _ ⟨rfl, tells⟩
  exact tells

end Rendering

namespace Derive
variable {before after : Derivation}

theorem reports_notices {notices : List Notice} {result : Unit}
    (gives : (notices.forM report).Gives before result after) :
    after.notices.toList = before.notices.toList ++ notices := by
  induction notices generalizing before with
  | nil =>
    obtain ⟨_, rfl⟩ := Gives.pure gives
    rw [List.append_nil]
  | cons notice notices ih =>
    obtain ⟨_, middle, first, remaining⟩ := Gives.bind gives
    rw [ih remaining, first.report, Derivation.report, Array.toList_push, List.append_assoc]
    rfl

end Derive

namespace Schema
variable {schema : Schema} {style : Style} {before after : Derivation} {definitions : List Definition}

theorem classBuilders_speaks (schema : Schema) : schema.classBuilders.Speaks :=
  ((Recursion.upTo_speaks _).expansion [] schema.root).bind fun _ => .pure _

/-- Whatever was derived before, definitions are made with a warning for each entry of theirs, in the same order. -/
theorem definitions_tell (gives : (schema.definitions style).Gives before definitions after) :
    ∃ said, after.notices.toList = before.notices.toList ++ said ∧
      List.Forall₂ TellsOf (warnings omissionSentences said) (Definition.allWarnings definitions) := by
  obtain ⟨roots, middle, asked, gives⟩ := gives.bind
  obtain ⟨_, _, ⟨⟩, gives⟩ := gives.bind
  obtain ⟨_, _, noticed, gives⟩ := gives.bind
  obtain ⟨renderings, _, lifted, rest⟩ := gives.bind
  obtain ⟨written, rfl⟩ := Derive.Gives.lift_iff.mp lifted
  obtain ⟨_, _, reported, last⟩ := rest.bind
  obtain ⟨rfl, rfl⟩ := last.pure
  obtain ⟨derived, notices, sources⟩ := schema.classBuilders_speaks _ _ _ asked
  have apart : warnings omissionSentences derived = [] := by
    refine @warnings_of_source _ _ .rendering (List.Subset.refl _) fun notice listed => ?_
    rw [sources notice listed]
    decide
  have counted (count : Nat) : warnings omissionSentences [.renderingBuilders count] = [] := rfl
  refine ⟨derived ++ [.renderingBuilders (middle.builders.closure roots).length] ++
    renderings.flatMap Rendering.notices, ?_, ?_⟩
  · rw [Derive.reports_notices reported, noticed.report, Derivation.report, Array.toList_push, notices]
    simp only [List.append_assoc]
  · rw [warnings_append, warnings_append, apart, counted, List.nil_append, List.nil_append]
    exact Rendering.ofBuilders?_tells written

/-- No diagnostic of a schema is lost. When its text is read, as many names are warned of as it has unresolved,
and the same ones, and their number is warned of if there are any. When its definitions are made, whatever was
asked for before, each of their warnings is reported once and in the same order. If no references that are used
once lead in a circle, they are made unless a class has a field whose type has no end. -/
theorem diagnostics_complete {limits : Limits} {bytes : List UInt8}
    (loads : (ofBytes limits bytes).result = .ok schema) :
    ((warnings nameSentences (ofBytes limits bytes).notices).map (·.details.lookup "name")).Perm
        (schema.unresolved.map some) ∧
      ((warnings summarySentences (ofBytes limits bytes).notices).map Notice.details =
        if schema.unresolved = [] then [] else [[("unresolved", toString schema.unresolved.length)]]) ∧
      ∀ style, (∀ before definitions after, (schema.definitions style).Gives before definitions after →
          ∃ said, after.notices.toList = before.notices.toList ++ said ∧
            List.Forall₂ TellsOf (warnings omissionSentences said) (Definition.allWarnings definitions)) ∧
        (schema.nodes.Acyclic → ∀ {before : Derivation}, before.Tenable schema.nodes →
          ((∃ definitions after, (schema.definitions style).Gives before definitions after) ↔
            schema.RenderingEnds before)) := by
  cases read : Document.read limits bytes with
  | error error =>
    rw [ofBytes, read] at loads
    cases loads
  | ok document =>
    have same : ofBytes limits bytes = load limits document (Array.replicate document.size none) := by
      rw [ofBytes, read]
      rfl
    rw [same] at loads ⊢
    obtain ⟨names, summary⟩ := load_reports loads
    have loaded : schema.Loaded := ⟨limits, document, _, loads⟩
    exact ⟨names, summary, fun style =>
      ⟨fun _ _ _ => definitions_tell, fun acyclic _ => definitions_answered loaded acyclic⟩⟩

/-- An element of a type that is not there, and a type with a pattern. -/
def wanting : List UInt8 :=
  Xml.ascii "<schema><element name='a' type='b'/><simpleType name='c'><restriction base='string'><pattern value='x'/></restriction></simpleType></schema>"

def wanted : Schema where
  nodes := #[
    { construct := .schema none, children := [⟨.element, 1⟩, ⟨.simpleType, 2⟩] },
    { parent := some 0, construct := .element { name := some "a", type := some (.named "b") } },
    { parent := some 0, construct := .simpleType (some "c"), children := [⟨.restriction, 3⟩] },
    { parent := some 2, construct := .restriction (some (.builtin .string)) { pattern := some "x" } }]
  root := 0
  declarations := [("a", 1)]

theorem wanted_loads : (ofBytes {} wanting).result = .ok wanted := by
  have parts : (ofBytes {} wanting).result.toOption.map
    (fun schema => (schema.nodes, schema.root, schema.declarations)) =
      some (wanted.nodes, wanted.root, wanted.declarations) := by
    decide +kernel
  rcases outcome : (ofBytes {} wanting).result with error | ⟨nodes, root, declarations⟩
  · rw [outcome] at parts
    cases parts
  · rw [outcome] at parts
    obtain ⟨rfl, rfl, rfl⟩ : nodes = wanted.nodes ∧ root = wanted.root ∧ declarations = wanted.declarations := by
      simpa [Except.toOption] using parts
    rfl

theorem wanted_acyclic : wanted.nodes.Acyclic :=
  Nodes.acyclic_of_all (by decide)

theorem diagnostics_complete_wanting : (ofBytes {} wanting).result = .ok wanted ∧ wanted.nodes.Acyclic ∧
    ((warnings nameSentences (ofBytes {} wanting).notices).map (·.details.lookup "name")).Perm [some "b"] ∧
    (warnings summarySentences (ofBytes {} wanting).notices).map Notice.details = [[("unresolved", "1")]] ∧
    ∃ definitions after said, (wanted.definitions {}).Gives wanted.derivation definitions after ∧
      after.notices.toList = said ∧
      List.Forall₂ TellsOf (warnings omissionSentences said) (Definition.allWarnings definitions) ∧
      (Definition.allWarnings definitions).map Prod.snd = ["C: unsupported validation 'pattern' omitted"] := by
  obtain ⟨names, summary, made⟩ := diagnostics_complete wanted_loads
  have unresolved : wanted.unresolved = ["b"] := by decide
  rw [unresolved] at names summary
  have omitted : ((wanted.definitions {}).run wanted.derivation).map
    (fun outcome => (Definition.allWarnings outcome.1).map Prod.snd) =
      some ["C: unsupported validation 'pattern' omitted"] := by
    cbv
  obtain ⟨⟨definitions, after⟩, gives, omitted⟩ := Option.map_eq_some_iff.mp omitted
  obtain ⟨said, notices, tells⟩ := (made {}).1 _ _ _ gives
  exact ⟨wanted_loads, wanted_acyclic, names, summary, definitions, after, said, gives, notices, tells, omitted⟩

end Schema

end SchemaClasses
