import SchemaClasses.Proofs.Derivation.Plan
import SchemaClasses.Proofs.Schema.Formed
import SchemaClasses.Schema.Classes

/-! Derivation as a relation between what is there before and after. Notices are left out, so only the
builders and the memo count. A run also says for which nodes builders were made, in order, and it knows
the builders that are still being filled around it. -/

namespace SchemaClasses

/-- What a builder was made for: a node, one item of a repeated element, or the built-in type that a
node names. -/
inductive Origin where
  | own (id : NodeId)
  | item (id : NodeId)
  | plain (id : NodeId) (type : Builtin)
  deriving DecidableEq

def Origin.node : Origin → NodeId
  | own id | item id | plain id _ => id

structure Stage where
  builders : Builders
  memo : NodeId → Option BuilderId

namespace Stage

def size (stage : Stage) : Nat :=
  stage.builders.size

def edit (stage : Stage) (change : Builders → Builders) : Stage :=
  { stage with builders := change stage.builders }

def remember (stage : Stage) (id : NodeId) (builder : BuilderId) : Stage :=
  { stage with memo := Function.update stage.memo id (some builder) }

def start (stage : Stage) : Option BuilderId → BuilderId × Stage
  | some builder => (builder, stage)
  | none => (stage.size, stage.edit (·.create.2))

def unwrap (stage : Stage) (builder : BuilderId) : Option (Option String) → BuilderId × Stage
  | none => (builder, stage)
  | some name =>
    (stage.size, stage.edit fun builders => builders.create.2.modify builder ((Role.repeated name).link stage.size))

/-- Entries that need no other node are written at once. -/
def write (stage : Stage) (builder : BuilderId) : Entry → Option Stage
  | .mark mark => some (stage.edit (·.modify builder mark.apply))
  | .rules rules => some (stage.edit (·.pushRules builder rules))
  | .plain role type =>
    some (stage.edit fun builders => (builders.createBuiltin type).2.modify builder (role.link stage.size))
  | .notice _ => some stage
  | .ask .. | .embed _ | .append _ => none

def append (stage : Stage) (builder : BuilderId) (content : Expansion) : Stage :=
  stage.edit fun builders =>
    (builders.pushFields builder content.fields).pushRules builder (content.choices.map .choice)

end Stage

def Derivation.stage (derivation : Derivation) : Stage where
  builders := derivation.builders
  memo := derivation.builder?

/-- What is made to begin with the builder of a node. -/
def startOrigins (id : NodeId) : Option BuilderId → List Origin
  | some _ => []
  | none => [.own id]

def unwrapOrigins (id : NodeId) : Option (Option String) → List Origin
  | some _ => [.item id]
  | none => []

def Entry.origins (id : NodeId) : Entry → List Origin
  | plain _ type => [.plain id type]
  | _ => []

/-- What a derivation is made up of: deriving a node, letting a node write entries into a builder, and
expanding groups. -/
inductive Task where
  | derive (id : NodeId) (target : Option BuilderId)
  | entry (id : NodeId) (builder : BuilderId) (entry : Entry)
  | entries (id : NodeId) (builder : BuilderId) (entries : List Entry)
  | expand (path : List NodeId) (id : NodeId)
  | part (path : List NodeId) (part : Part)
  | parts (path : List NodeId) (parts : List Part)

/-- The builder that a task writes into, if it was there before. -/
def Task.target? : Task → Option BuilderId
  | derive _ target => target
  | entry _ builder _ | entries _ builder _ => some builder
  | expand .. | part .. | parts .. => none

namespace Nodes

/-- Adds the options of a choice to what its members stand for. -/
def optioned (nodes : Nodes) (id : NodeId) (stage : Stage) (content : Expansion) : Expansion :=
  if nodes.isSingleChoice id then
    { content with choices := content.choices ++ [content.fields.filterMap stage.builders.fieldName?] }
  else content

end Nodes

/-- How a task goes while the `busy` builders are being filled. The outcome of deriving a node is its
builder as the only field. -/
inductive Run (nodes : Nodes) : List BuilderId → Task → Stage → Expansion → Stage → List Origin → Prop where
  | known {busy id target stage builder} (found : stage.memo id = some builder) :
      Run nodes busy (.derive id target) stage { fields := [builder] } stage []
  | shared {busy id target stage referenced builder later made} (new : stage.memo id = none)
      (plan : nodes.plan id = .share referenced)
      (run : Run nodes busy (.derive referenced none) stage { fields := [builder] } later made) :
      Run nodes busy (.derive id target) stage { fields := [builder] } (later.remember id builder) made
  | opened {busy id target stage notices wrapped entries builder started filled opened later made}
      (new : stage.memo id = none) (plan : nodes.plan id = .build notices wrapped entries)
      (start : stage.start target = (builder, started))
      (unwrap : (started.remember id builder).unwrap builder wrapped = (filled, opened))
      (run : Run nodes (filled :: builder :: busy) (.entries id filled entries) opened {} later made) :
      Run nodes busy (.derive id target) stage { fields := [builder] } later
        (startOrigins id target ++ unwrapOrigins id wrapped ++ made)
  | written {busy id builder entry stage later} (written : stage.write builder entry = some later) :
      Run nodes busy (.entry id builder entry) stage {} later (entry.origins id)
  | ask {busy id builder role asked stage other later made} (listed : .ask role asked ∈ nodes.planned id)
      (run : Run nodes busy (.derive asked none) stage { fields := [other] } later made) :
      Run nodes busy (.entry id builder (.ask role asked)) stage {}
        (later.edit (·.modify builder (role.link other))) made
  | embed {busy id builder inner stage other later made} (listed : .embed inner ∈ nodes.planned id)
      (run : Run nodes busy (.derive inner (some builder)) stage { fields := [other] } later made) :
      Run nodes busy (.entry id builder (.embed inner)) stage {} later made
  | append {busy id builder group stage content later made} (listed : .append group ∈ nodes.planned id)
      (run : Run nodes busy (.expand [] group) stage content later made) :
      Run nodes busy (.entry id builder (.append group)) stage {} (later.append builder content) made
  | finished {busy id builder stage} : Run nodes busy (.entries id builder []) stage {} stage []
  | next {busy id builder entry entries stage middle later first rest}
      (run : Run nodes busy (.entry id builder entry) stage {} middle first)
      (remaining : Run nodes busy (.entries id builder entries) middle {} later rest) :
      Run nodes busy (.entries id builder (entry :: entries)) stage {} later (first ++ rest)
  | cut {busy path id stage} (inside : id ∈ path) : Run nodes busy (.expand path id) stage {} stage []
  | expanded {busy path id stage content later made} (outside : id ∉ path)
      (run : Run nodes busy (.parts (id :: path) (nodes.parts id)) stage content later made) :
      Run nodes busy (.expand path id) stage (nodes.optioned id later content) later made
  | leaf {busy path group id stage content later made} (isGroup : (nodes.kindOf group).isGroup)
      (listed : .leaf id ∈ nodes.parts group)
      (run : Run nodes busy (.derive id none) stage content later made) :
      Run nodes busy (.part (group :: path) (.leaf id)) stage content later made
  | group {busy path outer id stage content later made} (listed : .group id ∈ nodes.parts outer)
      (run : Run nodes busy (.expand (outer :: path) id) stage content later made) :
      Run nodes busy (.part (outer :: path) (.group id)) stage content later made
  | unresolved {busy path notice stage} : Run nodes busy (.part path (.notice notice)) stage {} stage []
  | empty {busy path stage} : Run nodes busy (.parts path []) stage {} stage []
  | more {busy path part parts stage content middle contents later first rest}
      (run : Run nodes busy (.part path part) stage content middle first)
      (remaining : Run nodes busy (.parts path parts) middle contents later rest) :
      Run nodes busy (.parts path (part :: parts)) stage (Expansion.join [content, contents]) later (first ++ rest)

end SchemaClasses
