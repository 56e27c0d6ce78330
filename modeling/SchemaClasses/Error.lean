import SchemaClasses.Xml.Fault

/-! The failures that stop a phase of the work. What is merely dropped or left unresolved is not an
error but a notice. -/

namespace SchemaClasses

/-- The families of errors, each with its own way to put what went wrong. -/
inductive ErrorKind where
  | parse
  | unresolvedReference
  | undeclaredElement
  | value
  | limitExceeded
  | io
  | xml
  deriving DecidableEq

/-- The sentence for an error of a family about `subject`. -/
def ErrorKind.sentence (kind : ErrorKind) (subject : String) : String :=
  match kind with
  | .parse => "parse error: " ++ subject
  | .unresolvedReference => "unresolved reference: '" ++ subject ++ "'"
  | .undeclaredElement => "element '" ++ subject ++ "' is not declared in the schema"
  | .value => "value error: " ++ subject
  | .limitExceeded => "limit exceeded: " ++ subject
  | .io => "I/O error: " ++ subject
  | .xml => "XML error: " ++ subject

/-- A complaint about a schema, with the place and the source text it is about where known. -/
structure Complaint where
  message : String
  location : Option String := none
  source : Option String := none

def Complaint.text (complaint : Complaint) : String :=
  complaint.message
    ++ (complaint.location.map ("\n\nLocation: " ++ ·)).getD ""
    ++ (complaint.source.map ("\n\nSource:\n" ++ ·)).getD ""

/-- The quantities that are bounded. -/
inductive Measure where
  | depth
  | size
  | attributes
  | nodes
  deriving DecidableEq

def Measure.excess (measure : Measure) (amount maximum : Nat) : String :=
  match measure with
  | .depth => "XML depth " ++ toString amount ++ " exceeds maximum " ++ toString maximum
  | .size =>
    "XML size " ++ toString amount ++ " bytes exceeds maximum " ++ toString maximum ++ " bytes"
  | .attributes => "Attribute count " ++ toString amount ++ " exceeds maximum " ++ toString maximum
  | .nodes => "Schema node count " ++ toString amount ++ " exceeds maximum " ++ toString maximum

inductive Error where
  | emptySchema
  | unexpectedRoot (found : String)
  | invalidBoolean (value name element : String)
  | invalidMinOccurs (value element : String)
  | invalidMaxOccurs (value element : String)
  | invalidUse (value element : String)
  | unresolvedReference (name : String)
  /-- References that lead to each other and never to a declaration. -/
  | circularReferences
  | undeclaredElement (tag : String)
  | notElement (node : String)
  | noRootElement
  | childNotRendered (parent child : String)
  | limitExceeded (measure : Measure) (amount maximum : Nat)
  | unreadable (path reason : String)
  | xml (fault : Xml.Fault)

namespace Error

def kind : Error → ErrorKind
  | emptySchema | unexpectedRoot _ | invalidBoolean .. | invalidMinOccurs .. | invalidMaxOccurs ..
  | invalidUse .. => .parse
  | unresolvedReference _ => .unresolvedReference
  | undeclaredElement _ => .undeclaredElement
  | circularReferences | notElement _ | noRootElement | childNotRendered .. => .value
  | limitExceeded .. => .limitExceeded
  | unreadable .. => .io
  | xml _ => .xml

def subject : Error → String
  | emptySchema => "Empty schema document"
  | unexpectedRoot found => "Expected root element 'schema', found '" ++ found ++ "'"
  | invalidBoolean value name element =>
    located ("Invalid boolean '" ++ value ++ "' for attribute '" ++ name ++ "'") element
  | invalidMinOccurs value element => located ("Invalid minOccurs '" ++ value ++ "'") element
  | invalidMaxOccurs value element => located ("Invalid maxOccurs '" ++ value ++ "'") element
  | invalidUse value element => located ("Invalid attribute use '" ++ value ++ "'") element
  | unresolvedReference name => name
  | circularReferences => "references lead round in a circle"
  | undeclaredElement tag => tag
  | notElement node => node ++ " is not an element"
  | noRootElement => "instance document has no root element"
  | childNotRendered parent child =>
    "<" ++ parent ++ "> rendered before its child <" ++ child ++ ">"
  | limitExceeded measure amount maximum => measure.excess amount maximum
  | unreadable path reason => "failed to read '" ++ path ++ "': " ++ reason
  | xml fault => fault.message
where
  located (message element : String) : String :=
    ({ message, location := some element } : Complaint).text

def message (error : Error) : String :=
  error.kind.sentence error.subject

end Error
end SchemaClasses
