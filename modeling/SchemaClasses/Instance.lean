import SchemaClasses.Entries
import SchemaClasses.Json

/-! Objects made from a document: the class an element is of, its tag, text and attributes, and the
objects made from its children, grouped by the field that holds them. -/

namespace SchemaClasses

structure Instance where
  className : String
  tagName : String
  content : Option String := none
  attributes : Entries String := []
  fields : List (String × List Instance) := []

namespace Instance

def text (object : Instance) : String :=
  object.content.getD ""

def attribute? (object : Instance) (name : String) : Option String :=
  object.attributes.get? name

def values (object : Instance) (field : String) : List Instance :=
  (Entries.get? object.fields field).getD []

def hasField (object : Instance) (field : String) : Bool :=
  !(object.values field).isEmpty

def pushField (object : Instance) (field : String) (value : Instance) : Instance :=
  { object with fields := Entries.alter field (fun old => old.getD [] ++ [value]) object.fields }

/-- The members that hold something: absent content and empty maps are left out. -/
def members (className tagName : String) (content : Option String) (attributes : Entries String)
    (fields : List (String × Json)) : List (String × Json) :=
  [("class_name", .string className), ("tag_name", .string tagName)]
    ++ (match content with
      | some text => [("content", .string text)]
      | none => [])
    ++ (if attributes.isEmpty then []
      else [("attributes", .object (attributes.map fun (key, value) => (key, .string value)))])
    ++ (if fields.isEmpty then [] else [("fields", .object fields)])

mutual

def toJson : Instance → Json
  | ⟨className, tagName, content, attributes, fields⟩ =>
    .object (members className tagName content attributes (fieldsToJson fields))

def fieldsToJson : List (String × List Instance) → List (String × Json)
  | [] => []
  | (field, values) :: rest => (field, .array (valuesToJson values)) :: fieldsToJson rest

def valuesToJson : List Instance → List Json
  | [] => []
  | value :: rest => toJson value :: valuesToJson rest

end

end Instance
end SchemaClasses
