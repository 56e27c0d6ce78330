import SchemaClasses.Entries
import SchemaClasses.Limits
import SchemaClasses.Name
import SchemaClasses.Text.Blank
import SchemaClasses.Xml.Attribute
import SchemaClasses.Xml.Reference

/-! Documents: elements in the order of their start tags, each with its local name, its attributes by
local name, the text directly inside it, its children and its parent. Namespace declarations are no
attributes, and blank text is no text. -/

namespace SchemaClasses

structure Element where
  name : String
  attributes : Entries String := []
  text : Option String := none
  children : Array Nat := #[]
  parent : Option Nat := none
  deriving DecidableEq, Repr, Inhabited

structure Document where
  elements : Array Element := #[]
  root : Option Nat := none
  deriving DecidableEq, Repr, Inhabited

namespace Document

def size (document : Document) : Nat :=
  document.elements.size

def modify (document : Document) (index : Nat) (f : Element → Element) : Document :=
  { document with elements := document.elements.modify index f }

/-- Adds an element as the last child of its parent, or as the root. There is only one root. -/
def add (document : Document) (parent : Option Nat) (name : String) (attributes : Entries String) :
    Except Error (Nat × Document) :=
  let index := document.size
  let grown := { document with elements := document.elements.push { name, attributes, parent } }
  match parent with
  | some parent =>
    .ok (index, grown.modify parent fun element =>
      { element with children := element.children.push index })
  | none =>
    match document.root with
    | none => .ok (index, { grown with root := some index })
    | some _ => .error (.xml .multipleRoots)

/-- Appends to the text of an element, unless the text is blank. -/
def appendText (document : Document) (index : Nat) (text : String) : Document :=
  if Text.isBlankText text then document
  else document.modify index fun element => { element with text := some (element.text.getD "" ++ text) }

def isNamespaceDeclaration (key : String) : Bool :=
  key == "xmlns" || "xmlns:".toList.isPrefixOf key.toList

/-- Adds the next attribute of a tag to those before it. -/
def addAttribute (attributes : Entries String) (item : Except Xml.AttributeFault Xml.RawAttribute) :
    Except Xml.Fault (Entries String) := do
  let raw ← item.mapError .attributes
  let key ← (Utf8.decodeString raw.key).mapError .attributeName
  if isNamespaceDeclaration key then return attributes
  let value ← (Xml.expand raw.value).mapError .attributeValue
  return attributes.insert (Name.localPart key) value

/-- Adds the element of a start tag inside the elements `opened`, the innermost first. -/
def addTag (limits : Limits) (document : Document) (opened : List Nat) (tag : Xml.Tag) :
    Except Error (Nat × Document) := do
  limits.check .depth (opened.length + 1)
  let name ← (Utf8.decodeString tag.name).mapError fun fault => Error.xml (.elementName fault)
  let attributes ← (tag.attributes.foldlM addAttribute []).mapError Error.xml
  limits.check .attributes attributes.length
  document.add opened.head? (Name.localPart name) attributes

/-- Reads tokens into a document whose elements `opened` are still open. -/
def readTokens (limits : Limits) (document : Document) (opened : List Nat) :
    List Xml.Token → Except Error Document
  | [] => if opened.isEmpty then .ok document else .error (.xml .unfinished)
  | .start tag :: rest => do
    let (index, document) ← document.addTag limits opened tag
    document.readTokens limits (index :: opened) rest
  | .empty tag :: rest => do
    let (_, document) ← document.addTag limits opened tag
    document.readTokens limits opened rest
  | .close :: rest => document.readTokens limits opened.tail rest
  | .text raw :: rest =>
    match opened with
    | [] => document.readTokens limits opened rest
    | index :: _ => do
      let text ← (Xml.expand raw).mapError fun fault => Error.xml (.text fault)
      (document.appendText index text).readTokens limits opened rest
  | .cdata raw :: rest =>
    match opened with
    | [] => document.readTokens limits opened rest
    | index :: _ => (document.appendText index (Utf8.decodeLossy raw)).readTokens limits opened rest
  | .fault offset fault :: _ => .error (.xml (.token offset fault))

def read (limits : Limits) (bytes : List UInt8) : Except Error Document := do
  limits.check .size bytes.length
  ({} : Document).readTokens limits [] (Xml.tokens bytes)

end Document
end SchemaClasses
