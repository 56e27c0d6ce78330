import SchemaClasses.Text.Quoted
import SchemaClasses.Utf8

/-! What can be wrong with an XML document, and the sentence that says so. -/

namespace SchemaClasses.Xml

/-- A span of bytes, its end excluded. -/
structure Span where
  start : Nat
  stop : Nat

def Span.text (span : Span) : String :=
  toString span.start ++ ".." ++ toString span.stop

/-- Markup that opens with an exclamation mark. -/
inductive Declaration where
  | comment
  | cdata
  | doctype
  deriving DecidableEq

def Declaration.text : Declaration → String
  | .comment => "Comment"
  | .cdata => "CData"
  | .doctype => "DOCTYPE"

/-- Why no further token can be read. -/
inductive TokenFault where
  | bareBang
  | strayBang (next : UInt8)
  | unclosed (declaration : Declaration)
  | emptyDoctype
  | unclosedInstruction
  | mismatch (expected found : String)

/-- The character whose code point is the byte. -/
def byteText (b : UInt8) : String :=
  String.singleton (Char.ofNat b.toNat)

def unexpectedEnd (what : String) : String :=
  "Unexpected EOF during reading " ++ what

def TokenFault.message : TokenFault → String
  | .bareBang => unexpectedEnd "Bang"
  | .strayBang next =>
    "Only Comment (\x60--\x60), CDATA (\x60[CDATA[\x60) and DOCTYPE (\x60DOCTYPE\x60) nodes can start with a '!', " ++
      "but symbol \x60" ++ byteText next ++ "\x60 found"
  | .unclosed declaration => unexpectedEnd declaration.text
  | .emptyDoctype => "DOCTYPE declaration must not be empty"
  | .unclosedInstruction => unexpectedEnd "XmlDecl"
  | .mismatch expected found => "Expecting </" ++ expected ++ "> found </" ++ found ++ ">"

/-- Why the attributes of a tag cannot be read. Positions count from the start of the tag. -/
inductive AttributeFault where
  | missingEquals (position : Nat)
  | missingValue (position : Nat)
  | unquotedValue (position : Nat)
  | missingQuote (position : Nat) (quote : UInt8)
  | duplicate (position previous : Nat)

def AttributeFault.message : AttributeFault → String
  | .missingEquals position =>
    placed position "attribute key must be directly followed by \x60=\x60 or space"
  | .missingValue position => placed position "\x60=\x60 must be followed by an attribute value"
  | .unquotedValue position => placed position "attribute value must be enclosed in \x60\"\x60 or \x60'\x60"
  | .missingQuote position quote =>
    placed position ("missing closing quote \x60" ++ byteText quote ++ "\x60 in attribute value")
  | .duplicate position previous =>
    placed position ("duplicated attribute, previous declaration at position " ++ toString previous)
where
  placed (position : Nat) (what : String) : String :=
    "position " ++ toString position ++ ": " ++ what

/-- Why a text with references cannot be expanded. Spans count bytes of that text. -/
inductive ReferenceFault where
  | notUtf8 (fault : Utf8.Fault)
  | unterminated (span : Span)
  | nullCharacter (span : Span)
  | unknownEntity (span : Span) (name : String)
  | longHexadecimal
  | longDecimal
  | badHexadecimal (b : UInt8)
  | badDecimal (b : UInt8)
  | notScalar (code : Nat)

def ReferenceFault.message : ReferenceFault → String
  | .notUtf8 fault => "Malformed UTF-8 input: " ++ fault.message
  | .unterminated span => inSpan span "Cannot find ';' after '&'"
  | .nullCharacter span => inSpan span "Null character entity not allowed"
  | .unknownEntity span name => inSpan span ("Unrecognized escape symbol: " ++ Text.quoted name)
  | .longHexadecimal => "Cannot convert hexadecimal to utf8"
  | .longDecimal => "Cannot convert decimal to utf8"
  | .badHexadecimal b => "'" ++ byteText b ++ "' is not a valid hexadecimal character"
  | .badDecimal b => "'" ++ byteText b ++ "' is not a valid decimal character"
  | .notScalar code => "'" ++ toString code ++ "' is not a valid codepoint"
where
  inSpan (span : Span) (what : String) : String :=
    "Error while escaping character at range " ++ span.text ++ ": " ++ what

/-- Why a document cannot be read. -/
inductive Fault where
  | token (offset : Nat) (fault : TokenFault)
  | elementName (fault : Utf8.Fault)
  | attributeName (fault : Utf8.Fault)
  | attributes (fault : AttributeFault)
  | attributeValue (fault : ReferenceFault)
  | text (fault : ReferenceFault)
  | multipleRoots
  | unfinished

def Fault.message : Fault → String
  | .token offset fault =>
    "Error parsing XML at position " ++ toString offset ++ ": " ++ fault.message
  | .elementName fault => "Invalid element name: " ++ fault.message
  | .attributeName fault => "Invalid attribute name: " ++ fault.message
  | .attributes fault => "Failed to parse attribute: " ++ fault.message
  | .attributeValue fault => "Failed to unescape attribute value: " ++ fault.message
  | .text fault => "Failed to unescape text: " ++ fault.message
  | .multipleRoots => "Multiple root elements"
  | .unfinished => "Unexpected end of document"

end SchemaClasses.Xml
