import SchemaClasses.Xml.Fault

/-! The tokens of an XML document: tags, text and character data, in the order they stand in.
Comments, instructions and the document type leave no token. The first fault is the last token. -/

namespace SchemaClasses.Xml

abbrev Bytes := List UInt8

def isSpace (b : UInt8) : Bool :=
  b = 0x20 || b = 0x09 || b = 0x0D || b = 0x0A

def trimEnd (bytes : Bytes) : Bytes :=
  (bytes.reverse.dropWhile isSpace).reverse

def byte (c : Char) : UInt8 :=
  UInt8.ofNat c.toNat

def ascii (text : String) : Bytes :=
  text.toList.map byte

/-- What stands between the brackets of a tag, without the slash of an empty one. -/
structure Tag where
  content : Bytes
  deriving DecidableEq

def Tag.name (tag : Tag) : Bytes :=
  tag.content.takeWhile (!isSpace ·)

inductive Token where
  | start (tag : Tag)
  | empty (tag : Tag)
  | close
  | text (raw : Bytes)
  | cdata (raw : Bytes)
  | fault (offset : Nat) (fault : TokenFault)

/-- What follows an opening bracket: a fault so many bytes further on, or perhaps a token, the names
of the elements open after it, and how many bytes it takes. -/
inductive Markup where
  | fault (advance : Nat) (fault : TokenFault)
  | next (token : Option Token) (opened : List Bytes) (size : Nat)

/-- The text of a name in a message; one that is no UTF-8 is left empty. -/
def nameText (name : Bytes) : String :=
  match Utf8.decodeString name with
  | .ok text => text
  | .error _ => ""

/-- The bytes before the closing bracket at `place`, and how many bytes are used up with it. Without
a bracket all that is left is used up. -/
def upTo (place : Option Nat) (input : Bytes) : Bytes × Nat :=
  match place with
  | some n => (input.take n, n + 1)
  | none => (input, input.length)

def tagEnd? (quote : Option UInt8) : Bytes → Option Nat
  | [] => none
  | b :: rest =>
    match quote with
    | some q => (tagEnd? (if b = q then none else some q) rest).map (· + 1)
    | none =>
      if b = byte '>' then some 0
      else (tagEnd? (if b = byte '"' || b = byte '\x27' then some b else none) rest).map (· + 1)

def openTag (opened : List Bytes) (input : Bytes) : Markup :=
  let (content, size) := upTo (tagEnd? none input) input
  if content.getLast? = some (byte '/') then
    .next (some (.empty ⟨content.dropLast⟩)) opened size
  else
    let tag : Tag := ⟨content⟩
    .next (some (.start tag)) (tag.name :: opened) size

/-- An end tag names the element opened last. Blanks after its name do not count, unless there is
nothing else. -/
def closeTag (opened : List Bytes) (input : Bytes) : Markup :=
  let (content, size) := upTo (input.idxOf? (byte '>')) input
  let name := content.drop 1
  let trimmed := if name.all isSpace then name else trimEnd name
  match opened with
  | [] => .fault (size - content.length) (.mismatch "" (nameText name))
  | expected :: others =>
    if trimmed = expected then .next (some .close) others size
    else .fault (size - content.length) (.mismatch (nameText expected) (nameText trimmed))

def instruction (opened : List Bytes) (input : Bytes) : Markup :=
  let (content, size) := upTo (input.idxOf? (byte '>')) input
  if 2 < content.length && content.getLast? = some (byte '?') then .next none opened size
  else .fault (size - content.length) .unclosedInstruction

def Declaration.ofByte? (b : UInt8) : Option Declaration :=
  if b = byte '[' then some .cdata
  else if b = byte '-' then some .comment
  else if b = byte 'D' || b = byte 'd' then some .doctype
  else none

/-- Whether a closing bracket ends the declaration. What was read of it is held last byte first. -/
def Declaration.closes (declaration : Declaration) (read : Bytes) : Bool :=
  match declaration with
  | .comment => 4 ≤ read.length && read.take 2 = ascii "--"
  | .cdata => read.take 2 = ascii "]]"
  | .doctype => read.count (byte '<') = read.count (byte '>')

def Declaration.end? (declaration : Declaration) (read : Bytes) : Bytes → Option Nat
  | [] => none
  | b :: rest =>
    if b = byte '>' && declaration.closes read then some 0
    else (declaration.end? (b :: read) rest).map (· + 1)

def lowerByte (b : UInt8) : UInt8 :=
  if byte 'A' ≤ b && b ≤ byte 'Z' then b + 32 else b

/-- Whether the bytes begin with a word, whatever the case of its letters. -/
def beginsWith (word : String) (bytes : Bytes) : Bool :=
  (bytes.take word.length).map lowerByte = (ascii word).map lowerByte

/-- The token of a complete declaration, without its mark and its closing bracket. -/
def Declaration.token (declaration : Declaration) (body : Bytes) :
    Except TokenFault (Option Token) :=
  match declaration with
  | .comment => if body.take 2 = ascii "--" then .ok none else .error (.unclosed .comment)
  | .cdata =>
    if beginsWith "[CDATA[" body then .ok (some (.cdata ((body.drop 7).dropLast.dropLast)))
    else .error (.unclosed .cdata)
  | .doctype =>
    if !beginsWith "DOCTYPE" body then .error (.unclosed .doctype)
    else if (body.drop 7).all isSpace then .error .emptyDoctype
    else .ok none

/-- What follows the exclamation mark. -/
def bang (opened : List Bytes) (input : Bytes) : Markup :=
  match input with
  | [] => .fault 0 .bareBang
  | b :: _ =>
    match Declaration.ofByte? b with
    | none => .fault 0 (.strayBang b)
    | some declaration =>
      match declaration.end? [] input with
      | none => .fault 0 (.unclosed declaration)
      | some n =>
        match declaration.token (input.take n) with
        | .ok token => .next token opened (n + 2)
        | .error fault => .fault (n + 2) fault

/-- What follows an opening bracket. At the end of the document nothing does. -/
def markup (opened : List Bytes) (input : Bytes) : Markup :=
  match input with
  | [] => .next none opened 0
  | b :: rest =>
    if b = byte '!' then bang opened rest
    else if b = byte '/' then closeTag opened input
    else if b = byte '?' then instruction opened input
    else openTag opened input

def isText (b : UInt8) : Bool :=
  b ≠ byte '<'

/-- The tokens of what is left from `offset` on, inside the elements of the names `opened`. -/
def tokensFrom (opened : List Bytes) (offset : Nat) (input : Bytes) : List Token :=
  let lead := input.dropWhile isSpace
  let text := lead.takeWhile isText
  let texts := if text.isEmpty then [] else [Token.text (trimEnd text)]
  match _split : lead.dropWhile isText with
  | [] => texts
  | _ :: inner =>
    let offset := offset + (input.takeWhile isSpace).length + text.length + 1
    texts ++
      match markup opened inner with
      | .fault advance fault => [.fault (offset + advance) fault]
      | .next token opened size =>
        token.toList ++ tokensFrom opened (offset + size) (inner.drop size)
  termination_by input.length
  decreasing_by
    have first := (List.dropWhile_sublist isSpace (l := input)).length_le
    have second := (List.dropWhile_sublist isText (l := input.dropWhile isSpace)).length_le
    rw [show List.dropWhile isText (List.dropWhile isSpace input) = _ from _split] at second
    simp only [List.length_cons, List.length_drop] at *
    omega

/-- The tokens of a document. A byte order mark at its start does not count. -/
def tokens (document : Bytes) : List Token :=
  match document with
  | 0xEF :: 0xBB :: 0xBF :: rest => tokensFrom [] 0 rest
  | _ => tokensFrom [] 0 document

end SchemaClasses.Xml
