import SchemaClasses.Text.Quoted

/-! JSON values and their text, on one line or indented. Members keep the order they are given in;
text is written with the standard escapes and otherwise as it is. -/

namespace SchemaClasses

inductive Json where
  | null
  | number (n : Int)
  | string (text : String)
  | array (items : List Json)
  | object (members : List (String × Json))

namespace Json

def hexByte (n : Nat) : List Char :=
  if n < 16 then '0' :: Text.hexDigits n else Text.hexDigits n

/-- How a character stands in a JSON string. -/
def escape (c : Char) : List Char :=
  if c = '"' then ['\\', '"']
  else if c = '\\' then ['\\', '\\']
  else if c = '\x08' then ['\\', 'b']
  else if c = '\t' then ['\\', 't']
  else if c = '\n' then ['\\', 'n']
  else if c = '\x0c' then ['\\', 'f']
  else if c = '\r' then ['\\', 'r']
  else if c.toNat < 0x20 then ['\\', 'u', '0', '0'] ++ hexByte c.toNat
  else [c]

def quote (text : String) : List Char :=
  '"' :: text.toList.flatMap escape ++ ['"']

mutual

def compactChars : Json → List Char
  | null => ['n', 'u', 'l', 'l']
  | number n => (toString n).toList
  | string text => quote text
  | array items => '[' :: compactItems items
  | object members => '\x7b' :: compactMembers members

def compactItems : List Json → List Char
  | [] => [']']
  | [item] => compactChars item ++ [']']
  | item :: next :: rest => compactChars item ++ ',' :: compactItems (next :: rest)

def compactMembers : List (String × Json) → List Char
  | [] => ['\x7d']
  | [(key, value)] => quote key ++ ':' :: compactChars value ++ ['\x7d']
  | (key, value) :: next :: rest =>
    quote key ++ ':' :: compactChars value ++ ',' :: compactMembers (next :: rest)

end

/-- The value on one line without blanks. -/
def compact (json : Json) : String :=
  String.ofList (compactChars json)

def newline (depth : Nat) : List Char :=
  '\n' :: List.replicate (2 * depth) ' '

mutual

def prettyChars (depth : Nat) : Json → List Char
  | null => ['n', 'u', 'l', 'l']
  | number n => (toString n).toList
  | string text => quote text
  | array [] => ['[', ']']
  | array (item :: rest) =>
    '[' :: newline (depth + 1) ++ prettyItems (depth + 1) (item :: rest) ++ newline depth ++ [']']
  | object [] => ['\x7b', '\x7d']
  | object (member :: rest) =>
    '\x7b' :: newline (depth + 1) ++ prettyMembers (depth + 1) (member :: rest) ++ newline depth
      ++ ['\x7d']

def prettyItems (depth : Nat) : List Json → List Char
  | [] => []
  | [item] => prettyChars depth item
  | item :: next :: rest =>
    prettyChars depth item ++ ',' :: newline depth ++ prettyItems depth (next :: rest)

def prettyMembers (depth : Nat) : List (String × Json) → List Char
  | [] => []
  | [(key, value)] => quote key ++ ':' :: ' ' :: prettyChars depth value
  | (key, value) :: next :: rest =>
    quote key ++ ':' :: ' ' :: prettyChars depth value ++ ',' :: newline depth
      ++ prettyMembers depth (next :: rest)

end

/-- The value with one item or member to a line, indented by two blanks for each level. -/
def pretty (json : Json) : String :=
  String.ofList (prettyChars 0 json)

end Json
end SchemaClasses
