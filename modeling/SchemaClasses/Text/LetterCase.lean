import SchemaClasses.Text.Cased
import SchemaClasses.Text.UpperCase
import SchemaClasses.Text.LowerCase

/-! Letter case of whole texts. A capital sigma is the one letter whose small form depends on its
place: it takes the final form at the end of a word. -/

namespace SchemaClasses.Text

/-- The nearest character that casing does not look through has a case. -/
def meetsCased (text : List Char) : Bool :=
  match text.dropWhile isCaseIgnorable with
  | c :: _ => isCased c
  | [] => false

/-- Lower case of the characters after `before`, which is held nearest first. -/
def lowerFrom (before : List Char) : List Char → List Char
  | [] => []
  | c :: rest =>
    (if c = 'Σ' then [if meetsCased before && !meetsCased rest then 'ς' else 'σ']
      else lowerCase c) ++ lowerFrom (c :: before) rest

def toLower (text : List Char) : List Char :=
  lowerFrom [] text

def capitalise : List Char → List Char
  | [] => []
  | c :: rest => upperCase c ++ rest

end SchemaClasses.Text
