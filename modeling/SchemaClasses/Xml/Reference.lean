import SchemaClasses.Xml.Fault

/-! Text with references. A reference runs from an ampersand to the next semicolon and stands for one
character, which it gives by name or by number. -/

namespace SchemaClasses.Xml

def byteSize : List Char → Nat
  | [] => 0
  | c :: rest => c.utf8Size + byteSize rest

def entity? (name : List Char) : Option Char :=
  match String.ofList name with
  | "lt" => some '<'
  | "gt" => some '>'
  | "amp" => some '&'
  | "apos" => some '\x27'
  | "quot" => some '"'
  | _ => none

def hexadecimal? (b : UInt8) : Option Nat :=
  let n := b.toNat
  if '0'.toNat ≤ n && n ≤ '9'.toNat then some (n - '0'.toNat)
  else if 'a'.toNat ≤ n && n ≤ 'f'.toNat then some (n - 'a'.toNat + 10)
  else if 'A'.toNat ≤ n && n ≤ 'F'.toNat then some (n - 'A'.toNat + 10)
  else none

def decimal? (b : UInt8) : Option Nat :=
  let n := b.toNat
  if '0'.toNat ≤ n && n ≤ '9'.toNat then some (n - '0'.toNat) else none

/-- The number that bytes spell; `fault` names the first that is no digit. -/
def readCode (base : Nat) (digit? : UInt8 → Option Nat) (fault : UInt8 → ReferenceFault)
    (read : Nat) : List UInt8 → Except ReferenceFault Nat
  | [] => .ok read
  | b :: rest =>
    match digit? b with
    | some digit => readCode base digit? fault (base * read + digit) rest
    | none => .error (fault b)

/-- The code point that follows a number sign. No code point needs more digits than are allowed. -/
def code (digits : List Char) : Except ReferenceFault Nat :=
  match digits with
  | 'x' :: digits =>
    let bytes := Utf8.encode digits
    if 6 < bytes.length then .error .longHexadecimal
    else readCode 16 hexadecimal? .badHexadecimal 0 bytes
  | _ =>
    let bytes := Utf8.encode digits
    if 7 < bytes.length then .error .longDecimal
    else readCode 10 decimal? .badDecimal 0 bytes

/-- The character of a reference that begins at byte `start` and ends at byte `stop`. -/
def reference (start stop : Nat) (name : List Char) : Except ReferenceFault Char :=
  match name with
  | '#' :: digits => do
    let n ← code digits
    if n = 0 then .error (.nullCharacter ⟨start, stop⟩)
    else if n.isValidChar then .ok (Char.ofNat n)
    else .error (.notScalar n)
  | _ =>
    match entity? name with
    | some c => .ok c
    | none => .error (.unknownEntity ⟨start + 1, stop⟩ (String.ofList name))

def isNameChar (c : Char) : Bool :=
  c ≠ '&' && c ≠ ';'

/-- Puts characters for the references in what is left from byte `place` on of a text of `total`
bytes. -/
def expandFrom (total place : Nat) : List Char → Except ReferenceFault (List Char)
  | [] => .ok []
  | c :: rest =>
    if c ≠ '&' then (c :: ·) <$> expandFrom total (place + c.utf8Size) rest
    else
      match _closed : rest.dropWhile isNameChar with
      | ';' :: next => do
        let name := rest.takeWhile isNameChar
        let stop := place + 1 + byteSize name
        let expanded ← reference place stop name
        (expanded :: ·) <$> expandFrom total (stop + 1) next
      | _ => .error (.unterminated ⟨place, total⟩)
  termination_by text => text.length
  decreasing_by
    · simp
    · have shorter := (List.dropWhile_sublist isNameChar (l := rest)).length_le
      rw [_closed] at shorter
      simp only [List.length_cons] at *
      omega

/-- The text that raw bytes with references stand for. -/
def expand (raw : List UInt8) : Except ReferenceFault String :=
  match Utf8.decode raw with
  | .ok text => String.ofList <$> expandFrom raw.length 0 text
  | .error fault => .error (.notUtf8 fault)

end SchemaClasses.Xml
