/-! Reading UTF-8. Bytes are cut into characters and faults; a fault is the longest start of a
character that the next byte spoils, or one that the end of the bytes leaves unfinished. -/

namespace SchemaClasses.Utf8

inductive Piece where
  | char (c : Char) (size : Nat)
  | invalid (size : Nat)
  | incomplete

/-- The bytes that may follow a first byte of a character of three or more bytes. -/
def secondRange (first : UInt8) : UInt8 × UInt8 :=
  if first = 0xE0 then (0xA0, 0xBF)
  else if first = 0xED then (0x80, 0x9F)
  else if first = 0xF0 then (0x90, 0xBF)
  else if first = 0xF4 then (0x80, 0x8F)
  else (0x80, 0xBF)

def within (range : UInt8 × UInt8) (b : UInt8) : Bool :=
  range.1 ≤ b && b ≤ range.2

def isTail (b : UInt8) : Bool :=
  within (0x80, 0xBF) b

def bits (b : UInt8) (count : Nat) : Nat :=
  b.toNat % Nat.pow 2 count

def pieces : List UInt8 → List Piece
  | [] => []
  | a :: rest =>
    if a < 0x80 then .char (Char.ofNat a.toNat) 1 :: pieces rest
    else if a < 0xC2 || 0xF4 < a then .invalid 1 :: pieces rest
    else match rest with
      | [] => [.incomplete]
      | b :: rest' =>
        if a < 0xE0 then
          if isTail b then .char (Char.ofNat (bits a 5 * 64 + bits b 6)) 2 :: pieces rest'
          else .invalid 1 :: pieces (b :: rest')
        else if !within (secondRange a) b then .invalid 1 :: pieces (b :: rest')
        else match rest' with
          | [] => [.incomplete]
          | c :: rest'' =>
            if !isTail c then .invalid 2 :: pieces (c :: rest'')
            else if a < 0xF0 then
              .char (Char.ofNat ((bits a 4 * 64 + bits b 6) * 64 + bits c 6)) 3 :: pieces rest''
            else match rest'' with
              | [] => [.incomplete]
              | d :: rest''' =>
                if !isTail d then .invalid 3 :: pieces (d :: rest''')
                else
                  .char (Char.ofNat (((bits a 3 * 64 + bits b 6) * 64 + bits c 6) * 64 + bits d 6)) 4
                    :: pieces rest'''

/-- Why bytes are not UTF-8, and where the first fault begins. -/
inductive Fault where
  | invalid (size : Nat) (index : Nat)
  | incomplete (index : Nat)

def Fault.message : Fault → String
  | .invalid size index => s!"invalid utf-8 sequence of {size} bytes from index {index}"
  | .incomplete index => s!"incomplete utf-8 byte sequence from index {index}"

def collect (index : Nat) : List Piece → Except Fault (List Char)
  | [] => .ok []
  | .char c size :: rest => (c :: ·) <$> collect (index + size) rest
  | .invalid size :: _ => .error (.invalid size index)
  | .incomplete :: _ => .error (.incomplete index)

def decode (bytes : List UInt8) : Except Fault (List Char) :=
  collect 0 (pieces bytes)

def decodeString (bytes : List UInt8) : Except Fault String :=
  String.ofList <$> decode bytes

/-- The text of the bytes, each fault replaced by U+FFFD. -/
def decodeLossy (bytes : List UInt8) : String :=
  String.ofList ((pieces bytes).map fun
    | .char c _ => c
    | _ => '\uFFFD')

def encode (text : List Char) : List UInt8 :=
  text.flatMap String.utf8EncodeChar

end SchemaClasses.Utf8
