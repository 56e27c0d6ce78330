import SchemaClasses.Xml.Token

/-! The attributes of a tag as they are written. -/

namespace SchemaClasses.Xml

structure RawAttribute where
  key : Bytes
  value : Bytes
  deriving DecidableEq

def isKeyByte (b : UInt8) : Bool :=
  b ≠ byte '=' && !isSpace b

/-- The attributes in what is left of a tag of `total` bytes, after keys that began where `seen`
says. The first byte that is no blank belongs to a key whatever it is. The first fault is the last
item. -/
def attributesFrom (total : Nat) (seen : List (Bytes × Nat)) (input : Bytes) :
    List (Except AttributeFault RawAttribute) :=
  match _start : input.dropWhile isSpace with
  | [] => []
  | first :: rest =>
    let place := total - (rest.length + 1)
    let key := first :: rest.takeWhile isKeyByte
    match _equals : (rest.dropWhile isKeyByte).dropWhile isSpace with
    | [] => [.error (.missingEquals total)]
    | mark :: assigned =>
      if mark ≠ byte '=' then [.error (.missingEquals (total - (assigned.length + 1)))]
      else
        match seen.lookup key with
        | some previous => [.error (.duplicate place previous)]
        | none =>
          match _quoted : assigned.dropWhile isSpace with
          | [] => [.error (.missingValue total)]
          | quote :: body =>
            if quote ≠ byte '"' && quote ≠ byte '\x27' then
              [.error (.unquotedValue (total - (body.length + 1)))]
            else
              match _closed : body.dropWhile (· ≠ quote) with
              | [] => [.error (.missingQuote total quote)]
              | _ :: next =>
                .ok ⟨key, body.takeWhile (· ≠ quote)⟩
                  :: attributesFrom total ((key, place) :: seen) next
  termination_by input.length
  decreasing_by
    have first := (List.dropWhile_sublist isSpace (l := input)).length_le
    have second := (List.dropWhile_sublist isKeyByte (l := rest)).length_le
    have third := (List.dropWhile_sublist isSpace (l := rest.dropWhile isKeyByte)).length_le
    have fourth := (List.dropWhile_sublist isSpace (l := assigned)).length_le
    have fifth := (List.dropWhile_sublist (· ≠ quote) (l := body)).length_le
    simp_all only [List.length_cons]
    omega

def Tag.attributes (tag : Tag) : List (Except AttributeFault RawAttribute) :=
  attributesFrom tag.content.length [] (tag.content.drop tag.name.length)

end SchemaClasses.Xml
