import SchemaClasses.Name

/-! The types that a schema can use without declaring them. -/

namespace SchemaClasses

inductive Builtin where
  | string | normalizedString | token | language | name | ncName | id | idRef | idRefs
  | entity | entities | nmToken | nmTokens
  | boolean
  | decimal | integer | long | int | short | byte
  | nonNegativeInteger | positiveInteger | unsignedLong | unsignedInt | unsignedShort | unsignedByte
  | nonPositiveInteger | negativeInteger | float | double
  | duration | dateTime | time | date | gYearMonth | gYear | gMonthDay | gDay | gMonth
  | hexBinary | base64Binary
  | anyUri | qName | notationName
  | anyType | anySimpleType
  deriving DecidableEq, Repr

namespace Builtin

def all : List Builtin := [
  string, normalizedString, token, language, name, ncName, id, idRef, idRefs, entity, entities,
  nmToken, nmTokens, boolean, decimal, integer, long, int, short, byte, nonNegativeInteger,
  positiveInteger, unsignedLong, unsignedInt, unsignedShort, unsignedByte, nonPositiveInteger,
  negativeInteger, float, double, duration, dateTime, time, date, gYearMonth, gYear, gMonthDay,
  gDay, gMonth, hexBinary, base64Binary, anyUri, qName, notationName, anyType, anySimpleType]

def label : Builtin → String
  | string => "string"
  | normalizedString => "normalizedString"
  | token => "token"
  | language => "language"
  | name => "Name"
  | ncName => "NCName"
  | id => "ID"
  | idRef => "IDREF"
  | idRefs => "IDREFS"
  | entity => "ENTITY"
  | entities => "ENTITIES"
  | nmToken => "NMTOKEN"
  | nmTokens => "NMTOKENS"
  | boolean => "boolean"
  | decimal => "decimal"
  | integer => "integer"
  | long => "long"
  | int => "int"
  | short => "short"
  | byte => "byte"
  | nonNegativeInteger => "nonNegativeInteger"
  | positiveInteger => "positiveInteger"
  | unsignedLong => "unsignedLong"
  | unsignedInt => "unsignedInt"
  | unsignedShort => "unsignedShort"
  | unsignedByte => "unsignedByte"
  | nonPositiveInteger => "nonPositiveInteger"
  | negativeInteger => "negativeInteger"
  | float => "float"
  | double => "double"
  | duration => "duration"
  | dateTime => "dateTime"
  | time => "time"
  | date => "date"
  | gYearMonth => "gYearMonth"
  | gYear => "gYear"
  | gMonthDay => "gMonthDay"
  | gDay => "gDay"
  | gMonth => "gMonth"
  | hexBinary => "hexBinary"
  | base64Binary => "base64Binary"
  | anyUri => "anyURI"
  | qName => "QName"
  | notationName => "NOTATION"
  | anyType => "anyType"
  | anySimpleType => "anySimpleType"

/-- The built-in type that a name means, whatever its namespace label. -/
def ofName? (name : String) : Option Builtin :=
  all.find? (·.label == Name.localPart name)

/-- The type that generated code uses for it. -/
def aliased : Builtin → String
  | boolean => "bool"
  | decimal => "rust_decimal::Decimal"
  | integer | long | nonPositiveInteger | negativeInteger => "i64"
  | int => "i32"
  | short => "i16"
  | byte => "i8"
  | nonNegativeInteger | positiveInteger | unsignedLong => "u64"
  | unsignedInt => "u32"
  | unsignedShort => "u16"
  | unsignedByte => "u8"
  | float => "f32"
  | double => "f64"
  | idRefs | entities | nmTokens => "Vec<String>"
  | hexBinary | base64Binary => "Vec<u8>"
  | _ => "String"

end Builtin
end SchemaClasses
