import AppNG.Lib.JavaString

/-!
# Properties.Values

The value of a property, which is in one of three places: as it was set, as its default, or as a text
of several lines. The type says where it is read.

A type is determined from the text where a property is created: it is the first one that the text is a
valid value of.
-/

namespace AppNG
namespace Properties

/-- `Property.Type` -/
inductive PropertyType where
  | int
  | decimal
  | boolean
  | text
  | password
  | multiline
  deriving DecidableEq, Repr

namespace PropertyType

/-- What is behind a sign. -/
def unsigned : List Char → List Char
  | '+' :: cs | '-' :: cs => cs
  | cs => cs

def isDigits (cs : List Char) : Bool := !cs.isEmpty && cs.all Char.isDigit

def isValidValue (type : PropertyType) (value : Option String) : Bool :=
  let text := (value.getD "").toList
  match type with
  | boolean => !Java.isBlank value &&
    [['t', 'r', 'u', 'e'], ['f', 'a', 'l', 's', 'e']].contains (text.map Char.toLower)
  | decimal => !Java.isBlank value &&
    match (unsigned text).span Char.isDigit with
    | (digits, '.' :: fraction) => isDigits digits && isDigits fraction
    | _ => false
  | int => !Java.isBlank value && isDigits (unsigned text)
  | _ => true

def forString (value : Option String) : PropertyType :=
  if isValidValue boolean value then boolean
  else if isValidValue decimal value then decimal
  else if isValidValue int value then int
  else if !Java.isBlank value && (value.getD "").toList.contains '\n' then multiline
  else text

/-- A password is never recognized. -/
theorem forString_ne_password (value : Option String) : forString value ≠ password := by
  unfold forString
  split
  · exact PropertyType.noConfusion
  · split
    · exact PropertyType.noConfusion
    · split
      · exact PropertyType.noConfusion
      · split <;> exact PropertyType.noConfusion

end PropertyType

/-- A `SimpleProperty`, all but its name. -/
structure SimpleProperty where
  actualString : Option String
  defaultString : Option String
  clob : Option String
  description : Option String
  type : PropertyType
  deriving DecidableEq, Repr

namespace SimpleProperty

def getString (property : SimpleProperty) : Option String :=
  if Java.isEmpty property.actualString then property.defaultString else property.actualString

/-- What is read of the property, before it is converted to its type. -/
def read (property : SimpleProperty) : Option String :=
  match property.type with
  | .multiline => property.clob
  | _ => property.getString

def determineType (property : SimpleProperty) : SimpleProperty :=
  { property with
    type := if Java.isBlank property.clob then .forString property.getString else .multiline }

theorem read_multiline {property : SimpleProperty} (h : property.type = .multiline) :
    property.read = property.clob := by
  rw [read, h]

theorem read_single {property : SimpleProperty} (h : property.type ≠ .multiline) :
    property.read = property.getString := by
  unfold read
  split
  · exact absurd ‹_› h
  · rfl

end SimpleProperty

end Properties
end AppNG
