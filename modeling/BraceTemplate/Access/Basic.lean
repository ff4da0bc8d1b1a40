import BraceTemplate.Data.Text
import BraceTemplate.Path
import BraceTemplate.Decimal.Reading

/-!
# Access to data

Rendering asks four things of the data: the entry under a key, the value at a path, the keys to
visit in a loop, and the text of a value. None of them fails. What is not there is absent, and so is
null at the end of a path; zero, the empty text and `false` are there.

`DataAccess` collects the four, each with its standard meaning as default, so that a renderer can be
given another.
-/

namespace BraceTemplate

/-- What leads from a container to one of its entries. -/
inductive Key where
  | index (place : Nat)
  | name (word : String)
  deriving DecidableEq, Repr

namespace Key

def text : Key → String
  | .index place => toString place
  | .name word => word

/-- The keys of a path. All of them are names; a name may stand for an index. -/
def ofPath (path : String) : List Key :=
  (Path.names path).map .name

/-- The index that a name stands for, if the name consists of decimal digits. -/
def place? (word : String) : Option Nat :=
  if word.toList.isEmpty || !word.toList.all Char.isDigit then none
  else some (Decimal.natOfDigits word.toList)

end Key

/-- Follows keys from a value, as far as `look` finds their entries. -/
def walk (look : Value → Key → Option Value) (value : Value) : List Key → Option Value
  | [] => some value
  | key :: rest =>
    match look value key with
    | some entry => walk look entry rest
    | none => none

namespace Value

/-- The entry under a key. An object looks for the text of the key; an array takes an index, or a
name that stands for one. -/
def lookup : Value → Key → Option Value
  | .object keys values, key => (Value.object keys values).entries.lookup key.text
  | .array items, .index place => items[place]?
  | .array items, .name word =>
    match Key.place? word with
    | some place => items[place]?
    | none => none
  | _, _ => none

def resolve (value : Value) (path : String) : Option Value :=
  (walk lookup value (Key.ofPath path)).filter (!·.isNull)

/-- The keys of all entries: indices in ascending order, or the keys of an object in theirs. -/
def keys : Value → List Key
  | .array items => (List.range items.length).map .index
  | .object keys values => (Value.object keys values).entries.map fun entry => .name entry.1
  | _ => []

end Value

structure DataAccess where
  resolve : Value → String → Option Value := Value.resolve
  lookup : Value → Key → Option Value := Value.lookup
  /-- The keys that a loop over a value visits, in order. -/
  visit : Option Value → List Key := fun value => (value.map Value.keys).getD []
  text : Value → String := Value.text

namespace DataAccess

def standard : DataAccess := {}

end DataAccess

end BraceTemplate
