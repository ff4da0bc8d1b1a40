import BraceTemplate.Data.Value
import BraceTemplate.Fault

/-!
# Data of the caller

A caller's own data has more forms than template data: integers of any size, floating-point numbers
that are not finite, bytes, optional values, maps with keys of any type, and values that refuse to
be converted. Converting keeps the order of work: the parts of a value one after the other, and a
key before its value. The first fault ends it.
-/

namespace BraceTemplate

/-- A value of the caller. -/
inductive Datum where
  | null
  | bool (value : Bool)
  | int (value : Int)
  | float (value : Floating)
  | string (text : String)
  | bytes (octets : List UInt8)
  /-- An optional value that is there. -/
  | present (value : Datum)
  | sequence (items : List Datum)
  | mapping (keys values : List Datum)
  /-- A value that refuses to be converted. -/
  | refusing (message : String)
  deriving Repr

namespace Datum

/-- The text of a value that serves as a key: a string, an integer, a truth value or a finite
number. -/
def keyText : Datum → Except DataFault String
  | .string text => .ok text
  | .int value => .ok (toString value)
  | .bool value => .ok (if value then "true" else "false")
  | .float (.finite value) => .ok (String.ofList (Number.binaryText value))
  | .float _ => .error .keyNotFinite
  | .refusing message => .error (.refused (.ofMessage message))
  | _ => .error .keyNotText

/-- Converts an integer if it fits. -/
def integer (value : Int) : Except DataFault Value :=
  if Number.fits value then .ok (.number (.integer value)) else .error .numberOutOfRange

mutual

/-- Converts a value of the caller to template data. -/
def toValue : Datum → Except DataFault Value
  | .null => .ok .null
  | .bool value => .ok (.bool value)
  | .int value => integer value
  | .float (.finite value) => .ok (.number (.binary value))
  | .float _ => .ok .null
  | .string text => .ok (.string text)
  | .bytes octets => .ok (.array (octets.map fun octet => .number (.integer octet.toNat)))
  | .present value => value.toValue
  | .sequence items => return .array (← itemsToValues items)
  | .mapping keys values => return .ofEntries (← entriesToValues keys values)
  | .refusing message => .error (.refused (.ofMessage message))

/-- Converts values one after the other. -/
def itemsToValues : List Datum → Except DataFault (List Value)
  | [] => .ok []
  | item :: rest => do
    let value ← item.toValue
    let values ← itemsToValues rest
    return value :: values

/-- Converts entries one after the other. -/
def entriesToValues : List Datum → List Datum → Except DataFault (List (String × Value))
  | key :: keys, value :: values => do
    let name ← key.keyText
    let value ← value.toValue
    let entries ← entriesToValues keys values
    return (name, value) :: entries
  | _, _ => .ok []

end

end Datum

end BraceTemplate
