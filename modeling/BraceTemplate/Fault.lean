import BraceTemplate.Data.Refusal
import BraceTemplate.Source.Position
import BraceTemplate.Text.Characters

/-!
# What can go wrong

Compiling fails on braces that do not pair up, on a name that no macro has, and on a macro that
refuses its node; rendering fails only where the caller's own data cannot be converted. Data that is
missing is no error. Each cause is a constructor; the wording is in `message` alone.
-/

namespace BraceTemplate

/-- A brace without a partner. -/
inductive LoneBrace where
  | opening
  | closing
  deriving DecidableEq, Repr

def LoneBrace.detail : LoneBrace → String
  | .opening => "'" ++ String.singleton Brace.opening ++ "' is never closed"
  | .closing =>
    "'" ++ String.singleton Brace.closing ++ "' has no matching '" ++
      String.singleton Brace.opening ++ "'"

/-- Why data of the caller cannot be converted. -/
inductive DataFault where
  | numberOutOfRange
  | keyNotText
  | keyNotFinite
  | refused (refusal : Refusal)
  deriving DecidableEq, Repr

def DataFault.reason : DataFault → String
  | .numberOutOfRange => "number out of range"
  | .keyNotText => "key must be a string"
  | .keyNotFinite => "float key must be finite (got NaN or +/-inf)"
  | .refused refusal => refusal.message

/-- Why a template does not compile or render. -/
inductive Fault where
  | loneBrace (brace : LoneBrace) (location : Location)
  | unknownMacro (name : String) (location : Location)
  | macroFailed (name : String) (detail : String)
  | invalidData (fault : DataFault)
  /-- Stands for the outcome of an expansion that never comes to its end. -/
  | endlessExpansion (location : Location)
  deriving DecidableEq, Repr

def Fault.message : Fault → String
  | .loneBrace brace location =>
    "Unmatched brace at " ++ location.text ++ ": " ++ brace.detail
  | .unknownMacro name location => "Unknown macro '" ++ name ++ "' at " ++ location.text
  | .macroFailed name detail => "Macro '" ++ name ++ "' failed: " ++ detail
  | .invalidData fault => "Invalid template data: " ++ fault.reason
  | .endlessExpansion location => "Endless expansion at " ++ location.text

end BraceTemplate
