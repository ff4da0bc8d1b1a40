import BraceTemplate.Program.Basic
import BraceTemplate.Text.Characters

/-!
# Ready-made helpers and filters
-/

namespace BraceTemplate

namespace Helper

def constant (text : String) : Ambient → String :=
  fun _ => text

def ambientPath : Ambient → String :=
  fun ambient => ambient.path

def allData : Ambient → String :=
  fun ambient => ambient.text ambient.data

/-- Returns the text of the value at a path, or a mark for an absent one. -/
def valueAt (path : String) : Ambient → String :=
  fun ambient => ((ambient.resolve path).map ambient.text).getD "<absent>"

/-- How a character is written in HTML text. -/
def htmlChar : Char → List Char
  | '&' => ['&', 'a', 'm', 'p', ';']
  | '<' => ['&', 'l', 't', ';']
  | '>' => ['&', 'g', 't', ';']
  | c => [c]

/-- Returns the text of the value at a path, fit to stand in HTML, and nothing for an absent one. -/
def htmlAt (path : String) : Ambient → String :=
  fun ambient =>
    match ambient.resolve path with
    | some value => String.ofList ((ambient.text value).toList.flatMap htmlChar)
    | none => ""

end Helper

namespace Filter

def upper : String → String := upperAscii

def reversed (text : String) : String :=
  String.ofList text.toList.reverse

def size (text : String) : String :=
  toString text.length

def drop : String → String :=
  fun _ => ""

def between (before after : String) : String → String :=
  fun text => before ++ text ++ after

end Filter

end BraceTemplate
