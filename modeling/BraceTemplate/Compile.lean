import BraceTemplate.Tree.Scan
import BraceTemplate.Macro.Registry
import BraceTemplate.Program.Listing
import BraceTemplate.Program.Shown
import BraceTemplate.Render
import BraceTemplate.Data.Datum

/-!
# Templates

Compiling reads the tree of a template, expands its root into a program, and pairs the program with
the access to data that it will use. A compiled template renders any number of times; it does not
change by it.
-/

namespace BraceTemplate

/-! ### Options -/

/-- How a template is compiled. -/
structure Options where
  macros : Registry := {}
  /-- The name of the template in error messages. -/
  file : Option String := none
  /-- Whether the template brings the standard access with it. -/
  selfContained : Bool := true
  /-- The access of templates that bring none, the standard one if not given. -/
  shared : Option DataAccess := none

namespace Options

def sharedAccess (options : Options) : DataAccess :=
  options.shared.getD .standard

/-- The access that a template compiled with these options uses. -/
def access (options : Options) : DataAccess :=
  if options.selfContained then .standard else options.sharedAccess

end Options

/-! ### Compiled templates -/

structure Template where
  program : Program
  access : DataAccess
  /-- Whether the access came with the template. -/
  selfContained : Bool

namespace Template

def ofProgram (program : Program) (options : Options) : Template :=
  ⟨program, options.access, options.selfContained⟩

def render (template : Template) (data : Value) : String :=
  template.program.render data template.access

/-- The text for given data, or for an object without entries if none is given. -/
def renderOptional (template : Template) (data : Option Value) : String :=
  template.render (data.getD .emptyObject)

def renderDatum (template : Template) (data : Datum) : Except Fault String :=
  match data.toValue with
  | .ok value => .ok (template.render value)
  | .error fault => .error (.invalidData fault)

def listing (template : Template) : String :=
  template.program.listing

end Template

/-! ### Compiling -/

/-- A template text after its tree is read and its root expanded. -/
structure Compilation where
  nodes : Nat
  outcome : Except Fault Program
  /-- The nodes that were handed to macros, in that order. -/
  dispatches : List Dispatch

/-- Reads and expands a template text. Braces that do not pair up leave nothing to expand. -/
def Compilation.of (source : String) (options : Options) :
    Except Fault Compilation :=
  (Node.ofTemplate source options.file).map fun root =>
    let (expansion, dispatches) := options.macros.expandLogged options.file Plan.expandRoot root
    ⟨root.count, expansion.outcome, dispatches⟩

def compile (source : String) (options : Options) : Except Fault Template := do
  let compilation ← Compilation.of source options
  let program ← compilation.outcome
  return .ofProgram program options

def render (source : String) (data : Value) (options : Options) :
    Except Fault String :=
  (compile source options).map (·.render data)

/-! ### Events -/

/-- What compiling reports on its way. -/
inductive Event where
  | expanding (dispatch : Dispatch)
  /-- The template is compiled: its name, its nodes and ops, and where its access comes from. -/
  | compiled (file : String) (nodes ops : Nat) (selfContained : Bool)
  | program (listing : String)
  deriving DecidableEq, Repr

namespace Event

inductive Level where
  | debug
  | trace
  deriving DecidableEq, Repr

def Level.name : Level → String
  | .debug => "DEBUG"
  | .trace => "TRACE"

def level : Event → Level
  | .expanding _ => .trace
  | .compiled _ _ _ _ => .debug
  | .program _ => .trace

def message : Event → String
  | .expanding _ => "Expanding macro"
  | .compiled _ _ _ _ => "Compiled template"
  | .program _ => "Compiled program"

end Event

def Template.events (template : Template) (options : Options) (nodes : Nat) : List Event :=
  [.compiled (options.file.getD Location.anonymous) nodes template.program.opCount
      template.selfContained,
    .program template.listing]

/-- What compiling a template reports, whether it succeeds or not. -/
def compileEvents (source : String) (options : Options) : List Event :=
  match Compilation.of source options with
  | .error _ => []
  | .ok compilation =>
    compilation.dispatches.map .expanding ++
      match compilation.outcome with
      | .error _ => []
      | .ok program => (Template.ofProgram program options).events options compilation.nodes

end BraceTemplate
