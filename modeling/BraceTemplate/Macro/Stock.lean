import BraceTemplate.Macro.Registry
import BraceTemplate.Program.Stock
import BraceTemplate.Tree.Scan

/-!
# Ready-made macros

Macros that a user can register under any name.
-/

namespace BraceTemplate.Macro

/-! ### Macros that give a fixed program -/

/-- Gives a program and leaves the node as it is. -/
def fixed (program : Program) : Macro :=
  ⟨fun _ node => return ⟨.ok program, node⟩⟩

def skip : Macro := fixed .empty

def text (text : String) : Macro := fixed (.single (.text text))

def call (name : String) (helper : Ambient → String) : Macro :=
  fixed (.single (.call name helper))

def refuse (name detail : String) : Macro :=
  ⟨fun _ node => return ⟨.error (.macroFailed name detail), node⟩⟩

/-- Describes the node: file, position, number of nodes and source. -/
def describe : Macro :=
  ⟨fun setting node =>
    let place := toString node.position.line ++ ":" ++ toString node.position.column
    let description :=
      setting.file.getD "-" ++ "|" ++ place ++ "|" ++ toString node.count ++ "|" ++ node.source
    return ⟨.ok (.single (.text description)), node⟩⟩

/-- Gives the setting as it is shown to a developer. -/
def survey : Macro :=
  ⟨fun setting node => return ⟨.ok (.single (.text setting.shown)), node⟩⟩

/-! ### Macros around the content of the node -/

def around (change : Program → Program) : Macro :=
  ⟨fun _ node => Expansion.mapProgram change <$> Plan.expandChildren node⟩

def between (before after : String) : Macro :=
  around fun content => (Program.consText before content).push (.text after)

def filter (name : String) (change : String → String) : Macro :=
  around fun content => .single (.filter name change content)

/-- Gives the content twice, the second time from what the first time has left. -/
def twice : Macro :=
  ⟨fun _ node => do
    let first ← Plan.expandChildren node
    match first.outcome with
    | .error _ => return first
    | .ok program => Expansion.mapProgram (program ++ ·) <$> Plan.expandChildren first.node⟩

/-! ### Macros with an argument -/

/-- Makes an op of the argument, as it is written, and the content. -/
def region (op : String → Program → Op) : Macro :=
  ⟨fun _ => Plan.expandAfterToken fun argument content => .single (op argument content)⟩

def shout : Macro :=
  ⟨fun _ => Plan.expandAfterToken fun argument => .consText (upperAscii argument)⟩

/-- Calls the helper for HTML text on a path, then gives the content. -/
def html : Macro :=
  ⟨fun _ => Plan.expandAfterPath fun path => .cons (.call "html" (Helper.htmlAt path))⟩

/-- A number of times: decimal digits, with or without a plus, that fit 64 bits. -/
def count? (argument : String) : Option Nat :=
  let digits := match argument.toList with
    | '+' :: rest => rest
    | cs => cs
  let n := Decimal.natOfDigits digits
  if digits.isEmpty || !digits.all Char.isDigit || Nat.pow 2 64 ≤ n then none else some n

/-- Gives the content as often as the argument says. -/
def times : Macro :=
  ⟨fun _ node =>
    let (argument, node) := node.claimToken
    match count? argument with
    | some n => Expansion.mapProgram (·.times n) <$> Plan.expandChildren node
    | none =>
      let detail := "expected a count, found '" ++ argument ++ "'"
      return ⟨.error (.macroFailed "repeat" detail), node⟩⟩

/-- Takes arguments off a node, and returns them in front of what is left of the node. -/
def claimTokens : Nat → Node → List String × Node
  | 0, node => ([], node)
  | n + 1, node =>
    let (token, node) := node.claimToken
    let (tokens, node) := claimTokens n node
    (token :: tokens, node)

/-- Gives a number of arguments in angle brackets, then the content. -/
def arguments (n : Nat) : Macro :=
  ⟨fun _ node =>
    let (tokens, node) := claimTokens n node
    let shown := String.join (tokens.map fun token => "<" ++ token ++ ">")
    Expansion.mapProgram (.consText shown) <$> Plan.expandChildren node⟩

/-! ### Macros that hand nodes on -/

/-- Expands the node as the built-in macro of a name does, and gives nothing if there is none. -/
def builtin (name : String) : Macro :=
  match Builtin.ofName? name with
  | some b => b.toMacro
  | none => skip

/-- Takes the next token of the head for the name of the macro to use. -/
def redispatch : Macro :=
  ⟨fun _ node => Plan.expandNode node⟩

/-- Expands nodes from the last to the first. The text behind them stays. -/
def expandBackwards : Children → Plan (Except Fault Program × Children)
  | .nil => return (.ok .empty, .nil)
  | .cons position head inner trailing rest => do
    let (outcome, rest) ← expandBackwards rest
    match outcome with
    | .error e => return (.error e, .cons position head inner trailing rest)
    | .ok before =>
      let last ← Plan.expandNode ⟨position, head, inner⟩
      return (last.outcome.map (before ++ ·), .consNode last.node trailing rest)

/-- Gives the nodes inside the node from the last to the first, without the text between them. -/
def backwards : Macro :=
  ⟨fun _ node => do
    let (outcome, children) ← expandBackwards node.children
    return ⟨outcome, { node with children }⟩⟩

/-- Gives what another template gives in the place of the node, which is left as it is. -/
def embed (source : String) : Macro :=
  ⟨fun setting node =>
    match Node.ofTemplate source setting.file with
    | .error fault => return ⟨.error fault, node⟩
    | .ok root => do
      let expansion ← Plan.expandRoot root
      return { expansion with node }⟩

/-- Gives the content, and a fixed text if the content does not expand. -/
def rescue (instead : String) : Macro :=
  ⟨fun _ node => do
    let expansion ← Plan.expandChildren node
    match expansion.outcome with
    | .ok _ => return expansion
    | .error _ => return { expansion with outcome := .ok (.single (.text instead)) }⟩

end BraceTemplate.Macro
