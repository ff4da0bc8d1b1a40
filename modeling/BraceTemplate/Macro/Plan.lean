import BraceTemplate.Tree.Basic
import BraceTemplate.Program.Shown
import BraceTemplate.Fault

/-!
# What macros do

A macro turns a node into a program. On its way it uses up the texts of the node, and it may ask for
other nodes to be expanded by the macros that their heads name. A plan is such a piece of work as a
tree of requests: either it is done, or it hands a node to the macro of some name and goes on with
the answer. A plan does not know who answers, so a macro depends on nothing but its node and the
answers it gets.

The node that an expansion leaves behind is part of the answer also when the expansion failed, as it
shows which texts were used up before.
-/

namespace BraceTemplate

/-- What an expansion gives: a program or an error, and the node without what is used up. -/
structure Expansion where
  outcome : Except Fault Program
  node : Node

def Expansion.mapProgram (change : Program → Program) (expansion : Expansion) : Expansion :=
  { expansion with outcome := expansion.outcome.map change }

/-- Work that may hand nodes to macros. -/
inductive Plan (α : Type) where
  | done (result : α)
  /-- Hand a node to the macro of a name, and go on with what it gives. -/
  | dispatch (name : String) (node : Node) (next : Expansion → Plan α)

namespace Plan

def andThen {α β : Type} : Plan α → (α → Plan β) → Plan β
  | .done result, next => next result
  | .dispatch name node answer, next =>
    .dispatch name node fun expansion => (answer expansion).andThen next

instance : Monad Plan where
  pure := .done
  bind := .andThen

instance : LawfulMonad Plan := .mk' Plan
  (fun plan => by
    induction plan with
    | done result => rfl
    | dispatch name node next ih => exact congrArg (Plan.dispatch name node) (funext ih))
  (fun _ _ => rfl)
  (fun plan _ _ => by
    induction plan with
    | done result => rfl
    | dispatch name node next ih => exact congrArg (Plan.dispatch name node) (funext ih))

/-- Expands a node through the macro that its head names. The name is taken off the head. -/
def expandNode (node : Node) : Plan Expansion :=
  let (name, node) := node.claimToken
  .dispatch name node .done

/-- Expands nodes in their order, each followed by its trailing text, which is used up with it. The
first error ends the work, and what follows stays as it is. -/
def expandEach : Children → Plan (Except Fault Program × Children)
  | .nil => .done (.ok .empty, .nil)
  | .cons position head inner trailing rest => do
    let first ← expandNode ⟨position, head, inner⟩
    match first.outcome with
    | .error e => return (.error e, .consNode first.node trailing rest)
    | .ok program =>
      let (outcome, rest) ← expandEach rest
      return (outcome.map fun after => program ++ .consText trailing after,
        .consNode first.node "" rest)

/-- Expands what a node holds: its head as text, then the nodes inside it. -/
def expandChildren (node : Node) : Plan Expansion := do
  let (outcome, children) ← expandEach node.children
  return ⟨outcome.map (.consText node.head), { node with head := "", children }⟩

/-- Takes a token off the head, expands what the node holds then, and changes the program by the
token. -/
def expandAfterToken (change : String → Program → Program) (node : Node) : Plan Expansion :=
  let (token, rest) := node.claimToken
  Expansion.mapProgram (change token) <$> expandChildren rest

/-- Takes a path off the head, expands what the node holds then, and changes the program by the
path. -/
def expandAfterPath (change : String → Program → Program) (node : Node) : Plan Expansion :=
  let (path, rest) := node.claimPath
  Expansion.mapProgram (change path) <$> expandChildren rest

/-- Expands the root of a template. The name of its macro is taken off as it is written, so that
white space in front of the template's text stays. A root whose head does not begin with that name
is expanded as any other node. -/
def expandRoot (root : Node) : Plan Expansion :=
  match Node.rootLead.toList.isPrefixOf? root.head.toList with
  | some rest => .dispatch Node.rootName { root with head := String.ofList rest } .done
  | none => expandNode root

end Plan

/-! ### Macros -/

/-- What a macro can learn about the compilation that it works for. -/
structure Setting where
  /-- The name of the template. -/
  file : Option String
  /-- The names of the user's macros in ascending order. -/
  names : List String

namespace Setting

/-- The macros of the user as they are shown to a developer, by their names. -/
def shownMacros (setting : Setting) : String :=
  showFields "MacroRegistry" [("user", showList (setting.names.map Shown.text))]

/-- The setting as it is shown to a developer. -/
def shown (setting : Setting) : String :=
  let file := setting.file.elim "None" fun name => "Some(" ++ Shown.text name ++ ")"
  showFields "Transformer" [("registry", setting.shownMacros), ("file", file)]

end Setting

/-- A macro: its work on a node whose macro name is taken off, in the setting of a compilation. -/
structure Macro where
  plan : Setting → Node → Plan Expansion

end BraceTemplate
