import BraceTemplate.Source.Position
import BraceTemplate.Text.Token
import BraceTemplate.Path

/-!
# The tree of a template

A pair of braces encloses a node. Its text is the head, up to the first node inside it; after each
inner node comes a trailing text, up to the next brace. Both are kept when they are empty:

    head {node} trailing {node} trailing …

The inner nodes are a type of their own, a list whose items carry what a node holds, so that one
induction reaches every node of a tree.
-/

namespace BraceTemplate

/-- The nodes inside a node in their order, each with the text that follows it. -/
inductive Children where
  | nil
  | cons (position : Position) (head : String) (inner : Children) (trailing : String)
      (rest : Children)
  deriving DecidableEq, Repr

/-- A node: where its brace stands, its head, and the nodes inside it. -/
structure Node where
  position : Position
  head : String
  children : Children
  deriving DecidableEq, Repr

namespace Children

/-- Puts a node and its trailing text in front. -/
def consNode (node : Node) (trailing : String) (rest : Children) : Children :=
  .cons node.position node.head node.children trailing rest

/-- The template text of the nodes, braces included. -/
def source : Children → String
  | .nil => ""
  | .cons _ head inner trailing rest =>
    inBraces (head ++ inner.source) ++ trailing ++ rest.source

def count : Children → Nat
  | .nil => 0
  | .cons _ _ inner _ rest => 1 + inner.count + rest.count

/-- How many nodes there are, counting those next to each other only. -/
def length : Children → Nat
  | .nil => 0
  | .cons _ _ _ _ rest => rest.length + 1

def get? : Children → Nat → Option Node
  | .nil, _ => none
  | .cons position head inner _ _, 0 => some ⟨position, head, inner⟩
  | .cons _ _ _ _ rest, i + 1 => rest.get? i

/-- Puts a node in the place of the one at an index, and leaves the trailing text. -/
def set : Children → Nat → Node → Children
  | .nil, _, _ => .nil
  | .cons _ _ _ trailing rest, 0, node => consNode node trailing rest
  | .cons position head inner trailing rest, i + 1, node =>
    .cons position head inner trailing (rest.set i node)

/-- Puts a node and its trailing text at the end. -/
def push : Children → Node → String → Children
  | .nil, node, trailing => consNode node trailing .nil
  | .cons position head inner trailing rest, node, last =>
    .cons position head inner trailing (rest.push node last)

/-- The nodes in pre-order, each with its depth, the depth of the first being `depth`. -/
def outline (depth : Nat) : Children → List (Nat × Node × String)
  | .nil => []
  | .cons position head inner trailing rest =>
    (depth, ⟨position, head, inner⟩, trailing) :: (inner.outline (depth + 1) ++ rest.outline depth)

end Children

namespace Node

def rootName : String := "out"

/-- What the head of a root begins with: the name of its macro and a space. -/
def rootLead : String := rootName ++ " "

def source (node : Node) : String :=
  node.head ++ node.children.source

def count (node : Node) : Nat :=
  1 + node.children.count

/-- Takes the first token off the head. -/
def claimToken (node : Node) : String × Node :=
  let (token, rest) := Token.claim node.head
  (token, { node with head := rest })

/-- Takes the first token off the head, read as a path. -/
def claimPath (node : Node) : String × Node :=
  let (token, node) := node.claimToken
  (Path.normalize token, node)

/-- Puts a new node with a given head and trailing text at the end of a node. -/
def addChild (node : Node) (head trailing : String) : Node :=
  { node with children := node.children.push ⟨.start, head, .nil⟩ trailing }

end Node

end BraceTemplate
