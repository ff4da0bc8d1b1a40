import BraceTemplate.Proofs.Expansion
import BraceTemplate.Proofs.Appending

/-!
# The stream of a program

Read from front to back, with the bounds of its regions marked, a program is a stream of characters
and other items. The same can be read off the tree of a template: the text of each node behind the
tokens that its macro claims, with what the macro stands for in front, and the nodes inside.

The stream does not see which characters share a text op, and this is all that putting programs
together changes. So the stream of a program that a template compiles to is the stream of its tree:
no character is lost or doubled on the way, and none changes its place or gets into or out of a
region.
-/

namespace BraceTemplate

/-- What a reader of a program or of a tree comes upon. -/
inductive Item where
  | char (c : Char)
  /-- An op that has no body and is not text. -/
  | leaf (op : Leaf)
  | opening (op : Region)
  | closing

namespace Item

/-- The items of a text, one for each character. -/
def chars (text : String) : List Item :=
  text.toList.map .char

@[simp] theorem chars_append (first second : String) :
    chars (first ++ second) = chars first ++ chars second := by
  rw [chars, String.toList_append, List.map_append]
  rfl

end Item

/-! ### The stream of a program -/

def Leaf.stream : Leaf → List Item
  | .text literal => Item.chars literal
  | op => [.leaf op]

def Program.stream : Program → List Item
  | .empty => []
  | .leaf op rest => op.stream ++ rest.stream
  | .region op body rest => .opening op :: (body.stream ++ .closing :: rest.stream)

def Op.stream : Op → List Item
  | .leaf op => op.stream
  | .region op body => .opening op :: (body.stream ++ [.closing])

namespace Program

theorem readsInOrder_stream : ReadsInOrder stream Op.stream (· ++ ·) [] where
  assoc := List.append_assoc
  nothing_join := List.nil_append
  join_nothing := List.append_nil
  empty := rfl
  leaf _ _ := rfl
  region op body rest := by
    rw [stream, Op.stream, List.cons_append, List.append_assoc, List.singleton_append]
  text_empty := rfl
  text_append := Item.chars_append

@[simp] theorem stream_consText (text : String) (program : Program) :
    (consText text program).stream = Item.chars text ++ program.stream :=
  readsInOrder_stream.consText_eq text program

@[simp] theorem stream_cons (op : Op) (program : Program) :
    (cons op program).stream = op.stream ++ program.stream :=
  readsInOrder_stream.cons_eq op program

@[simp] theorem stream_single (op : Op) : (single op).stream = op.stream :=
  readsInOrder_stream.single_eq op

@[simp] theorem stream_append (first second : Program) :
    (first ++ second).stream = first.stream ++ second.stream :=
  readsInOrder_stream.append_eq first second

end Program

/-! ### The stream of a tree -/

namespace Builtin

/-- What a macro puts in front of the text of its node: nothing, an item with its path, or the
opening of a region with its path. -/
def lead (builtin : Builtin) (target : String) : List Item :=
  match builtin with
  | .out => []
  | .value => [.leaf (.value target)]
  | .path => [.leaf (.path target)]
  | .scope => [.opening (.scope target)]
  | .has => [.opening (.has target)]
  | .each => [.opening (.each target)]

/-- What a macro puts behind its node: the end of its region, if it makes one. -/
def tail : Builtin → List Item
  | .scope | .has | .each => [.closing]
  | .out | .value | .path => []

/-- What a macro leaves of the head behind its name: all but `out` claim a token of it. -/
def literal (builtin : Builtin) (head : String) : String :=
  match builtin with
  | .out => head
  | _ => (Token.claim head).2

/-- The stream of a node, from the head behind the name of its macro and the stream of the nodes
inside. -/
def stream (builtin : Builtin) (head : String) (inner : List Item) : List Item :=
  builtin.lead (Path.normalize (Token.claim head).1) ++ Item.chars (builtin.literal head) ++
    inner ++ builtin.tail

end Builtin

/-- The stream of nodes, each followed by its trailing text. -/
def Children.stream : Children → List Item
  | .nil => []
  | .cons _ head inner trailing rest =>
    let (name, afterName) := Token.claim head
    (match Builtin.ofName? name with
      | some builtin => builtin.stream afterName inner.stream
      | none => []) ++ Item.chars trailing ++ rest.stream

/-- The stream of a tree: the head of its root as it stands, then the nodes in it. -/
def Node.stream (root : Node) : List Item :=
  Item.chars root.head ++ root.children.stream

/-! ### Compiling keeps the stream -/

theorem Builtin.stream_program (builtin : Builtin) (head : String) (inner : Program) :
    (builtin.program head inner).stream = builtin.stream head inner.stream := by
  cases builtin with
  | out =>
    simp [program, stream, lead, literal, tail]
  | value | path =>
    simp [program, stream, lead, literal, tail, Op.stream, Leaf.stream]
  | scope | has | each =>
    simp [program, stream, lead, literal, tail, Op.stream]

theorem Children.stream_program (children : Children) :
    children.program.stream = children.stream := by
  induction children with
  | nil => rfl
  | cons position head inner trailing rest ihInner ihRest =>
    simp only [program, stream, Program.stream_append, Program.stream_consText, ihRest,
      List.append_assoc]
    cases Builtin.ofName? (Token.claim head).1 with
    | none => rfl
    | some builtin => simp only [Builtin.stream_program, ihInner]

theorem Node.stream_program (root : Node) : root.program.stream = root.stream := by
  rw [program, Program.stream_consText, Children.stream_program, stream]

/-- A template that compiles without macros of a user has a tree, and the stream of its program is
the stream of that tree. -/
theorem stream_compile (source : String) (options : Options) (template : Template)
    (noUser : options.macros.isEmpty = true) (compiled : compile source options = .ok template) :
    ∃ root, Node.ofText source options.file = .ok root ∧
      template.program.stream = root.stream := by
  obtain ⟨root, parsed, -, rfl⟩ := (compile_eq_ok_iff noUser).mp compiled
  exact ⟨root, parsed, root.stream_program⟩

/-- The text behind an inner node, two texts that meet, and a head with white space in it. -/
theorem stream_compile_region :
    ∃ template root, compile "a \x7bhas b[1]  c \x7bout\td\x7de\x7d" {} = .ok template ∧
      Node.ofText "a \x7bhas b[1]  c \x7bout\td\x7de\x7d" none = .ok root ∧
      template.program.stream = root.stream ∧
      root.stream =
        Item.chars "a " ++ .opening (.has ".b.1") :: (Item.chars "c de" ++ [.closing]) := by
  obtain ⟨template, compiled⟩ : ∃ template,
      compile "a \x7bhas b[1]  c \x7bout\td\x7de\x7d" {} = .ok template :=
    ⟨_, (compile_eq_ok_iff rfl).mpr ⟨_, rfl, rfl, rfl⟩⟩
  obtain ⟨root, parsed, same⟩ :=
    stream_compile "a \x7bhas b[1]  c \x7bout\td\x7de\x7d" {} template rfl compiled
  refine ⟨template, root, compiled, parsed, same, ?_⟩
  cases parsed
  rfl

end BraceTemplate
