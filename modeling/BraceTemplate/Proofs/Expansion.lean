import Mathlib.Data.List.Basic
import Mathlib.Data.List.TakeWhile
import BraceTemplate.Proofs.CarryingOut

/-!
# Expanding with the built-in macros

Without macros of a user, what an expansion does is read off the tree: the program of a node comes
from its head and the programs of the nodes inside it, and the work ends at the first node in the
order of the source that asks for a macro that does not exist.

Such an expansion always comes to its end, as each of its requests is about a node inside the one at
hand.
-/

namespace BraceTemplate

/-! ### What nodes ask for -/

/-- The name that the head of a node begins with. -/
def Node.askedName (node : Node) : String :=
  (Token.claim node.head).1

def Node.isKnown (node : Node) : Bool :=
  (Builtin.ofName? node.askedName).isSome

namespace Children

/-- The nodes of all depths, in the order of their opening braces. -/
def nodes (children : Children) : List Node :=
  (children.outline 0).map (·.2.1)

private theorem map_outline (children : Children) (depth : Nat) :
    (children.outline depth).map (·.2.1) = children.nodes := by
  suffices same : ∀ depth other : Nat,
      (children.outline depth).map (·.2.1) = (children.outline other).map (·.2.1) from same depth 0
  induction children with
  | nil => intro _ _; rfl
  | cons position head inner trailing rest ihInner ihRest =>
    intro depth other
    simp only [outline, List.map_cons, List.map_append]
    rw [ihInner (depth + 1) (other + 1), ihRest depth other]

@[simp] theorem nodes_nil : nodes .nil = [] := rfl

@[simp] theorem nodes_cons (position : Position) (head : String) (inner : Children)
    (trailing : String) (rest : Children) :
    nodes (.cons position head inner trailing rest) =
      ⟨position, head, inner⟩ :: (inner.nodes ++ rest.nodes) := by
  rw [nodes, outline, List.map_cons, List.map_append, map_outline, map_outline]

/-- The first node that asks for a macro that does not exist. -/
def offender? (children : Children) : Option Node :=
  children.nodes.find? (!·.isKnown)

end Children

/-! ### What expansions give -/

/-- The program of a node that asks for a built-in macro, from the head behind the name and the
program of the nodes inside. -/
def Builtin.program (builtin : Builtin) (head : String) (inner : Program) : Program :=
  let (token, text) := Token.claim head
  let path := Path.normalize token
  match builtin with
  | .out => .consText head inner
  | .value => .cons (.value path) (.consText text inner)
  | .scope => .single (.scope path (.consText text inner))
  | .has => .single (.has path (.consText text inner))
  | .each => .single (.each path (.consText text inner))
  | .path => .cons (.path path) (.consText text inner)

namespace Children

/-- The program of nodes that ask for built-in macros; a node that asks for no macro has none. -/
def program : Children → Program
  | .nil => .empty
  | .cons _ head inner trailing rest =>
    let (name, afterName) := Token.claim head
    (match Builtin.ofName? name with
      | some builtin => builtin.program afterName inner.program
      | none => .empty) ++ .consText trailing rest.program

/-- The program of all nodes, or the first node that asks for a macro that does not exist. -/
def outcome (children : Children) (file : Option String) : Except Fault Program :=
  match children.offender? with
  | none => .ok children.program
  | some node => .error (.unknownMacro node.askedName ⟨file, node.position⟩)

/-- The nodes after they are expanded. The texts in front of an offender are used up, of its head
the name, and nothing behind it. -/
def leftover : Children → Children
  | .nil => .nil
  | .cons position head inner trailing rest =>
    if (Node.mk position head inner).isKnown then
      if inner.offender?.isSome then .cons position "" inner.leftover trailing rest
      else .cons position "" inner.leftover "" rest.leftover
    else .cons position (Token.claim head).2 inner trailing rest

/-- What is recorded of the nodes in front of the first offender. -/
def dispatches (children : Children) : List Dispatch :=
  (children.nodes.takeWhile (·.isKnown)).map fun node => ⟨node.askedName, true⟩

@[simp] theorem offender?_nil : offender? .nil = none := rfl

theorem offender?_cons (position : Position) (head : String) (inner : Children)
    (trailing : String) (rest : Children) :
    offender? (.cons position head inner trailing rest) =
      if (Node.mk position head inner).isKnown then inner.offender?.or rest.offender?
      else some ⟨position, head, inner⟩ := by
  rw [offender?, nodes_cons, List.find?_cons, List.find?_append]
  cases known : (Node.mk position head inner).isKnown with
  | false => rfl
  | true => rfl

@[simp] theorem dispatches_nil : dispatches .nil = [] := rfl

theorem dispatches_cons (position : Position) (head : String) (inner : Children)
    (trailing : String) (rest : Children) :
    dispatches (.cons position head inner trailing rest) =
      if (Node.mk position head inner).isKnown then
        ⟨(Token.claim head).1, true⟩ ::
          (inner.dispatches ++ if inner.offender?.isSome then [] else rest.dispatches)
      else [] := by
  rw [dispatches, nodes_cons, List.takeWhile_cons]
  cases known : (Node.mk position head inner).isKnown with
  | false => rfl
  | true =>
    cases offender : inner.offender? with
    | none =>
      -- All nodes inside are known, so the search goes on behind them.
      have all : ∀ node ∈ inner.nodes, node.isKnown = true := by
        simpa [offender?, List.find?_eq_none] using offender
      have whole := List.takeWhile_eq_self_iff.mpr all
      simp [dispatches, Node.askedName, List.takeWhile_append_of_pos all, whole]
    | some node =>
      -- The search stops inside.
      obtain ⟨found, before, behind, split, -⟩ := List.find?_eq_some_iff_append.mp offender
      have unknown : node.isKnown = false := by simpa using found
      have stops : (inner.nodes ++ rest.nodes).takeWhile (·.isKnown) =
          inner.nodes.takeWhile (·.isKnown) := by
        rw [split, List.append_assoc]
        simp [List.takeWhile_append, unknown]
      simp [dispatches, Node.askedName, stops]

end Children

/-! ### Plans of built-in macros -/

/-- A root is handed to the macro of roots with the head that is behind the name and a space. -/
theorem Plan.expandRoot_rootLead_append (position : Position) (head : String)
    (children : Children) :
    Plan.expandRoot ⟨position, Node.rootLead ++ head, children⟩ =
      .dispatch Node.rootName ⟨position, head, children⟩ .done := by
  have lead : Node.rootLead.toList.isPrefixOf? (Node.rootLead ++ head).toList =
      some head.toList := by
    rw [String.toList_append]
    exact List.isPrefixOf?_eq_some_iff_append_eq.mpr rfl
  simp only [expandRoot, lead, String.ofList_toList]

theorem Plan.expandChildren_eq (node : Node) :
    Plan.expandChildren node = (do
      let result ← Plan.expandEach node.children
      return ⟨result.1.map (.consText node.head), ⟨node.position, "", result.2⟩⟩) := rfl

theorem Plan.expandAfterPath_eq (change : String → Program → Program) (node : Node) :
    Plan.expandAfterPath change node = (do
      let result ← Plan.expandEach node.children
      return ⟨result.1.map fun inner => change (Path.normalize (Token.claim node.head).1)
        (.consText (Token.claim node.head).2 inner), ⟨node.position, "", result.2⟩⟩) := by
  have compose (path text : String) (outcome : Except Fault Program) :
      (outcome.map (.consText text)).map (change path) =
        outcome.map fun inner => change path (.consText text inner) := by
    cases outcome <;> rfl
  simp [expandAfterPath, expandChildren_eq, Node.claimPath, Node.claimToken,
    Expansion.mapProgram, compose]

/-- A built-in macro uses up its head and expands the nodes inside. -/
theorem Builtin.plan_eq (builtin : Builtin) (node : Node) :
    builtin.plan node = (do
      let result ← Plan.expandEach node.children
      return ⟨result.1.map (builtin.program node.head), ⟨node.position, "", result.2⟩⟩) := by
  cases builtin with
  | out => exact Plan.expandChildren_eq node
  | value | scope | has | each | path =>
    rw [plan, Plan.expandAfterPath_eq]
    rfl

/-! ### Carrying out the plans -/

namespace Registry

variable {registry : Registry} (file : Option String)

theorem find?_of_isEmpty (noUser : registry.isEmpty = true) (name : String) :
    registry.find? name = (Builtin.ofName? name).map .builtin := by
  have none : registry.macros = [] := List.isEmpty_iff.mp noUser
  simp [find?, none]

theorem find?_cases {name : String} {meaning : Meaning} (found : registry.find? name = some meaning) :
    (∃ user, meaning = .user user ∧ (name, user) ∈ registry.macros) ∨
      ∃ builtin, meaning = .builtin builtin := by
  rw [find?] at found
  split at found
  next user present =>
    obtain ⟨before, after, entries, -⟩ := List.lookup_eq_some_iff.mp present
    exact .inl ⟨user, (Option.some.inj found).symm, by simp [entries]⟩
  next absent =>
    obtain ⟨builtin, -, rfl⟩ := Option.map_eq_some_iff.mp found
    exact .inr ⟨builtin, rfl⟩

/-- A node that is handed to a built-in macro gives what the nodes inside give, changed by the
macro. -/
theorem carryOut_of_builtin {name : String} {builtin : Builtin} {meaning : Meaning}
    (found : registry.find? name = some meaning) (delegates : meaning.toMacro = builtin.toMacro)
    (node : Node) {content : Except Fault Program} {left : Children} {log : List Dispatch}
    (inside : registry.carryOut file (Plan.expandEach node.children) =
      some ((content, left), log)) :
    registry.carryOut file (.dispatch name node .done) =
      some (⟨content.map (builtin.program node.head), ⟨node.position, "", left⟩⟩,
        ⟨name, meaning.isBuiltin⟩ :: log) := by
  rw [carryOut_of_found found, delegates]
  change (registry.carryOut file (builtin.plan node)).map _ = _
  rw [Builtin.plan_eq, carryOut_bind_of_some inside]
  simp

/-- Expanding nodes gives what the tree says. -/
theorem carryOut_expandEach (noUser : registry.isEmpty = true) (children : Children) :
    registry.carryOut file (Plan.expandEach children) =
      some ((children.outcome file, children.leftover), children.dispatches) := by
  induction children with
  | nil => exact carryOut_done registry file _
  | cons position head inner trailing rest ihInner ihRest =>
    rw [Plan.expandEach, Plan.expandNode, Node.claimToken]
    cases name : Builtin.ofName? (Token.claim head).1 with
    | none =>
      have unknown : (Node.mk position head inner).isKnown = false := by
        simp [Node.isKnown, Node.askedName, name]
      have absent : registry.find? (Token.claim head).1 = none := by
        rw [find?_of_isEmpty noUser, name, Option.map_none]
      rw [carryOut_bind_of_some (carryOut_of_unknown absent file _)]
      simp [Children.outcome, Children.offender?_cons, Children.leftover,
        Children.dispatches_cons, unknown, Node.askedName, Children.consNode]
    | some builtin =>
      have isKnown : (Node.mk position head inner).isKnown = true := by
        simp [Node.isKnown, Node.askedName, name]
      have found : registry.find? (Token.claim head).1 = some (.builtin builtin) := by
        rw [find?_of_isEmpty noUser, name, Option.map_some]
      have answer := carryOut_of_builtin file found rfl ⟨position, (Token.claim head).2, inner⟩
        ihInner
      rw [carryOut_bind_of_some answer]
      cases offender : inner.offender? with
      | some node =>
        -- The error inside ends the work: trailing text and rest stay.
        simp [Children.outcome, Children.offender?_cons, Children.leftover,
          Children.dispatches_cons, isKnown, offender, Except.map, Children.consNode,
          Meaning.isBuiltin]
      | none =>
        have ok : inner.outcome file = .ok inner.program := by simp [Children.outcome, offender]
        simp only [ok, Except.map]
        rw [carryOut_bind_of_some ihRest]
        -- What comes out is what comes out of the rest, with the program of this node in front.
        have whole : (Children.cons position head inner trailing rest).outcome file =
            (rest.outcome file).map fun program =>
              builtin.program (Token.claim head).2 inner.program ++ .consText trailing program := by
          simp only [Children.outcome, Children.offender?_cons, isKnown, offender, if_true,
            Option.none_or, Children.program, name]
          cases rest.offender? <;> rfl
        rw [whole]
        simp [Children.leftover, Children.dispatches_cons, isKnown, offender, Pure.pure,
          Children.consNode, Except.map, Meaning.isBuiltin]

/-- The root of a template passes its text and its nodes through, whatever its text begins with. -/
theorem expandLogged_expandRoot (noUser : registry.isEmpty = true) (position : Position)
    (head : String) (children : Children) :
    registry.expandLogged file Plan.expandRoot ⟨position, Node.rootLead ++ head, children⟩ =
      (⟨(children.outcome file).map (.consText head), ⟨position, "", children.leftover⟩⟩,
        ⟨Node.rootName, true⟩ :: children.dispatches) := by
  have found : registry.find? Node.rootName = some (.builtin .out) := by
    rw [find?_of_isEmpty noUser]
    rfl
  have answer := carryOut_of_builtin file found rfl ⟨position, head, children⟩
    (carryOut_expandEach file noUser children)
  refine expandLogged_of_carryOut ?_
  rw [Plan.expandRoot_rootLead_append]
  exact answer

end Registry

/-! ### Compiling -/

theorem compile_of_fault {source : String} {options : Options} {fault : Fault}
    (parsed : Node.ofText source options.file = .error fault) :
    compile source options = .error fault := by
  simp [compile, Compilation.of, Node.ofTemplate, parsed, Except.map, bind, Except.bind]

/-- Compiling a text with a tree gives the program of its nodes behind its first text, or their
first offender. -/
theorem compile_of_ofText {source : String} {options : Options} {root : Node}
    (noUser : options.macros.isEmpty = true) (parsed : Node.ofText source options.file = .ok root) :
    compile source options = (root.children.outcome options.file).map fun content =>
      .ofProgram (.consText root.head content) options := by
  have expanded := Registry.expandLogged_expandRoot options.file noUser root.position root.head
    root.children
  simp only [compile, Compilation.of, Node.ofTemplate, parsed, Except.map, bind, Except.bind,
    expanded]
  cases root.children.outcome options.file <;> rfl

/-- The program of a tree whose nodes ask for built-in macros: the text in front of the nodes, then
the nodes. -/
def Node.program (root : Node) : Program :=
  .consText root.head root.children.program

/-- What compiles is what has a tree without an offender. -/
theorem compile_eq_ok_iff {source : String} {options : Options} {template : Template}
    (noUser : options.macros.isEmpty = true) :
    compile source options = .ok template ↔
      ∃ root, Node.ofText source options.file = .ok root ∧ root.children.offender? = none ∧
        template = .ofProgram root.program options := by
  cases parsed : Node.ofText source options.file with
  | error fault => simp [compile_of_fault parsed]
  | ok root =>
    rw [compile_of_ofText noUser parsed, Children.outcome]
    cases offender : root.children.offender? with
    | some node => simp [Except.map, offender]
    | none => simp [Except.map, offender, Node.program, eq_comm]

/-- What compiles has a tree, and its program is the text in front of the nodes and the program of
the nodes. -/
theorem exists_of_compile {source : String} {options : Options} {template : Template}
    (noUser : options.macros.isEmpty = true) (compiled : compile source options = .ok template) :
    ∃ root, Node.ofText source options.file = .ok root ∧
      template = .ofProgram (.consText root.head root.children.program) options := by
  obtain ⟨root, parsed, -, template⟩ := (compile_eq_ok_iff noUser).mp compiled
  exact ⟨root, parsed, template⟩

end BraceTemplate
