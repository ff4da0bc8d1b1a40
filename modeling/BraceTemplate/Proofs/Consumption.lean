import BraceTemplate.Proofs.SourceText
import BraceTemplate.Proofs.Expansion

/-!
# What expanding uses up

Expanding takes the texts of a tree off it, in the order of the source. If it succeeds, all texts
are used up. If it fails at a node, the texts in front of the head of that node are used up, of the
head the name with the white space around it, and nothing behind it. The nodes and their positions
stay in any case.

## Main result

`expand_uses_up` says this of the three ways to expand a tree. What is left of the nodes inside is
known (`Children.leftover`), so it is an induction over these nodes, once for the case that no node
is at fault and once for the case that one is.
-/

namespace BraceTemplate

/-! ### Claiming a token -/

/-- A text is a token and a rest, white space around the token apart. The token ends at white space
or at the end of the text, and where there is no token, there is no rest. -/
def Token.Splits (text token rest : String) : Prop :=
  ∃ lead gap : List Char, text.toList = lead ++ (token.toList ++ (gap ++ rest.toList)) ∧
    (∀ c ∈ lead, isBlank c = true) ∧ (∀ c ∈ token.toList, isBlank c = false) ∧
    (∀ c ∈ gap, isBlank c = true) ∧ (∀ c, rest.toList.head? = some c → isBlank c = false) ∧
    (token = "" → rest = "") ∧ (gap = [] → rest = "")

private theorem Token.skipBlank_eq_nil_of_first_eq_nil {cs : List Char} (noToken : first cs = []) :
    skipBlank cs = [] := by
  cases skipped : skipBlank cs with
  | nil => rfl
  | cons c rest =>
    have solid : isBlank c = false := not_isBlank_of_head?_skipBlank (by rw [skipped]; rfl)
    rw [first, skipped, List.takeWhile_cons, solid] at noToken
    cases noToken

private theorem Token.dropWhile_eq_nil_of_no_gap {cs : List Char}
    (noGap : (cs.dropWhile (!isBlank ·)).takeWhile isBlank = []) :
    cs.dropWhile (!isBlank ·) = [] := by
  cases behind : cs.dropWhile (!isBlank ·) with
  | nil => rfl
  | cons c rest =>
    have stopped := List.head?_dropWhile_not (!isBlank ·) cs
    rw [behind] at stopped noGap
    have blank : isBlank c = true := by simpa using stopped
    rw [List.takeWhile_cons, blank] at noGap
    cases noGap

theorem Token.splits_claim (text : String) :
    Token.Splits text (Token.claim text).1 (Token.claim text).2 := by
  let cs := text.toList
  let behind := (skipBlank cs).dropWhile (!isBlank ·)
  have token : (claim text).1.toList = first cs := String.toList_ofList
  have rest : (claim text).2.toList = skipBlank behind := String.toList_ofList
  have whole : cs = cs.takeWhile isBlank ++ (first cs ++ (behind.takeWhile isBlank ++
      skipBlank behind)) := by
    have gapEnds : behind.takeWhile isBlank ++ skipBlank behind = behind :=
      List.takeWhile_append_dropWhile
    rw [gapEnds, first_append]
    exact List.takeWhile_append_dropWhile.symm
  refine ⟨cs.takeWhile isBlank, behind.takeWhile isBlank, ?_, ?_, ?_, ?_, ?_, ?_, ?_⟩
  · rw [token, rest]
    exact whole
  · exact fun c member => List.mem_takeWhile_imp member
  · rw [token]
    exact fun c member => not_isBlank_of_mem_first member
  · exact fun c member => List.mem_takeWhile_imp member
  · rw [rest]
    exact fun c head => not_isBlank_of_head?_skipBlank head
  · -- A text without a token is all white space.
    intro noToken
    rw [← String.toList_eq_nil_iff, token] at noToken
    have nothing : behind = [] := by
      simp only [behind, skipBlank_eq_nil_of_first_eq_nil noToken, List.dropWhile_nil]
    rw [← String.toList_eq_nil_iff, rest, nothing]
    rfl
  · -- Only the end of the text ends a token without white space.
    intro noGap
    have nothing : behind = [] := dropWhile_eq_nil_of_no_gap noGap
    rw [← String.toList_eq_nil_iff, rest, nothing]
    rfl

/-! ### The texts of a tree and whose they are -/

/-- A text of a tree: the head of a node, or the text behind one. -/
inductive Slot where
  | head (node : Node)
  | trailing (text : String)

def Slot.text : Slot → String
  | .head node => node.head
  | .trailing text => text

namespace Children

/-- The texts in the order of the source, with whose they are. -/
def layout : Children → List Slot
  | .nil => []
  | .cons position head inner trailing rest =>
    .head ⟨position, head, inner⟩ :: (inner.layout ++ .trailing trailing :: rest.layout)

private theorem map_text_layout (children : Children) :
    children.layout.map Slot.text = children.slots := by
  induction children with
  | nil => rfl
  | cons position head inner trailing rest ihInner ihRest =>
    simp [layout, slots, Slot.text, ihInner, ihRest]

/-- The nodes at their positions, with all texts empty. -/
def emptied : Children → Children
  | .nil => .nil
  | .cons position _ inner _ rest => .cons position "" inner.emptied "" rest.emptied

private theorem slots_emptied (children : Children) :
    children.emptied.slots = children.layout.map fun _ => "" := by
  induction children with
  | nil => rfl
  | cons position head inner trailing rest ihInner ihRest =>
    simp [emptied, slots, layout, ihInner, ihRest]

/-! ### What is left of nodes -/

/-- Expanding moves no node and drops none. -/
private theorem emptied_leftover (children : Children) :
    children.leftover.emptied = children.emptied := by
  induction children with
  | nil => rfl
  | cons position head inner trailing rest ihInner ihRest =>
    rw [leftover]
    split
    · split
      · simp only [emptied, ihInner]
      · simp only [emptied, ihInner, ihRest]
    · rfl

private theorem leftover_of_offender?_eq_none {children : Children}
    (known : children.offender? = none) :
    children.leftover = children.emptied := by
  induction children with
  | nil => rfl
  | cons position head inner trailing rest ihInner ihRest =>
    rw [offender?_cons] at known
    split at known
    next isKnown =>
      obtain ⟨knownInner, knownRest⟩ := Option.or_eq_none_iff.mp known
      simp [leftover, emptied, isKnown, knownInner, ihInner knownInner, ihRest knownRest]
    next => cases known

/-- The texts in front of the offender's head are used up, of that head the name, and nothing
behind it. -/
private theorem exists_slots_leftover {children : Children} {offender : Node}
    (found : children.offender? = some offender) :
    ∃ before after, children.layout = before ++ .head offender :: after ∧
      children.leftover.slots =
        before.map (fun _ => "") ++ (Token.claim offender.head).2 :: after.map Slot.text := by
  induction children with
  | nil => cases found
  | cons position head inner trailing rest ihInner ihRest =>
    rw [offender?_cons] at found
    split at found
    next isKnown =>
      cases inside : inner.offender? with
      | some node =>
        -- The work ends among the nodes inside: the text behind the node stays, and the rest.
        obtain rfl : node = offender := by simpa [inside] using found
        obtain ⟨before, after, split, left⟩ := ihInner inside
        refine ⟨.head ⟨position, head, inner⟩ :: before,
          after ++ .trailing trailing :: rest.layout, ?_, ?_⟩
        · simp [layout, split]
        · simp [leftover, isKnown, inside, slots, left, Slot.text, map_text_layout]
      | none =>
        -- Everything inside is used up, and the text behind the node with it.
        have later : rest.offender? = some offender := by simpa [inside] using found
        obtain ⟨before, after, split, left⟩ := ihRest later
        refine ⟨.head ⟨position, head, inner⟩ :: (inner.layout ++ .trailing trailing :: before),
          after, ?_, ?_⟩
        · simp [layout, split]
        · simp [leftover, isKnown, inside, slots, left, leftover_of_offender?_eq_none inside,
            slots_emptied]
    next unknown =>
      -- The node itself is at fault, and nothing but its name is used up.
      obtain rfl : Node.mk position head inner = offender := Option.some.inj found
      refine ⟨[], inner.layout ++ .trailing trailing :: rest.layout, rfl, ?_⟩
      simp [leftover, unknown, slots, Slot.text, map_text_layout]

/-- Nodes without any text ask for a macro without a name, the first one first. -/
private theorem outcome_emptied (children : Children) (file : Option String) :
    children.emptied.outcome file =
      match children with
      | .nil => .ok .empty
      | .cons position _ _ _ _ => .error (.unknownMacro "" ⟨file, position⟩) := by
  cases children with
  | nil => rfl
  | cons position head inner trailing rest =>
    have nameless : (Node.mk position "" inner.emptied).isKnown = false := rfl
    rw [emptied, outcome, offender?_cons, nameless]
    rfl

end Children

/-! ### Expanding -/

namespace Node

def layout (node : Node) : List Slot :=
  .head node :: node.children.layout

def emptied (node : Node) : Node :=
  ⟨node.position, "", node.children.emptied⟩

end Node

namespace Registry

variable {registry : Registry} (file : Option String)

private theorem expand_expandChildren (noUser : registry.isEmpty = true) (node : Node) :
    registry.expand file Plan.expandChildren node =
      ⟨(node.children.outcome file).map (.consText node.head),
        ⟨node.position, "", node.children.leftover⟩⟩ := by
  have ended := carryOut_expandEach file noUser node.children
  rw [expand, expandLogged, Plan.expandChildren_eq, carryOut_bind_of_some ended, carryOut_pure]
  rfl

private theorem expand_expandNode_of_unknown (noUser : registry.isEmpty = true) {node : Node}
    (unknown : Builtin.ofName? node.askedName = none) :
    registry.expand file Plan.expandNode node =
      ⟨.error (.unknownMacro node.askedName ⟨file, node.position⟩),
        { node with head := (Token.claim node.head).2 }⟩ := by
  have absent : registry.find? node.askedName = none := by
    rw [find?_of_isEmpty noUser, unknown, Option.map_none]
  rw [expand, expandLogged_of_carryOut (carryOut_of_unknown absent file
    { node with head := (Token.claim node.head).2 })]

private theorem expand_expandNode_of_known (noUser : registry.isEmpty = true) {node : Node}
    {builtin : Builtin} (known : Builtin.ofName? node.askedName = some builtin) :
    registry.expand file Plan.expandNode node =
      ⟨(node.children.outcome file).map (builtin.program (Token.claim node.head).2),
        ⟨node.position, "", node.children.leftover⟩⟩ := by
  have found : registry.find? node.askedName = some (.builtin builtin) := by
    rw [find?_of_isEmpty noUser, known, Option.map_some]
  rw [expand, expandLogged_of_carryOut (carryOut_of_builtin file found rfl
    { node with head := (Token.claim node.head).2 } (carryOut_expandEach file noUser node.children))]

/-- A root is expanded through the macro that its head begins with, or as any other node. -/
private theorem expand_expandRoot_cases (noUser : registry.isEmpty = true) (root : Node) :
    (∃ head, registry.expand file Plan.expandRoot root =
      ⟨(root.children.outcome file).map (.consText head),
        ⟨root.position, "", root.children.leftover⟩⟩) ∨
    registry.expand file Plan.expandRoot root = registry.expand file Plan.expandNode root := by
  cases lead : Node.rootLead.toList.isPrefixOf? root.head.toList with
  | some rest =>
    left
    have split : Node.rootLead ++ String.ofList rest = root.head := by
      apply String.toList_injective
      rw [String.toList_append, String.toList_ofList]
      exact List.isPrefixOf?_eq_some_iff_append_eq.mp lead
    have expanded := expandLogged_expandRoot file noUser root.position (String.ofList rest)
      root.children
    rw [split] at expanded
    exact ⟨String.ofList rest, congrArg Prod.fst expanded⟩
  | none =>
    right
    have same : Plan.expandRoot root = Plan.expandNode root := by simp only [Plan.expandRoot, lead]
    rw [expand, expandLogged, same]
    rfl

end Registry

/-- What an expansion of a tree uses up. -/
structure Expansion.UsesUp (registry : Registry) (file : Option String) (node : Node)
    (expansion : Expansion) : Prop where
  /-- Nodes and positions stay. -/
  shape : expansion.node.emptied = node.emptied
  /-- If it succeeds, nothing is left, so that expanding the node's content again gives nothing or
  fails at its first node, which has no name any more. -/
  ok : ∀ program, expansion.outcome = .ok program →
    (∀ slot ∈ expansion.node.slots, slot = "") ∧
    (registry.expand file Plan.expandChildren expansion.node).outcome =
      match node.children with
      | .nil => .ok .empty
      | .cons position _ _ _ _ => .error (.unknownMacro "" ⟨file, position⟩)
  /-- If it fails, it does so at a node without a macro, and stops behind the name of that node. -/
  error : ∀ fault, expansion.outcome = .error fault →
    ∃ before offender name rest after, Builtin.ofName? name = none ∧
      fault = .unknownMacro name ⟨file, offender.position⟩ ∧
      Token.Splits offender.head name rest ∧
      node.layout = before ++ .head offender :: after ∧
      expansion.node.slots = before.map (fun _ => "") ++ rest :: after.map Slot.text

namespace Expansion

variable {registry : Registry} (file : Option String)

/-- An expansion that uses up the head of a node and expands the nodes inside. -/
private theorem usesUp_of_children (noUser : registry.isEmpty = true) (node : Node)
    (build : Program → Program) :
    UsesUp registry file node ⟨(node.children.outcome file).map build,
      ⟨node.position, "", node.children.leftover⟩⟩ := by
  have shape : Node.emptied ⟨node.position, "", node.children.leftover⟩ = node.emptied := by
    simp only [Node.emptied, Children.emptied_leftover]
  cases found : node.children.offender? with
  | none =>
    have outcome : node.children.outcome file = .ok node.children.program := by
      rw [Children.outcome, found]
    have left : node.children.leftover = node.children.emptied :=
      Children.leftover_of_offender?_eq_none found
    rw [outcome, left]
    rw [left] at shape
    refine ⟨shape, ?_, ?_⟩
    · intro program _
      constructor
      · simp [Node.slots, Children.slots_emptied]
      · rw [Registry.expand_expandChildren file noUser, Children.outcome_emptied]
        cases node.children <;> rfl
    · intro fault failed
      cases failed
  | some offender =>
    have outcome : node.children.outcome file =
        .error (.unknownMacro offender.askedName ⟨file, offender.position⟩) := by
      rw [Children.outcome, found]
    rw [outcome]
    refine ⟨shape, ?_, ?_⟩
    · intro program succeeded
      cases succeeded
    · intro fault failed
      obtain rfl : _ = fault := Except.error.inj failed
      have unknown : Builtin.ofName? offender.askedName = none := by
        simpa [Node.isKnown] using List.find?_some found
      obtain ⟨before, after, split, left⟩ := Children.exists_slots_leftover found
      refine ⟨.head node :: before, offender, offender.askedName, (Token.claim offender.head).2,
        after, unknown, rfl, Token.splits_claim offender.head, ?_, ?_⟩
      · rw [Node.layout, split, List.cons_append]
      · rw [Node.slots, left, List.map_cons, List.cons_append]

/-- An expansion that fails at the node itself. -/
private theorem usesUp_of_unknown {node : Node} (unknown : Builtin.ofName? node.askedName = none) :
    UsesUp registry file node ⟨.error (.unknownMacro node.askedName ⟨file, node.position⟩),
      { node with head := (Token.claim node.head).2 }⟩ := by
  refine ⟨rfl, ?_, ?_⟩
  · intro program succeeded
    cases succeeded
  · intro fault failed
    obtain rfl : _ = fault := Except.error.inj failed
    refine ⟨[], node, node.askedName, (Token.claim node.head).2, node.children.layout, unknown, rfl,
      Token.splits_claim node.head, rfl, ?_⟩
    rw [Children.map_text_layout]
    rfl

theorem usesUp_expandNode (noUser : registry.isEmpty = true) (node : Node) :
    UsesUp registry file node (registry.expand file Plan.expandNode node) := by
  cases name : Builtin.ofName? node.askedName with
  | none =>
    rw [Registry.expand_expandNode_of_unknown file noUser name]
    exact usesUp_of_unknown file name
  | some builtin =>
    rw [Registry.expand_expandNode_of_known file noUser name]
    exact usesUp_of_children file noUser node _

end Expansion

/-- Without macros of a user, expanding a node, its content, or a root uses up the texts of the tree
in the order of the source: all of them if it succeeds, and otherwise those in front of the node at
fault and the name of that node. -/
theorem expand_uses_up (registry : Registry) (noUser : registry.isEmpty = true)
    (file : Option String) (node : Node) :
    Expansion.UsesUp registry file node (registry.expand file Plan.expandNode node) ∧
    Expansion.UsesUp registry file node (registry.expand file Plan.expandChildren node) ∧
    Expansion.UsesUp registry file node (registry.expand file Plan.expandRoot node) := by
  refine ⟨Expansion.usesUp_expandNode file noUser node, ?_, ?_⟩
  · rw [Registry.expand_expandChildren file noUser]
    exact Expansion.usesUp_of_children file noUser node _
  · rcases Registry.expand_expandRoot_cases file noUser node with ⟨head, expanded⟩ | asNode
    · rw [expanded]
      exact Expansion.usesUp_of_children file noUser node _
    · rw [asNode]
      exact Expansion.usesUp_expandNode file noUser node

/-- A root that fails two levels down, between texts that are used up and texts that stay. -/
theorem expand_uses_up_nested :
    ∃ node : Node, Registry.empty.isEmpty = true ∧
      Expansion.UsesUp .empty none node (Registry.empty.expand none Plan.expandRoot node) ∧
      node.slots = ["out a", "has x b", " nope\t y", "c", "", "d", "e"] ∧
      (Registry.empty.expand none Plan.expandRoot node).outcome =
        .error (.unknownMacro "nope" ⟨none, ⟨1, 9⟩⟩) ∧
      (Registry.empty.expand none Plan.expandRoot node).node.slots =
        ["", "", "y", "c", "", "d", "e"] := by
  let children : Children := .cons ⟨1, 2⟩ "has x b"
    (.cons ⟨1, 9⟩ " nope\t y" (.cons ⟨1, 17⟩ "c" .nil "" .nil) "d" .nil) "e" .nil
  let root : Node := ⟨.start, "out a", children⟩
  have computed : ((Plan.expandRoot root).run (Registry.empty.dispatchWithin none 3)).map
      (fun given => (given.1.outcome.map Program.listing, given.1.node.slots)) =
        some (.error (.unknownMacro "nope" ⟨none, ⟨1, 9⟩⟩), ["", "", "y", "c", "", "d", "e"]) := by
    unfold root children
    decide +kernel
  obtain ⟨given, ended, gives⟩ := Registry.exists_carryOut_of_run 3 computed
  obtain ⟨failed, slots⟩ := Prod.mk.inj gives
  have expanded : Registry.empty.expand none Plan.expandRoot root = given.1 :=
    congrArg Prod.fst (Registry.expandLogged_of_carryOut ended)
  refine ⟨root, rfl, (expand_uses_up .empty rfl none root).2.2, rfl, ?_, ?_⟩
  · rw [expanded]
    cases outcome : given.1.outcome with
    | error fault => simpa [outcome, Except.map] using failed
    | ok program => simp [outcome, Except.map] at failed
  · rw [expanded]
    exact slots

end BraceTemplate
