import BraceTemplate.Proofs.Compactness
import BraceTemplate.Proofs.Offender

/-!
# Roots expanded as other nodes

The head of a root begins with the name of its macro and a space. Expanding a root takes off just
that; expanding it as any other node takes off the name as a token, together with all white space
behind it. Both hand the same nodes to the same macro.

## Main result

`expandRoot_keeps_lead`: whatever macros a user has, as long as the root's own is the built-in one,
the two expansions of a template fail alike, and their programs differ by the white space that the
template begins with.

## Proof strategy

The built-in macro of the root puts its head in front of what comes from the nodes inside. So a
longer head changes the result of its plan and nothing about its requests, and a change of the
result can be made after the plan is run.
-/

namespace BraceTemplate

/-! ### The head of a root -/

namespace Token

/-- The white space that a text begins with. -/
def lead (text : String) : String :=
  String.ofList (text.toList.takeWhile isBlank)

/-- A text behind the white space that it begins with. -/
def behindLead (text : String) : String :=
  String.ofList (skipBlank text.toList)

private theorem lead_append_behindLead (text : String) : lead text ++ behindLead text = text := by
  rw [lead, behindLead, skipBlank, ← String.ofList_append, List.takeWhile_append_dropWhile,
    String.ofList_toList]

private theorem isBlank_lead (text : String) : IsBlank (lead text) := by
  rw [IsBlank, lead, String.toList_ofList]
  exact fun c => List.mem_takeWhile_imp

/-- Claimed as a token, the name of a root takes white space behind it along. -/
private theorem claim_rootLead_append (head : String) :
    claim (Node.rootLead ++ head) = (Node.rootName, behindLead head) := by
  have split : Node.rootLead ++ head = Node.rootName ++ (" " ++ lead head ++ behindLead head) := by
    rw [String.append_assoc, lead_append_behindLead, Node.rootLead, String.append_assoc]
  have solid : IsSolid Node.rootName := by decide
  have space : IsBlank " " := by decide
  have start : ∀ c, (behindLead head).toList.head? = some c → isBlank c = false := by
    rw [behindLead, String.toList_ofList]
    exact fun c => not_isBlank_of_head?_skipBlank
  rw [split, claim_append (by decide) solid (by simp) (space.append (isBlank_lead head)) start]

end Token

/-! ### A longer head -/

/-- Changing the program of an expansion changes no error. -/
theorem Expansion.mapProgram_eq_error_iff (change : Program → Program) (expansion : Expansion)
    (fault : Fault) :
    (expansion.mapProgram change).outcome = .error fault ↔ expansion.outcome = .error fault := by
  rw [mapProgram]
  cases expansion.outcome with
  | error other => rfl
  | ok program =>
    constructor
    · intro failed
      cases failed
    · intro failed
      cases failed

namespace Plan

/-- Text in front of a head comes out in front of what the node holds. -/
private theorem expandChildren_append_head (position : Position) (text head : String)
    (children : Children) :
    expandChildren ⟨position, text ++ head, children⟩ =
      Expansion.mapProgram (.consText text) <$> expandChildren ⟨position, head, children⟩ := by
  have compose (outcome : Except Fault Program) :
      (outcome.map (Program.consText head)).map (Program.consText text) =
        outcome.map (Program.consText (text ++ head)) := by
    cases outcome with
    | error fault => rfl
    | ok program => exact congrArg Except.ok (Program.consText_consText text head program)
  simp [expandChildren_eq, Expansion.mapProgram, compose]

end Plan

namespace Registry

variable {registry : Registry} (file : Option String)

private theorem find?_rootName (free : Node.rootName ∉ registry.names) :
    registry.find? Node.rootName = some (.builtin .out) := by
  have absent : registry.macros.lookup Node.rootName = none := by
    refine List.lookup_eq_none_iff.mpr fun entry member => bne_iff_ne.mpr ?_
    intro same
    rw [same] at free
    exact free (List.mem_map_of_mem member)
  rw [find?, absent]
  rfl

theorem carryOut_rootName_append (free : Node.rootName ∉ registry.names) (position : Position)
    (text head : String) (children : Children) :
    registry.carryOut file (.dispatch Node.rootName ⟨position, text ++ head, children⟩ .done) =
      (registry.carryOut file (.dispatch Node.rootName ⟨position, head, children⟩ .done)).map
        (.map (.mapProgram (.consText text)) id) := by
  have plan (head : String) :
      (Meaning.builtin .out).toMacro.plan (registry.setting file) ⟨position, head, children⟩ =
        Plan.expandChildren ⟨position, head, children⟩ := rfl
  rw [carryOut_of_found (find?_rootName free), carryOut_of_found (find?_rootName free), plan, plan,
    Plan.expandChildren_append_head, carryOut_map, Option.map_map, Option.map_map]
  rfl

/-- The expansion of a root, from its expansion as any other node. -/
private theorem expandLogged_expandRoot_append (free : Node.rootName ∉ registry.names)
    (position : Position) (head : String) (children : Children) :
    let root : Node := ⟨position, Node.rootLead ++ head, children⟩
    registry.expandLogged file Plan.expandRoot root =
      ((registry.expandLogged file Plan.expandNode root).1.mapProgram (.consText (Token.lead head)),
        (registry.expandLogged file Plan.expandNode root).2) := by
  intro root
  have asRoot : Plan.expandRoot root =
      .dispatch Node.rootName ⟨position, Token.lead head ++ Token.behindLead head, children⟩
        .done := by
    rw [Token.lead_append_behindLead]
    exact Plan.expandRoot_rootLead_append position head children
  have asNode : Plan.expandNode root =
      .dispatch Node.rootName ⟨position, Token.behindLead head, children⟩ .done := by
    rw [Plan.expandNode, Node.claimToken, Token.claim_rootLead_append]
  rw [expandLogged, expandLogged, asRoot, asNode, carryOut_rootName_append file free]
  cases registry.carryOut file
    (.dispatch Node.rootName ⟨position, Token.behindLead head, children⟩ .done) <;> rfl

end Registry

/-! ### Templates -/

/-- The head of a template's root has the text in front of the first brace. -/
private theorem Node.exists_ofTemplate {text : String} (balanced : Balanced text.toList)
    (file : Option String) :
    ∃ children, Node.ofTemplate text file =
      .ok ⟨.start, Node.rootLead ++ String.ofList (textBehind text.toList), children⟩ := by
  obtain ⟨root, parsed⟩ := (Node.exists_ofText_iff text file).mpr balanced
  obtain ⟨-, -, rfl⟩ := (Node.ofText_eq_ok_iff text file root).mp parsed
  have slot : (Scan.read text.toList).level.slot = textBehind text.toList := by
    rw [Scan.read_eq_takeIn, Scan.State.slot_takeIn]
  rw [slot] at parsed
  exact ⟨(Scan.read text.toList).level.children, by rw [Node.ofTemplate, parsed]; rfl⟩

/-- Expanding the root of a template as any other node fails if and only if expanding it as the root
does, with the same error. If it gives a program, the root gives the white space in front of the
template's text and that program. Both leave the same node and record the same macros. -/
theorem expandRoot_keeps_lead {text : String} (balanced : Balanced text.toList)
    {registry : Registry} (free : Node.rootName ∉ registry.names) (file : Option String) :
    ∃ root, Node.ofTemplate text file = .ok root ∧
      (∀ fault, (registry.expand file Plan.expandNode root).outcome = .error fault ↔
        (registry.expand file Plan.expandRoot root).outcome = .error fault) ∧
      (∀ program, (registry.expand file Plan.expandNode root).outcome = .ok program →
        (registry.expand file Plan.expandRoot root).outcome =
          .ok (.single (.text (Token.lead (String.ofList (textBehind text.toList)))) ++ program)) ∧
      (registry.expand file Plan.expandRoot root).node =
        (registry.expand file Plan.expandNode root).node ∧
      (registry.expandLogged file Plan.expandRoot root).2 =
        (registry.expandLogged file Plan.expandNode root).2 := by
  obtain ⟨children, parsed⟩ := Node.exists_ofTemplate balanced file
  have expanded := Registry.expandLogged_expandRoot_append file free .start
    (String.ofList (textBehind text.toList)) children
  refine ⟨_, parsed, ?_⟩
  rw [Registry.expand, Registry.expand, expanded]
  refine ⟨fun fault => (Expansion.mapProgram_eq_error_iff _ _ fault).symm, ?_, rfl, rfl⟩
  intro program given
  rw [Expansion.mapProgram, given, Program.single_append]
  rfl

/-- White space of two kinds in front of a node whose macro expands a template of its own. -/
theorem expandRoot_keeps_lead_pasted :
    let registry : Registry := ⟨[("frame", Macro.embed "\x7bpaste \x7bpaste x\x7d\x7d"),
      ("paste", Macro.between "(" ")")]⟩
    ∃ root program, Node.rootName ∉ registry.names ∧
      Node.ofTemplate "\u2003\n\x7bframe\x7d y" none = .ok root ∧
      (registry.expand none Plan.expandNode root).outcome = .ok program ∧
      program.listing = "text \"((x)) y\"\n" ∧
      (registry.expand none Plan.expandRoot root).outcome =
        .ok (.single (.text "\u2003\n") ++ program) := by
  intro registry
  let root : Node := ⟨.start, Node.rootLead ++ "\u2003\n", .cons ⟨2, 1⟩ "frame" .nil " y" .nil⟩
  have free : Node.rootName ∉ registry.names := by decide
  have balanced : Balanced "\u2003\n\x7bframe\x7d y".toList := by decide
  obtain ⟨other, parsed, -, keeps, -⟩ := expandRoot_keeps_lead balanced free none
  have isRoot : Node.ofTemplate "\u2003\n\x7bframe\x7d y" none = .ok root := rfl
  obtain rfl : root = other := Except.ok.inj (isRoot.symm.trans parsed)
  have listed : (registry.expand none Plan.expandNode root).outcome.map Program.listing =
      .ok "text \"((x)) y\"\n" := by
    refine Registry.map_outcome_expand_of_run 6 ?_
    unfold registry root
    decide +kernel
  cases given : (registry.expand none Plan.expandNode root).outcome with
  | error fault =>
    rw [given] at listed
    cases listed
  | ok program =>
    rw [given] at listed
    exact ⟨root, program, free, parsed, given, Except.ok.inj listed, keeps program given⟩

end BraceTemplate
