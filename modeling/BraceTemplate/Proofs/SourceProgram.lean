import BraceTemplate.Proofs.SourceText
import BraceTemplate.Proofs.Balance
import BraceTemplate.Proofs.Expansion

/-!
# Compiling the source of a tree

Every balanced text is the source of a tree without braces in its texts. What such a source compiles
to can be told from the tree that it is the source of: reading it back changes the positions at
most, and positions get into errors but not into programs.
-/

namespace BraceTemplate

/-! ### Positions -/

namespace Children

theorem nodes_unplaced (children : Children) :
    children.unplaced.nodes = children.nodes.map Node.unplaced := by
  induction children with
  | nil => rfl
  | cons position head inner trailing rest ihInner ihRest =>
    simp [unplaced, ihInner, ihRest, Node.unplaced]

theorem offender?_unplaced (children : Children) :
    children.unplaced.offender? = children.offender?.map Node.unplaced := by
  rw [offender?, offender?, nodes_unplaced, List.find?_map]
  rfl

theorem program_unplaced (children : Children) : children.unplaced.program = children.program := by
  induction children with
  | nil => rfl
  | cons position head inner trailing rest ihInner ihRest =>
    simp only [unplaced, program, ihInner, ihRest]

end Children

namespace Node

/-- No text of the tree holds a brace. -/
def Plain (node : Node) : Prop :=
  ∀ slot ∈ node.slots, BraceFree slot.toList

theorem Plain.balanced_source {node : Node} (plain : node.Plain) : Balanced node.source.toList := by
  obtain ⟨root, parsed, -⟩ := ofText_source node none plain
  exact (exists_ofText_iff node.source none).mp ⟨root, parsed⟩

theorem exists_source_of_balanced {text : String} (balanced : Balanced text.toList) :
    ∃ node : Node, node.Plain ∧ node.source = text := by
  obtain ⟨root, parsed⟩ := (exists_ofText_iff text none).mpr balanced
  exact ⟨root, braceFree_of_ofText parsed, source_of_ofText parsed⟩

private theorem offender?_eq_none_iff_of_unplaced {first second : Node}
    (same : first.unplaced = second.unplaced) :
    first.children.offender? = none ↔ second.children.offender? = none := by
  have children : first.children.unplaced = second.children.unplaced := congrArg children same
  have offenders := first.children.offender?_unplaced
  rw [children, second.children.offender?_unplaced] at offenders
  rw [← Option.map_eq_none_iff (f := unplaced), ← offenders, Option.map_eq_none_iff]

theorem program_unplaced (node : Node) : node.unplaced.program = node.program := by
  simp only [program, unplaced, Children.program_unplaced]

end Node

section

variable {options : Options}

/-- The source of a tree compiles to the program of that tree, if no node of it offends. -/
theorem compile_source (noUser : options.macros.isEmpty = true) {node : Node}
    (plain : node.Plain) {template : Template} :
    compile node.source options = .ok template ↔
      node.children.offender? = none ∧ template = .ofProgram node.program options := by
  obtain ⟨root, parsed, same⟩ := Node.ofText_source node options.file plain
  have program : root.program = node.program := by
    rw [← Node.program_unplaced, same, Node.program_unplaced]
  rw [compile_eq_ok_iff noUser, ← program, ← Node.offender?_eq_none_iff_of_unplaced same]
  constructor
  · rintro ⟨other, parsedToo, known, rfl⟩
    obtain rfl : root = other := Except.ok.inj (parsed.symm.trans parsedToo)
    exact ⟨known, rfl⟩
  · rintro ⟨known, rfl⟩
    exact ⟨root, parsed, known, rfl⟩

end

end BraceTemplate
