import Mathlib.Data.List.Forall2
import BraceTemplate.Proofs.Offender
import BraceTemplate.Proofs.SourceProgram

/-!
# Where nodes stand

The nodes inside a tree, in the order in which a reader meets them, are the opening braces of its
text from left to right. Each stands in the place of its brace, and what follows the brace is the
source of the node and the closing brace that belongs to it.

The scanner comes from the end of the text, so it meets the braces in the reverse order and each
node is complete when its opening brace is taken in: the text behind the brace is then what the
state spells, and this begins with the level that becomes the node.
-/

namespace BraceTemplate

/-! ### The order of places -/

namespace Position

/-- A place on an earlier line, or further left on the same line. -/
def Before (p q : Position) : Prop :=
  p.line < q.line ∨ p.line = q.line ∧ p.column < q.column

theorem Before.trans {p q r : Position} (first : p.Before q) (second : q.Before r) :
    p.Before r := by
  unfold Before at *
  omega

theorem not_before_self (p : Position) : ¬p.Before p := by
  unfold Before
  omega

private theorem before_next (p : Position) (c : Char) : p.Before (p.next c) := by
  unfold next
  split
  · exact .inl (Nat.lt_succ_self p.line)
  · exact .inr ⟨rfl, Nat.lt_succ_self p.column⟩

end Position

/-! ### Opening braces -/

theorem length_openings (p : Position) (cs : List Char) :
    (openings p cs).length = cs.count Brace.opening := by
  induction cs generalizing p with
  | nil => rfl
  | cons c cs ih =>
    rw [openings]
    split
    next opening => simp [opening, ih]
    next plain => rw [ih, List.count_cons_of_ne plain]

private theorem exists_of_getElem?_openings {p place : Position} {cs rest : List Char} {k : Nat}
    (listed : (openings p cs)[k]? = some (place, rest)) :
    ∃ before, cs = before ++ Brace.opening :: rest ∧ before.count Brace.opening = k ∧
      place = before.foldl Position.next p := by
  induction cs generalizing p k with
  | nil => simp [openings] at listed
  | cons c cs ih =>
    rw [openings] at listed
    split at listed
    next opening =>
      subst opening
      cases k with
      | zero =>
        obtain ⟨rfl, rfl⟩ : p = place ∧ cs = rest := by simpa using listed
        exact ⟨[], rfl, rfl, rfl⟩
      | succ k =>
        -- This brace is one more in front of the one looked for.
        obtain ⟨before, rfl, rank, place⟩ := ih (by simpa using listed)
        exact ⟨Brace.opening :: before, rfl, by simp [rank], place⟩
    next plain =>
      obtain ⟨before, rfl, rank, place⟩ := ih listed
      exact ⟨c :: before, rfl, by rw [List.count_cons_of_ne plain, rank], place⟩

private theorem before_of_mem_openings {p : Position} {c : Char} {cs : List Char}
    {opening : Position × List Char} (listed : opening ∈ openings (p.next c) cs) :
    p.Before opening.1 := by
  -- On the way to a brace further right, each character moves the place on.
  induction cs generalizing p c with
  | nil => cases listed
  | cons d cs ih =>
    have further := p.before_next c
    rw [openings] at listed
    split at listed
    · rcases List.mem_cons.mp listed with rfl | later
      · exact further
      · exact further.trans (ih later)
    · exact further.trans (ih listed)

theorem pairwise_openings (p : Position) (cs : List Char) :
    (openings p cs).Pairwise fun first second => first.1.Before second.1 := by
  induction cs generalizing p with
  | nil => exact .nil
  | cons c cs ih =>
    rw [openings]
    split
    · refine List.pairwise_cons.mpr ⟨?_, ih _⟩
      intro opening listed
      exact before_of_mem_openings listed
    · exact ih _

/-- The beginning of a text is in front of all its opening braces, unless it is one itself. -/
theorem before_openings_iff (p : Position) (cs : List Char) :
    (∀ opening ∈ openings p cs, p.Before opening.1) ↔ cs.head? ≠ some Brace.opening := by
  cases cs with
  | nil => simp [openings]
  | cons c cs =>
    rw [openings, List.head?_cons]
    split
    next opening =>
      subst opening
      refine iff_of_false ?_ (by simp)
      intro all
      exact p.not_before_self (all (p, cs) List.mem_cons_self)
    next plain =>
      refine iff_of_true ?_ (by simpa using plain)
      intro opening listed
      exact before_of_mem_openings listed

/-! ### Nodes at opening braces -/

namespace Children

theorem length_nodes (children : Children) : children.nodes.length = children.count := by
  induction children with
  | nil => rfl
  | cons position head inner trailing rest ihInner ihRest =>
    rw [nodes_cons, List.length_cons, List.length_append, ihInner, ihRest, count]
    omega

private theorem plain_of_mem_nodes {children : Children} {node : Node}
    (member : node ∈ children.nodes)
    (free : ∀ slot ∈ children.slots, BraceFree slot.toList) : node.Plain := by
  induction children with
  | nil => cases member
  | cons position head inner trailing rest ihInner ihRest =>
    simp only [slots, List.forall_mem_cons, List.forall_mem_append] at free
    obtain ⟨freeHead, freeInner, -, freeRest⟩ := free
    rw [nodes_cons, List.mem_cons, List.mem_append] at member
    rcases member with rfl | inside | behind
    · exact List.forall_mem_cons.mpr ⟨freeHead, freeInner⟩
    · exact ihInner inside freeInner
    · exact ihRest behind freeRest

end Children

/-- A node stands at an opening brace if it has the place of the brace, and behind the brace come
its source and a closing brace. -/
def Node.StandsAt (node : Node) (opening : Position × List Char) : Prop :=
  node.position = opening.1 ∧ ∃ behind, opening.2 = node.source.toList ++ Brace.closing :: behind

namespace Scan

private theorem State.standsAt_step {s : State} {q : Position} {outside : Level}
    {more : List (Position × Level)} (paired : s.pending = (q, outside) :: more) (p : Position) :
    Node.StandsAt ⟨p, String.ofList s.level.slot, s.level.children⟩ (p, s.spelling) := by
  -- Behind the level that closes, the state spells the levels that wait, each after its brace.
  refine ⟨rfl, outside.spelling ++ more.flatMap fun entry => Brace.closing :: entry.2.spelling, ?_⟩
  simp [State.spelling, Level.spelling, paired, Node.source, String.toList_append]

/-- If no opening brace is left alone, the nodes to the right of the reading point stand at the
opening braces there, one after the other. -/
private theorem State.nodes_standAt_takeIn {p : Position} {cs : List Char}
    (closed : (State.initial.takeIn p cs).unclosed = none) :
    List.Forall₂ Node.StandsAt (State.initial.takeIn p cs).nodes (openings p cs) := by
  induction cs generalizing p with
  | nil => exact .nil
  | cons c cs ih =>
    rw [takeIn_cons] at closed ⊢
    have closedBehind := State.unclosed_of_step closed
    have behind := ih closedBehind
    rcases State.step_cases (State.initial.takeIn (p.next c) cs) c p with
      ⟨rfl, -, step⟩ | ⟨q, outside, more, rfl, pending, step⟩ | ⟨rfl, step⟩ | ⟨plain, step⟩
    · rw [step] at closed
      cases (Option.or_eq_none_iff.mp closed).2
    -- The new node comes first; the others are those that stood at the level and outside it.
    · have stands := State.standsAt_step pending p
      rw [State.spelling_takeIn _ closedBehind] at stands
      rw [step, openings, if_pos rfl]
      simp only [nodes, pending, List.flatMap_cons, ← List.append_assoc] at behind
      simpa [nodes] using List.Forall₂.cons stands behind
    · rw [step, openings, if_neg (by decide)]
      exact behind
    · rw [step, openings, if_neg (ne_opening_of_not_brace plain)]
      exact behind

end Scan

namespace Node

variable {text : String} {file : Option String} {root : Node}

theorem position_of_ofText (parsed : ofText text file = .ok root) : root.position = .start := by
  obtain ⟨-, -, rfl⟩ := (ofText_eq_ok_iff text file root).mp parsed
  rfl

theorem nodes_standAt_of_ofText (parsed : ofText text file = .ok root) :
    List.Forall₂ StandsAt root.children.nodes (openings .start text.toList) := by
  obtain ⟨pending, closed, rfl⟩ := (ofText_eq_ok_iff text file root).mp parsed
  have stand := Scan.State.nodes_standAt_takeIn closed
  rw [← Scan.read_eq_takeIn, Scan.State.nodes, pending, List.flatMap_nil, List.append_nil] at stand
  exact stand

/-- Nodes and opening braces with the same number belong together. -/
private theorem exists_opening_of_getElem? (parsed : ofText text file = .ok root) {k : Nat}
    {node : Node} (listed : root.children.nodes[k]? = some node) :
    ∃ opening, (openings .start text.toList)[k]? = some opening ∧ node.StandsAt opening := by
  have stand := nodes_standAt_of_ofText parsed
  obtain ⟨inNodes, rfl⟩ := List.getElem?_eq_some_iff.mp listed
  have inOpenings : k < (openings .start text.toList).length := stand.length_eq ▸ inNodes
  exact ⟨_, List.getElem?_eq_getElem inOpenings, stand.get inNodes inOpenings⟩

private theorem balanced_of_mem_nodes (parsed : ofText text file = .ok root) {node : Node}
    (member : node ∈ root.children.nodes) : Balanced node.source.toList := by
  have free : root.Plain := braceFree_of_ofText parsed
  have plain : node.Plain := Children.plain_of_mem_nodes member (List.forall_mem_cons.mp free).2
  exact plain.balanced_source

theorem map_position_nodes (parsed : ofText text file = .ok root) :
    root.children.nodes.map (·.position) = (openings .start text.toList).map (·.1) := by
  have stand := nodes_standAt_of_ofText parsed
  rw [← List.forall₂_eq_eq_eq, List.forall₂_map_left_iff, List.forall₂_map_right_iff]
  exact stand.imp fun _ _ stands => stands.1

end Node

/-- A tree has a node for each opening brace of its text, besides the root, which stands where the
text begins. Counted in the order of the tree, the node with a number stands in the place of the
brace with that number, and behind the brace come its source and the closing brace that belongs to
it. So the places of the nodes increase strictly; that of the root is in front of them, unless the
text begins with a brace. -/
theorem ofText_spans (text : String) (file : Option String) (root : Node)
    (parsed : Node.ofText text file = .ok root) :
    root.count = 1 + text.toList.count Brace.opening ∧ root.position = ⟨1, 1⟩ ∧
    root.children.nodes.length = text.toList.count Brace.opening ∧
    (∀ k node, root.children.nodes[k]? = some node →
      ∃ before behind,
        text.toList = before ++ Brace.opening :: (node.source.toList ++ Brace.closing :: behind) ∧
        before.count Brace.opening = k ∧ node.position = placeAfter before ∧
        Balanced node.source.toList) ∧
    (root.children.nodes.map (·.position)).Pairwise Position.Before ∧
    ((root.position :: root.children.nodes.map (·.position)).Pairwise Position.Before ↔
      text.toList.head? ≠ some Brace.opening) := by
  have stand := Node.nodes_standAt_of_ofText parsed
  have number : root.children.nodes.length = text.toList.count Brace.opening := by
    rw [stand.length_eq, length_openings]
  have position := Node.position_of_ofText parsed
  have increasing : (root.children.nodes.map (·.position)).Pairwise Position.Before := by
    rw [Node.map_position_nodes parsed, List.pairwise_map]
    exact pairwise_openings .start text.toList
  refine ⟨?_, position, number, ?_, increasing, ?_⟩
  · rw [Node.count, ← Children.length_nodes, number]
  · intro k node listed
    obtain ⟨⟨place, rest⟩, numbered, stands, behind, rfl⟩ :=
      Node.exists_opening_of_getElem? parsed listed
    obtain ⟨before, split, rank, rfl⟩ := exists_of_getElem?_openings numbered
    have place := stands.trans (foldl_next_start before)
    have balanced := Node.balanced_of_mem_nodes parsed (List.mem_of_getElem? listed)
    exact ⟨before, behind, split, rank, place, balanced⟩
  · rw [List.pairwise_cons, and_iff_left increasing, position, Node.map_position_nodes parsed,
      List.forall_mem_map]
    exact before_openings_iff .start text.toList

theorem ofText_spans_nested :
    ∃ root, Node.ofText "a\n\x7b. b\x7bpath\x7d\n\x7d \x7bout\x7d" none = .ok root ∧
      root.count = 4 ∧
      root.children.nodes.map (·.position) = [⟨2, 1⟩, ⟨2, 5⟩, ⟨3, 3⟩] ∧
      (root.children.nodes.map (·.position)).Pairwise Position.Before ∧
      ∃ node before behind, root.children.nodes[1]? = some node ∧
        "a\n\x7b. b\x7bpath\x7d\n\x7d \x7bout\x7d".toList =
          before ++ Brace.opening :: (node.source.toList ++ Brace.closing :: behind) ∧
        node.source = "path" ∧ node.position = placeAfter before := by
  obtain ⟨count, -, -, spans, increasing, -⟩ :=
    ofText_spans "a\n\x7b. b\x7bpath\x7d\n\x7d \x7bout\x7d" none _ rfl
  obtain ⟨before, behind, split, -, place, -⟩ := spans 1 _ rfl
  exact ⟨_, rfl, count, rfl, increasing, _, before, behind, rfl, split, rfl, place⟩

end BraceTemplate
