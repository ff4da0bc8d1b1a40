import BraceTemplate.Proofs.Reading

/-!
# Trees and their source texts

A text that has a tree is the source of its tree, and a tree whose texts hold no braces is, up to
the positions, the tree of its source.

For the first half, the state of the scanner spells the text that it has taken in, as long as no
opening brace is left alone. For the second half, taking in the source of a list of nodes at a
fresh level puts these nodes there and touches nothing else.
-/

namespace BraceTemplate

/-! ### The texts of a tree -/

/-- Heads and trailing texts in the order of the source. -/
def Children.slots : Children → List String
  | .nil => []
  | .cons _ head inner trailing rest => head :: (inner.slots ++ trailing :: rest.slots)

/-- Heads and trailing texts in the order of the source, the own head first. -/
def Node.slots (node : Node) : List String :=
  node.head :: node.children.slots

/-- The nodes with all positions forgotten. -/
def Children.unplaced : Children → Children
  | .nil => .nil
  | .cons _ head inner trailing rest => .cons .start head inner.unplaced trailing rest.unplaced

/-- The tree with all positions forgotten. -/
def Node.unplaced (node : Node) : Node :=
  ⟨.start, node.head, node.children.unplaced⟩

/-- The nodes with the positions that they have in their source if it starts at `p`. -/
def Children.placedFrom : Children → Position → Children
  | .nil, _ => .nil
  | .cons _ head inner trailing rest, p =>
    let inside := (Brace.opening :: head.toList).foldl Position.next p
    let behind :=
      (inner.source.toList ++ Brace.closing :: trailing.toList).foldl Position.next inside
    .cons p head (inner.placedFrom inside) trailing (rest.placedFrom behind)

private theorem Children.unplaced_placedFrom (nodes : Children) (p : Position) :
    (nodes.placedFrom p).unplaced = nodes.unplaced := by
  induction nodes generalizing p with
  | nil => rfl
  | cons q head inner trailing rest ihInner ihRest =>
    simp only [placedFrom, unplaced, ihInner, ihRest]

private theorem Children.toList_source_cons (p : Position) (head : String) (inner : Children)
    (trailing : String) (rest : Children) :
    (Children.cons p head inner trailing rest).source.toList =
      Brace.opening :: (head.toList ++ (inner.source.toList ++
        Brace.closing :: (trailing.toList ++ rest.source.toList))) := by
  simp [source, inBraces, String.toList_append]

namespace Scan

/-! ### What a state spells -/

/-- The text that a level is read from. -/
def Level.spelling (level : Level) : List Char :=
  level.slot ++ level.children.source.toList

def Level.slots (level : Level) : List String :=
  String.ofList level.slot :: level.children.slots

/-- The text to the right of the reading point, if no brace in it is left open. -/
def State.spelling (s : State) : List Char :=
  s.level.spelling ++ s.pending.flatMap fun entry => Brace.closing :: entry.2.spelling

def State.slots (s : State) : List String :=
  s.level.slots ++ s.pending.flatMap fun entry => entry.2.slots

private theorem State.spelling_step {s : State} {c : Char} {p : Position}
    (closed : (s.step (c, p)).unclosed = none) : (s.step (c, p)).spelling = c :: s.spelling := by
  rcases State.step_cases s c p with
    ⟨rfl, -, step⟩ | ⟨q, outside, more, rfl, pending, step⟩ | ⟨rfl, step⟩ | ⟨-, step⟩
  -- A lone opening brace is where the state loses what stood at its level.
  · rw [step] at closed
    cases (Option.or_eq_none_iff.mp closed).2
  · rw [step]
    simp [spelling, Level.spelling, pending, Children.toList_source_cons]
  · rw [step]
    simp [spelling, Level.spelling, Level.empty, Children.source]
  · rw [step]
    simp [spelling, Level.spelling]

/-- As long as no brace is left open, the state spells exactly what it has taken in. -/
theorem State.spelling_takeIn (p : Position) {cs : List Char}
    (closed : (State.initial.takeIn p cs).unclosed = none) :
    (State.initial.takeIn p cs).spelling = cs := by
  induction cs generalizing p with
  | nil => rfl
  | cons c rest ih =>
    rw [takeIn_cons] at closed ⊢
    rw [State.spelling_step closed, ih _ (State.unclosed_of_step closed)]

/-! ### Braces never get into a slot -/

private theorem State.slots_step {s : State} (free : ∀ slot ∈ s.slots, BraceFree slot.toList)
    (c : Char) (p : Position) : ∀ slot ∈ (s.step (c, p)).slots, BraceFree slot.toList := by
  rcases State.step_cases s c p with
    ⟨-, pending, step⟩ | ⟨q, outside, more, -, pending, step⟩ | ⟨-, step⟩ | ⟨plain, step⟩
  · rw [step]
    simp [slots, Level.slots, Level.empty, Children.slots, pending, braceFree_nil]
  · simp only [slots, Level.slots, pending, List.flatMap_cons, List.forall_mem_append,
      List.forall_mem_cons, String.toList_ofList] at free
    obtain ⟨⟨own, inner⟩, ⟨trailing, rest⟩, outer⟩ := free
    rw [step]
    simp only [slots, Level.slots, Children.slots, List.forall_mem_append, List.forall_mem_cons,
      String.toList_ofList]
    exact ⟨⟨braceFree_nil, own, inner, trailing, rest⟩, outer⟩
  · rw [step]
    simp only [slots, Level.slots, List.flatMap_cons, List.forall_mem_append,
      List.forall_mem_cons, String.toList_ofList] at free ⊢
    exact ⟨⟨braceFree_nil, by simp [Level.empty, Children.slots]⟩, free⟩
  · rw [step]
    simp only [slots, Level.slots, List.forall_mem_append, List.forall_mem_cons,
      String.toList_ofList] at free ⊢
    obtain ⟨⟨own, inner⟩, outer⟩ := free
    exact ⟨⟨braceFree_cons.mpr ⟨plain, own⟩, inner⟩, outer⟩

private theorem State.slots_takeIn (p : Position) (cs : List Char) :
    ∀ slot ∈ (State.initial.takeIn p cs).slots, BraceFree slot.toList := by
  induction cs generalizing p with
  | nil =>
    simp [slots, Level.slots, State.initial, Level.empty, Children.slots, braceFree_nil]
  | cons c rest ih =>
    rw [takeIn_cons]
    exact State.slots_step (ih _) c p

/-! ### Taking in a source -/

/-- The source of nodes without braces in their texts, taken in at a fresh level, puts the same
nodes there and changes nothing else. -/
theorem State.takeIn_source (nodes : Children)
    (free : ∀ slot ∈ nodes.slots, BraceFree slot.toList) (p : Position) (s : State)
    (fresh : s.level = .empty) :
    s.takeIn p nodes.source.toList = { s with level := ⟨[], nodes.placedFrom p⟩ } := by
  induction nodes generalizing p s with
  | nil =>
    rw [Children.placedFrom, ← Level.empty, ← fresh]
    rfl
  | cons q head inner trailing rest ihInner ihRest =>
    simp only [Children.slots, List.forall_mem_cons, List.forall_mem_append] at free
    obtain ⟨freeHead, freeInner, freeTrailing, freeRest⟩ := free
    rw [Children.toList_source_cons]
    simp only [takeIn_cons, takeIn_append]
    -- The nodes behind, the trailing text and the closing brace open a fresh level.
    rw [ihRest freeRest _ s fresh, State.takeIn_plain _ _ freeTrailing, State.step_closing]
    -- The nodes inside and the head fill it, and the opening brace puts it in front.
    rw [ihInner freeInner _ _ rfl, State.takeIn_plain _ _ freeHead, State.step_opening_paired rfl]
    simp [Children.placedFrom]

end Scan

/-! ### Reading and writing undo each other -/

open Scan

theorem Node.source_of_ofText {text : String} {file : Option String} {root : Node}
    (parsed : Node.ofText text file = .ok root) : root.source = text := by
  obtain ⟨pending, closed, rfl⟩ := (ofText_eq_ok_iff text file root).mp parsed
  have spelled := State.spelling_takeIn .start closed
  rw [← read_eq_takeIn, State.spelling, pending, Level.spelling] at spelled
  apply String.toList_injective
  simpa [Node.source, String.toList_append] using spelled

theorem Node.braceFree_of_ofText {text : String} {file : Option String} {root : Node}
    (parsed : Node.ofText text file = .ok root) :
    ∀ slot ∈ root.slots, BraceFree slot.toList := by
  obtain ⟨_, _, rfl⟩ := (ofText_eq_ok_iff text file root).mp parsed
  intro slot member
  exact State.slots_takeIn .start text.toList slot (List.mem_append_left _ member)

theorem Node.ofText_source (node : Node) (file : Option String)
    (free : ∀ slot ∈ node.slots, BraceFree slot.toList) :
    ∃ root, Node.ofText node.source file = .ok root ∧ root.unplaced = node.unplaced := by
  obtain ⟨freeHead, freeChildren⟩ := List.forall_mem_cons.mp free
  have taken := State.takeIn_source node.children freeChildren
    (node.head.toList.foldl Position.next .start) .initial rfl
  have whole : (read node.source.toList).root = .ok ⟨.start, node.head,
      node.children.placedFrom (node.head.toList.foldl Position.next .start)⟩ := by
    rw [Node.source, String.toList_append, read_eq_takeIn, State.takeIn_append, taken,
      State.takeIn_plain _ _ freeHead]
    simp [State.root, State.initial]
  refine ⟨_, by rw [Node.ofText, whole], ?_⟩
  simp only [Node.unplaced, Children.unplaced_placedFrom]

/-- A text is the source of its tree, whose slots are free of braces; and every tree with such
slots, whatever its shape, is read back from its source, positions apart. -/
theorem ofText_source_inverse :
    (∀ (text : String) (file : Option String) (root : Node), Node.ofText text file = .ok root →
      root.source = text ∧ ∀ slot ∈ root.slots, BraceFree slot.toList) ∧
    (∀ (node : Node) (file : Option String), (∀ slot ∈ node.slots, BraceFree slot.toList) →
      ∃ root, Node.ofText node.source file = .ok root ∧ root.unplaced = node.unplaced) := by
  constructor
  · intro text file root parsed
    exact ⟨Node.source_of_ofText parsed, Node.braceFree_of_ofText parsed⟩
  · intro node file free
    exact Node.ofText_source node file free

theorem ofText_source_inverse_nested :
    (∃ root, Node.ofText "a\x7bb\x7b\x7dc\x7d" none = .ok root ∧ root.source = "a\x7bb\x7b\x7dc\x7d" ∧
      ∀ slot ∈ root.slots, BraceFree slot.toList) ∧
    (∃ root, Node.ofText (Node.source ⟨⟨7, 7⟩, "a", .cons ⟨3, 4⟩ "" .nil "b" .nil⟩) none =
      .ok root ∧ root.unplaced = ⟨.start, "a", .cons .start "" .nil "b" .nil⟩) := by
  constructor
  · exact ⟨_, rfl, ofText_source_inverse.1 "a\x7bb\x7b\x7dc\x7d" none _ rfl⟩
  · apply ofText_source_inverse.2 ⟨⟨7, 7⟩, "a", .cons ⟨3, 4⟩ "" .nil "b" .nil⟩ none
    simp [Node.slots, Children.slots, BraceFree, isBrace, Brace.opening, Brace.closing]

end BraceTemplate
