import BraceTemplate.Program.Basic

/-!
# Appending programs

Programs are put together from the end: an op is put in front of a program, and text that is put in
front of text joins it. Text put in front in two steps is put in front in one, and from this it
follows that putting an op in front of the first of two programs puts it in front of both, and that
programs may be appended in any grouping.

Putting programs together changes nothing but which texts share an op. So what is read off programs
op by op, without regard to the bounds between texts, is read off their parts one after the other.
-/

namespace BraceTemplate.Program

/-! ### Text in front -/

@[simp] theorem consText_empty_text (program : Program) : consText "" program = program := by
  unfold consText
  split <;> simp

theorem consText_leaf_text (first second : String) (rest : Program) :
    consText first (.leaf (.text second) rest) = .leaf (.text (first ++ second)) rest := by
  by_cases empty : first = ""
  · simp [empty]
  · simp [consText, empty]

/-- Either a program begins with text, or text put in front of it is an op of its own. -/
theorem begins_cases (program : Program) :
    (∃ next rest, program = .leaf (.text next) rest) ∨
      ∀ text, text ≠ "" → consText text program = .leaf (.text text) program := by
  unfold consText
  split
  next next rest => exact .inl ⟨next, rest, rfl⟩
  next => exact .inr fun text some => if_neg some

theorem consText_consText (first second : String) (program : Program) :
    consText first (consText second program) = consText (first ++ second) program := by
  by_cases empty : second = ""
  · simp [empty]
  rcases begins_cases program with ⟨next, rest, rfl⟩ | opens
  · simp only [consText_leaf_text, String.append_assoc]
  · have both : first ++ second ≠ "" := by simp [empty]
    rw [opens second empty, opens (first ++ second) both, consText_leaf_text]

/-! ### Programs in front -/

@[simp] theorem empty_append (program : Program) : empty ++ program = program := rfl

theorem leaf_append (op : Leaf) (rest after : Program) :
    leaf op rest ++ after = cons (.leaf op) (rest ++ after) := rfl

theorem region_append (op : Region) (body rest after : Program) :
    region op body rest ++ after = region op body (rest ++ after) := rfl

theorem consText_append (text : String) (program after : Program) :
    consText text program ++ after = consText text (program ++ after) := by
  by_cases empty : text = ""
  · simp [empty]
  rcases begins_cases program with ⟨next, rest, rfl⟩ | opens
  -- The text that was joined is put in front a second time, as part of the longer one.
  · rw [consText_leaf_text, leaf_append, leaf_append, cons, cons, consText_consText]
  · rw [opens text empty, leaf_append, cons]

theorem cons_append (op : Op) (program after : Program) :
    cons op program ++ after = cons op (program ++ after) := by
  cases op with
  | leaf op =>
    cases op with
    | text text => exact consText_append text program after
    | value path => rfl
    | path path => rfl
    | call name helper => rfl
  | region op body => rfl

theorem append_assoc (first second third : Program) :
    first ++ second ++ third = first ++ (second ++ third) := by
  induction first with
  | empty => rfl
  | leaf op rest ih => rw [leaf_append, leaf_append, cons_append, ih]
  | region op body rest _ ih => rw [region_append, region_append, region_append, ih]

/-! ### Reading programs in order -/

/-- A reading of programs that joins what it reads off their ops, and does not see where one text
op ends and the next begins. -/
structure ReadsInOrder {α : Type} (read : Program → α) (readOp : Op → α) (join : α → α → α)
    (nothing : α) : Prop where
  assoc : ∀ a b c, join (join a b) c = join a (join b c)
  nothing_join : ∀ a, join nothing a = a
  join_nothing : ∀ a, join a nothing = a
  empty : read .empty = nothing
  leaf : ∀ op rest, read (.leaf op rest) = join (readOp (.leaf op)) (read rest)
  region : ∀ op body rest, read (.region op body rest) =
    join (readOp (.region op body)) (read rest)
  text_empty : readOp (.text "") = nothing
  text_append : ∀ first second,
    readOp (.text (first ++ second)) = join (readOp (.text first)) (readOp (.text second))

namespace ReadsInOrder

variable {α : Type} {read : Program → α} {readOp : Op → α} {join : α → α → α} {nothing : α}
  (reads : ReadsInOrder read readOp join nothing)

include reads

theorem consText_eq (text : String) (program : Program) :
    read (consText text program) = join (readOp (.text text)) (read program) := by
  by_cases empty : text = ""
  · rw [empty, consText_empty_text, reads.text_empty, reads.nothing_join]
  rcases begins_cases program with ⟨next, rest, rfl⟩ | opens
  -- The one place where two texts become one op; the reading does not see it.
  · rw [consText_leaf_text, reads.leaf, reads.text_append, reads.assoc, reads.leaf]
  · rw [opens text empty, reads.leaf]

theorem cons_eq (op : Op) (program : Program) :
    read (cons op program) = join (readOp op) (read program) := by
  cases op with
  | leaf op =>
    cases op with
    | text text => exact reads.consText_eq text program
    | value path => exact reads.leaf (.value path) program
    | path path => exact reads.leaf (.path path) program
    | call name helper => exact reads.leaf (.call name helper) program
  | region op body => exact reads.region op body program

theorem single_eq (op : Op) : read (single op) = readOp op := by
  rw [single, reads.cons_eq, reads.empty, reads.join_nothing]

theorem append_eq (first second : Program) :
    read (first ++ second) = join (read first) (read second) := by
  induction first with
  | empty => rw [empty_append, reads.empty, reads.nothing_join]
  | leaf op rest ih => rw [leaf_append, reads.cons_eq, ih, reads.leaf, reads.assoc]
  | region op body rest _ ih => rw [region_append, reads.region, ih, reads.region, reads.assoc]

end ReadsInOrder

end BraceTemplate.Program
