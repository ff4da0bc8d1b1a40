import BraceTemplate.Access.Stock
import BraceTemplate.Proofs.Listings

/-!
# The texts of values

## Main result

`text_changes_no_course`: how values are written does not change what a rendering comes to, where,
or in which order. What is rendered is one row of pieces, texts and values, and only the values in
it are written differently.

## Proof strategy

The course of a rendering lists the leaf ops that it comes to, each with the ambient path. Nothing
in it asks for the text of a value. An op on the course adds a text or a value to the row, so the
output can be read off the course if no helper and no filter turns it into something else.
-/

namespace BraceTemplate

/-! ### Pieces -/

/-- A part of an output: a text, or a value that appears as its text. -/
inductive Piece where
  | literal (text : String)
  | value (value : Value)

namespace Piece

def written (text : Value → String) : Piece → String
  | .literal words => words
  | .value found => text found

/-- The text of pieces that stand next to each other. -/
def join (text : Value → String) (pieces : List Piece) : String :=
  String.join (pieces.map (written text))

private theorem join_singleton (text : Value → String) (piece : Piece) :
    join text [piece] = piece.written text := by
  rw [join, List.map_singleton, String.join_cons, String.join_nil, String.append_empty]

theorem join_append (text : Value → String) (pieces more : List Piece) :
    join text (pieces ++ more) = join text pieces ++ join text more := by
  rw [join, List.map_append, String.join_append]
  rfl

private theorem join_flatMap {α : Type} (text : Value → String) (rows : List α)
    (row : α → List Piece) :
    join text (rows.flatMap row) = String.join (rows.map fun a => join text (row a)) := by
  induction rows with
  | nil => rfl
  | cons a rows ih =>
    rw [List.flatMap_cons, join_append, ih, List.map_cons, String.join_cons]

end Piece

/-! ### The course of a rendering -/

/-- A leaf op that a rendering comes to, and the ambient path there. -/
structure Stop where
  path : List Key
  op : Leaf

section

variable (data : Value) (access : DataAccess)

/-- The stops inside a region, from the stops of its body at any path. -/
def Region.course (op : Region) (body : List Key → List Stop) (path : List Key) : List Stop :=
  match op with
  | .scope p => body (path ++ Key.ofPath p)
  | .has p => if (valueBelow data access path p).isSome then body path else []
  | .each p =>
    (access.visit (valueBelow data access (path ++ Key.ofPath p) "")).flatMap
      fun key => body (path ++ Key.ofPath p ++ [key])
  | .filter _ _ => body path

/-- The stops of a rendering that stands at a path, in their order. -/
def Program.course : Program → List Key → List Stop
  | .empty, _ => []
  | .leaf op rest, path => ⟨path, op⟩ :: rest.course path
  | .region op body rest, path => op.course data access body.course path ++ rest.course path

/-- What an op adds to the output at a stop. A call adds what its helper returns. -/
def Stop.pieces (stop : Stop) : List Piece :=
  match stop.op with
  | .value target => (valueBelow data access stop.path target).toList.map .value
  | op => [.literal ((Rendering.standing data access stop.path).leafText op)]

end

variable {data : Value} {access other : DataAccess}

private theorem Region.exists_of_mem_course {op : Region} {body : List Key → List Stop}
    {path : List Key} {stop : Stop} (member : stop ∈ op.course data access body path) :
    ∃ inside, stop ∈ body inside := by
  cases op with
  | scope target => exact ⟨_, member⟩
  | has target =>
    rw [course] at member
    split at member
    · exact ⟨_, member⟩
    · cases member
  | each target =>
    obtain ⟨key, -, inRound⟩ := List.mem_flatMap.mp member
    exact ⟨_, inRound⟩
  | filter name change => exact ⟨_, member⟩

/-- What holds of all leaf ops of a program holds of those on its course. -/
private theorem Program.AllOps.leaf_of_mem_course {leaves : Leaf → Prop} {regions : Region → Prop}
    {program : Program} (all : program.AllOps leaves regions) {path : List Key} :
    ∀ stop ∈ program.course data access path, leaves stop.op := by
  induction program generalizing path with
  | empty => exact List.forall_mem_nil _
  | leaf op rest ih => exact List.forall_mem_cons.mpr ⟨all.1, ih all.2⟩
  | region op body rest ihBody ihRest =>
    intro stop member
    rcases List.mem_append.mp member with inRegion | behind
    · -- A region may run its body at many paths, but its stops are all of this one body.
      obtain ⟨inside, inBody⟩ := Region.exists_of_mem_course inRegion
      exact ihBody all.2.1 stop inBody
    · exact ihRest all.2.2 stop behind

/-! ### The output along the course -/

private theorem Stop.join_pieces (stop : Stop) :
    Piece.join access.text (stop.pieces data access) =
      (Rendering.standing data access stop.path).leafText stop.op := by
  obtain ⟨path, op⟩ := stop
  cases op with
  | value target =>
    rw [Rendering.leafText_value]
    change Piece.join access.text ((valueBelow data access path target).toList.map .value) = _
    cases valueBelow data access path target with
    | none => rfl
    | some value => exact Piece.join_singleton access.text (.value value)
  | text text | path target | call name helper =>
    exact Piece.join_singleton access.text (.literal _)

/-- If the pieces of a body make up its meaning, so do those of a region that is no filter. -/
private theorem Region.join_pieces_course {op : Region} (filtersNothing : op.FiltersNothing)
    {stops : List Key → List Stop} {body : List Key → String}
    (inBody : ∀ path, Piece.join access.text ((stops path).flatMap (Stop.pieces data access)) =
      body path) (path : List Key) :
    Piece.join access.text
        ((op.course data access stops path).flatMap (Stop.pieces data access)) =
      op.meaning data access body path := by
  cases op with
  | scope target => exact inBody _
  | has target =>
    rw [course, meaning_has]
    split
    · exact inBody path
    · rfl
  | each target =>
    -- The pieces of the rounds stand next to each other, and each round adds those of its own.
    rw [course, meaning_each, List.flatMap_assoc, Piece.join_flatMap]
    simp only [inBody]
  | filter name change => exact filtersNothing.elim

theorem Program.join_pieces_course {leaves : Leaf → Prop} {program : Program}
    (all : program.AllOps leaves Region.FiltersNothing) (path : List Key) :
    Piece.join access.text
        ((program.course data access path).flatMap (Stop.pieces data access)) =
      program.meaning data access path := by
  induction program generalizing path with
  | empty => rfl
  | leaf op rest ih =>
    rw [course, List.flatMap_cons, Piece.join_append, Stop.join_pieces, ih all.2, meaning]
  | region op body rest ihBody ihRest =>
    have inRegion := Region.join_pieces_course all.1 (ihBody all.2.1) path
    rw [course, List.flatMap_append, Piece.join_append, inRegion, ihRest all.2.2, meaning]

/-! ### Another text for values -/

/-- The accesses differ at most in the texts that they give for values. -/
structure DataAccess.SameButText (access other : DataAccess) : Prop where
  resolve_eq : other.resolve = access.resolve
  lookup_eq : other.lookup = access.lookup
  visit_eq : other.visit = access.visit

namespace DataAccess.SameButText

theorem valueBelow_eq (same : access.SameButText other) (path : List Key) (target : String) :
    valueBelow data other path target = valueBelow data access path target := by
  rw [valueBelow, valueBelow, same.resolve_eq, same.lookup_eq]

/-- No region asks for the text of a value. -/
private theorem region_course_eq (same : access.SameButText other) (op : Region)
    (body : List Key → List Stop) (path : List Key) :
    op.course data other body path = op.course data access body path := by
  cases op with
  | scope target => rfl
  | has target => rw [Region.course, Region.course, same.valueBelow_eq]
  | each target => rw [Region.course, Region.course, same.valueBelow_eq, same.visit_eq]
  | filter name change => rfl

theorem course_eq (same : access.SameButText other) (program : Program) :
    program.course data other = program.course data access := by
  induction program with
  | empty => rfl
  | leaf op rest ih =>
    funext path
    rw [Program.course, Program.course, ih]
  | region op body rest ihBody ihRest =>
    funext path
    rw [Program.course, Program.course, ihBody, ihRest, same.region_course_eq]

/-- Only a helper could ask for the text of a value. -/
private theorem pieces_eq (same : access.SameButText other) {stop : Stop}
    (callsNothing : stop.op.CallsNothing) :
    stop.pieces data other = stop.pieces data access := by
  obtain ⟨path, op⟩ := stop
  cases op with
  | text text => rfl
  | value target => exact congrArg (·.toList.map Piece.value) (same.valueBelow_eq path target)
  | path target => rfl
  | call name helper => exact callsNothing.elim

end DataAccess.SameButText

/-- Accesses that differ at most in the texts of values lead a rendering to the same leaf ops, at
the same ambient paths and in the same order. Without helpers and filters, what is rendered over any
of them is one and the same row of pieces, with each value in it as the access writes it. The values
are those that the ops on the course find. -/
theorem text_changes_no_course (program : Program) (data : Value) (access : DataAccess) :
    (∀ other, access.SameButText other →
      program.course data other [] = program.course data access []) ∧
    (program.FunctionFree → ∃ pieces : List Piece,
      (∀ value, .value value ∈ pieces → ∃ stop ∈ program.course data access [], ∃ target,
        stop.op = .value target ∧ valueBelow data access stop.path target = some value) ∧
      ∀ other, access.SameButText other →
        program.render data other = Piece.join other.text pieces) := by
  refine ⟨fun other same => congrFun (same.course_eq program) [], fun free => ?_⟩
  let course := program.course data access []
  refine ⟨course.flatMap (Stop.pieces data access), ?_, ?_⟩
  · intro value member
    obtain ⟨⟨path, op⟩, onCourse, isPiece⟩ := List.mem_flatMap.mp member
    cases op with
    | value target =>
      obtain ⟨found, isFound, same⟩ := List.mem_map.mp isPiece
      obtain rfl := Piece.value.inj same
      exact ⟨_, onCourse, target, rfl, Option.mem_toList.mp isFound⟩
    | text text | path target | call name helper => cases List.mem_singleton.mp isPiece
  · intro other same
    -- The course is the same, and so are the pieces at each of its stops, as none is a call.
    have pieces : course.flatMap (Stop.pieces data other) =
        course.flatMap (Stop.pieces data access) := by
      apply List.flatMap_congr
      intro stop onCourse
      exact same.pieces_eq (free.leaf_of_mem_course stop onCourse)
    rw [Program.render_eq, ← Program.join_pieces_course free, same.course_eq program, pieces]

/-- A loop in which a test fails for one entry, with the texts of values in upper case. -/
theorem text_changes_no_course_loud :
    ∃ (program : Program) (data : Value) (pieces : List Piece),
      DataAccess.standard.SameButText .loud ∧ program.FunctionFree ∧
      program.course data .loud [] = program.course data .standard [] ∧
      program.render data .standard = Piece.join DataAccess.standard.text pieces ∧
      program.render data .loud = Piece.join DataAccess.loud.text pieces ∧
      program.render data .standard = "n.xs.0=q;;" ∧ program.render data .loud = "n.xs.0=Q;;" := by
  let program : Program := .ofOps [.text "n", .each ".xs" (.ofOps [
    .has ".a" (.ofOps [.path "", .text "=", .value ".a"]), .text ";"])]
  let data : Value := .object ⟨["xs"], by decide⟩
    [.array [.object ⟨["a"], by decide⟩ [.string "q"], .string "q"]]
  have same : DataAccess.standard.SameButText .loud := ⟨rfl, rfl, rfl⟩
  have free : program.FunctionFree := by decide
  obtain ⟨courses, spelled⟩ := text_changes_no_course program data .standard
  obtain ⟨pieces, -, renders⟩ := spelled free
  exact ⟨program, data, pieces, same, free, courses .loud same, renders .standard ⟨rfl, rfl, rfl⟩,
    renders .loud same, by decide +kernel, by decide +kernel⟩

end BraceTemplate
