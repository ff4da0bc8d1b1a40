import BraceTemplate.Proofs.Balance
import BraceTemplate.Proofs.Expansion

/-!
# The first offender

Without macros of a user, whether a balanced text compiles can be seen from the text alone: each
opening brace must have the name of a built-in macro behind it, and the first that has not is at
fault. The nodes of a tree, in the order in which they are expanded, are the opening braces of its
text from left to right, so nesting does not matter.
-/

namespace BraceTemplate

/-! ### Opening braces of a text -/

def textBehind (rest : List Char) : List Char :=
  rest.takeWhile (!isBrace ·)

/-- The first token of a text in front of its next brace; empty if there is none. -/
def nameBehind (rest : List Char) : String :=
  String.ofList (Token.first (textBehind rest))

def IsBuiltinName (name : String) : Prop :=
  name ∈ ["out", ".", "->", "has", "each", "path"]

theorem isSome_ofName?_iff (name : String) :
    (Builtin.ofName? name).isSome = true ↔ IsBuiltinName name := by
  rw [Builtin.ofName?, List.find?_isSome]
  simp [Builtin.all, Builtin.name, IsBuiltinName, @eq_comm _ name]

/-- The opening braces of a text that stands at `p`, each with its place and what follows it. -/
def openings : Position → List Char → List (Position × List Char)
  | _, [] => []
  | p, c :: rest =>
    if c = Brace.opening then (p, rest) :: openings (p.next c) rest else openings (p.next c) rest

private theorem mem_openings (p : Position) (before rest : List Char) :
    (before.foldl Position.next p, rest) ∈ openings p (before ++ Brace.opening :: rest) := by
  induction before generalizing p with
  | nil => simp [openings]
  | cons c before ih =>
    rw [List.cons_append, List.foldl_cons, openings]
    split
    · exact List.mem_cons_of_mem _ (ih _)
    · exact ih _

/-- What is listed is an opening brace, and the braces listed in front of it are all that stand in
front of it. -/
private theorem exists_of_openings_eq {p q : Position} {cs rest : List Char}
    {first others : List (Position × List Char)}
    (listed : openings p cs = first ++ (q, rest) :: others) :
    ∃ before, cs = before ++ Brace.opening :: rest ∧ q = before.foldl Position.next p ∧
      ∀ earlier behind, cs = earlier ++ Brace.opening :: behind → earlier.length < before.length →
        ∃ place, (place, behind) ∈ first := by
  induction cs generalizing p first with
  | nil => simp [openings] at listed
  | cons c cs ih =>
    rw [openings] at listed
    split at listed
    next opening =>
      subst opening
      cases first with
      | nil =>
        obtain ⟨⟨rfl, rfl⟩, -⟩ := by simpa using listed
        exact ⟨[], rfl, rfl, by simp⟩
      | cons entry first =>
        obtain ⟨rfl, others⟩ := List.cons_eq_cons.mp listed
        obtain ⟨before, rfl, place, all⟩ := ih others
        refine ⟨Brace.opening :: before, rfl, place, ?_⟩
        intro earlier behind split shorter
        -- A brace in front is this one, or stands in front of the rest.
        cases earlier with
        | nil =>
          obtain rfl := (List.cons_eq_cons.mp split).2
          exact ⟨p, List.mem_cons_self⟩
        | cons d earlier =>
          obtain ⟨place, member⟩ := all earlier behind (List.cons_eq_cons.mp split).2
            (Nat.lt_of_succ_lt_succ shorter)
          exact ⟨place, List.mem_cons_of_mem _ member⟩
    next plain =>
      obtain ⟨before, rfl, place, all⟩ := ih listed
      refine ⟨c :: before, rfl, place, ?_⟩
      intro earlier behind split shorter
      cases earlier with
      | nil => exact absurd (List.cons_eq_cons.mp split).1 plain
      | cons d earlier =>
        exact all earlier behind (List.cons_eq_cons.mp split).2 (Nat.lt_of_succ_lt_succ shorter)

namespace Scan

/-! ### Nodes are opening braces -/

theorem State.slot_takeIn (p : Position) (cs : List Char) :
    (State.initial.takeIn p cs).level.slot = textBehind cs := by
  induction cs generalizing p with
  | nil => rfl
  | cons c cs ih =>
    rw [takeIn_cons]
    rcases State.step_cases (State.initial.takeIn (p.next c) cs) c p with
      ⟨rfl, -, step⟩ | ⟨q, outside, more, rfl, -, step⟩ | ⟨rfl, step⟩ | ⟨plain, step⟩
    · rw [step]
      rfl
    · rw [step]
      rfl
    · rw [step]
      rfl
    · rw [step]
      simp [textBehind, plain, ih]

/-- The nodes of all depths to the right of the reading point, in the order of their braces. -/
def State.nodes (s : State) : List Node :=
  s.level.children.nodes ++ s.pending.flatMap (·.2.children.nodes)

/-- If no opening brace is left alone, the nodes are the opening braces, each in its place and
with the text in front of the next brace as its head. -/
private theorem State.nodes_takeIn {p : Position} {cs : List Char}
    (closed : (State.initial.takeIn p cs).unclosed = none) :
    (State.initial.takeIn p cs).nodes.map (fun node => (node.position, node.head.toList)) =
      (openings p cs).map fun opening => (opening.1, textBehind opening.2) := by
  induction cs generalizing p with
  | nil => rfl
  | cons c cs ih =>
    rw [takeIn_cons] at closed ⊢
    have behind := ih (State.unclosed_of_step closed)
    rcases State.step_cases (State.initial.takeIn (p.next c) cs) c p with
      ⟨rfl, -, step⟩ | ⟨q, outside, more, rfl, pending, step⟩ | ⟨rfl, step⟩ | ⟨plain, step⟩
    -- A lone brace is no node, but it does not occur here.
    · rw [step] at closed
      cases (Option.or_eq_none_iff.mp closed).2
    -- The new node comes first, in front of the nodes inside it and those outside.
    · rw [step]
      simp only [nodes, pending, List.flatMap_cons] at behind
      simp [openings, nodes, ← behind, State.slot_takeIn]
    · rw [step, openings, if_neg (by decide), ← behind]
      rfl
    · rw [step, openings, if_neg (ne_opening_of_not_brace plain), ← behind]
      rfl

end Scan

/-! ### Offenders in the text -/

/-- The first opening brace of a text that has no name of a built-in macro behind it, with its place
and what follows it. -/
def offending? (cs : List Char) : Option (Position × List Char) :=
  (openings .start cs).find? fun opening => !(Builtin.ofName? (nameBehind opening.2)).isSome

theorem offending?_eq_none_iff (cs : List Char) :
    offending? cs = none ↔
      ∀ before rest, cs = before ++ Brace.opening :: rest → IsBuiltinName (nameBehind rest) := by
  simp only [offending?, List.find?_eq_none, Bool.not_eq_true', Bool.not_eq_false,
    isSome_ofName?_iff]
  constructor
  · rintro known before rest rfl
    exact known _ (mem_openings .start before rest)
  · rintro known ⟨place, rest⟩ member
    obtain ⟨first, others, listed⟩ := List.append_of_mem member
    obtain ⟨before, split, -⟩ := exists_of_openings_eq listed
    exact known before rest split

/-- The brace that is found is the first offender from the left. -/
private theorem exists_of_offending? {cs rest : List Char} {place : Position}
    (found : offending? cs = some (place, rest)) :
    ∃ before, cs = before ++ Brace.opening :: rest ∧ place = placeAfter before ∧
      ¬IsBuiltinName (nameBehind rest) ∧
      ∀ earlier behind, cs = earlier ++ Brace.opening :: behind → earlier.length < before.length →
        IsBuiltinName (nameBehind behind) := by
  obtain ⟨unknown, first, others, listed, known⟩ := List.find?_eq_some_iff_append.mp found
  obtain ⟨before, split, place, all⟩ := exists_of_openings_eq listed
  refine ⟨before, split, place.trans (foldl_next_start before), ?_, ?_⟩
  · rw [← isSome_ofName?_iff]
    simpa using unknown
  · intro earlier behind split shorter
    obtain ⟨place, member⟩ := all earlier behind split shorter
    rw [← isSome_ofName?_iff]
    simpa using known _ member

/-- The nodes of a text, in their order, stand at its opening braces, and their heads are what is
between a brace and the next one. -/
theorem Node.map_head_nodes {text : String} {file : Option String} {root : Node}
    (parsed : Node.ofText text file = .ok root) :
    root.children.nodes.map (fun node => (node.position, node.head.toList)) =
      (openings .start text.toList).map fun opening => (opening.1, textBehind opening.2) := by
  obtain ⟨pending, closed, rfl⟩ := (Node.ofText_eq_ok_iff text file root).mp parsed
  have listed := Scan.State.nodes_takeIn closed
  rw [← Scan.read_eq_takeIn, Scan.State.nodes, pending, List.flatMap_nil, List.append_nil] at listed
  exact listed

theorem Node.offender?_of_ofText {text : String} {file : Option String} {root : Node}
    (parsed : Node.ofText text file = .ok root) :
    root.children.offender?.map (fun node => (node.position, node.head.toList)) =
      (offending? text.toList).map fun opening => (opening.1, textBehind opening.2) := by
  -- Whether a node offends depends on its head alone, so the search commutes with the listing.
  have found := congrArg (List.find? fun entry : Position × List Char =>
    !(Builtin.ofName? (String.ofList (Token.first entry.2))).isSome) (Node.map_head_nodes parsed)
  rw [List.find?_map, List.find?_map] at found
  exact found

section

variable {source : String} {options : Options} {root : Node}

private theorem exists_compile_of_offending?_eq_none (noUser : options.macros.isEmpty = true)
    (parsed : Node.ofText source options.file = .ok root)
    (none : offending? source.toList = none) : ∃ template, compile source options = .ok template := by
  have offender := Node.offender?_of_ofText parsed
  rw [none, Option.map_none, Option.map_eq_none_iff] at offender
  rw [compile_of_ofText noUser parsed, Children.outcome, offender]
  exact ⟨_, rfl⟩

private theorem compile_of_offending?_eq_some (noUser : options.macros.isEmpty = true)
    (parsed : Node.ofText source options.file = .ok root) {place : Position} {rest : List Char}
    (found : offending? source.toList = some (place, rest)) :
    compile source options = .error (.unknownMacro (nameBehind rest) ⟨options.file, place⟩) := by
  have offender := Node.offender?_of_ofText parsed
  rw [found, Option.map_some, Option.map_eq_some_iff] at offender
  obtain ⟨node, isOffender, same⟩ := offender
  obtain ⟨rfl, head⟩ := Prod.mk.inj same
  have name : node.askedName = nameBehind rest := by
    rw [Node.askedName, Token.claim, head, nameBehind]
  rw [compile_of_ofText noUser parsed, Children.outcome, isOffender, ← name]
  rfl

end

/-- Without macros of a user, a text whose braces do not balance fails on a brace. A balanced text
compiles exactly if the first token behind each opening brace, in front of the next brace, is the
name of a built-in macro; otherwise the first opening brace without such a name is reported, with
the token that it has. -/
theorem compile_first_offender (source : String) (options : Options)
    (noUser : options.macros.isEmpty = true) :
    (¬Balanced source.toList → ∃ brace position,
      compile source options = .error (.loneBrace brace ⟨options.file, position⟩)) ∧
    (Balanced source.toList →
      ((∃ template, compile source options = .ok template) ↔
        ∀ before rest, source.toList = before ++ Brace.opening :: rest →
          IsBuiltinName (nameBehind rest)) ∧
      ((¬∃ template, compile source options = .ok template) →
        ∃ before rest, source.toList = before ++ Brace.opening :: rest ∧
          ¬IsBuiltinName (nameBehind rest) ∧
          (∀ earlier behind, source.toList = earlier ++ Brace.opening :: behind →
            earlier.length < before.length → IsBuiltinName (nameBehind behind)) ∧
          compile source options =
            .error (.unknownMacro (nameBehind rest) ⟨options.file, placeAfter before⟩))) := by
  constructor
  · intro unbalanced
    have noTree := mt (Node.exists_ofText_iff source options.file).mp unbalanced
    obtain ⟨brace, position, fault⟩ := Node.exists_loneBrace_of_ofText noTree
    exact ⟨brace, position, compile_of_fault fault⟩
  · intro balanced
    obtain ⟨root, parsed⟩ := (Node.exists_ofText_iff source options.file).mpr balanced
    rw [← offending?_eq_none_iff]
    cases found : offending? source.toList with
    | none =>
      have compiles := exists_compile_of_offending?_eq_none noUser parsed found
      exact ⟨iff_of_true compiles rfl, fun fails => absurd compiles fails⟩
    | some opening =>
      obtain ⟨place, rest⟩ := opening
      have fails := compile_of_offending?_eq_some noUser parsed found
      obtain ⟨before, split, rfl, unknown, first⟩ := exists_of_offending? found
      constructor
      · refine iff_of_false ?_ (by simp)
        rintro ⟨template, compiles⟩
        rw [compiles] at fails
        cases fails
      · intro _
        exact ⟨before, rest, split, unknown, first, fails⟩

/-- An unknown name inside a node is reported before one that comes later. -/
theorem compile_first_offender_nested :
    Balanced "\x7bhas a \x7bb\x7d\x7d\x7bc\x7d".toList ∧
    ∃ before rest, "\x7bhas a \x7bb\x7d\x7d\x7bc\x7d".toList = before ++ Brace.opening :: rest ∧
      ¬IsBuiltinName (nameBehind rest) ∧
      compile "\x7bhas a \x7bb\x7d\x7d\x7bc\x7d" {} =
        .error (.unknownMacro (nameBehind rest) ⟨none, placeAfter before⟩) ∧
      nameBehind rest = "b" ∧ placeAfter before = ⟨1, 8⟩ := by
  have balanced : Balanced "\x7bhas a \x7bb\x7d\x7d\x7bc\x7d".toList := by decide
  have reports : compile "\x7bhas a \x7bb\x7d\x7d\x7bc\x7d" {} =
      .error (.unknownMacro "b" ⟨none, ⟨1, 8⟩⟩) :=
    (compile_of_ofText rfl rfl).trans rfl
  have fails : ¬∃ template, compile "\x7bhas a \x7bb\x7d\x7d\x7bc\x7d" {} = .ok template := by
    rintro ⟨template, compiles⟩
    rw [reports] at compiles
    cases compiles
  obtain ⟨before, rest, split, unknown, -, fault⟩ :=
    ((compile_first_offender "\x7bhas a \x7bb\x7d\x7d\x7bc\x7d" {} rfl).2 balanced).2 fails
  obtain ⟨name, location⟩ :=
    Fault.unknownMacro.inj (Except.error.inj (fault.symm.trans reports))
  exact ⟨balanced, before, rest, split, unknown, fault, name, (Location.mk.inj location).2⟩

end BraceTemplate
