import BraceTemplate.Proofs.Spans

/-!
# What compiling reports

Each node of a tree is handed to its macro once, in the order of the opening braces, with the root
in front. If all goes well, compiling reports just that, then how large the tree and the program
are, and then the program. If a node asks for a macro that does not exist, compiling reports the
nodes in front of it and nothing else, and a text without a tree gives nothing to report.
-/

namespace BraceTemplate

instance (p q : Position) : Decidable (p.Before q) :=
  inferInstanceAs (Decidable (_ ∨ _))

theorem Position.Before.asymm {p q : Position} (before : p.Before q) : ¬q.Before p := by
  unfold Before at *
  omega

/-! ### Events of nodes -/

/-- The events of a root and nodes inside it that are handed to built-in macros. -/
def dispatchEvents (nodes : List Node) : List Event :=
  .expanding ⟨Node.rootName, true⟩ :: nodes.map fun node => .expanding ⟨node.askedName, true⟩

private theorem length_dispatchEvents (nodes : List Node) :
    (dispatchEvents nodes).length = 1 + nodes.length := by
  rw [dispatchEvents, List.length_cons, List.length_map, Nat.add_comm]

/-- How an event is reported: its level and its message. -/
def Event.report (event : Event) : Level × String :=
  (event.level, event.message)

private theorem map_report_dispatchEvents (nodes : List Node) :
    (dispatchEvents nodes).map Event.report =
      List.replicate (1 + nodes.length) (.trace, "Expanding macro") := by
  rw [← length_dispatchEvents, List.eq_replicate_iff]
  refine ⟨List.length_map _, ?_⟩
  simp [dispatchEvents, Event.report, Event.level, Event.message]

/-! ### Nodes in front of an offender -/

/-- In a list with increasing places, the elements placed before one of them are those in front of
it. -/
private theorem filter_before_eq {first others : List Node} {node : Node}
    (increasing : ((first ++ node :: others).map (·.position)).Pairwise Position.Before) :
    (first ++ node :: others).filter (fun other => other.position.Before node.position) =
      first := by
  rw [List.pairwise_map, List.pairwise_append, List.pairwise_cons] at increasing
  obtain ⟨-, ⟨behind, -⟩, inFront⟩ := increasing
  have before : first.filter (fun other => other.position.Before node.position) = first := by
    rw [List.filter_eq_self]
    intro other member
    exact decide_eq_true (inFront other member node List.mem_cons_self)
  have after : others.filter (fun other => other.position.Before node.position) = [] := by
    rw [List.filter_eq_nil_iff]
    intro other member isBefore
    exact (behind other member).asymm (of_decide_eq_true isBefore)
  rw [List.filter_append, before, List.filter_cons_of_neg, after, List.append_nil]
  simpa using node.position.not_before_self

/-- The nodes that are expanded before an offender is met are those that stand before it. -/
private theorem Children.takeWhile_isKnown_eq {children : Children} {offender : Node}
    (increasing : (children.nodes.map (·.position)).Pairwise Position.Before)
    (found : children.offender? = some offender) :
    children.nodes.takeWhile (·.isKnown) =
      children.nodes.filter fun node => node.position.Before offender.position := by
  -- The nodes in front of the offender are all known, and they are those that stand before it.
  obtain ⟨unknown, first, others, split, known⟩ := List.find?_eq_some_iff_append.mp found
  have allKnown : ∀ node ∈ first, node.isKnown = true := by simpa using known
  have stops : offender.isKnown = false := by simpa using unknown
  rw [split] at increasing ⊢
  rw [filter_before_eq increasing, List.takeWhile_append_of_pos allKnown]
  simp [stops]

private theorem Node.increasing_of_ofText {text : String} {file : Option String} {root : Node}
    (parsed : Node.ofText text file = .ok root) :
    (root.children.nodes.map (·.position)).Pairwise Position.Before := by
  rw [Node.map_position_nodes parsed, List.pairwise_map]
  exact pairwise_openings .start text.toList

private theorem Node.map_askedName_nodes {text : String} {file : Option String} {root : Node}
    (parsed : Node.ofText text file = .ok root) :
    root.children.nodes.map (fun node => (node.position, node.askedName)) =
      (openings .start text.toList).map fun opening => (opening.1, nameBehind opening.2) := by
  -- The name that a node asks for is the first token of its head.
  have named := congrArg (List.map fun entry : Position × List Char =>
    (entry.1, String.ofList (Token.first entry.2))) (Node.map_head_nodes parsed)
  rw [List.map_map, List.map_map] at named
  exact named

/-! ### Events of a compilation -/

section

variable {source : String} {options : Options}

private theorem compileEvents_of_fault {fault : Fault}
    (parsed : Node.ofText source options.file = .error fault) :
    compileEvents source options = [] := by
  simp [compileEvents, Compilation.of, Node.ofTemplate, parsed, Except.map]

private theorem compileEvents_of_ofText {root : Node} (noUser : options.macros.isEmpty = true)
    (parsed : Node.ofText source options.file = .ok root) :
    compileEvents source options =
      dispatchEvents (root.children.nodes.takeWhile (·.isKnown)) ++
        match compile source options with
        | .error _ => []
        | .ok template => template.events options root.count := by
  have expanded := Registry.expandLogged_expandRoot options.file noUser root.position root.head
    root.children
  rw [compile_of_ofText noUser parsed]
  simp only [compileEvents, Compilation.of, Node.ofTemplate, parsed, Except.map, expanded]
  cases root.children.outcome options.file with
  | error fault => simp [dispatchEvents, Children.dispatches]
  | ok content => simp [dispatchEvents, Children.dispatches, Node.count]

/-- Compiling fails on a brace without a partner, and then there is no tree, or on the first node
that offends. -/
theorem compile_error_cases {fault : Fault} (noUser : options.macros.isEmpty = true)
    (failed : compile source options = .error fault) :
    (∃ brace location, fault = .loneBrace brace location ∧
      Node.ofText source options.file = .error fault) ∨
    ∃ root node, Node.ofText source options.file = .ok root ∧
      root.children.offender? = some node ∧
      fault = .unknownMacro node.askedName ⟨options.file, node.position⟩ := by
  cases parsed : Node.ofText source options.file with
  | error other =>
    have noTree : ¬∃ root, Node.ofText source options.file = .ok root := by simp [parsed]
    obtain ⟨brace, position, isBrace⟩ := Node.exists_loneBrace_of_ofText noTree
    rw [compile_of_fault isBrace] at failed
    cases failed
    exact .inl ⟨brace, _, rfl, parsed.symm.trans isBrace⟩
  | ok root =>
    rw [compile_of_ofText noUser parsed, Children.outcome] at failed
    cases offends : root.children.offender? with
    | none =>
      rw [offends] at failed
      cases failed
    | some node =>
      rw [offends] at failed
      cases failed
      exact .inr ⟨root, node, rfl, offends, rfl⟩

end

/-- Without macros of a user, compiling a text reports the following. If it succeeds: the root and
each node, in the order of the opening braces and by the first token behind each of them; then the
number of the nodes, which is one more than that of the opening braces, and the number of ops; then
the listing of the program. If a node asks for a macro that does not exist: the root and the nodes
that stand before it. If a brace has no partner: nothing. -/
theorem compile_reports (source : String) (options : Options)
    (noUser : options.macros.isEmpty = true) :
    (∀ template, compile source options = .ok template →
      ∃ root, Node.ofText source options.file = .ok root ∧
        root.children.nodes.map (fun node => (node.position, node.askedName)) =
          (openings .start source.toList).map (fun opening => (opening.1, nameBehind opening.2)) ∧
        compileEvents source options =
          dispatchEvents root.children.nodes ++
            [.compiled (options.file.getD "<template>") (1 + source.toList.count Brace.opening)
                template.program.opCount options.selfContained,
              .program template.listing] ∧
        (compileEvents source options).map Event.report =
          List.replicate (1 + source.toList.count Brace.opening) (.trace, "Expanding macro") ++
            [(.debug, "Compiled template"), (.trace, "Compiled program")]) ∧
    (∀ name location, compile source options = .error (.unknownMacro name location) →
      ∃ root offender, Node.ofText source options.file = .ok root ∧
        offender ∈ root.children.nodes ∧ offender.askedName = name ∧
        location = ⟨options.file, offender.position⟩ ∧
        compileEvents source options =
          dispatchEvents (root.children.nodes.filter fun node =>
            node.position.Before offender.position)) ∧
    ∀ brace location, compile source options = .error (.loneBrace brace location) →
      compileEvents source options = [] := by
  refine ⟨?_, ?_, ?_⟩
  · intro template compiled
    obtain ⟨root, parsed, noOffender, rfl⟩ := (compile_eq_ok_iff noUser).mp compiled
    have number : root.children.nodes.length = source.toList.count Brace.opening := by
      rw [(Node.nodes_standAt_of_ofText parsed).length_eq, length_openings]
    have count : root.count = 1 + source.toList.count Brace.opening := by
      rw [Node.count, ← Children.length_nodes, number]
    have all : root.children.nodes.takeWhile (·.isKnown) = root.children.nodes := by
      rw [List.takeWhile_eq_self_iff]
      simpa [Children.offender?] using noOffender
    have events := compileEvents_of_ofText noUser parsed
    rw [all, compiled, count] at events
    refine ⟨root, parsed, Node.map_askedName_nodes parsed, events, ?_⟩
    rw [events, List.map_append, map_report_dispatchEvents, number]
    rfl
  · intro name location failed
    rcases compile_error_cases noUser failed with
      ⟨brace, place, isBrace, -⟩ | ⟨root, node, parsed, offends, isUnknown⟩
    · cases isBrace
    · cases isUnknown
      have before := Children.takeWhile_isKnown_eq (Node.increasing_of_ofText parsed) offends
      have events := compileEvents_of_ofText noUser parsed
      rw [before, failed, List.append_nil] at events
      exact ⟨root, node, parsed, List.mem_of_find?_eq_some offends, rfl, rfl, events⟩
  · intro brace location failed
    rcases compile_error_cases noUser failed with
      ⟨-, -, -, parsed⟩ | ⟨root, node, -, -, isUnknown⟩
    · exact compileEvents_of_fault parsed
    · cases isUnknown

/-- An offender behind a node that is nested in another, and a text that succeeds. -/
theorem compile_reports_nested :
    (∃ template root,
      compile "\x7beach a \x7b.\x7d\x7d\x7bout\x7d" {} = .ok template ∧
      Node.ofText "\x7beach a \x7b.\x7d\x7d\x7bout\x7d" none = .ok root ∧
      compileEvents "\x7beach a \x7b.\x7d\x7d\x7bout\x7d" {} =
        dispatchEvents root.children.nodes ++
          [.compiled "<template>" 4 2 true, .program template.listing] ∧
      root.children.nodes.map (·.askedName) = ["each", ".", "out"]) ∧
    ∃ place, compile "\x7beach a \x7b.\x7d\x7d\x7bno \x7bout\x7d\x7d" {} =
        .error (.unknownMacro "no" place) ∧
      compileEvents "\x7beach a \x7b.\x7d\x7d\x7bno \x7bout\x7d\x7d" {} =
        [.expanding ⟨"out", true⟩, .expanding ⟨"each", true⟩, .expanding ⟨".", true⟩] ∧
      compileEvents "\x7beach a \x7b.\x7d" {} = [] := by
  constructor
  · obtain ⟨template, compiled⟩ : ∃ template,
        compile "\x7beach a \x7b.\x7d\x7d\x7bout\x7d" {} = .ok template :=
      ⟨_, (compile_eq_ok_iff rfl).mpr ⟨_, rfl, rfl, rfl⟩⟩
    obtain ⟨root, parsed, -, events, -⟩ :=
      (compile_reports "\x7beach a \x7b.\x7d\x7d\x7bout\x7d" {} rfl).1 template compiled
    obtain ⟨other, parsedToo, -, rfl⟩ := (compile_eq_ok_iff rfl).mp compiled
    cases parsed
    cases parsedToo
    exact ⟨_, _, compiled, rfl, events, rfl⟩
  · have failed : compile "\x7beach a \x7b.\x7d\x7d\x7bno \x7bout\x7d\x7d" {} =
        .error (.unknownMacro "no" ⟨none, ⟨1, 13⟩⟩) := (compile_of_ofText rfl rfl).trans rfl
    have unclosed : compile "\x7beach a \x7b.\x7d" {} =
        .error (.loneBrace .opening ⟨none, ⟨1, 1⟩⟩) := compile_of_fault rfl
    obtain ⟨root, offender, parsed, -, -, place, events⟩ :=
      (compile_reports "\x7beach a \x7b.\x7d\x7d\x7bno \x7bout\x7d\x7d" {} rfl).2.1 _ _ failed
    have nothing := (compile_reports "\x7beach a \x7b.\x7d" {} rfl).2.2 _ _ unclosed
    refine ⟨_, failed, ?_, nothing⟩
    rw [events, ← (Location.mk.inj place).2]
    cases parsed
    rfl

end BraceTemplate
