import BraceTemplate.Macro.Stock
import BraceTemplate.Proofs.Expansion

/-!
# Names that an expansion looks up

An expansion comes to know a registry through the names that it looks up, and through the names that
its macros see registered. Two registries in which the names looked up do the same work expand
alike, whatever else they hold, and whatever the macros make of their nodes: they may skip nodes,
expand them twice, hand a node on under another name, or expand nodes of their own making.

## Main result

`compile_eq_of_not_lookedUp`: giving another meaning to a name changes nothing for a template that
does not look it up, if the macros pay no heed to the new list of names. Whether a name is looked up
can be read off what compiling reports, if the name has a macro before or no macro catches the error
of an unknown name.

## Proof strategy

Carried out within a limit, a plan gives the same under both registries: its requests have the same
answers by induction on the limit, and with the same answers both go on with the same plan. A plan
that comes to its end does so within some limit.
-/

namespace BraceTemplate

namespace Registry

variable {α : Type} {registry other : Registry} {file : Option String}

theorem find?_insert (registry : Registry) (name word : String) (m : Macro) :
    (registry.insert name m).find? word =
      if word = name then some (.user m) else registry.find? word := by
  rw [find?, insert, lookup_insertSorted]
  by_cases same : word = name
  · simp [same]
  · simp [same, find?]

/-- The work that the macro of a name does on nodes. -/
def work? (registry : Registry) (file : Option String) (name : String) :
    Option (Node → Plan Expansion) :=
  (registry.find? name).map fun meaning => meaning.toMacro.plan (registry.setting file)

/-- A name is looked up while a plan is carried out: by a request, by the macro that the request
goes to, or after the request is answered. -/
inductive LooksUp (registry : Registry) (file : Option String) (word : String) :
    {α : Type} → Plan α → Prop
  | request {α : Type} (node : Node) (next : Expansion → Plan α) :
      LooksUp registry file word (.dispatch word node next)
  | inside {α : Type} {name : String} {node : Node} {next : Expansion → Plan α}
      {meaning : Meaning} : registry.find? name = some meaning →
      LooksUp registry file word (meaning.toMacro.plan (registry.setting file) node) →
      LooksUp registry file word (.dispatch name node next)
  | behind {α : Type} {name : String} {node : Node} {next : Expansion → Plan α}
      {given : Expansion × List Dispatch} :
      registry.carryOut file (.dispatch name node .done) = some given →
      LooksUp registry file word (next given.1) →
      LooksUp registry file word (.dispatch name node next)

private theorem fst_run_dispatch (answer : String → Node → Option (Expansion × List Dispatch))
    (name : String) (node : Node) (next : Expansion → Plan α) :
    ((Plan.dispatch name node next).run answer).map Prod.fst =
      ((answer name node).map Prod.fst).bind fun expansion =>
        ((next expansion).run answer).map Prod.fst := by
  rw [Plan.run]
  cases answer name node with
  | none => rfl
  | some given => simp [Option.map_map, Function.comp_def]

theorem fst_run_congr (limit : Nat) {plan : Plan α}
    (same : ∀ word, registry.LooksUp file word plan →
      other.work? file word = registry.work? file word) :
    (plan.run (other.dispatchWithin file limit)).map Prod.fst =
      (plan.run (registry.dispatchWithin file limit)).map Prod.fst := by
  induction limit generalizing α with
  | zero => cases plan <;> rfl
  | succ limit ih =>
    -- The limit is lower inside a macro, and behind it the same limit meets a shorter plan.
    induction plan with
    | done result => rfl
    | dispatch name node next ihNext =>
      have answers : (other.dispatchWithin file (limit + 1) name node).map Prod.fst =
          (registry.dispatchWithin file (limit + 1) name node).map Prod.fst := by
        have here := same name (.request node next)
        cases found : registry.find? name with
        | none =>
          have foundToo : other.find? name = none := by simpa [work?, found] using here
          simp [dispatchWithin, found, foundToo]
        | some meaning =>
          obtain ⟨otherMeaning, foundToo, alike⟩ : ∃ otherMeaning,
              other.find? name = some otherMeaning ∧
                otherMeaning.toMacro.plan (other.setting file) =
                  meaning.toMacro.plan (registry.setting file) := by
            simpa [work?, found] using here
          have inside := ih fun word looked => same word (.inside found looked)
          simpa [dispatchWithin, found, foundToo, alike, Function.comp_def] using inside
      rw [fst_run_dispatch, fst_run_dispatch, answers]
      -- Both go on with the same plan, if they go on.
      cases answered : registry.dispatchWithin file (limit + 1) name node with
      | none => rfl
      | some given =>
        have ran : (Plan.dispatch name node .done).run
            (registry.dispatchWithin file (limit + 1)) = some given :=
          Plan.run_dispatch_eq_some_iff.mpr ⟨given, (given.1, []), answered, rfl, by simp⟩
        exact ihNext given.1 fun word looked => same word (.behind (carryOut_of_run ran) looked)

theorem fst_carryOut_congr {plan : Plan α}
    (same : ∀ word, registry.LooksUp file word plan →
      other.work? file word = registry.work? file word) :
    (other.carryOut file plan).map Prod.fst = (registry.carryOut file plan).map Prod.fst := by
  have ends (registry : Registry) (result : α) :
      (registry.carryOut file plan).map Prod.fst = some result ↔
        ∃ limit, (plan.run (registry.dispatchWithin file limit)).map Prod.fst = some result := by
    simp only [Option.map_eq_some_iff, carryOut_eq_some_iff]
    constructor
    · rintro ⟨given, ⟨limit, ran⟩, gives⟩
      exact ⟨limit, given, ran, gives⟩
    · rintro ⟨limit, given, ran, gives⟩
      exact ⟨given, ⟨limit, ran⟩, gives⟩
  refine Option.ext fun result => ?_
  rw [ends, ends]
  exact exists_congr fun limit => by rw [fst_run_congr limit same]

end Registry

/-! ### Compiling with another registry -/

/-- A name is looked up while a template is compiled. -/
def LookedUp (source : String) (options : Options) (word : String) : Prop :=
  ∃ root, Node.ofTemplate source options.file = .ok root ∧
    options.macros.LooksUp options.file word (Plan.expandRoot root)

private theorem compile_eq (source : String) (options : Options) :
    compile source options = (Node.ofTemplate source options.file).bind fun root =>
      (options.macros.expand options.file Plan.expandRoot root).outcome.map
        (.ofProgram · options) := by
  simp only [compile, Compilation.of, bind]
  cases Node.ofTemplate source options.file with
  | error fault => rfl
  | ok root =>
    simp only [Except.map, Except.bind, Registry.expand]
    cases (options.macros.expandLogged options.file Plan.expandRoot root).1.outcome <;> rfl

private theorem Registry.expand_eq (registry : Registry) (file : Option String)
    (work : Node → Plan Expansion) (node : Node) :
    registry.expand file work node = ((registry.carryOut file (work node)).map Prod.fst).getD
      ⟨.error (.endlessExpansion ⟨file, node.position⟩), node⟩ := by
  rw [expand, expandLogged]
  cases registry.carryOut file (work node) <;> rfl

theorem compile_congr {registry other : Registry} {source : String} {options : Options}
    (same : ∀ word, LookedUp source { options with macros := registry } word →
      other.work? options.file word = registry.work? options.file word) :
    compile source { options with macros := other } =
      compile source { options with macros := registry } := by
  rw [compile_eq, compile_eq]
  cases parsed : Node.ofTemplate source options.file with
  | error fault => rfl
  | ok root =>
    have alike : (other.carryOut options.file (Plan.expandRoot root)).map Prod.fst =
        (registry.carryOut options.file (Plan.expandRoot root)).map Prod.fst :=
      Registry.fst_carryOut_congr fun word looked => same word ⟨root, parsed, looked⟩
    simp only [Except.bind, Registry.expand_eq, alike]
    rfl

/-! ### Names that compiling reports -/

namespace Plan

variable {α β : Type}

/-- The plan does not catch the error of an unknown name: it ends with an error that has the
name. -/
def HandsOnUnknown (outcome : α → Except Fault Program) : Plan α → Prop
  | .done _ => True
  | .dispatch _ _ next =>
    (∀ word place node, ∃ result elsewhere,
      next ⟨.error (.unknownMacro word place), node⟩ = .done result ∧
        outcome result = .error (.unknownMacro word elsewhere)) ∧
    ∀ expansion, (next expansion).HandsOnUnknown outcome

theorem HandsOnUnknown.bind {outcome : α → Except Fault Program} {plan : Plan α}
    (handsOn : plan.HandsOnUnknown outcome) {outcomeAfter : β → Except Fault Program}
    {next : α → Plan β}
    (stops : ∀ result word place, outcome result = .error (.unknownMacro word place) →
      ∃ last elsewhere, next result = .done last ∧
        outcomeAfter last = .error (.unknownMacro word elsewhere))
    (goesOn : ∀ result, (next result).HandsOnUnknown outcomeAfter) :
    (plan >>= next).HandsOnUnknown outcomeAfter := by
  induction plan with
  | done result => exact goesOn result
  | dispatch name node answered ih =>
    refine ⟨?_, fun expansion => ih expansion (handsOn.2 expansion)⟩
    intro word place left
    obtain ⟨result, elsewhere, done, failed⟩ := handsOn.1 word place left
    obtain ⟨last, there, ends, failedToo⟩ := stops result word elsewhere failed
    refine ⟨last, there, ?_, failedToo⟩
    change (answered _).andThen next = _
    rw [done, andThen, ends]

private theorem handsOnUnknown_expandNode (node : Node) :
    (expandNode node).HandsOnUnknown (·.outcome) :=
  ⟨fun _ place _ => ⟨_, place, rfl, rfl⟩, fun _ => trivial⟩

private theorem handsOnUnknown_expandEach (children : Children) :
    (expandEach children).HandsOnUnknown (·.1) := by
  induction children with
  | nil => trivial
  | cons position head inner trailing rest _ ih =>
    rw [expandEach]
    refine (handsOnUnknown_expandNode _).bind ?_ ?_
    · intro first word place failed
      exact ⟨_, place, by simp only [failed]; rfl, rfl⟩
    · intro first
      cases first.outcome with
      | error fault => trivial
      | ok program =>
        refine ih.bind ?_ fun _ => trivial
        intro result word place failed
        exact ⟨_, place, rfl, by simp only [failed]; rfl⟩

private theorem handsOnUnknown_expandRoot (root : Node) :
    (expandRoot root).HandsOnUnknown (·.outcome) := by
  rw [expandRoot]
  split
  · exact ⟨fun _ place _ => ⟨_, place, rfl, rfl⟩, fun _ => trivial⟩
  · exact handsOnUnknown_expandNode root

end Plan

theorem Builtin.handsOnUnknown_plan (builtin : Builtin) (node : Node) :
    (builtin.plan node).HandsOnUnknown (·.outcome) := by
  rw [plan_eq]
  refine (Plan.handsOnUnknown_expandEach node.children).bind ?_ fun _ => trivial
  intro result word place failed
  exact ⟨_, place, rfl, by simp only [failed]; rfl⟩

namespace Registry

variable {registry : Registry} {file : Option String}

/-- No macro of the user catches the error of an unknown name. -/
def HandsOnUnknown (registry : Registry) : Prop :=
  ∀ entry ∈ registry.macros, ∀ setting node,
    (entry.2.plan setting node).HandsOnUnknown (·.outcome)

theorem HandsOnUnknown.plan (handsOn : registry.HandsOnUnknown) {name : String} {meaning : Meaning}
    (found : registry.find? name = some meaning) (setting : Setting) (node : Node) :
    (meaning.toMacro.plan setting node).HandsOnUnknown (·.outcome) := by
  rcases find?_cases found with ⟨user, rfl, member⟩ | ⟨builtin, rfl⟩
  · exact handsOn (name, user) member setting node
  · exact builtin.handsOnUnknown_plan node

/-- A name with a macro is recorded if it is looked up. -/
theorem LooksUp.recorded {word : String} {meaning : Meaning}
    (known : registry.find? word = some meaning) {α : Type} {plan : Plan α}
    (looked : registry.LooksUp file word plan) {result : α × List Dispatch}
    (ended : registry.carryOut file plan = some result) :
    ⟨word, meaning.isBuiltin⟩ ∈ result.2 := by
  induction looked with
  | request node next =>
    obtain ⟨given, last, answered, -, rfl⟩ := exists_of_carryOut_dispatch ended
    rw [carryOut_of_found known] at answered
    obtain ⟨inner, -, rfl⟩ := Option.map_eq_some_iff.mp answered
    simp
  | inside found looked ih =>
    obtain ⟨given, last, answered, -, rfl⟩ := exists_of_carryOut_dispatch ended
    rw [carryOut_of_found found] at answered
    obtain ⟨inner, endedInside, rfl⟩ := Option.map_eq_some_iff.mp answered
    simp [ih endedInside]
  | behind answered looked ih =>
    obtain ⟨given, last, answeredToo, endedBehind, rfl⟩ := exists_of_carryOut_dispatch ended
    obtain rfl := Option.some.inj (answered.symm.trans answeredToo)
    exact List.mem_append_right _ (ih endedBehind)

/-- Work that looks up a name without a macro fails on it as an unknown name. -/
theorem LooksUp.fails (handsOn : registry.HandsOnUnknown) {word : String}
    (unknown : registry.find? word = none) {α : Type} {plan : Plan α}
    (looked : registry.LooksUp file word plan) {outcome : α → Except Fault Program}
    (handsOnPlan : plan.HandsOnUnknown outcome) {result : α × List Dispatch}
    (ended : registry.carryOut file plan = some result) :
    ∃ place, outcome result.1 = .error (.unknownMacro word place) := by
  induction looked with
  | request node next =>
    obtain ⟨given, last, answered, endedBehind, rfl⟩ := exists_of_carryOut_dispatch ended
    obtain ⟨failure, place, stops, failed⟩ := handsOnPlan.1 word ⟨file, node.position⟩ node
    rw [carryOut_of_unknown unknown] at answered
    obtain rfl := Option.some.inj answered
    rw [stops, carryOut_done] at endedBehind
    obtain rfl := Option.some.inj endedBehind
    exact ⟨place, failed⟩
  | inside found looked ih =>
    obtain ⟨given, last, answered, endedBehind, rfl⟩ := exists_of_carryOut_dispatch ended
    rw [carryOut_of_found found] at answered
    obtain ⟨inner, endedInside, rfl⟩ := Option.map_eq_some_iff.mp answered
    obtain ⟨place, failed⟩ := ih (handsOn.plan found _ _) endedInside
    -- The macro fails on the name, and so does the plan that hands the node to it.
    obtain ⟨failure, elsewhere, stops, failedToo⟩ := handsOnPlan.1 word place inner.1.node
    rw [← failed] at stops
    rw [stops, carryOut_done] at endedBehind
    obtain rfl := Option.some.inj endedBehind
    exact ⟨elsewhere, failedToo⟩
  | behind answered looked ih =>
    obtain ⟨given, last, answeredToo, endedBehind, rfl⟩ := exists_of_carryOut_dispatch ended
    obtain rfl := Option.some.inj (answered.symm.trans answeredToo)
    obtain ⟨place, failed⟩ := ih (handsOnPlan.2 _) endedBehind
    exact ⟨place, failed⟩

end Registry

/-! ### What compiling shows -/

/-- Compiling a template comes to its end. -/
def Compilation.Ends (source : String) (options : Options) : Prop :=
  ∀ root, Node.ofTemplate source options.file = .ok root →
    (options.macros.carryOut options.file (Plan.expandRoot root)).isSome

/-- A name is reported while a template is compiled, by an event or by the error at the end. -/
def Reported (source : String) (options : Options) (word : String) : Prop :=
  (∃ builtin, .expanding ⟨word, builtin⟩ ∈ compileEvents source options) ∨
    ∃ place, compile source options = .error (.unknownMacro word place)

section

variable {source : String} {options : Options} {root : Node} {given : Expansion × List Dispatch}

private theorem compile_of_carryOut (parsed : Node.ofTemplate source options.file = .ok root)
    (ended : options.macros.carryOut options.file (Plan.expandRoot root) = some given) :
    compile source options = given.1.outcome.map (.ofProgram · options) := by
  rw [compile_eq, parsed]
  simp only [Except.bind, Registry.expand, Registry.expandLogged_of_carryOut ended]

private theorem expanding_mem_compileEvents_iff
    (parsed : Node.ofTemplate source options.file = .ok root)
    (ended : options.macros.carryOut options.file (Plan.expandRoot root) = some given)
    (dispatch : Dispatch) :
    .expanding dispatch ∈ compileEvents source options ↔ dispatch ∈ given.2 := by
  simp only [compileEvents, Compilation.of, parsed, Except.map,
    Registry.expandLogged_of_carryOut ended]
  cases given.1.outcome <;> simp [Template.events]

theorem reported_iff (parsed : Node.ofTemplate source options.file = .ok root)
    (ended : options.macros.carryOut options.file (Plan.expandRoot root) = some given)
    (word : String) :
    Reported source options word ↔ (∃ builtin, ⟨word, builtin⟩ ∈ given.2) ∨
      ∃ place, given.1.outcome = .error (.unknownMacro word place) := by
  rw [Reported, compile_of_carryOut parsed ended]
  simp only [expanding_mem_compileEvents_iff parsed ended]
  cases given.1.outcome <;> simp [Except.map]

private theorem LookedUp.reported {word : String} (looked : LookedUp source options word)
    (shows : (options.macros.find? word).isSome ∨ options.macros.HandsOnUnknown)
    (ends : Compilation.Ends source options) : Reported source options word := by
  obtain ⟨root, parsed, looked⟩ := looked
  obtain ⟨given, ended⟩ := Option.isSome_iff_exists.mp (ends root parsed)
  refine (reported_iff parsed ended word).mpr ?_
  cases found : options.macros.find? word with
  | some meaning => exact .inl ⟨meaning.isBuiltin, looked.recorded found ended⟩
  | none =>
    have handsOn : options.macros.HandsOnUnknown := by simpa [found] using shows
    exact .inr (looked.fails handsOn found (Plan.handsOnUnknown_expandRoot root) ended)

end

/-- The listing of a template's program and the macros recorded, with limited nesting. -/
def Compilation.within (limit : Nat) (source : String) (options : Options) :
    Option (Except Fault String × List Dispatch) :=
  (Node.ofTemplate source options.file).toOption.bind fun root =>
    ((Plan.expandRoot root).run (options.macros.dispatchWithin options.file limit)).map
      fun given => (given.1.outcome.map Program.listing, given.2)

/-- What compiling a template shows can be computed with limited nesting. -/
theorem Compilation.shown_of_within {limit : Nat} {source : String} {options : Options}
    {listing : String} {log : List Dispatch}
    (computed : Compilation.within limit source options = some (.ok listing, log)) :
    (compile source options).map Template.listing = .ok listing ∧ Ends source options ∧
      ∀ word, Reported source options word ↔ word ∈ log.map Dispatch.name := by
  rw [within] at computed
  cases parsed : Node.ofTemplate source options.file with
  | error fault => simp [parsed, Except.toOption] at computed
  | ok root =>
    rw [parsed] at computed
    obtain ⟨⟨⟨outcome, left⟩, recorded⟩, ended, gives⟩ :=
      Registry.exists_carryOut_of_run limit computed
    obtain ⟨listed, rfl⟩ := Prod.mk.inj gives
    cases outcome with
    | error fault => cases listed
    | ok program =>
      refine ⟨?_, ?_, fun word => ?_⟩
      · rw [compile_of_carryOut parsed ended]
        exact listed
      · intro other parsedToo
        obtain rfl : root = other := Except.ok.inj (parsed.symm.trans parsedToo)
        rw [ended]
        rfl
      · rw [reported_iff parsed ended]
        constructor
        · rintro (⟨builtin, member⟩ | ⟨place, failed⟩)
          · exact List.mem_map_of_mem member
          · cases failed
        · intro named
          obtain ⟨⟨name, builtin⟩, member, rfl⟩ := List.mem_map.mp named
          exact .inl ⟨builtin, member⟩

/-! ### Giving a name another meaning -/

/-- Two registries that agree on every name but one compile a template to the same, if the template
does not look that name up under the first of them, and if the macros that it does look up do the
same whichever of the two lists of names they see. A name that is looked up is reported, unless it
has no macro and a macro catches the error of the unknown name. -/
theorem compile_eq_of_not_lookedUp (registry other : Registry) (name : String)
    (agree : ∀ word, word ≠ name → other.find? word = registry.find? word) (source : String)
    (options : Options)
    (heedless : ∀ word, word ≠ name → LookedUp source { options with macros := registry } word →
      ∀ user, registry.find? word = some (.user user) →
        user.plan (other.setting options.file) = user.plan (registry.setting options.file)) :
    (¬LookedUp source { options with macros := registry } name →
      compile source { options with macros := other } =
        compile source { options with macros := registry }) ∧
    ((registry.find? name).isSome ∨ registry.HandsOnUnknown →
      Compilation.Ends source { options with macros := registry } →
      ¬Reported source { options with macros := registry } name →
      compile source { options with macros := other } =
        compile source { options with macros := registry }) := by
  have unchanged (notLooked : ¬LookedUp source { options with macros := registry } name) :
      compile source { options with macros := other } =
        compile source { options with macros := registry } := by
    refine compile_congr fun word looked => ?_
    have different : word ≠ name := by
      rintro rfl
      exact notLooked looked
    rw [Registry.work?, Registry.work?, agree word different]
    cases found : registry.find? word with
    | none => rfl
    | some meaning =>
      cases meaning with
      | builtin builtin => rfl
      | user user => exact congrArg some (heedless word different looked user found)
  refine ⟨unchanged, ?_⟩
  intro shows ends unreported
  exact unchanged fun looked => unreported (looked.reported shows ends)

/-- A built-in name that occurs in a template, but only inside a node that is skipped. -/
theorem compile_eq_of_not_lookedUp_skipped :
    ∃ (registry other : Registry) (source : String),
      (∀ word, word ≠ "has" → other.find? word = registry.find? word) ∧
      (∀ word, word ≠ "has" → ∀ user, registry.find? word = some (.user user) →
        user.plan (other.setting none) = user.plan (registry.setting none)) ∧
      ¬LookedUp source { macros := registry } "has" ∧
      registry.HandsOnUnknown ∧ Compilation.Ends source { macros := registry } ∧
      ¬Reported source { macros := registry } "has" ∧
      compile source { macros := other } = compile source { macros := registry } ∧
      (compile source { macros := other }).map Template.listing =
        .ok "each \".a\" \x7b\n  text \"<>\"\n\x7d\n" ∧
      other.find? "has" ≠ registry.find? "has" := by
  let registry : Registry := .ofList [("again", Macro.redispatch), ("skip", Macro.skip)]
  let other := registry.insert "has" (Macro.text "!")
  let source := "\x7bagain each a <\x7bskip \x7bhas b\x7d\x7d>\x7d"
  have agree : ∀ word, word ≠ "has" → other.find? word = registry.find? word := by
    intro word different
    rw [Registry.find?_insert, if_neg different]
  have entries : registry.macros = [("again", Macro.redispatch), ("skip", Macro.skip)] := rfl
  have heedless : ∀ word, word ≠ "has" → ∀ user, registry.find? word = some (.user user) →
      user.plan (other.setting none) = user.plan (registry.setting none) := by
    intro word _ user found
    rcases Registry.find?_cases found with ⟨user, isUser, member⟩ | ⟨builtin, isUser⟩
    · obtain rfl := Meaning.user.inj isUser
      rw [entries] at member
      rcases List.mem_pair.mp member with same | same
      · obtain rfl := (Prod.mk.inj same).2
        rfl
      · obtain rfl := (Prod.mk.inj same).2
        rfl
    · cases isUser
  have handsOn : registry.HandsOnUnknown := by
    intro entry member setting node
    rw [entries] at member
    rcases List.mem_pair.mp member with rfl | rfl
    · exact Plan.handsOnUnknown_expandNode node
    · trivial
  have computed : Compilation.within 6 source { macros := registry } =
      some (.ok "each \".a\" \x7b\n  text \"<>\"\n\x7d\n",
        [⟨"out", true⟩, ⟨"again", false⟩, ⟨"each", true⟩, ⟨"skip", false⟩]) := by
    unfold source registry
    decide +kernel
  obtain ⟨listed, ends, reported⟩ := Compilation.shown_of_within computed
  have unreported : ¬Reported source { macros := registry } "has" :=
    fun isReported => absurd ((reported "has").mp isReported) (by decide)
  have notLooked : ¬LookedUp source { macros := registry } "has" :=
    fun looked => unreported (looked.reported (.inr handsOn) ends)
  obtain ⟨unchanged, unchangedToo⟩ :=
    compile_eq_of_not_lookedUp registry other "has" agree source {} fun word different _ =>
      heedless word different
  refine ⟨registry, other, source, agree, heedless, notLooked, handsOn, ends, unreported,
    unchangedToo (.inr handsOn) ends unreported, ?_, ?_⟩
  · rw [unchanged notLooked]
    exact listed
  · rw [Registry.find?_insert, if_pos rfl]
    intro same
    cases same

/-- Where a macro catches the error of an unknown name, and where a macro shows the names that are
registered, a name that compiling does not report may change the program when it gets a macro. -/
theorem compile_ne_of_not_reported :
    let rescuing : Registry := ⟨[("try", Macro.rescue "fallback")]⟩
    let showing : Registry := ⟨[("list", Macro.survey)]⟩
    (∀ registry ∈ [rescuing, showing], ∀ word, word ≠ "n" →
      (registry.insert "n" (Macro.text "!")).find? word = registry.find? word) ∧
    (¬Reported "\x7btry \x7bn\x7d\x7d" { macros := rescuing } "n" ∧
      compile "\x7btry \x7bn\x7d\x7d" { macros := rescuing.insert "n" (Macro.text "!") } ≠
        compile "\x7btry \x7bn\x7d\x7d" { macros := rescuing }) ∧
    ¬Reported "\x7blist\x7d" { macros := showing } "n" ∧
      compile "\x7blist\x7d" { macros := showing.insert "n" (Macro.text "!") } ≠
        compile "\x7blist\x7d" { macros := showing } := by
  intro rescuing showing
  have rescued : Compilation.within 4 "\x7btry \x7bn\x7d\x7d" { macros := rescuing } =
      some (.ok "text \"fallback\"\n", [⟨"out", true⟩, ⟨"try", false⟩]) := by
    unfold rescuing
    decide +kernel
  have known : Compilation.within 4 "\x7btry \x7bn\x7d\x7d"
      { macros := rescuing.insert "n" (Macro.text "!") } =
        some (.ok "text \"!\"\n", [⟨"out", true⟩, ⟨"try", false⟩, ⟨"n", false⟩]) := by
    unfold rescuing
    decide +kernel
  have shown : Compilation.within 3 "\x7blist\x7d" { macros := showing } =
      some (.ok ("text \"Transformer \x7b registry: MacroRegistry \x7b user: " ++
        "[\\\"list\\\"] \x7d, file: None \x7d\"\n"), [⟨"out", true⟩, ⟨"list", false⟩]) := by
    unfold showing
    decide +kernel
  have shownToo : Compilation.within 3 "\x7blist\x7d"
      { macros := showing.insert "n" (Macro.text "!") } =
        some (.ok ("text \"Transformer \x7b registry: MacroRegistry \x7b user: " ++
          "[\\\"list\\\", \\\"n\\\"] \x7d, file: None \x7d\"\n"),
          [⟨"out", true⟩, ⟨"list", false⟩]) := by
    unfold showing
    decide +kernel
  have agree (registry : Registry) (word : String) (different : word ≠ "n") :
      (registry.insert "n" (Macro.text "!")).find? word = registry.find? word := by
    rw [Registry.find?_insert, if_neg different]
  obtain ⟨listed, -, reported⟩ := Compilation.shown_of_within rescued
  obtain ⟨listedToo, -, -⟩ := Compilation.shown_of_within known
  obtain ⟨surveyed, -, reportedShown⟩ := Compilation.shown_of_within shown
  obtain ⟨surveyedToo, -, -⟩ := Compilation.shown_of_within shownToo
  refine ⟨fun registry _ word different => agree registry word different, ⟨?_, ?_⟩, ?_, ?_⟩
  · exact fun isReported => absurd ((reported "n").mp isReported) (by decide)
  · intro same
    rw [same, listed] at listedToo
    exact absurd listedToo (by decide)
  · exact fun isReported => absurd ((reportedShown "n").mp isReported) (by decide)
  · intro same
    rw [same, surveyed] at surveyedToo
    exact absurd surveyedToo (by decide)

end BraceTemplate
