import BraceTemplate.Proofs.Dispatching

/-!
# Macros that delegate to built-in ones

What counts of a macro is its plan, not whether it is built in. A registry whose names all stand for
plans of built-in macros is described by a map from names to built-in macros, and what it makes of a
tree can be read off the tree with this map.

## Main result

`delegation_invisible`: overriding built-in macros by macros that delegate to them changes no
compilation, and a further name for a built-in macro may take the place of its own name at any nodes
of a tree.

## Proof strategy

For the first half, both registries have the same macros under all names. For the second, what comes
out of a tree is a recursion over its nodes, and of a head only what its first token stands for and
the text behind it count.
-/

namespace BraceTemplate

/-! ### Names -/

theorem Builtin.name_ne_empty (builtin : Builtin) : builtin.name ≠ "" := by
  cases builtin <;> decide

theorem Builtin.isSolid_name (builtin : Builtin) : Token.IsSolid builtin.name := by
  cases builtin <;> decide

/-- What may stand behind a name: nothing, or white space and anything after it. -/
def EndsToken (behind : String) : Prop :=
  ∀ c, behind.toList.head? = some c → isBlank c = true

private theorem Token.claim_of_endsToken {lead name behind : String} (blank : IsBlank lead)
    (someName : name ≠ "") (solid : IsSolid name) (ends : EndsToken behind) :
    claim (lead ++ name ++ behind) = (name, String.ofList (skipBlank behind.toList)) := by
  obtain ⟨isFirst, isAfter⟩ := first_afterFirst_of_stop blank
    (mt String.toList_eq_nil_iff.mp someName) solid ends
  rw [claim, String.append_assoc, String.toList_append, String.toList_append, isFirst, isAfter,
    String.ofList_toList]

/-- The second list of nodes is the first one with another name in the heads of some nodes. -/
inductive Children.Renamed (old new : String) : Children → Children → Prop
  | nil : Renamed old new .nil .nil
  | keep {position : Position} {head trailing : String} {inner inside rest others : Children} :
      inner.Renamed old new inside → rest.Renamed old new others →
      Renamed old new (.cons position head inner trailing rest)
        (.cons position head inside trailing others)
  | rename {position : Position} {lead behind trailing : String}
      {inner inside rest others : Children} :
      Token.IsBlank lead → EndsToken behind →
      inner.Renamed old new inside → rest.Renamed old new others →
      Renamed old new (.cons position (lead ++ old ++ behind) inner trailing rest)
        (.cons position (lead ++ new ++ behind) inside trailing others)

/-! ### Registries of built-in macros -/

/-- Every name stands for the built-in macro that the map gives it, and for none if it gives
none. -/
def Registry.StandsFor (registry : Registry) (means : String → Option Builtin) : Prop :=
  ∀ name, (registry.find? name).map Meaning.toMacro = (means name).map Builtin.toMacro

namespace Registry

variable {registry : Registry} {means : String → Option Builtin}

/-- Built-in macros pay no heed to their setting. -/
private theorem StandsFor.work?_eq (stands : registry.StandsFor means) (file : Option String)
    (name : String) : registry.work? file name = (means name).map Builtin.plan := by
  have meaning :=
    congrArg (Option.map fun found => found.plan (registry.setting file)) (stands name)
  rw [Option.map_map, Option.map_map] at meaning
  exact meaning

private theorem standsFor_empty : empty.StandsFor Builtin.ofName? := by
  intro name
  rw [find?_of_isEmpty rfl, Option.map_map]
  rfl

theorem StandsFor.insert (stands : registry.StandsFor means) (name : String) (builtin : Builtin) :
    (registry.insert name builtin.toMacro).StandsFor
      (Function.update means name (some builtin)) := by
  intro word
  rw [find?_insert]
  by_cases same : word = name
  · rw [if_pos same, same, Function.update_self]
    rfl
  · rw [if_neg same, Function.update_of_ne same]
    exact stands word

/-- A built-in macro that is registered under its own name changes no meaning. -/
private theorem StandsFor.insert_self (stands : registry.StandsFor Builtin.ofName?)
    (builtin : Builtin) :
    (registry.insert builtin.name builtin.toMacro).StandsFor Builtin.ofName? := by
  have inserted := stands.insert builtin.name builtin
  rwa [← builtin.ofName?_name, Function.update_eq_self] at inserted

/-- The registry in which the given built-in macros are overridden by macros that delegate to
them. -/
def delegating (overridden : List Builtin) : Registry :=
  .ofList (overridden.map fun builtin => (builtin.name, builtin.toMacro))

private theorem standsFor_delegating (overridden : List Builtin) :
    (delegating overridden).StandsFor Builtin.ofName? := by
  suffices kept : ∀ registry : Registry, registry.StandsFor Builtin.ofName? →
      ((overridden.map fun builtin => (builtin.name, builtin.toMacro)).foldl
        (fun registry entry => registry.insert entry.1 entry.2) registry).StandsFor Builtin.ofName?
    from kept empty standsFor_empty
  -- The macros are put in from the first to the last, each into the registry so far.
  induction overridden with
  | nil => exact fun _ stands => stands
  | cons builtin overridden ih => exact fun _ stands => ih _ (stands.insert_self builtin)

end Registry

/-! ### What such a registry makes of a tree -/

/-- What handing a node to the macro of a name gives, from what the nodes inside give. -/
def outcomeOf (means : String → Option Builtin) (file : Option String) (position : Position)
    (name head : String) (content : Except Fault Program) : Except Fault Program :=
  match means name with
  | none => .error (.unknownMacro name ⟨file, position⟩)
  | some builtin => content.map (builtin.program head)

/-- What nodes give if names have the given meaning. -/
def Children.outcomeWith (means : String → Option Builtin) (file : Option String) :
    Children → Except Fault Program
  | .nil => .ok .empty
  | .cons position head inner trailing rest =>
    match outcomeOf means file position (Token.claim head).1 (Token.claim head).2
        (inner.outcomeWith means file) with
    | .error fault => .error fault
    | .ok program =>
      (rest.outcomeWith means file).map fun after => program ++ .consText trailing after

namespace Registry

variable {registry : Registry} {means : String → Option Builtin} (file : Option String)

theorem StandsFor.exists_carryOut (stands : registry.StandsFor means) (name : String) (node : Node)
    {content : Except Fault Program} {left : Children} {log : List Dispatch}
    (inside : registry.carryOut file (Plan.expandEach node.children) =
      some ((content, left), log)) :
    ∃ after records, registry.carryOut file (.dispatch name node .done) =
      some (⟨outcomeOf means file node.position name node.head content, after⟩, records) := by
  have meaning := stands name
  cases known : means name with
  | none =>
    have absent : registry.find? name = none := by simpa [known] using meaning
    refine ⟨node, [], ?_⟩
    rw [carryOut_of_unknown absent, outcomeOf, known]
  | some builtin =>
    obtain ⟨found, present, delegates⟩ : ∃ found, registry.find? name = some found ∧
        found.toMacro = builtin.toMacro := by simpa [known] using meaning
    refine ⟨⟨node.position, "", left⟩, ⟨name, found.isBuiltin⟩ :: log, ?_⟩
    rw [carryOut_of_builtin file present delegates node inside, outcomeOf, known]

private theorem StandsFor.exists_carryOut_expandEach (stands : registry.StandsFor means)
    (children : Children) :
    ∃ left log, registry.carryOut file (Plan.expandEach children) =
      some ((children.outcomeWith means file, left), log) := by
  induction children with
  | nil => exact ⟨.nil, [], carryOut_done registry file _⟩
  | cons position head inner trailing rest ihInner ihRest =>
    obtain ⟨leftInner, logInner, endedInner⟩ := ihInner
    obtain ⟨leftRest, logRest, endedRest⟩ := ihRest
    obtain ⟨node, log, answered⟩ := stands.exists_carryOut file (Token.claim head).1
      ⟨position, (Token.claim head).2, inner⟩ endedInner
    rw [Plan.expandEach, Plan.expandNode, Node.claimToken, carryOut_bind_of_some answered,
      Children.outcomeWith]
    cases outcomeOf means file position (Token.claim head).1 (Token.claim head).2
        (inner.outcomeWith means file) with
    | error fault =>
      simp only [carryOut_pure, Option.map_some]
      exact ⟨_, _, rfl⟩
    | ok program =>
      simp only [carryOut_bind_of_some endedRest, carryOut_pure, Option.map_some]
      exact ⟨_, _, rfl⟩

private theorem StandsFor.outcome_expandRoot (stands : registry.StandsFor means)
    {position : Position} {head name rest : String} {children : Children}
    (handed : Plan.expandRoot ⟨position, head, children⟩ =
      .dispatch name ⟨position, rest, children⟩ .done) :
    (registry.expand file Plan.expandRoot ⟨position, head, children⟩).outcome =
      outcomeOf means file position name rest (children.outcomeWith means file) := by
  obtain ⟨left, log, inside⟩ := stands.exists_carryOut_expandEach file children
  obtain ⟨after, records, answered⟩ := stands.exists_carryOut file name
    ⟨position, rest, children⟩ inside
  rw [← handed] at answered
  rw [expand, expandLogged_of_carryOut answered]

end Registry

/-- Expanding a root hands it to the macro of a name that its head alone determines. -/
private theorem Plan.exists_expandRoot (position : Position) (head : String) :
    ∃ name rest, ∀ children,
      expandRoot ⟨position, head, children⟩ = .dispatch name ⟨position, rest, children⟩ .done := by
  cases lead : Node.rootLead.toList.isPrefixOf? head.toList with
  | some rest =>
    refine ⟨Node.rootName, String.ofList rest, fun children => ?_⟩
    simp only [expandRoot, lead]
  | none =>
    refine ⟨(Token.claim head).1, (Token.claim head).2, fun children => ?_⟩
    simp only [expandRoot, lead, expandNode, Node.claimToken]

/-- Names with the same meaning are interchangeable. -/
private theorem Children.Renamed.outcomeWith_eq {means : String → Option Builtin} {old new : String}
    {builtin : Builtin} (someOld : old ≠ "") (isOld : Token.IsSolid old) (someNew : new ≠ "")
    (isNew : Token.IsSolid new) (oldMeans : means old = some builtin)
    (newMeans : means new = some builtin)
    (file : Option String) {children others : Children} (renamed : children.Renamed old new others) :
    others.outcomeWith means file = children.outcomeWith means file := by
  induction renamed with
  | nil => rfl
  | keep _ _ ihInner ihRest => rw [outcomeWith, outcomeWith, ihInner, ihRest]
  | rename blank ends _ _ ihInner ihRest =>
    rw [outcomeWith, outcomeWith, Token.claim_of_endsToken blank someOld isOld ends,
      Token.claim_of_endsToken blank someNew isNew ends, ihInner, ihRest]
    -- What is left of the heads is the same, and the names have one meaning.
    simp only [outcomeOf, oldMeans, newMeans]

/-- Built-in macros that are overridden by macros which delegate to them compile every template as
before. And where a further name stands for a built-in macro, the nodes of a tree that ask for that
macro, the root apart, may do so under either name. -/
theorem delegation_invisible :
    (∀ (overridden : List Builtin) (source : String) (options : Options),
      compile source { options with macros := .delegating overridden } =
        compile source { options with macros := .empty }) ∧
    ∀ (name : String) (builtin : Builtin), name ≠ "" → Token.IsSolid name →
      Builtin.ofName? name = none →
      ∀ (file : Option String) (root : Node) (others : Children),
        root.children.Renamed builtin.name name others →
        ((Registry.empty.insert name builtin.toMacro).expand file Plan.expandRoot
            { root with children := others }).outcome =
          ((Registry.empty.insert name builtin.toMacro).expand file Plan.expandRoot root).outcome := by
  constructor
  · intro overridden source options
    refine compile_congr fun word _ => ?_
    rw [(Registry.standsFor_delegating overridden).work?_eq, Registry.standsFor_empty.work?_eq]
  · intro name builtin someName isSolid unused file ⟨position, head, children⟩ others renamed
    have stands := Registry.standsFor_empty.insert name builtin
    have different : builtin.name ≠ name := by
      rintro rfl
      rw [Builtin.ofName?_name] at unused
      cases unused
    have oldMeans : Function.update Builtin.ofName? name (some builtin) builtin.name = some builtin := by
      rw [Function.update_of_ne different, Builtin.ofName?_name]
    have newMeans : Function.update Builtin.ofName? name (some builtin) name = some builtin :=
      Function.update_self ..
    -- The root is the same in both trees, and so is the macro that it is handed to.
    obtain ⟨asked, rest, handed⟩ := Plan.exists_expandRoot position head
    rw [stands.outcome_expandRoot file (handed others),
      stands.outcome_expandRoot file (handed children),
      renamed.outcomeWith_eq builtin.name_ne_empty builtin.isSolid_name someName isSolid oldMeans
        newMeans]

/-- A node that may ask for its macro by another name, inside one that keeps the first name. -/
theorem delegation_invisible_nested :
    ∃ (root : Node) (others : Children),
      "if" ≠ "" ∧ Token.IsSolid "if" ∧ Builtin.ofName? "if" = none ∧
      root.children.Renamed "has" "if" others ∧
      ((Registry.empty.insert "if" Builtin.has.toMacro).expand none Plan.expandRoot
          { root with children := others }).outcome =
        ((Registry.empty.insert "if" Builtin.has.toMacro).expand none Plan.expandRoot root).outcome ∧
      ((Registry.empty.insert "if" Builtin.has.toMacro).expand none Plan.expandRoot
          { root with children := others }).outcome.map Program.listing =
        .ok "has \".a\" \x7b\n  text \"<\"\n  has \".b\" \x7b\n  \x7d\n  text \">\"\n\x7d\n" ∧
      compile "\x7beach a \x7bpath\x7d\x7d\x7bif\x7d" { macros := .delegating [.each, .out] } =
        compile "\x7beach a \x7bpath\x7d\x7d\x7bif\x7d" { macros := .empty } := by
  let root : Node := ⟨.start, "out ", .cons ⟨1, 1⟩ "has a <"
    (.cons ⟨1, 9⟩ (" " ++ "has" ++ " b") .nil ">" .nil) "" .nil⟩
  let others : Children := .cons ⟨1, 1⟩ "has a <"
    (.cons ⟨1, 9⟩ (" " ++ "if" ++ " b") .nil ">" .nil) "" .nil
  have renamed : root.children.Renamed "has" "if" others := by
    refine .keep (.rename ?_ ?_ .nil .nil) .nil
    · intro c isLead
      obtain rfl : c = ' ' := by simpa using isLead
      rfl
    · intro c isFirst
      obtain rfl : ' ' = c := Option.some.inj isFirst
      rfl
  have listed : ((Registry.empty.insert "if" Builtin.has.toMacro).expand none Plan.expandRoot
      { root with children := others }).outcome.map Program.listing =
        .ok "has \".a\" \x7b\n  text \"<\"\n  has \".b\" \x7b\n  \x7d\n  text \">\"\n\x7d\n" := by
    refine Registry.map_outcome_expand_of_run 4 ?_
    unfold root others
    decide +kernel
  obtain ⟨overrides, aliases⟩ := delegation_invisible
  exact ⟨root, others, by decide, by decide, rfl, renamed,
    aliases "if" .has (by decide) (by decide) rfl none root others renamed, listed,
    overrides [.each, .out] "\x7beach a \x7bpath\x7d\x7d\x7bif\x7d" {}⟩

end BraceTemplate
