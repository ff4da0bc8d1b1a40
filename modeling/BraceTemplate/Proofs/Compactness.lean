import Mathlib.Data.List.SplitBy
import BraceTemplate.Macro.Stock
import BraceTemplate.Proofs.Appending
import BraceTemplate.Proofs.Expansion

/-!
# Compact programs

How texts are split is lost when programs are put together: empty text is dropped, and a text joins
the text in front of it. So there is one program for all ways to push the same text and ops.

## Main result

`canonical_form`: programs that are put together by the functions for it hold no empty text and no
two texts next to each other, and neither do the programs that an expansion gives whose macros put
theirs together in this way.

## Proof strategy

Appending comes down to ops put in front of programs, where one text at most is dropped or joined.
What a plan gives is put together if the answers to its requests are, and so all answers are, by
induction on the limit for nested requests.
-/

namespace BraceTemplate

/-! ### Compact programs -/

namespace Op

def text? : Op → Option String
  | .leaf (.text text) => some text
  | _ => none

def isText (op : Op) : Bool :=
  op.text?.isSome

def body? : Op → Option Program
  | .leaf _ => none
  | .region _ body => some body

private theorem text?_eq_some_iff {op : Op} {text : String} :
    op.text? = some text ↔ op = .text text := by
  unfold text?
  split <;> simp_all

/-- Two ops in this order become one. -/
def joins (op next : Op) : Bool :=
  op.isText && next.isText

/-- What an op adds to a program: the characters of a text, and any other op as a whole. -/
def pieces : Op → List (Char ⊕ Op)
  | .leaf (.text text) => text.toList.map .inl
  | op => [.inr op]

end Op

namespace Program

def beginsWithText : Program → Bool
  | .leaf (.text _) _ => true
  | _ => false

theorem exists_of_beginsWithText {program : Program} (begins : program.beginsWithText = true) :
    ∃ next rest, program = .leaf (.text next) rest := by
  unfold beginsWithText at begins
  split at begins
  · exact ⟨_, _, rfl⟩
  · cases begins

/-- There is no empty text and no text in front of another, also not in the bodies of ops. -/
def Compact : Program → Prop
  | .empty => True
  | .leaf (.text text) rest => text ≠ "" ∧ rest.beginsWithText = false ∧ rest.Compact
  | .leaf _ rest => rest.Compact
  | .region _ body rest => body.Compact ∧ rest.Compact

theorem consText_of_apart {text : String} (some : text ≠ "") {program : Program}
    (apart : program.beginsWithText = false) :
    consText text program = .leaf (.text text) program := by
  rcases begins_cases program with ⟨next, rest, rfl⟩ | opens
  · cases apart
  · exact opens text some

theorem Compact.of_leaf {op : Leaf} {rest : Program} (compact : (leaf op rest).Compact) :
    rest.Compact := by
  cases op with
  | text text => exact compact.2.2
  | value path | path path => exact compact
  | call name helper => exact compact

theorem Compact.consText {program : Program} (compact : program.Compact) (text : String) :
    (consText text program).Compact := by
  by_cases empty : text = ""
  · simpa [empty] using compact
  cases apart : program.beginsWithText with
  | false =>
    rw [consText_of_apart empty apart]
    exact ⟨empty, apart, compact⟩
  | true =>
    -- The longer text stands where the text of the program stood, apart from others.
    obtain ⟨next, rest, rfl⟩ := exists_of_beginsWithText apart
    rw [consText_leaf_text]
    exact ⟨by simp [empty], compact.2⟩

theorem Compact.cons {program : Program} (compact : program.Compact) (op : Op)
    (bodies : ∀ body, op.body? = some body → body.Compact) : (cons op program).Compact := by
  cases op with
  | leaf op =>
    cases op with
    | text text => exact compact.consText text
    | value path | path path => exact compact
    | call name helper => exact compact
  | region op body => exact ⟨bodies body rfl, compact⟩

theorem Compact.append {first second : Program} (compact : first.Compact)
    (alsoCompact : second.Compact) : (first ++ second).Compact := by
  induction first with
  | empty => exact alsoCompact
  | leaf op rest ih =>
    rw [leaf_append]
    exact (ih compact.of_leaf).cons (.leaf op) nofun
  | region op body rest _ ih => exact ⟨compact.1, ih compact.2⟩

theorem Compact.single (op : Op) (bodies : ∀ body, op.body? = some body → body.Compact) :
    (single op).Compact := by
  have nothing : Compact .empty := trivial
  exact nothing.cons op bodies

/-! ### Programs put together -/

/-- The programs that the functions for putting programs together give, with ops whose bodies are
put together in the same way. -/
inductive Built : Program → Prop
  | empty : Built .empty
  | single (op : Op) : (∀ body, op.body? = some body → Built body) → Built (.single op)
  | push {program : Program} (op : Op) :
      Built program → (∀ body, op.body? = some body → Built body) → Built (program.push op)
  | append {first second : Program} : Built first → Built second → Built (first ++ second)

theorem Built.compact {program : Program} (built : program.Built) : program.Compact := by
  induction built with
  | empty => trivial
  | single op _ bodies => exact .single op bodies
  | push op _ _ compact bodies => exact compact.append (.single op bodies)
  | append _ _ compact alsoCompact => exact compact.append alsoCompact

theorem single_append (op : Op) (program : Program) : single op ++ program = cons op program := by
  rw [single, cons_append, empty_append]

theorem Built.cons {program : Program} (built : program.Built) (op : Op)
    (bodies : ∀ body, op.body? = some body → body.Built) : (cons op program).Built := by
  rw [← single_append]
  exact (Built.single op bodies).append built

theorem Built.consText {program : Program} (built : program.Built) (text : String) :
    (consText text program).Built :=
  built.cons (.text text) nofun

private theorem Compact.cons_leaf_eq {op : Leaf} {rest : Program}
    (compact : (leaf op rest).Compact) :
    Program.cons (.leaf op) rest = .leaf op rest := by
  cases op with
  | text text => exact consText_of_apart compact.1 compact.2.1
  | value path | path path => rfl
  | call name helper => rfl

/-- Only compact programs are put together, and all of them are. -/
theorem built_iff_compact (program : Program) : program.Built ↔ program.Compact := by
  refine ⟨Built.compact, fun compact => ?_⟩
  induction program with
  | empty => exact .empty
  | leaf op rest ih =>
    have built := ih compact.of_leaf
    rw [← compact.cons_leaf_eq]
    exact built.cons (.leaf op) nofun
  | region op body rest ihBody ihRest =>
    refine (ihRest compact.2).cons (.region op body) fun inside isBody => ?_
    obtain rfl : body = inside := Option.some.inj isBody
    exact ihBody compact.1

/-! ### Pushing a list of ops -/

@[simp] theorem ofOps_nil : ofOps [] = .empty := rfl

@[simp] theorem ofOps_cons (op : Op) (ops : List Op) : ofOps (op :: ops) = cons op (ofOps ops) :=
  rfl

theorem ofOps_append (ops others : List Op) :
    ofOps (ops ++ others) = ofOps ops ++ ofOps others := by
  induction ops with
  | nil => rfl
  | cons op ops ih => rw [List.cons_append, ofOps_cons, ofOps_cons, ih, cons_append]

private theorem foldl_push_empty (ops : List Op) : ops.foldl push .empty = ofOps ops := by
  induction ops using List.reverseRecOn with
  | nil => rfl
  | append_singleton ops op ih =>
    rw [List.foldl_append, ih, ofOps_append]
    rfl

theorem Compact.ofOps_ops {program : Program} (compact : program.Compact) :
    ofOps program.ops = program := by
  induction program with
  | empty => rfl
  | leaf op rest ih => rw [ops, ofOps_cons, ih compact.of_leaf, compact.cons_leaf_eq]
  | region op body rest _ ih =>
    rw [ops, ofOps_cons, ih compact.2]
    rfl

/-- Appending a program pushes its ops one after the other. -/
theorem Compact.append_eq_foldl_push {first second : Program} (compact : first.Compact)
    (alsoCompact : second.Compact) : first ++ second = second.ops.foldl push first := by
  -- The first program is what pushing its own ops gives, so the pushes go on from there.
  have start : first = first.ops.foldl push .empty := by
    rw [foldl_push_empty, compact.ofOps_ops]
  rw [start, ← List.foldl_append, foldl_push_empty, foldl_push_empty, ofOps_append,
    alsoCompact.ofOps_ops]

/-- A run of texts as one text. Any other op stays as it is. -/
def joinRun (run : List Op) : List Op :=
  if run.all Op.isText then [.text (String.join (run.filterMap Op.text?))] else run

/-- Ops without the empty texts among them, and then with one text for each run of texts. -/
def joinTexts (ops : List Op) : List Op :=
  ((ops.filter (·.text? != some "")).splitBy Op.joins).flatMap joinRun

private theorem ofOps_filter (ops : List Op) :
    ofOps (ops.filter (·.text? != some "")) = ofOps ops := by
  induction ops with
  | nil => rfl
  | cons op ops ih =>
    by_cases empty : op.text? = some ""
    · obtain rfl := Op.text?_eq_some_iff.mp empty
      simpa [cons, Op.text?] using ih
    · simp [empty, ih]

private theorem ofOps_texts_append {texts : List Op} (allTexts : ∀ op ∈ texts, op.isText = true)
    (ops : List Op) :
    ofOps (texts ++ ops) = consText (String.join (texts.filterMap Op.text?)) (ofOps ops) := by
  induction texts with
  | nil => simp
  | cons op texts ih =>
    obtain ⟨isText, others⟩ := List.forall_mem_cons.mp allTexts
    obtain ⟨text, isText⟩ := Option.isSome_iff_exists.mp isText
    obtain rfl := Op.text?_eq_some_iff.mp isText
    rw [List.cons_append, ofOps_cons, cons, ih others, consText_consText,
      List.filterMap_cons_some isText, String.join_cons]

private theorem ops_cons_of_isOther {op : Op} (isOther : op.isText = false) (program : Program) :
    (cons op program).ops = op :: program.ops ∧ (cons op program).beginsWithText = false := by
  cases op with
  | leaf op =>
    cases op with
    | text text => cases isOther
    | value path | path path => exact ⟨rfl, rfl⟩
    | call name helper => exact ⟨rfl, rfl⟩
  | region op body => exact ⟨rfl, rfl⟩

private theorem beginsWithText_ofOps {ops : List Op} (apart : ∀ op ∈ ops.head?, op.isText = false) :
    (ofOps ops).beginsWithText = false := by
  cases ops with
  | nil => rfl
  | cons op ops => exact (ops_cons_of_isOther (apart op rfl) (ofOps ops)).2

private theorem exists_texts_append (ops : List Op) :
    ∃ texts behind, texts ++ behind = ops ∧ (∀ op ∈ texts, op.isText = true) ∧
      ∀ op ∈ behind.head?, op.isText = false := by
  refine ⟨ops.takeWhile Op.isText, ops.dropWhile Op.isText, List.takeWhile_append_dropWhile,
    fun op => List.mem_takeWhile_imp, ?_⟩
  intro op first
  have stops := List.head?_dropWhile_not Op.isText ops
  rw [Option.mem_def.mp first] at stops
  exact stops

section

variable {op : Op} {texts behind : List Op} (allTexts : ∀ next ∈ op :: texts, next.isText = true)
  (apart : ∀ next ∈ behind.head?, next.isText = false)

include allTexts apart

private theorem splitBy_joins_texts_append :
    (op :: texts ++ behind).splitBy Op.joins = (op :: texts) :: behind.splitBy Op.joins := by
  have run : (op :: texts).splitBy Op.joins = [op :: texts] := by
    apply List.splitBy_of_isChain (List.cons_ne_nil op texts)
    apply (List.pairwise_of_forall_mem_list _).isChain
    intro first member second memberToo
    simp [Op.joins, allTexts first member, allTexts second memberToo]
  have ends : ∀ last ∈ (op :: texts).getLast?, ∀ next ∈ behind.head?, last.joins next = false := by
    intro last _ next first
    simp [Op.joins, apart next first]
  rw [List.splitBy_append ends, run, List.singleton_append]

private theorem ops_ofOps_texts_append (nonempty : op.text? ≠ some "") :
    (ofOps (op :: texts ++ behind)).ops =
      .text (String.join ((op :: texts).filterMap Op.text?)) :: (ofOps behind).ops := by
  have joined : String.join ((op :: texts).filterMap Op.text?) ≠ "" := by
    obtain ⟨text, isText⟩ := Option.isSome_iff_exists.mp (allTexts op (.head texts))
    have some : text ≠ "" := by
      rintro rfl
      exact nonempty isText
    simp [List.filterMap_cons_some isText, some]
  rw [ofOps_texts_append allTexts, consText_of_apart joined (beginsWithText_ofOps apart)]
  rfl

end

/-- Ops without empty texts form a program with one op for each run of them. -/
private theorem ops_ofOps_of_nonempty (ops : List Op) (nonempty : ∀ op ∈ ops, op.text? ≠ some "") :
    (ofOps ops).ops = (ops.splitBy Op.joins).flatMap joinRun := by
  match ops with
  | [] => rfl
  | op :: rest =>
    cases isText : op.isText with
    | false =>
      have ih := ops_ofOps_of_nonempty rest fun next member => nonempty next (.tail op member)
      have alone : (op :: rest).splitBy Op.joins = [op] :: rest.splitBy Op.joins :=
        List.splitBy_append (l := [op]) (by simp [Op.joins, isText])
      rw [ofOps_cons, (ops_cons_of_isOther isText _).1, ih, alone, List.flatMap_cons]
      simp [joinRun, isText]
    | true =>
      -- The op and the texts behind it form the first run.
      obtain ⟨texts, behind, split, areTexts, apart⟩ := exists_texts_append rest
      have shorter : behind.length < (op :: rest).length := by
        simp only [← split, List.length_cons, List.length_append]
        omega
      have ih := ops_ofOps_of_nonempty behind fun next member =>
        nonempty next (.tail op (split ▸ List.mem_append_right texts member))
      have allTexts : ∀ next ∈ op :: texts, next.isText = true :=
        List.forall_mem_cons.mpr ⟨isText, areTexts⟩
      have run : joinRun (op :: texts) =
          [.text (String.join ((op :: texts).filterMap Op.text?))] :=
        if_pos (List.all_eq_true.mpr allTexts)
      rw [← split, ← List.cons_append, ops_ofOps_texts_append allTexts apart (nonempty op (.head _)),
        splitBy_joins_texts_append allTexts apart, ih, List.flatMap_cons, run,
        List.singleton_append]
termination_by ops.length

private theorem ops_foldl_push (ops : List Op) : (ops.foldl push .empty).ops = joinTexts ops := by
  rw [foldl_push_empty, ← ofOps_filter, ops_ofOps_of_nonempty]
  · rfl
  · intro op member
    simpa using (List.mem_filter.mp member).2

example : ([.text "a", .text "", .text "b", .value ".x", .text "c"].foldl push .empty).ops =
    [.text "ab", .value ".x", .text "c"] := rfl

/-! ### Texts split in other places -/

/-- The characters of texts and the other ops, in their order. -/
def contents (ops : List Op) : List (Char ⊕ Op) :=
  ops.flatMap Op.pieces

def consPiece : Char ⊕ Op → Program → Program
  | .inl c => consText (String.singleton c)
  | .inr op => cons op

private theorem consText_eq_foldr (cs : List Char) (program : Program) :
    consText (String.ofList cs) program = (cs.map .inl).foldr consPiece program := by
  induction cs with
  | nil => exact consText_empty_text program
  | cons c cs ih =>
    have first : String.ofList (c :: cs) = String.singleton c ++ String.ofList cs := by simp
    rw [first, ← consText_consText, ih]
    rfl

private theorem ofOps_eq_foldr (ops : List Op) :
    ofOps ops = (contents ops).foldr consPiece .empty := by
  induction ops with
  | nil => rfl
  | cons op ops ih =>
    have pieces : contents (op :: ops) = op.pieces ++ contents ops := List.flatMap_cons
    rw [ofOps_cons, ih, pieces, List.foldr_append]
    cases op with
    | leaf op =>
      cases op with
      | text text => rw [Op.pieces, ← consText_eq_foldr, String.ofList_toList, cons]
      | value path | path path => rfl
      | call name helper => rfl
    | region op body => rfl

end Program

/-! ### Plans -/

namespace Plan

variable {α β : Type}

/-- The result has a property if what the requests are answered with has one. -/
def Ensures (given : Expansion → Prop) (ensured : α → Prop) : Plan α → Prop
  | .done result => ensured result
  | .dispatch _ _ next => ∀ expansion, given expansion → (next expansion).Ensures given ensured

variable {given : Expansion → Prop} {ensured : α → Prop} {plan : Plan α}

theorem Ensures.bind (ensures : plan.Ensures given ensured) {ensuredAfter : β → Prop}
    {next : α → Plan β}
    (goesOn : ∀ result, ensured result → (next result).Ensures given ensuredAfter) :
    (plan >>= next).Ensures given ensuredAfter := by
  induction plan with
  | done result => exact goesOn result ensures
  | dispatch name node answered ih =>
    intro expansion holds
    exact ih expansion (ensures expansion holds)

theorem ensures_expandNode (given : Expansion → Prop) (node : Node) :
    (expandNode node).Ensures given given :=
  fun _ holds => holds

theorem ensures_expandRoot (given : Expansion → Prop) (root : Node) :
    (expandRoot root).Ensures given given := by
  rw [expandRoot]
  split
  · exact fun _ holds => holds
  · exact ensures_expandNode given root

/-- What every macro ensures of its answer, if the answers to its own requests have it, all answers
have. -/
theorem Ensures.of_carryOut {registry : Registry} {file : Option String}
    (unknown : ∀ fault node, given ⟨.error fault, node⟩)
    (known : ∀ name meaning, registry.find? name = some meaning → ∀ node,
      (meaning.toMacro.plan (registry.setting file) node).Ensures given given)
    (ensures : plan.Ensures given ensured) {result : α × List Dispatch}
    (ended : registry.carryOut file plan = some result) : ensured result.1 := by
  refine Registry.carryOut_induction
    (motive := fun plan result => ∀ ensured, plan.Ensures given ensured → ensured result.1)
    ?_ ?_ ?_ ended ensured ensures
  · exact fun _ _ holds => holds
  · intro α name node next result isUnknown behind ensured ensures
    exact behind ensured (ensures _ (unknown _ node))
  · intro α name node next meaning first last found inside behind ensured ensures
    have holds := inside given (known name meaning found node)
    exact behind ensured (ensures first.1 holds)

end Plan

/-! ### Expanding -/

/-- The program is put together, if there is one. -/
def GivesBuilt (outcome : Except Fault Program) : Prop :=
  ∀ program, outcome = .ok program → program.Built

private theorem givesBuilt_error (fault : Fault) : GivesBuilt (.error fault) := by
  rintro program ⟨⟩

theorem GivesBuilt.map {outcome : Except Fault Program} (built : GivesBuilt outcome)
    {change : Program → Program} (changed : ∀ program, program.Built → (change program).Built) :
    GivesBuilt (outcome.map change) := by
  intro program given
  cases outcome with
  | error fault => cases given
  | ok first =>
    obtain rfl : change first = program := Except.ok.inj given
    exact changed first (built first rfl)

private theorem Plan.ensures_expandEach (children : Children) :
    (expandEach children).Ensures (GivesBuilt ·.outcome) (GivesBuilt ·.1) := by
  induction children with
  | nil =>
    rintro program ⟨⟩
    exact .empty
  | cons position head inner trailing rest _ ih =>
    rw [expandEach]
    refine (ensures_expandNode _ _).bind fun first built => ?_
    cases given : first.outcome with
    | error fault => exact givesBuilt_error fault
    | ok program =>
      -- The program of the node goes in front of what comes behind it.
      have inFront (after : Program) (builtAfter : after.Built) :
          (program ++ .consText trailing after).Built :=
        (built program given).append (builtAfter.consText trailing)
      exact ih.bind fun result builtAfter => builtAfter.map inFront

private theorem Plan.ensures_expandChildren (node : Node) :
    (expandChildren node).Ensures (GivesBuilt ·.outcome) (GivesBuilt ·.outcome) := by
  rw [expandChildren_eq]
  refine (ensures_expandEach node.children).bind fun result built => ?_
  exact built.map fun program built => built.consText node.head

private theorem Builtin.built_program {inner : Program} (built : inner.Built) (builtin : Builtin)
    (head : String) : (builtin.program head inner).Built := by
  have text := built.consText (Token.claim head).2
  cases builtin with
  | out => exact built.consText head
  | value => exact text.cons (.value _) nofun
  | path => exact text.cons (.path _) nofun
  | scope | has | each =>
    refine .single _ fun body isBody => ?_
    obtain rfl := Option.some.inj isBody
    exact text

theorem Builtin.ensures_plan (builtin : Builtin) (node : Node) :
    (builtin.plan node).Ensures (GivesBuilt ·.outcome) (GivesBuilt ·.outcome) := by
  rw [plan_eq]
  refine (Plan.ensures_expandEach node.children).bind fun result built => ?_
  exact built.map fun inner built => built_program built builtin node.head

theorem Macro.ensures_around {change : Program → Program}
    (changed : ∀ program, program.Built → (change program).Built) (setting : Setting)
    (node : Node) :
    ((around change).plan setting node).Ensures (GivesBuilt ·.outcome) (GivesBuilt ·.outcome) :=
  (Plan.ensures_expandChildren node).bind fun _ built => built.map changed

theorem Macro.ensures_embed (source : String) (setting : Setting) (node : Node) :
    ((embed source).plan setting node).Ensures (GivesBuilt ·.outcome) (GivesBuilt ·.outcome) := by
  cases parsed : Node.ofTemplate source setting.file with
  | error fault =>
    simp only [embed, parsed]
    exact givesBuilt_error fault
  | ok root =>
    simp only [embed, parsed]
    exact (Plan.ensures_expandRoot _ root).bind fun expansion built => built

namespace Registry

variable {registry : Registry} (file : Option String)

/-- The macros of the user put their programs together from programs that are put together. -/
def KeepsBuilt (registry : Registry) : Prop :=
  ∀ entry ∈ registry.macros, ∀ setting node,
    (entry.2.plan setting node).Ensures (GivesBuilt ·.outcome) (GivesBuilt ·.outcome)

theorem KeepsBuilt.plan (keeps : registry.KeepsBuilt) {name : String} {meaning : Meaning}
    (found : registry.find? name = some meaning) (setting : Setting) (node : Node) :
    (meaning.toMacro.plan setting node).Ensures (GivesBuilt ·.outcome) (GivesBuilt ·.outcome) := by
  rcases find?_cases found with ⟨user, rfl, member⟩ | ⟨builtin, rfl⟩
  · exact keeps (name, user) member setting node
  · exact builtin.ensures_plan node

theorem KeepsBuilt.expand (keeps : registry.KeepsBuilt) {work : Node → Plan Expansion} {node : Node}
    (ensures : (work node).Ensures (GivesBuilt ·.outcome) (GivesBuilt ·.outcome)) :
    GivesBuilt (registry.expand file work node).outcome := by
  cases ended : registry.carryOut file (work node) with
  | none =>
    rw [Registry.expand, expandLogged, ended]
    exact givesBuilt_error _
  | some given =>
    rw [Registry.expand, expandLogged_of_carryOut ended]
    exact ensures.of_carryOut (fun fault _ => givesBuilt_error fault)
      (fun _ _ found => keeps.plan found _) ended

end Registry

/-- Programs that are put together are compact, and so are programs that an expansion gives under
macros that put theirs together. Ops that are pushed one after the other become what is left of them
without empty texts when each run of texts is made one text, and only the text counts and not where
it is split. -/
theorem canonical_form :
    (∀ program : Program, program.Built → program.Compact) ∧
    (∀ registry : Registry, registry.KeepsBuilt →
      ∀ work ∈ [Plan.expandRoot, Plan.expandNode, Plan.expandChildren], ∀ file node program,
        (registry.expand file work node).outcome = .ok program → program.Compact) ∧
    (∀ ops : List Op, (ops.foldl Program.push .empty).ops = Program.joinTexts ops) ∧
    ∀ ops others : List Op, Program.contents ops = Program.contents others →
      ops.foldl Program.push .empty = others.foldl Program.push .empty := by
  refine ⟨fun program built => built.compact, ?_, Program.ops_foldl_push, ?_⟩
  · intro registry keeps work isWork file node program given
    have ensures : (work node).Ensures (GivesBuilt ·.outcome) (GivesBuilt ·.outcome) := by
      simp only [List.mem_cons, List.not_mem_nil, or_false] at isWork
      rcases isWork with rfl | rfl | rfl
      · exact Plan.ensures_expandRoot _ node
      · exact Plan.ensures_expandNode _ node
      · exact Plan.ensures_expandChildren node
    exact (keeps.expand file ensures program given).compact
  · intro ops others same
    rw [Program.foldl_push_empty, Program.foldl_push_empty, Program.ofOps_eq_foldr,
      Program.ofOps_eq_foldr, same]

/-- Text from a macro, from the head of its node, from an empty slot and from behind it; and a macro
that expands a template of its own. -/
theorem canonical_form_between :
    let registry : Registry := ⟨[("frame", Macro.embed "\x7bpaste \x7bpaste \x7bskip\x7d-\x7d\x7d"),
      ("paste", Macro.between "(" ")"), ("skip", Macro.skip)]⟩
    let inner : Children := .cons .start "skip y" .nil "" .nil
    let root : Node := ⟨.start, Node.rootLead ++ "x", .cons .start "paste z" inner "w" .nil⟩
    let framed : Node := ⟨.start, "frame", .nil⟩
    let pushed := (Program.single (.text "a")).push (.text "b")
    registry.KeepsBuilt ∧
    (∃ program, (registry.expand none Plan.expandRoot root).outcome = .ok program ∧
      program.listing = "text \"x(z)w\"\n" ∧ program.Compact) ∧
    (∃ program, (registry.expand none Plan.expandNode framed).outcome = .ok program ∧
      program.listing = "text \"((-))\"\n" ∧ program.Compact) ∧
    (pushed ++ pushed).Built ∧ (pushed ++ pushed).Compact ∧
    [Op.text "a", .text "", .text "b"].foldl Program.push .empty =
      [Op.text "ab"].foldl Program.push .empty := by
  intro registry inner root framed pushed
  have keeps : registry.KeepsBuilt := by
    intro entry member setting node
    simp only [registry, List.mem_cons, List.not_mem_nil, or_false] at member
    rcases member with rfl | rfl | rfl
    · dsimp only
      exact Macro.ensures_embed _ setting node
    · refine Macro.ensures_around (fun program built => ?_) setting node
      exact (built.consText "(").push (.text ")") nofun
    · rintro program ⟨⟩
      exact .empty
  have built : pushed.Built := (Program.Built.single (.text "a") nofun).push (.text "b") nofun
  have twice : (pushed ++ pushed).Built := built.append built
  have compact {work : Node → Plan Expansion}
      (isWork : work ∈ [Plan.expandRoot, Plan.expandNode, Plan.expandChildren]) {node : Node}
      {listing : String} (listed : (registry.expand none work node).outcome.map Program.listing =
        .ok listing) :
      ∃ program, (registry.expand none work node).outcome = .ok program ∧
        program.listing = listing ∧ program.Compact := by
    cases given : (registry.expand none work node).outcome with
    | error fault =>
      rw [given] at listed
      cases listed
    | ok program =>
      rw [given] at listed
      exact ⟨program, rfl, Except.ok.inj listed,
        canonical_form.2.1 registry keeps work isWork none node program given⟩
  have listed : (registry.expand none Plan.expandRoot root).outcome.map Program.listing =
      .ok "text \"x(z)w\"\n" := by
    refine Registry.map_outcome_expand_of_run 3 ?_
    unfold registry root inner
    decide +kernel
  have listedFramed : (registry.expand none Plan.expandNode framed).outcome.map Program.listing =
      .ok "text \"((-))\"\n" := by
    refine Registry.map_outcome_expand_of_run 5 ?_
    unfold registry framed
    decide +kernel
  exact ⟨keeps, compact (.head _) listed, compact (.tail _ (.head _)) listedFramed, twice,
    canonical_form.1 _ twice, canonical_form.2.2.2 _ _ rfl⟩

end BraceTemplate
