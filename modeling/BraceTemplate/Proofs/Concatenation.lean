import BraceTemplate.Proofs.Appending
import BraceTemplate.Proofs.SourceProgram
import BraceTemplate.Proofs.Meaning

/-!
# Compiling a text by its parts

Without macros of a user, a text that consists of two balanced texts compiles to the program of the
first with the program of the second behind it, and a balanced text that is put into the braces of
a region macro compiles to that region with the program of the text as its body.

Both are facts about trees: a balanced text is the source of a tree, and it is enough to build the
tree of the whole text from those of its parts. Where two trees meet, the last text of the first and
the head of the second become one text; where a tree gets into braces, its head moves behind the
name and the path of the macro.
-/

namespace BraceTemplate

/-! ### One tree behind another -/

namespace Children

/-- A text and the nodes behind it, followed by a tree. The head of the tree joins the last text. -/
def followedBy (slot : String) : Children → Node → String × Children
  | .nil, after => (slot ++ after.head, after.children)
  | .cons position head inner trailing rest, after =>
    let (trailing, rest) := rest.followedBy trailing after
    (slot, .cons position head inner trailing rest)

private theorem source_followedBy (children : Children) (slot : String) (after : Node) :
    (children.followedBy slot after).1 ++ (children.followedBy slot after).2.source =
      slot ++ children.source ++ after.source := by
  induction children generalizing slot with
  | nil => simp [followedBy, source, Node.source, String.append_assoc]
  | cons position head inner trailing rest _ ih =>
    simp only [followedBy, source, String.append_assoc] at ih ⊢
    rw [ih]

private theorem braceFree_followedBy {children : Children} {slot : String} {after : Node}
    (free : ∀ text ∈ slot :: children.slots, BraceFree text.toList) (freeAfter : after.Plain) :
    ∀ text ∈ (children.followedBy slot after).1 :: (children.followedBy slot after).2.slots,
      BraceFree text.toList := by
  induction children generalizing slot with
  | nil =>
    obtain ⟨freeSlot, -⟩ := List.forall_mem_cons.mp free
    obtain ⟨freeHead, freeRest⟩ := List.forall_mem_cons.mp freeAfter
    refine List.forall_mem_cons.mpr ⟨?_, freeRest⟩
    rw [followedBy, String.toList_append]
    exact braceFree_append.mpr ⟨freeSlot, freeHead⟩
  | cons position head inner trailing rest _ ih =>
    simp only [slots, List.forall_mem_cons, List.forall_mem_append] at free
    obtain ⟨freeSlot, freeHead, freeInner, freeBehind⟩ := free
    have behind := ih (List.forall_mem_cons.mpr freeBehind)
    simp only [followedBy, slots, List.forall_mem_cons, List.forall_mem_append] at behind ⊢
    exact ⟨freeSlot, freeHead, freeInner, behind⟩

private theorem nodes_followedBy (children : Children) (slot : String) (after : Node) :
    (children.followedBy slot after).2.nodes = children.nodes ++ after.children.nodes := by
  induction children generalizing slot with
  | nil => rfl
  | cons position head inner trailing rest _ ih => simp [followedBy, ih]

private theorem program_followedBy (children : Children) (slot : String) (after : Node) :
    .consText (children.followedBy slot after).1 (children.followedBy slot after).2.program =
      .consText slot children.program ++ after.program := by
  induction children generalizing slot with
  | nil =>
    rw [followedBy, program, Program.consText_append, Program.empty_append, Node.program,
      Program.consText_consText]
  | cons position head inner trailing rest _ ih =>
    simp only [followedBy, program]
    rw [ih, Program.consText_append slot, Program.append_assoc]

end Children

namespace Node

/-- Two trees made into one whose source is that of the first followed by that of the second. -/
def followedBy (first second : Node) : Node :=
  let (head, children) := first.children.followedBy first.head second
  ⟨first.position, head, children⟩

private theorem source_followedBy (first second : Node) :
    (first.followedBy second).source = first.source ++ second.source :=
  first.children.source_followedBy first.head second

private theorem Plain.followedBy {first second : Node} (plain : first.Plain)
    (plainSecond : second.Plain) : (first.followedBy second).Plain :=
  Children.braceFree_followedBy plain plainSecond

private theorem offender?_followedBy (first second : Node) :
    (first.followedBy second).children.offender? =
      first.children.offender?.or second.children.offender? := by
  rw [Children.offender?, followedBy, Children.nodes_followedBy, List.find?_append]
  rfl

private theorem program_followedBy (first second : Node) :
    (first.followedBy second).program = first.program ++ second.program :=
  first.children.program_followedBy first.head second

end Node

/-! ### A tree in the braces of a macro -/

private theorem isBrace_of_isBlank {c : Char} (blank : isBlank c = true) : isBrace c = false := by
  rcases brace_cases c with rfl | rfl | plain
  · exact absurd blank (by decide)
  · exact absurd blank (by decide)
  · exact plain

namespace Node

/-- A tree that holds nothing but the given tree in braces, with a text in front of its head. -/
def enclosed (lead : String) (body : Node) : Node :=
  ⟨.start, "", .cons .start (lead ++ body.head) body.children "" .nil⟩

private theorem source_enclosed (lead : String) (body : Node) :
    (body.enclosed lead).source = inBraces (lead ++ body.source) := by
  simp [enclosed, source, Children.source, String.append_assoc]

private theorem Plain.enclosed {lead : String} (free : BraceFree lead.toList) {body : Node}
    (plain : body.Plain) : (body.enclosed lead).Plain := by
  obtain ⟨freeHead, freeChildren⟩ := List.forall_mem_cons.mp plain
  simp only [Plain, Node.enclosed, slots, Children.slots, List.forall_mem_cons,
    List.forall_mem_append, String.toList_append, braceFree_append]
  exact ⟨braceFree_nil, ⟨free, freeHead⟩, freeChildren, braceFree_nil, by simp⟩

private theorem offender?_enclosed {lead : String} {body : Node} {builtin : Builtin}
    (named : (Token.claim (lead ++ body.head)).1 = builtin.name) :
    (body.enclosed lead).children.offender? = body.children.offender? := by
  have known : (Node.mk .start (lead ++ body.head) body.children).isKnown = true := by
    rw [isKnown, askedName, named, Builtin.ofName?_name]
    rfl
  rw [enclosed, Children.offender?_cons, if_pos known, Children.offender?_nil, Option.or_none]

private theorem program_enclosed {lead afterName : String} {body : Node} {builtin : Builtin}
    (claimed : Token.claim (lead ++ body.head) = (builtin.name, afterName)) :
    (body.enclosed lead).program = builtin.program afterName body.children.program ++ .empty := by
  simp [program, enclosed, Children.program, claimed, Builtin.ofName?_name]

end Node

/-- A text that can be the path of a macro: at least one character, no white space and no brace. -/
def IsToken (text : String) : Prop :=
  text ≠ "" ∧ Token.IsSolid text ∧ BraceFree text.toList

/-- White space, at least one character of it. -/
def IsGap (text : String) : Prop :=
  text ≠ "" ∧ Token.IsBlank text

private theorem IsGap.braceFree {text : String} (isGap : IsGap text) : BraceFree text.toList :=
  fun c member => isBrace_of_isBlank (isGap.2 c member)

instance (cs : List Char) : Decidable (BraceFree cs) :=
  List.decidableBAll _ cs

instance (text : String) : Decidable (IsToken text) :=
  inferInstanceAs (Decidable (text ≠ "" ∧ Token.IsSolid text ∧ BraceFree text.toList))

instance (text : String) : Decidable (IsGap text) :=
  inferInstanceAs (Decidable (text ≠ "" ∧ Token.IsBlank text))

private theorem Builtin.isToken_name (builtin : Builtin) : IsToken builtin.name := by
  cases builtin <;> decide

private theorem isGap_space : IsGap " " := by decide

private theorem claim_token {token gap head : String} (isToken : IsToken token) (isGap : IsGap gap)
    (start : ∀ c ∈ head.toList.head?, isBlank c = false) :
    Token.claim (token ++ (gap ++ head)) = (token, head) :=
  Token.claim_append isToken.1 isToken.2.1 isGap.1 isGap.2 start

private theorem Builtin.claim_name (builtin : Builtin) {token : String} (isToken : IsToken token)
    (rest : String) :
    Token.claim (builtin.name ++ (" " ++ (token ++ rest))) = (builtin.name, token ++ rest) := by
  apply claim_token builtin.isToken_name isGap_space
  rw [String.toList_append]
  exact Token.not_isBlank_of_head?_append (mt String.toList_eq_nil_iff.mp isToken.1) isToken.2.1

/-- The names of the macros that make a region of their path and their content, and the regions. -/
def regionMacros : List (String × (String → Region)) :=
  [("->", .scope), ("has", .has), ("each", .each)]

private theorem exists_of_mem_regionMacros {wrapping : String × (String → Region)}
    (member : wrapping ∈ regionMacros) :
    ∃ builtin : Builtin, builtin.name = wrapping.1 ∧
      ∀ head inner, builtin.program head inner =
        .single (.region (wrapping.2 (Path.normalize (Token.claim head).1))
          (.consText (Token.claim head).2 inner)) := by
  simp only [regionMacros, List.mem_cons, List.not_mem_nil, or_false] at member
  rcases member with rfl | rfl | rfl
  · exact ⟨.scope, rfl, fun _ _ => rfl⟩
  · exact ⟨.has, rfl, fun _ _ => rfl⟩
  · exact ⟨.each, rfl, fun _ _ => rfl⟩

/-- What stands between the opening brace of a macro and the text of its node. -/
def Builtin.claimedText (builtin : Builtin) (token gap : String) : String :=
  builtin.name ++ (" " ++ (token ++ gap))

private theorem Builtin.braceFree_claimedText (builtin : Builtin) {token gap : String}
    (isToken : IsToken token) (isGap : IsGap gap) :
    BraceFree (builtin.claimedText token gap).toList := by
  simp only [claimedText, String.toList_append, braceFree_append]
  exact ⟨builtin.isToken_name.2.2, isGap_space.braceFree, isToken.2.2, isGap.braceFree⟩

/-! ### Compiling the whole from its parts -/

section

variable {options : Options} (noUser : options.macros.isEmpty = true)

include noUser

theorem compile_followedBy_iff {first second : Node} (plain : first.Plain)
    (plainSecond : second.Plain) {template : Template} :
    compile (first.source ++ second.source) options = .ok template ↔
      (first.children.offender? = none ∧ second.children.offender? = none) ∧
        template = .ofProgram (first.program ++ second.program) options := by
  rw [← Node.source_followedBy, compile_source noUser (plain.followedBy plainSecond),
    Node.offender?_followedBy, Option.or_eq_none_iff, Node.program_followedBy]

theorem compile_enclosed_iff {wrapping : String × (String → Region)}
    (member : wrapping ∈ regionMacros) {token gap : String} (isToken : IsToken token)
    (isGap : IsGap gap) {body : Node} (plain : body.Plain)
    (start : ∀ c ∈ body.head.toList.head?, isBlank c = false) {template : Template} :
    compile (inBraces (wrapping.1 ++ " " ++ token ++ gap ++ body.source)) options =
        .ok template ↔
      body.children.offender? = none ∧
        template =
          .ofProgram (.single (.region (wrapping.2 (Path.normalize token)) body.program))
            options := by
  obtain ⟨builtin, name, makes⟩ := exists_of_mem_regionMacros member
  -- The text is the source of the tree in braces, whose node gives up its two tokens in turn and is
  -- left with the head of the body.
  have source : inBraces (wrapping.1 ++ " " ++ token ++ gap ++ body.source) =
      (body.enclosed (builtin.claimedText token gap)).source := by
    simp only [Node.source_enclosed, Builtin.claimedText, name, String.append_assoc]
  have named : Token.claim (builtin.claimedText token gap ++ body.head) =
      (builtin.name, token ++ (gap ++ body.head)) := by
    simp only [Builtin.claimedText, String.append_assoc]
    exact builtin.claim_name isToken (gap ++ body.head)
  have claimed : Token.claim (token ++ (gap ++ body.head)) = (token, body.head) :=
    claim_token isToken isGap start
  rw [source, compile_source noUser (plain.enclosed (builtin.braceFree_claimedText isToken isGap)),
    Node.offender?_enclosed (congrArg Prod.fst named), Node.program_enclosed named, makes, claimed]
  rfl

private theorem compile_append {first second : String} (balanced : Balanced first.toList)
    (balancedSecond : Balanced second.toList) :
    ((∃ whole, compile (first ++ second) options = .ok whole) ↔
      (∃ front, compile first options = .ok front) ∧
        ∃ back, compile second options = .ok back) ∧
    ∀ front back, compile first options = .ok front → compile second options = .ok back →
      compile (first ++ second) options =
        .ok (.ofProgram (front.program ++ back.program) options) := by
  obtain ⟨first, plain, rfl⟩ := Node.exists_source_of_balanced balanced
  obtain ⟨second, plainSecond, rfl⟩ := Node.exists_source_of_balanced balancedSecond
  -- What each of the three texts compiles to is told by its tree.
  simp only [compile_followedBy_iff noUser plain plainSecond, compile_source noUser plain,
    compile_source noUser plainSecond, exists_and_left, exists_eq, and_true, true_and]
  rintro front back ⟨known, rfl⟩ ⟨knownSecond, rfl⟩
  exact ⟨⟨known, knownSecond⟩, rfl⟩

private theorem compile_region {wrapping : String × (String → Region)}
    (member : wrapping ∈ regionMacros)
    {token gap body : String} (isToken : IsToken token) (isGap : IsGap gap)
    (balanced : Balanced body.toList) (start : ∀ c ∈ body.toList.head?, isBlank c = false) :
    ((∃ whole, compile (inBraces (wrapping.1 ++ " " ++ token ++ gap ++ body)) options =
        .ok whole) ↔ ∃ inner, compile body options = .ok inner) ∧
    ∀ inner, compile body options = .ok inner →
      compile (inBraces (wrapping.1 ++ " " ++ token ++ gap ++ body)) options =
        .ok (.ofProgram (.single (.region (wrapping.2 (Path.normalize token)) inner.program))
          options) := by
  obtain ⟨body, plain, rfl⟩ := Node.exists_source_of_balanced balanced
  -- The text begins with the head of its tree, so what it does not begin with, the head does not.
  have startHead : ∀ c ∈ body.head.toList.head?, isBlank c = false := by
    intro c first
    apply start
    rw [Node.source, String.toList_append, List.head?_append, Option.mem_def.mp first]
    exact Option.mem_some_self c
  simp only [compile_enclosed_iff noUser member isToken isGap plain startHead,
    compile_source noUser plain, exists_and_left, exists_eq, and_true, true_and]
  rintro inner ⟨known, rfl⟩
  exact ⟨known, rfl⟩

end

/-- Without macros of a user, a text made of two balanced texts compiles exactly if both do, and
then its program is that of the first with that of the second behind it, so that what they render
stands next to each other. A balanced text that does not begin with white space, put into the braces
of a region macro behind a path and white space, compiles exactly if it does so alone, and then the
program is that region alone, with the program of the text as its body. -/
theorem compile_compositional (options : Options) (noUser : options.macros.isEmpty = true) :
    (∀ first second : String, Balanced first.toList → Balanced second.toList →
      ((∃ whole, compile (first ++ second) options = .ok whole) ↔
        (∃ front, compile first options = .ok front) ∧
          ∃ back, compile second options = .ok back) ∧
      ∀ front back, compile first options = .ok front → compile second options = .ok back →
        ∃ whole, compile (first ++ second) options = .ok whole ∧
          whole.program = front.program ++ back.program ∧
          ∀ data access, whole.program.render data access =
            front.program.render data access ++ back.program.render data access) ∧
    (∀ wrapping ∈ regionMacros, ∀ token gap body : String, IsToken token → IsGap gap →
      Balanced body.toList → (∀ c ∈ body.toList.head?, isBlank c = false) →
      ((∃ whole, compile (inBraces (wrapping.1 ++ " " ++ token ++ gap ++ body)) options =
          .ok whole) ↔ ∃ inner, compile body options = .ok inner) ∧
      ∀ inner, compile body options = .ok inner →
        ∃ whole, compile (inBraces (wrapping.1 ++ " " ++ token ++ gap ++ body)) options =
            .ok whole ∧
          whole.program = .single (.region (wrapping.2 (Path.normalize token)) inner.program)) := by
  constructor
  · intro first second balanced balancedSecond
    obtain ⟨compiles, appends⟩ := compile_append noUser balanced balancedSecond
    refine ⟨compiles, ?_⟩
    intro front back compiled compiledSecond
    refine ⟨_, appends front back compiled compiledSecond, rfl, ?_⟩
    intro data access
    simp only [Program.render_eq]
    exact Program.meaning_append data access [] front.program back.program
  · intro wrapping member token gap body isToken isGap balanced start
    obtain ⟨compiles, encloses⟩ := compile_region noUser member isToken isGap balanced start
    refine ⟨compiles, ?_⟩
    intro inner compiled
    exact ⟨_, encloses inner compiled, rfl⟩

theorem compile_compositional_seam :
    (∃ front back whole, compile "a\x7b. x\x7d b" {} = .ok front ∧
      compile "\nc\x7bpath\x7d" {} = .ok back ∧
      compile ("a\x7b. x\x7d b" ++ "\nc\x7bpath\x7d") {} = .ok whole ∧
      whole.program = front.program ++ back.program ∧ whole.program.opCount = 4) ∧
    ∃ inner whole, compile "<\x7b. y\x7d> " {} = .ok inner ∧
      compile (inBraces ("has" ++ " " ++ "p[0]" ++ " \n" ++ "<\x7b. y\x7d> ")) {} =
        .ok whole ∧
      whole.program = .single (.has ".p.0" inner.program) := by
  obtain ⟨appends, encloses⟩ := compile_compositional {} rfl
  obtain ⟨front, isFront⟩ : ∃ front, compile "a\x7b. x\x7d b" {} = .ok front :=
    ⟨_, (compile_eq_ok_iff rfl).mpr ⟨_, rfl, rfl, rfl⟩⟩
  obtain ⟨back, isBack⟩ : ∃ back, compile "\nc\x7bpath\x7d" {} = .ok back :=
    ⟨_, (compile_eq_ok_iff rfl).mpr ⟨_, rfl, rfl, rfl⟩⟩
  obtain ⟨inner, isInner⟩ : ∃ inner, compile "<\x7b. y\x7d> " {} = .ok inner :=
    ⟨_, (compile_eq_ok_iff rfl).mpr ⟨_, rfl, rfl, rfl⟩⟩
  obtain ⟨whole, compiled, program, -⟩ := (appends "a\x7b. x\x7d b" "\nc\x7bpath\x7d"
    (by decide) (by decide)).2 front back isFront isBack
  have start : ∀ c ∈ "<\x7b. y\x7d> ".toList.head?, isBlank c = false := by
    intro c first
    obtain rfl : '<' = c := Option.some.inj first
    rfl
  obtain ⟨region, compiledRegion, single⟩ := (encloses ("has", .has) (by simp [regionMacros])
    "p[0]" " \n" "<\x7b. y\x7d> " (by decide) (by decide) (by decide) start).2 inner isInner
  refine ⟨⟨front, back, whole, isFront, isBack, compiled, program, ?_⟩,
    inner, region, isInner, compiledRegion, single⟩
  obtain ⟨root, parsed, -, rfl⟩ := (compile_eq_ok_iff rfl).mp compiled
  cases parsed
  rfl

end BraceTemplate
