import BraceTemplate.Program.Listing
import BraceTemplate.Proofs.Dependence

/-!
# What a listing tells

A listing names helpers and filters and does not show what they do. It leaves out nothing else: the
texts and paths in it can be read back if they have no backslash of their own, and the names if they
stay on their line.

## Main result

`listing_determines`: programs with one listing differ at most in what their helpers and filters do,
and render the same if they have none.

## Proof strategy

No line has a line feed in it, so a listing tells its lines. These are read from the front with any
lines behind them that close the region around them. The word of an op ends at the first space of
its line, and what follows the word tells the rest of the op; a line that closes a region stands two
columns before the body of the region, where an op of the body has no brace.
-/

namespace BraceTemplate

/-! ### Reading written texts -/

namespace Escaped

/-- The text that a written form stands for. -/
def read : List Char → List Char
  | '\\' :: 'n' :: cs => '\n' :: read cs
  | '\\' :: c :: cs => c :: read cs
  | c :: cs => c :: read cs
  | [] => []

private theorem read_char {c : Char} (plain : c ≠ '\\') (cs : List Char) :
    read (char c ++ cs) = c :: read cs := by
  unfold char
  split
  · rfl
  · rfl
  · rfl
  · simp [read, plain]

private theorem read_chars {cs : List Char} (plain : '\\' ∉ cs) : read (chars cs) = cs := by
  induction cs with
  | nil => rfl
  | cons c cs ih =>
    have apart : c ≠ '\\' := (List.ne_of_not_mem_cons plain).symm
    rw [chars, List.flatMap_cons, read_char apart, ← chars,
      ih (List.not_mem_of_not_mem_cons plain)]

theorem newline_notMem_chars (cs : List Char) : '\n' ∉ chars cs := by
  intro isIn
  obtain ⟨c, -, isIn⟩ := List.mem_flatMap.mp isIn
  unfold char at isIn
  split at isIn
  · simp at isIn
  · simp at isIn
  · simp at isIn
  next other => exact other (List.mem_singleton.mp isIn).symm

end Escaped

private theorem newline_notMem_quote (s : String) : '\n' ∉ (quote s).toList := by
  simp [quote, escape, Escaped.newline_notMem_chars]

theorem eq_of_quote_eq {s t : String} (sPlain : '\\' ∉ s.toList) (tPlain : '\\' ∉ t.toList)
    (equal : quote s = quote t) : s = t := by
  have written := (String.append_right_inj "\"").mp ((String.append_left_inj "\"").mp equal)
  have chars := congrArg Escaped.read (String.ofList_injective written)
  rw [Escaped.read_chars sPlain, Escaped.read_chars tPlain] at chars
  exact String.toList_inj.mp chars

-- A backslash in the text would be taken for the one of an escape.
example : quote "\n" = quote "\\n" := by decide

/-! ### Programs that can be read from their listings -/

/-- Texts and paths have no backslash, and names have no line feed. -/
def Leaf.Legible : Leaf → Prop
  | .text s | .value s | .path s => '\\' ∉ s.toList
  | .call name _ => '\n' ∉ name.toList

def Region.Legible : Region → Prop
  | .scope path | .has path | .each path => '\\' ∉ path.toList
  | .filter name _ => '\n' ∉ name.toList

def Region.FiltersNothing : Region → Prop
  | .scope _ | .has _ | .each _ => True
  | .filter _ _ => False

instance : DecidablePred Leaf.Legible
  | .text s | .value s | .path s => inferInstanceAs (Decidable ('\\' ∉ s.toList))
  | .call name _ => inferInstanceAs (Decidable ('\n' ∉ name.toList))

instance : DecidablePred Region.Legible
  | .scope path | .has path | .each path => inferInstanceAs (Decidable ('\\' ∉ path.toList))
  | .filter name _ => inferInstanceAs (Decidable ('\n' ∉ name.toList))

instance : DecidablePred Region.FiltersNothing
  | .scope _ | .has _ | .each _ => .isTrue trivial
  | .filter _ _ => .isFalse id

namespace Program

/-- What holds of all ops at all depths. -/
def AllOps (leaves : Leaf → Prop) (regions : Region → Prop) : Program → Prop
  | .empty => True
  | .leaf op rest => leaves op ∧ rest.AllOps leaves regions
  | .region op body rest =>
    regions op ∧ body.AllOps leaves regions ∧ rest.AllOps leaves regions

instance decidableAllOps (leaves : Leaf → Prop) (regions : Region → Prop) [DecidablePred leaves]
    [DecidablePred regions] : (program : Program) → Decidable (program.AllOps leaves regions)
  | .empty => .isTrue trivial
  | .leaf op rest =>
    have := rest.decidableAllOps leaves regions
    inferInstanceAs (Decidable (leaves op ∧ rest.AllOps leaves regions))
  | .region op body rest =>
    have := body.decidableAllOps leaves regions
    have := rest.decidableAllOps leaves regions
    inferInstanceAs
      (Decidable (regions op ∧ body.AllOps leaves regions ∧ rest.AllOps leaves regions))

def Legible (program : Program) : Prop :=
  program.AllOps Leaf.Legible Region.Legible

def FunctionFree (program : Program) : Prop :=
  program.AllOps Leaf.CallsNothing Region.FiltersNothing

instance : DecidablePred Legible :=
  decidableAllOps Leaf.Legible Region.Legible

instance : DecidablePred FunctionFree :=
  decidableAllOps Leaf.CallsNothing Region.FiltersNothing

end Program

/-! ### Programs that differ in functions -/

/-- The ops are the same, but for what helpers or filters of one name do. -/
inductive Leaf.Alike : Leaf → Leaf → Prop
  | same (op : Leaf) : Alike op op
  | call (name : String) (helper other : Ambient → String) :
      Alike (.call name helper) (.call name other)

inductive Region.Alike : Region → Region → Prop
  | same (op : Region) : Alike op op
  | filter (name : String) (change other : String → String) :
      Alike (.filter name change) (.filter name other)

inductive Program.Alike : Program → Program → Prop
  | empty : Alike .empty .empty
  | leaf {op other : Leaf} {rest others : Program} :
      op.Alike other → rest.Alike others → Alike (.leaf op rest) (.leaf other others)
  | region {op other : Region} {body inside rest others : Program} :
      op.Alike other → body.Alike inside → rest.Alike others →
      Alike (.region op body rest) (.region other inside others)

theorem Program.Alike.lines_eq {first second : Program} (alike : first.Alike second)
    (indent : String) : first.lines indent = second.lines indent := by
  induction alike generalizing indent with
  | empty => rfl
  | leaf ops _ ih => cases ops <;> simp only [lines, Leaf.word, Leaf.operand, ih]
  | region ops _ _ ihBody ihRest =>
    cases ops <;> simp only [lines, Region.word, Region.operand, ihBody, ihRest]

theorem Program.Alike.eq {first second : Program} (alike : first.Alike second)
    (free : first.FunctionFree) : first = second := by
  induction alike with
  | empty => rfl
  | leaf ops _ ih =>
    cases ops with
    | same op => rw [ih free.2]
    | call => exact free.1.elim
  | region ops _ _ ihBody ihRest =>
    cases ops with
    | same op => rw [ihBody free.2.1, ihRest free.2.2]
    | filter => exact free.1.elim

/-! ### Reading a line -/

private theorem append_cons_inj_of_notMem {mark : Char} {cs ds behind others : List Char}
    (csFree : mark ∉ cs) (dsFree : mark ∉ ds) (equal : cs ++ mark :: behind = ds ++ mark :: others) :
    cs = ds ∧ behind = others := by
  induction cs generalizing ds with
  | nil =>
    cases ds with
    | nil => exact ⟨rfl, (List.cons.inj equal).2⟩
    | cons d ds => exact absurd (List.cons.inj equal).1 (List.ne_of_not_mem_cons dsFree)
  | cons c cs ih =>
    cases ds with
    | nil => exact absurd (List.cons.inj equal).1.symm (List.ne_of_not_mem_cons csFree)
    | cons d ds =>
      obtain ⟨heads, tails⟩ := List.cons.inj equal
      obtain ⟨rest, same⟩ := ih (List.not_mem_of_not_mem_cons csFree)
        (List.not_mem_of_not_mem_cons dsFree) tails
      exact ⟨by rw [heads, rest], same⟩

private theorem Leaf.blank_notMem_word (op : Leaf) :
    ' ' ∉ op.word.toList ∧ '\n' ∉ op.word.toList := by
  cases op <;> simp [word]

private theorem Region.blank_notMem_word (op : Region) :
    ' ' ∉ op.word.toList ∧ '\n' ∉ op.word.toList := by
  cases op <;> simp [word]

private theorem Leaf.newline_notMem_operand (op : Leaf) (legible : op.Legible) :
    '\n' ∉ op.operand.toList := by
  cases op with
  | call name helper => exact legible
  | text s | value s | path s => exact newline_notMem_quote s

private theorem Region.newline_notMem_operand (op : Region) (legible : op.Legible) :
    '\n' ∉ op.operand.toList := by
  cases op with
  | filter name change => exact legible
  | scope path | has path | each path => exact newline_notMem_quote path

private theorem Leaf.word_ne (op : Leaf) (region : Region) : op.word ≠ region.word := by
  cases op <;> cases region <;> simp [word, Region.word]

private theorem word_and_behind_eq {indent word other behind others : String}
    (wordFree : ' ' ∉ word.toList) (otherFree : ' ' ∉ other.toList)
    (equal : indent ++ word ++ " " ++ behind = indent ++ other ++ " " ++ others) :
    word = other ∧ behind = others := by
  simp only [String.append_assoc, String.append_right_inj] at equal
  have chars := congrArg String.toList equal
  simp only [String.toList_append] at chars
  obtain ⟨words, rest⟩ := append_cons_inj_of_notMem wordFree otherFree chars
  exact ⟨String.toList_inj.mp words, String.toList_inj.mp rest⟩

private theorem Leaf.alike_of_operand_eq {op other : Leaf} (legible : op.Legible)
    (otherLegible : other.Legible) (words : op.word = other.word)
    (operands : op.operand = other.operand) : op.Alike other := by
  cases op <;> cases other <;> simp [word] at words
  case call.call name helper name' other =>
    obtain rfl : name = name' := operands
    exact .call name helper other
  -- The other kinds have a quoted operand.
  all_goals
    obtain rfl := eq_of_quote_eq legible otherLegible operands
    exact .same _

private theorem Region.alike_of_operand_eq {op other : Region} (legible : op.Legible)
    (otherLegible : other.Legible) (words : op.word = other.word)
    (operands : op.operand = other.operand) : op.Alike other := by
  cases op <;> cases other <;> simp [word] at words
  case filter.filter name change name' other =>
    obtain rfl : name = name' := operands
    exact .filter name change other
  all_goals
    obtain rfl := eq_of_quote_eq legible otherLegible operands
    exact .same _

/-! ### Reading lines -/

namespace Program

/-- What may stand behind a body: nothing, or the end of the region around it. -/
inductive Follows : String → List String → Prop
  | nothing (indent : String) : Follows indent []
  | closing (outer : String) (rest : List String) :
      Follows (outer ++ "  ") ((outer ++ String.singleton Brace.closing) :: rest)

/-- No op has the first line of what stands behind its body. -/
private theorem Follows.head_ne {indent line : String} {behind : List String}
    (follows : Follows indent (line :: behind)) (word operand : String) :
    line ≠ indent ++ word ++ " " ++ operand := by
  cases follows with
  | closing outer =>
    intro equal
    simp only [String.append_assoc, String.append_right_inj] at equal
    have chars := congrArg String.toList equal
    simp at chars

/-- Lines tell the program that they begin with, and what stands behind it. -/
private theorem alike_of_lines_append_eq {first second : Program} (legible : first.Legible)
    (otherLegible : second.Legible) {indent : String} {behind others : List String}
    (follows : Follows indent behind) (otherFollows : Follows indent others)
    (equal : first.lines indent ++ behind = second.lines indent ++ others) :
    first.Alike second ∧ behind = others := by
  induction first generalizing second indent behind others with
  | empty =>
    cases second with
    | empty => exact ⟨.empty, equal⟩
    -- What stands behind would have to begin with an op of this column.
    | leaf other rest =>
      obtain rfl : behind = _ := equal
      exact absurd rfl (follows.head_ne other.word other.operand)
    | region other inside rest =>
      obtain rfl : behind = _ := equal
      exact absurd (String.append_assoc ..) (follows.head_ne other.word
        (other.operand ++ (" " ++ String.singleton Brace.opening)))
  | leaf op rest ih =>
    cases second with
    | empty =>
      obtain rfl : others = _ := equal.symm
      exact absurd rfl (otherFollows.head_ne op.word op.operand)
    | leaf other rest' =>
      obtain ⟨line, equal⟩ := List.cons.inj equal
      obtain ⟨words, operands⟩ :=
        word_and_behind_eq op.blank_notMem_word.1 other.blank_notMem_word.1 line
      obtain ⟨alike, same⟩ := ih legible.2 otherLegible.2 follows otherFollows equal
      exact ⟨.leaf (Leaf.alike_of_operand_eq legible.1 otherLegible.1 words operands) alike, same⟩
    | region other inside rest' =>
      have line := (List.cons.inj equal).1.trans (String.append_assoc ..)
      have words := word_and_behind_eq op.blank_notMem_word.1 other.blank_notMem_word.1 line
      exact absurd words.1 (op.word_ne other)
  | region op body rest ihBody ihRest =>
    cases second with
    | empty =>
      obtain rfl : others = _ := equal.symm
      exact absurd (String.append_assoc ..)
        (otherFollows.head_ne op.word (op.operand ++ (" " ++ String.singleton Brace.opening)))
    | leaf other rest' =>
      have line := (List.cons.inj equal).1.symm.trans (String.append_assoc ..)
      have words := word_and_behind_eq other.blank_notMem_word.1 op.blank_notMem_word.1 line
      exact absurd words.1 (other.word_ne op)
    | region other inside rest' =>
      simp only [lines, List.cons_append, List.append_assoc, List.cons.injEq] at equal
      obtain ⟨line, equal⟩ := equal
      -- The brace that opens the body belongs to what follows the word.
      have line := (String.append_assoc ..).symm.trans (line.trans (String.append_assoc ..))
      obtain ⟨words, operands⟩ :=
        word_and_behind_eq op.blank_notMem_word.1 other.blank_notMem_word.1 line
      have ops := Region.alike_of_operand_eq legible.1 otherLegible.1 words
        ((String.append_left_inj _).mp operands)
      -- The body is followed by the end of this region, and that by the rest.
      obtain ⟨bodies, equal⟩ := ihBody legible.2.1 otherLegible.2.1 (.closing ..) (.closing ..) equal
      obtain ⟨rests, same⟩ := ihRest legible.2.2 otherLegible.2.2 follows otherFollows
        (List.cons.inj equal).2
      exact ⟨.region ops bodies rests, same⟩

/-! ### Lines of a listing -/

private theorem newline_notMem_lines {program : Program} (legible : program.Legible)
    {indent : String}
    (oneLine : '\n' ∉ indent.toList) : ∀ line ∈ program.lines indent, '\n' ∉ line.toList := by
  induction program generalizing indent with
  | empty => simp [lines]
  | leaf op rest ih =>
    simp only [lines, List.forall_mem_cons]
    refine ⟨?_, ih legible.2 oneLine⟩
    simp [oneLine, op.blank_notMem_word.2, op.newline_notMem_operand legible.1]
  | region op body rest ihBody ihRest =>
    have deeper : '\n' ∉ (indent ++ "  ").toList := by simp [oneLine]
    simp only [lines, List.forall_mem_cons, List.forall_mem_append]
    refine ⟨?_, ihBody legible.2.1 deeper, ?_, ihRest legible.2.2 oneLine⟩
    · simp [oneLine, op.blank_notMem_word.2, op.newline_notMem_operand legible.1, Brace.opening]
    · simp [oneLine, Brace.closing]

private theorem eq_of_join_eq {lines others : List String}
    (free : ∀ line ∈ lines, '\n' ∉ line.toList)
    (othersFree : ∀ line ∈ others, '\n' ∉ line.toList)
    (equal : String.join (lines.map (· ++ "\n")) = String.join (others.map (· ++ "\n"))) :
    lines = others := by
  induction lines generalizing others with
  | nil =>
    cases others with
    | nil => rfl
    | cons other others =>
      -- The text of a line is not empty, as its line feed is in it.
      have chars := congrArg String.toList equal
      simp at chars
  | cons line lines ih =>
    cases others with
    | nil =>
      have chars := congrArg String.toList equal
      simp at chars
    | cons other others =>
      rw [List.forall_mem_cons] at free othersFree
      have chars := congrArg String.toList equal
      simp only [List.map_cons, String.join_cons, String.toList_append, List.append_assoc] at chars
      obtain ⟨first, rest⟩ := append_cons_inj_of_notMem free.1 othersFree.1 chars
      rw [String.toList_inj.mp first, ih free.2 othersFree.2 (String.toList_inj.mp rest)]

end Program

/-- Two programs that can be read from their listings have one listing if and only if they differ at
most in what their helpers and filters do. If they have neither, they render the same. -/
theorem listing_determines (first second : Program) (legible : first.Legible)
    (otherLegible : second.Legible) :
    (first.listing = second.listing ↔ first.Alike second) ∧
      (first.listing = second.listing → first.FunctionFree → second.FunctionFree →
        ∀ data access, first.render data access = second.render data access) := by
  have determines (equal : first.listing = second.listing) : first.Alike second := by
    have lines := Program.eq_of_join_eq
      (Program.newline_notMem_lines legible (by simp))
      (Program.newline_notMem_lines otherLegible (by simp)) equal
    rw [← List.append_nil (first.lines ""), ← List.append_nil (second.lines "")] at lines
    exact (Program.alike_of_lines_append_eq legible otherLegible (.nothing "") (.nothing "")
      lines).1
  refine ⟨⟨determines, fun alike => ?_⟩, fun equal free _ data access => ?_⟩
  · rw [Program.listing, Program.listing, alike.lines_eq]
  · rw [(determines equal).eq free]

/-- Two programs with different helpers of one name, and one program put together in two ways. -/
theorem listing_determines_calling :
    let calling (helper : Ambient → String) : Program :=
      .region (.each ".items") (.leaf (.text "it's\n\x7d") (.leaf (.call "now" helper) .empty)) .empty
    let first := calling fun _ => "1"
    let second := calling fun ambient => ambient.path
    let plain : Program := .region (.has ".a") (.leaf (.text "x\n\x7d") .empty) .empty
    let pushed := Program.single (.has ".a" ((Program.single (.text "x")).push (.text "\n\x7d")))
    (first.Legible ∧ second.Legible ∧ first.listing = second.listing ∧ first.Alike second) ∧
      plain.FunctionFree ∧ pushed.FunctionFree ∧ plain.listing = pushed.listing ∧
        ∀ data access, plain.render data access = pushed.render data access := by
  intro calling first second plain pushed
  have legible : first.Legible := by decide
  have otherLegible : second.Legible := by decide
  have listings : first.listing = second.listing := rfl
  have plainListings : plain.listing = pushed.listing := by decide +kernel
  have free : plain.FunctionFree := by decide
  have otherFree : pushed.FunctionFree := by decide
  have alike := (listing_determines first second legible otherLegible).1.mp listings
  have renders := (listing_determines plain pushed (by decide) (by decide)).2 plainListings
  exact ⟨⟨legible, otherLegible, listings, alike⟩, free, otherFree, plainListings,
    renders free otherFree⟩

end BraceTemplate
