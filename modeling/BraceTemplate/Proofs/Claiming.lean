import Mathlib.Data.List.Chain
import BraceTemplate.Macro.Stock
import BraceTemplate.Proofs.Consumption

/-!
# Claiming tokens one after another

A text is a row of words: tokens free of white space, each with the white space behind it, and
white space in front of the first. Claiming takes the words off one by one, and then gives empty
tokens.

## Main result

`claimTokens_row`: the head of every node is such a row, and however many tokens are claimed, they
are those of the row in their order, with empty ones behind them, and the head is left with the rest
of the row as it is written. Each claim takes a token with the white space around it and no more.

## Proof strategy

A row knows that white space ends each of its tokens, so one claim takes one word
(`Row.claim_text`) and what is left is a row again.
-/

namespace BraceTemplate

namespace Token

/-- The rest of a text is a part of it. -/
theorem Splits.utf8ByteSize_le {text token rest : String} (splits : Splits text token rest) :
    rest.utf8ByteSize ≤ text.utf8ByteSize := by
  obtain ⟨lead, gap, split, -⟩ := splits
  have whole : text = String.ofList lead ++ (token ++ (String.ofList gap ++ rest)) := by
    rw [← String.toList_inj, split]
    simp
  rw [whole, String.utf8ByteSize_append, String.utf8ByteSize_append, String.utf8ByteSize_append]
  omega

/-! ### Rows of words -/

/-- A token and the white space behind it. -/
@[ext]
structure Word where
  token : String
  gap : String
  nonempty : token ≠ ""
  solid : IsSolid token
  blank : IsBlank gap

def Word.text (word : Word) : String :=
  word.token ++ word.gap

/-- White space, and words behind it. There is white space between two words. -/
@[ext]
structure Row where
  lead : String
  words : List Word
  blank : IsBlank lead
  apart : words.IsChain fun word _ => word.gap ≠ ""

namespace Row

def text (row : Row) : String :=
  row.lead ++ String.join (row.words.map Word.text)

def tokens (row : Row) : List String :=
  row.words.map Word.token

/-- The row from one of its words on, without the white space in front of that word. -/
def drop (row : Row) (count : Nat) : Row where
  lead := ""
  words := row.words.drop count
  blank := by decide
  apart := row.apart.drop count

private theorem words_drop (row : Row) (count : Nat) :
    (row.drop count).words = row.words.drop count := rfl

private theorem drop_drop (row : Row) (count more : Nat) :
    (row.drop count).drop more = row.drop (count + more) := by
  simp only [drop, List.drop_drop]

private theorem tokens_drop (row : Row) (count : Nat) :
    (row.drop count).tokens = row.tokens.drop count :=
  List.map_drop

/-! ### One claim -/

private theorem text_eq_of_words_eq_nil {row : Row} (noWords : row.words = []) :
    row.text = row.lead := by
  rw [text, noWords, List.map_nil, String.join_nil, String.append_empty]

private theorem text_eq_of_words_eq_cons {row : Row} {word : Word} {words : List Word}
    (split : row.words = word :: words) :
    row.text = row.lead ++ (word.token ++ (word.gap ++ (row.drop 1).text)) := by
  have rest : (row.drop 1).text = String.join (words.map Word.text) := by
    rw [text, words_drop, split]
    exact String.empty_append
  rw [rest, text, split, List.map_cons, String.join_cons, Word.text, String.append_assoc]

/-- Without white space in front, a row begins with a token if it has any text. -/
private theorem not_isBlank_of_head?_drop (row : Row) (count : Nat) :
    ∀ c, (row.drop count).text.toList.head? = some c → isBlank c = false := by
  intro c head
  cases split : (row.drop count).words with
  | nil =>
    rw [text_eq_of_words_eq_nil split] at head
    cases head
  | cons word words =>
    have noLead : (row.drop count).lead = "" := rfl
    rw [text_eq_of_words_eq_cons split, noLead, String.empty_append, String.toList_append] at head
    have someToken : word.token.toList ≠ [] := mt String.toList_eq_nil_iff.mp word.nonempty
    exact not_isBlank_of_head?_append someToken word.solid c head

/-- White space or the end of the text ends a token. -/
private theorem isBlank_of_head?_gap_append {row : Row} {word : Word} {words : List Word}
    (split : row.words = word :: words) :
    ∀ c, (word.gap ++ (row.drop 1).text).toList.head? = some c → isBlank c = true := by
  intro c head
  cases gap : word.gap.toList with
  | cons g more =>
    rw [String.toList_append, gap] at head
    obtain rfl : g = c := Option.some.inj head
    refine word.blank g ?_
    rw [gap]
    exact List.mem_cons_self
  | nil =>
    -- There is no word behind this one.
    have last : words = [] := by
      have apart := row.apart
      rw [split, List.isChain_cons] at apart
      cases words with
      | nil => rfl
      | cons next more => exact absurd (String.toList_eq_nil_iff.mp gap) (apart.1 next rfl)
    have noWords : (row.drop 1).words = [] := by
      rw [words_drop, split, last]
      rfl
    rw [String.toList_append, gap, text_eq_of_words_eq_nil noWords] at head
    cases head

/-- A claim takes the first word of a row off, and the white space in front of it. -/
private theorem claim_text (row : Row) :
    claim row.text = (row.tokens.headD "", (row.drop 1).text) := by
  cases split : row.words with
  | nil =>
    have noWords : (row.drop 1).words = [] := by
      rw [words_drop, split]
      rfl
    have skipped : skipBlank row.lead.toList = [] := by
      have alone := skipBlank_append row.blank []
      rwa [List.append_nil] at alone
    rw [text_eq_of_words_eq_nil split, text_eq_of_words_eq_nil noWords, tokens, split, claim, first,
      afterFirst, skipped]
    rfl
  | cons word words =>
    obtain ⟨isFirst, isAfter⟩ := first_afterFirst_of_stop row.blank
      (mt String.toList_eq_nil_iff.mp word.nonempty) word.solid (isBlank_of_head?_gap_append split)
    have behind : skipBlank (word.gap ++ (row.drop 1).text).toList = (row.drop 1).text.toList := by
      rw [String.toList_append, skipBlank_append word.blank,
        skipBlank_eq_self (not_isBlank_of_head?_drop row 1)]
    rw [text_eq_of_words_eq_cons split, claim, String.toList_append, String.toList_append, isFirst,
      isAfter, behind, String.ofList_toList, String.ofList_toList, tokens, split]
    rfl

/-! ### Every text is a row -/

private theorem words_eq_nil_of_text_eq_empty {row : Row} (empty : row.text = "") :
    row.words = [] := by
  cases split : row.words with
  | nil => rfl
  | cons word words =>
    rw [text_eq_of_words_eq_cons split] at empty
    have noToken := String.append_eq_empty_iff.mp (String.append_eq_empty_iff.mp empty).2
    exact absurd noToken.1 word.nonempty

/-- A word can be put in front of a row. The white space that the row began with becomes part of the
word. -/
private theorem exists_cons {lead : String} (blank : IsBlank lead) (word : Word) (row : Row)
    (apart : word.gap = "" → row.text = "") :
    ∃ longer : Row, longer.text = lead ++ (word.text ++ row.text) := by
  let first : Word :=
    { word with gap := word.gap ++ row.lead, blank := word.blank.append row.blank }
  have spaced : (first :: row.words).IsChain fun word _ => word.gap ≠ "" := by
    refine List.isChain_cons.mpr ⟨fun next isNext noGap => ?_, row.apart⟩
    rw [words_eq_nil_of_text_eq_empty (apart (String.append_eq_empty_iff.mp noGap).1)] at isNext
    cases isNext
  refine ⟨⟨lead, first :: row.words, blank, spaced⟩, ?_⟩
  rw [text, text, List.map_cons, String.join_cons]
  simp only [Word.text, first, String.append_assoc]

theorem exists_text_eq (text : String) : ∃ row : Row, row.text = text := by
  induction size : text.length using Nat.strongRecOn generalizing text with
  | ind n ih =>
    obtain ⟨lead, gap, split, leadBlank, solid, gapBlank, -, noToken, noGap⟩ := splits_claim text
    by_cases empty : (claim text).1 = ""
    · -- Without a token, the text is white space.
      rw [empty, noToken empty] at split
      have blank : IsBlank text := by
        rw [IsBlank, split]
        simpa using List.forall_mem_append.mpr ⟨leadBlank, gapBlank⟩
      exact ⟨⟨text, [], blank, .nil⟩, String.append_empty⟩
    · have blank : IsBlank (String.ofList lead) := by simpa [IsBlank] using leadBlank
      have alsoBlank : IsBlank (String.ofList gap) := by simpa [IsBlank] using gapBlank
      let word : Word := ⟨(claim text).1, String.ofList gap, empty, solid, alsoBlank⟩
      have shorter : (claim text).2.length < n := by
        have lengths := congrArg List.length split
        have someToken := List.length_pos_iff.mpr (mt String.toList_eq_nil_iff.mp empty)
        simp only [List.length_append, String.length_toList] at lengths someToken
        omega
      obtain ⟨row, rest⟩ := ih _ shorter _ rfl
      have apart : word.gap = "" → row.text = "" := by
        intro none
        rw [rest]
        exact noGap (String.ofList_eq_empty_iff.mp none)
      obtain ⟨longer, whole⟩ := exists_cons blank word row apart
      refine ⟨longer, ?_⟩
      rw [whole, ← String.toList_inj, split]
      simp [rest, word, Word.text]

/-! ### There is no other row -/

private theorem lead_eq_takeWhile (row : Row) :
    row.lead.toList = row.text.toList.takeWhile isBlank := by
  have split : row.text = row.lead ++ (row.drop 0).text := by
    rw [text, text]
    exact congrArg (row.lead ++ ·) String.empty_append.symm
  have stop : (row.drop 0).text.toList.takeWhile isBlank = [] := by
    cases behind : (row.drop 0).text.toList with
    | nil => rfl
    | cons c cs =>
      have solid : isBlank c = false := not_isBlank_of_head?_drop row 0 c (by rw [behind]; rfl)
      rw [List.takeWhile_cons, solid]
      rfl
  rw [split, String.toList_append, List.takeWhile_append_of_pos row.blank, stop, List.append_nil]

private theorem lead_eq_of_text_eq {row other : Row} (same : row.text = other.text) :
    row.lead = other.lead := by
  rw [← String.toList_inj, lead_eq_takeWhile, lead_eq_takeWhile, same]

private theorem claimed_eq_of_text_eq {row other : Row} (same : row.text = other.text) :
    row.tokens.headD "" = other.tokens.headD "" ∧ (row.drop 1).text = (other.drop 1).text := by
  refine Prod.mk.inj ?_
  rw [← claim_text, ← claim_text, same]

private theorem words_eq_of_text_eq {row other : Row} (same : row.text = other.text) :
    row.words = other.words := by
  induction isWords : row.words generalizing row other with
  | nil =>
    obtain ⟨token, -⟩ := claimed_eq_of_text_eq same
    cases split : other.words with
    | nil => rfl
    | cons word words =>
      rw [tokens, tokens, isWords, split] at token
      exact absurd token.symm word.nonempty
  | cons word words ih =>
    obtain ⟨token, rest⟩ := claimed_eq_of_text_eq same
    cases split : other.words with
    | nil =>
      rw [tokens, tokens, isWords, split] at token
      exact absurd token word.nonempty
    | cons otherWord others =>
      rw [tokens, tokens, isWords, split] at token
      have sameToken : word.token = otherWord.token := token
      have tails : words = (other.drop 1).words := ih rest (by rw [words_drop, isWords]; rfl)
      -- With the same lead, token and rest, there is only the gap left to differ.
      have gap := same
      rw [text_eq_of_words_eq_cons isWords, text_eq_of_words_eq_cons split, lead_eq_of_text_eq same,
        String.append_right_inj, sameToken, String.append_right_inj, rest,
        String.append_left_inj] at gap
      rw [tails, words_drop, split, Word.ext sameToken gap]
      rfl

theorem text_injective {row other : Row} (same : row.text = other.text) : row = other :=
  Row.ext (lead_eq_of_text_eq same) (words_eq_of_text_eq same)

end Row

end Token

/-! ### Many claims -/

namespace Macro

private theorem claimTokens_cons (n : Nat) (node : Node) :
    claimTokens (n + 1) node =
      (node.claimToken.1 :: (claimTokens n node.claimToken.2).1,
        (claimTokens n node.claimToken.2).2) := rfl

/-- One more claim takes the next token off what the others have left. -/
private theorem claimTokens_succ (n : Nat) (node : Node) :
    claimTokens (n + 1) node =
      ((claimTokens n node).1 ++ [(claimTokens n node).2.claimToken.1],
        (claimTokens n node).2.claimToken.2) := by
  induction n generalizing node with
  | zero => rfl
  | succ n ih =>
    rw [claimTokens_cons, ih, claimTokens_cons n node]
    rfl

private theorem claimToken_of_text_eq {row : Token.Row} {node : Node}
    (isRow : row.text = node.head) :
    node.claimToken = (row.tokens.headD "", { node with head := (row.drop 1).text }) := by
  rw [Node.claimToken, ← isRow, Token.Row.claim_text]

private theorem claimTokens_of_text_eq {row : Token.Row} {node : Node}
    (isRow : row.text = node.head) (n : Nat) :
    claimTokens (n + 1) node =
      ((List.range (n + 1)).map (row.tokens.getD · ""),
        { node with head := (row.drop (n + 1)).text }) := by
  induction n with
  | zero =>
    rw [claimTokens_succ, claimTokens, claimToken_of_text_eq isRow]
    cases row.tokens <;> rfl
  | succ n ih =>
    have next : ({ node with head := (row.drop (n + 1)).text } : Node).claimToken =
        ((row.drop (n + 1)).tokens.headD "",
          { node with head := ((row.drop (n + 1)).drop 1).text }) := claimToken_of_text_eq rfl
    have token : (row.drop (n + 1)).tokens.headD "" = row.tokens.getD (n + 1) "" := by
      rw [Token.Row.tokens_drop, List.headD_eq_head?_getD, List.head?_drop,
        List.getD_eq_getElem?_getD]
    have range : List.range (n + 1 + 1) = List.range (n + 1) ++ [n + 1] := List.range_succ
    rw [claimTokens_succ, ih, next, token, Token.Row.drop_drop, range, List.map_append]
    rfl

/-- The head of a node is one row of words. Claims give the tokens of the row and then empty ones,
and leave the rest of the row. Each takes a token off the head with the white space around it. -/
theorem claimTokens_row (node : Node) :
    (∃! row : Token.Row, row.text = node.head) ∧
    (∀ row : Token.Row, row.text = node.head → ∀ n,
      claimTokens (n + 1) node =
        ((List.range (n + 1)).map (row.tokens.getD · ""),
          { node with head := (row.drop (n + 1)).text })) ∧
    ∀ n, ∃ token left,
      claimTokens (n + 1) node = ((claimTokens n node).1 ++ [token], left) ∧
      Token.Splits (claimTokens n node).2.head token left.head ∧
      left.head.utf8ByteSize ≤ (claimTokens n node).2.head.utf8ByteSize := by
  refine ⟨?_, fun row isRow n => claimTokens_of_text_eq isRow n, ?_⟩
  · obtain ⟨row, isRow⟩ := Token.Row.exists_text_eq node.head
    exact ⟨row, isRow, fun other isOther => Token.Row.text_injective (isOther.trans isRow.symm)⟩
  · intro n
    have splits := Token.splits_claim (claimTokens n node).2.head
    exact ⟨_, _, claimTokens_succ n node, splits, splits.utf8ByteSize_le⟩

/-- Three tokens between white space of several kinds, and two claims too many. -/
theorem claimTokens_row_wide :
    ∃ (node : Node) (row : Token.Row), node.head = "\u3000 out\u00a0\t.x y\u2003" ∧
      row.text = node.head ∧ row.tokens = ["out", ".x", "y"] ∧
      claimTokens 2 node = (["out", ".x"], { node with head := "y\u2003" }) ∧
      claimTokens 5 node = (["out", ".x", "y", "", ""], { node with head := "" }) := by
  let node : Node := ⟨⟨1, 4⟩, "\u3000 out\u00a0\t.x y\u2003",
    .cons ⟨1, 9⟩ "x" .nil " " .nil⟩
  let row : Token.Row := {
    lead := "\u3000 "
    words := [
      ⟨"out", "\u00a0\t", by decide, by decide, by decide⟩,
      ⟨".x", " ", by decide, by decide, by decide⟩,
      ⟨"y", "\u2003", by decide, by decide, by decide⟩]
    blank := by decide
    apart := by decide }
  have isRow : row.text = node.head := by decide
  obtain ⟨-, claims, -⟩ := claimTokens_row node
  exact ⟨node, row, rfl, isRow, rfl, claims row isRow 1, claims row isRow 4⟩

end Macro

end BraceTemplate
