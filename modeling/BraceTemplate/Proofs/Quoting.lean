import BraceTemplate.Proofs.Listings

/-!
# Reading quoted texts

## Main result

`quote_reads_back`: a quoted text stays on its line, and it is read back exactly if each backslash
in the text has an apostrophe behind it.

## Proof strategy

A backslash of the text is written as it is, so a reader takes the next character along with it.
Thus the text is gone through in the steps of the reader: a backslash together with the character
behind it, and any other character alone. Of all pairs, only that of a backslash and an apostrophe
is read as it was: the apostrophe is written with a backslash in front, and two backslashes are read
as one. No step adds to the text, so what one pair has lost does not come back later.
-/

namespace BraceTemplate.Escaped

/-! ### Reading -/

/-- How the reading of a quoted text ends. -/
inductive Ending where
  /-- At a quote, with the text that was read and what is behind the quote. -/
  | closed (text behind : List Char)
  /-- At a line feed, which must not stand in a quoted text. -/
  | lineFeed
  /-- At the end of what there is to read. -/
  | unclosed
  deriving DecidableEq

namespace Ending

/-- A character that is read in front of all others. -/
def prepend (c : Char) : Ending → Ending
  | .closed text behind => .closed (c :: text) behind
  | .lineFeed => .lineFeed
  | .unclosed => .unclosed

/-- The text that was read, if it is complete. -/
def text : Ending → List Char
  | .closed text _ => text
  | .lineFeed | .unclosed => []

private theorem prepend_eq_closed_cons_iff {e : Ending} {c d : Char} {text behind : List Char} :
    e.prepend c = .closed (d :: text) behind ↔ c = d ∧ e = .closed text behind := by
  cases e <;> simp [prepend, and_assoc]

private theorem prepend_ne_lineFeed {e : Ending} (other : e ≠ .lineFeed) (c : Char) :
    e.prepend c ≠ .lineFeed := by
  cases e with
  | lineFeed => exact absurd rfl other
  | closed text behind | unclosed => exact Ending.noConfusion

private theorem length_text_prepend_le (e : Ending) (c : Char) :
    (e.prepend c).text.length ≤ e.text.length + 1 := by
  cases e <;> simp [prepend, text]

end Ending

/-- The character that a backslash and a character stand for. -/
def meant (c : Char) : Char :=
  if c = 'n' then '\n' else c

/-- Reads a quoted text, behind the quote that opens it. -/
def readQuoted : List Char → Ending
  | [] => .unclosed
  | '"' :: cs => .closed [] cs
  | '\n' :: _ => .lineFeed
  | ['\\'] => .unclosed
  | '\\' :: '\n' :: _ => .lineFeed
  | '\\' :: c :: cs => (readQuoted cs).prepend (meant c)
  | c :: cs => (readQuoted cs).prepend c

/-- Reads a text that should begin with a quoted one. -/
def readLiteral (s : String) : Option Ending :=
  match s.toList with
  | '"' :: cs => some (readQuoted cs)
  | _ => none

private theorem readLiteral_quote_append (s behind : String) :
    readLiteral (quote s ++ behind) =
      some (readQuoted (chars s.toList ++ '"' :: behind.toList)) := by
  have split : (quote s ++ behind).toList = '"' :: (chars s.toList ++ '"' :: behind.toList) := by
    simp [quote, escape]
  rw [readLiteral, split]
  rfl

theorem readLiteral_quote (s : String) :
    readLiteral (quote s) = some (readQuoted (chars s.toList ++ ['"'])) := by
  have alone := readLiteral_quote_append s ""
  rwa [String.append_empty] at alone

theorem readQuoted_ne_lineFeed {cs : List Char} (free : '\n' ∉ cs) : readQuoted cs ≠ .lineFeed := by
  -- Only a line feed ends the reading so, where it stands alone or behind a backslash.
  fun_induction readQuoted cs with
  | case1 | case2 | case4 => exact Ending.noConfusion
  | case3 | case5 => simp at free
  | case6 c cs _ ih =>
    have behind : '\n' ∉ cs := fun isIn => free (.tail _ (.tail _ isIn))
    exact Ending.prepend_ne_lineFeed (ih behind) (meant c)
  | case7 c cs _ _ _ _ _ ih =>
    exact Ending.prepend_ne_lineFeed (ih (List.not_mem_of_not_mem_cons free)) c

/-! ### Reading what is written -/

private theorem chars_cons_append (c : Char) (cs behind : List Char) :
    chars (c :: cs) ++ behind = char c ++ (chars cs ++ behind) := by
  rw [chars, List.flatMap_cons, List.append_assoc]
  rfl

private theorem chars_backslash_append (c : Char) (cs behind : List Char) :
    chars ('\\' :: c :: cs) ++ behind = '\\' :: (char c ++ (chars cs ++ behind)) := by
  rw [chars_cons_append, chars_cons_append]
  rfl

/-- A character that is no backslash is read back, however it is written. -/
private theorem readQuoted_char {c : Char} (plain : c ≠ '\\') (cs : List Char) :
    readQuoted (char c ++ cs) = (readQuoted cs).prepend c := by
  unfold char
  split
  · rfl
  · rfl
  · rfl
  · simp [readQuoted, *]

/-- A backslash takes along the next character as it is written. Only an apostrophe is read as it
was. -/
private theorem readQuoted_backslash_cases (c : Char) (cs : List Char) :
    (c = '"' ∧ readQuoted ('\\' :: (char c ++ cs)) = .closed ['\\'] cs) ∨
    (c = '\'' ∧
      readQuoted ('\\' :: (char c ++ cs)) = ((readQuoted cs).prepend '\'').prepend '\\') ∨
    (c = '\n' ∧
      readQuoted ('\\' :: (char c ++ cs)) = ((readQuoted cs).prepend 'n').prepend '\\') ∨
    readQuoted ('\\' :: (char c ++ cs)) = (readQuoted cs).prepend (meant c) := by
  unfold char
  split
  · exact .inl ⟨rfl, rfl⟩
  · exact .inr (.inl ⟨rfl, rfl⟩)
  · exact .inr (.inr (.inl ⟨rfl, rfl⟩))
  · exact .inr (.inr (.inr (by simp [readQuoted, *])))

/-- Induction in the steps of a reader: a backslash goes together with the character behind it. -/
@[elab_as_elim]
private theorem steps_induction {motive : List Char → Prop} (nil : motive [])
    (plain : ∀ c cs, c ≠ '\\' → motive cs → motive (c :: cs)) (lone : motive ['\\'])
    (pair : ∀ c cs, motive cs → motive ('\\' :: c :: cs)) : ∀ cs, motive cs
  | [] => nil
  | c :: cs => by
    by_cases backslash : c = '\\'
    · subst backslash
      cases cs with
      | nil => exact lone
      | cons d ds => exact pair d ds (steps_induction nil plain lone pair ds)
    · exact plain c cs backslash (steps_induction nil plain lone pair cs)

/-- Each backslash has an apostrophe directly behind it. -/
def Guarded : List Char → Prop
  | [] => True
  | c :: cs => (c = '\\' → cs.head? = some '\'') ∧ Guarded cs

instance Guarded.decidable : DecidablePred Guarded
  | [] => .isTrue trivial
  | c :: cs =>
    have := Guarded.decidable cs
    inferInstanceAs (Decidable ((c = '\\' → cs.head? = some '\'') ∧ Guarded cs))

theorem readQuoted_of_guarded {cs : List Char} (guarded : Guarded cs) (behind : List Char) :
    readQuoted (chars cs ++ '"' :: behind) = .closed cs behind := by
  induction cs using steps_induction with
  | nil => rfl
  | plain c cs own ih =>
    rw [chars_cons_append, readQuoted_char own, ih guarded.2]
    rfl
  | lone => exact absurd (guarded.1 rfl) (by simp)
  | pair c cs ih =>
    -- The apostrophe has a backslash of its own, and this is what the one of the text takes along.
    obtain rfl : c = '\'' := Option.some.inj (guarded.1 rfl)
    rw [chars_backslash_append]
    change ((readQuoted (chars cs ++ '"' :: behind)).prepend '\'').prepend '\\' = _
    rw [ih guarded.2.2]
    rfl

/-- What is read has at most as many characters as the text. -/
theorem length_text_readQuoted_le (cs : List Char) :
    (readQuoted (chars cs ++ ['"'])).text.length ≤ cs.length := by
  induction cs using steps_induction with
  | nil => exact Nat.le_refl 0
  | plain c cs own ih =>
    rw [chars_cons_append, readQuoted_char own]
    exact Nat.le_trans (Ending.length_text_prepend_le _ c) (Nat.succ_le_succ ih)
  | lone => exact Nat.zero_le 1
  | pair c cs ih =>
    have one (d : Char) := Ending.length_text_prepend_le (readQuoted (chars cs ++ ['"'])) d
    have two (d : Char) :=
      Ending.length_text_prepend_le ((readQuoted (chars cs ++ ['"'])).prepend d) '\\'
    rw [chars_backslash_append, List.length_cons, List.length_cons]
    rcases readQuoted_backslash_cases c (chars cs ++ ['"']) with
      ⟨-, read⟩ | ⟨-, read⟩ | ⟨-, read⟩ | read
    -- In each case the pair gives at most two characters.
    all_goals rw [read]
    · exact Nat.le_add_left 1 _
    · have := one '\''
      have := two '\''
      omega
    · have := one 'n'
      have := two 'n'
      omega
    · have := one (meant c)
      omega

theorem guarded_of_readQuoted {cs : List Char}
    (readBack : readQuoted (chars cs ++ ['"']) = .closed cs []) : Guarded cs := by
  induction cs using steps_induction with
  | nil => trivial
  | plain c cs own ih =>
    rw [chars_cons_append, readQuoted_char own] at readBack
    obtain ⟨-, behind⟩ := Ending.prepend_eq_closed_cons_iff.mp readBack
    exact ⟨fun backslash => absurd backslash own, ih behind⟩
  | lone => cases readBack
  | pair c cs ih =>
    rw [chars_backslash_append] at readBack
    rcases readQuoted_backslash_cases c (chars cs ++ ['"']) with
      ⟨-, read⟩ | ⟨rfl, read⟩ | ⟨rfl, read⟩ | read
    all_goals rw [read] at readBack
    · -- The quote ends the reading before the text is over.
      simp at readBack
    · obtain ⟨-, inner⟩ := Ending.prepend_eq_closed_cons_iff.mp readBack
      obtain ⟨-, behind⟩ := Ending.prepend_eq_closed_cons_iff.mp inner
      exact ⟨fun _ => rfl, fun backslash => absurd backslash (by decide), ih behind⟩
    · -- The line feed is written with an `n`, which is read as it is.
      obtain ⟨-, inner⟩ := Ending.prepend_eq_closed_cons_iff.mp readBack
      obtain ⟨same, -⟩ := Ending.prepend_eq_closed_cons_iff.mp inner
      exact absurd same (by decide)
    · -- The two characters are read as one, and the rest does not make up for it.
      obtain ⟨-, behind⟩ := Ending.prepend_eq_closed_cons_iff.mp readBack
      have shorter := length_text_readQuoted_le cs
      rw [behind] at shorter
      exact absurd shorter (Nat.not_succ_le_self cs.length)

/-- No line feed is met while a quoted text is read. The text is read back, up to its last quote,
exactly if each backslash in it has an apostrophe directly behind it; then it is read back whatever
stands behind, and no other such text has the same written form. -/
theorem quote_reads_back (s : String) :
    readLiteral (quote s) ≠ some .lineFeed ∧
    (readLiteral (quote s) = some (.closed s.toList []) ↔ Guarded s.toList) ∧
    (Guarded s.toList →
      (∀ behind, readLiteral (quote s ++ behind) = some (.closed s.toList behind.toList)) ∧
      ∀ other : String, Guarded other.toList → escape s = escape other → s = other) := by
  refine ⟨?_, ⟨?_, ?_⟩, fun guarded => ⟨fun behind => ?_, ?_⟩⟩
  · rw [readLiteral_quote, ne_eq, Option.some.injEq]
    apply readQuoted_ne_lineFeed
    simp [newline_notMem_chars]
  · intro readBack
    rw [readLiteral_quote, Option.some.injEq] at readBack
    exact guarded_of_readQuoted readBack
  · intro guarded
    rw [readLiteral_quote, readQuoted_of_guarded guarded]
  · rw [readLiteral_quote_append, readQuoted_of_guarded guarded]
  · intro other otherGuarded same
    have written : chars s.toList = chars other.toList := String.ofList_injective same
    have read := readQuoted_of_guarded guarded []
    rw [written, readQuoted_of_guarded otherGuarded] at read
    injection read with texts
    exact (String.toList_inj.mp texts).symm

theorem quote_reads_back_apostrophe :
    Guarded "say \"hi\"\nit\\'s".toList ∧ Guarded "".toList ∧
      readLiteral (quote "say \"hi\"\nit\\'s" ++ "\"") =
        some (.closed "say \"hi\"\nit\\'s".toList "\"".toList) ∧
      (escape "say \"hi\"\nit\\'s" = escape "" → "say \"hi\"\nit\\'s" = "") := by
  have guarded : Guarded "say \"hi\"\nit\\'s".toList := by decide
  have empty : Guarded "".toList := by decide
  obtain ⟨-, -, safe⟩ := quote_reads_back "say \"hi\"\nit\\'s"
  obtain ⟨reads, toldApart⟩ := safe guarded
  exact ⟨guarded, empty, reads "\"", toldApart "" empty⟩

/-- A backslash at the end takes the last quote along, one in front of a quote ends the text too
early, and one in front of an `n` is read as a line feed, which is written in the same way. -/
theorem quote_loses_backslash :
    readLiteral (quote "\\") = some .unclosed ∧
      readLiteral (quote "\\\"") = some (.closed ['\\'] ['"']) ∧
      readLiteral (quote "\\n") = some (.closed ['\n'] []) ∧
      escape "\\n" = escape "\n" := by
  decide

end BraceTemplate.Escaped
