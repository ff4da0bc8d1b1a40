import BraceTemplate.Text.Characters

/-!
# The first token of a text

A token is a run of characters free of white space. Claiming it takes the white space on both of
its sides along, so that what is left starts with the next token.
-/

namespace BraceTemplate.Token

/-- The text from its first character that is not white space. -/
def skipBlank (cs : List Char) : List Char :=
  cs.dropWhile isBlank

/-- The first token of a text; empty if there is none. -/
def first (cs : List Char) : List Char :=
  (skipBlank cs).takeWhile (!isBlank ·)

/-- What follows the first token and the white space behind it. -/
def afterFirst (cs : List Char) : List Char :=
  skipBlank ((skipBlank cs).dropWhile (!isBlank ·))

/-- The first token and what follows it make up the text without the white space in front. -/
theorem first_append (cs : List Char) :
    first cs ++ (skipBlank cs).dropWhile (!isBlank ·) = skipBlank cs :=
  List.takeWhile_append_dropWhile

/-- A token is free of white space. -/
theorem not_isBlank_of_mem_first {cs : List Char} {c : Char} (h : c ∈ first cs) :
    isBlank c = false := by
  have all := List.all_takeWhile (l := skipBlank cs) (p := (!isBlank ·))
  simpa using List.all_eq_true.mp all c h

/-- What is left after white space is skipped does not start with any. -/
theorem not_isBlank_of_head?_skipBlank {cs : List Char} {c : Char}
    (h : (skipBlank cs).head? = some c) : isBlank c = false := by
  have stopped := List.head?_dropWhile_not isBlank cs
  rw [← skipBlank, h] at stopped
  simpa using stopped

/-- Takes the first token and the white space around it off a text: the token and the rest. -/
def claim (s : String) : String × String :=
  (String.ofList (first s.toList), String.ofList (afterFirst s.toList))

/-! ### A text that is known by its parts -/

/-- There is nothing but white space in the text. -/
def IsBlank (text : String) : Prop :=
  ∀ c ∈ text.toList, isBlank c = true

/-- There is no white space in the text. -/
def IsSolid (text : String) : Prop :=
  ∀ c ∈ text.toList, isBlank c = false

instance (text : String) : Decidable (IsBlank text) :=
  List.decidableBAll _ text.toList

instance (text : String) : Decidable (IsSolid text) :=
  List.decidableBAll _ text.toList

theorem IsBlank.append {text more : String} (blank : IsBlank text) (alsoBlank : IsBlank more) :
    IsBlank (text ++ more) := by
  rw [IsBlank, String.toList_append]
  exact List.forall_mem_append.mpr ⟨blank, alsoBlank⟩

theorem skipBlank_append {gap : List Char} (blank : ∀ c ∈ gap, isBlank c = true)
    (rest : List Char) : skipBlank (gap ++ rest) = skipBlank rest :=
  List.dropWhile_append_of_pos blank

theorem skipBlank_eq_self {cs : List Char} (start : ∀ c, cs.head? = some c → isBlank c = false) :
    skipBlank cs = cs := by
  cases cs with
  | nil => rfl
  | cons c cs => simp [skipBlank, start c rfl]

theorem not_isBlank_of_head?_append {token rest : List Char} (someToken : token ≠ [])
    (solid : ∀ c ∈ token, isBlank c = false) :
    ∀ c, (token ++ rest).head? = some c → isBlank c = false := by
  intro c head
  obtain ⟨t, more, rfl⟩ := List.exists_cons_of_ne_nil someToken
  obtain rfl : t = c := by simpa using head
  exact solid t List.mem_cons_self

/-- A token that white space or the end of the text follows is the first one, and the white space on
both of its sides goes with it. -/
theorem first_afterFirst_of_stop {lead token behind : List Char}
    (blank : ∀ c ∈ lead, isBlank c = true) (someToken : token ≠ [])
    (solid : ∀ c ∈ token, isBlank c = false)
    (stop : ∀ c, behind.head? = some c → isBlank c = true) :
    first (lead ++ (token ++ behind)) = token ∧
      afterFirst (lead ++ (token ++ behind)) = skipBlank behind := by
  have skipped : skipBlank (lead ++ (token ++ behind)) = token ++ behind := by
    rw [skipBlank_append blank, skipBlank_eq_self (not_isBlank_of_head?_append someToken solid)]
  have inside : ∀ c ∈ token, (!isBlank c) = true := by
    intro c member
    rw [solid c member]
    rfl
  cases behind with
  | nil =>
    constructor
    · rw [first, skipped, List.takeWhile_append_of_pos inside, List.takeWhile_nil, List.append_nil]
    · rw [afterFirst, skipped, List.dropWhile_append_of_pos inside, List.dropWhile_nil]
  | cons c behind =>
    have ends : isBlank c = true := stop c rfl
    constructor
    · rw [first, skipped, List.takeWhile_append_of_pos inside]
      simp [ends]
    · rw [afterFirst, skipped, List.dropWhile_append_of_pos inside]
      simp [ends]

/-- A token with white space behind it is claimed together with that white space. -/
theorem first_afterFirst_append {token gap rest : List Char} (someToken : token ≠ [])
    (solid : ∀ c ∈ token, isBlank c = false) (someGap : gap ≠ [])
    (blank : ∀ c ∈ gap, isBlank c = true)
    (start : ∀ c, rest.head? = some c → isBlank c = false) :
    first (token ++ (gap ++ rest)) = token ∧ afterFirst (token ++ (gap ++ rest)) = rest := by
  have stop : ∀ c, (gap ++ rest).head? = some c → isBlank c = true := by
    intro c head
    obtain ⟨g, more, rfl⟩ := List.exists_cons_of_ne_nil someGap
    obtain rfl : g = c := by simpa using head
    exact blank g List.mem_cons_self
  obtain ⟨isFirst, isAfter⟩ := first_afterFirst_of_stop (List.forall_mem_nil _) someToken solid stop
  rw [skipBlank_append blank, skipBlank_eq_self start] at isAfter
  exact ⟨isFirst, isAfter⟩

theorem claim_append {token gap rest : String} (someToken : token ≠ "") (solid : IsSolid token)
    (someGap : gap ≠ "") (blank : IsBlank gap)
    (start : ∀ c, rest.toList.head? = some c → isBlank c = false) :
    claim (token ++ (gap ++ rest)) = (token, rest) := by
  obtain ⟨isFirst, isAfter⟩ := first_afterFirst_append (mt String.toList_eq_nil_iff.mp someToken)
    solid (mt String.toList_eq_nil_iff.mp someGap) blank start
  rw [claim, String.toList_append, String.toList_append, isFirst, isAfter, String.ofList_toList,
    String.ofList_toList]

end BraceTemplate.Token
