import Mathlib.Data.List.Infix
import BraceTemplate.Proofs.Spelling

/-!
# Normal paths

The path that a token is normalized to has a fixed form. Normalizing it again finds nothing to do,
unless a bracket group of the token held another opening bracket, which may begin a group in the
path.

## Main result

`normalize_settles`: a normalized path is empty, or it begins with a dot and does not end with one.
If no bracket group of a token holds another opening bracket, no group is left in its path, and the
path is normalized to itself.

## Proof strategy

A text is read group by group (`groups_induction`). What a group held is written behind a dot, so
opening brackets come into the path only from groups and from the end of the text, where nothing
closes them. A path is normalized to itself exactly if none of the three steps changes it.
-/

namespace BraceTemplate.Path

/-- Nothing, or a text that begins with a dot and does not end with one. -/
def IsTrimmed (path : String) : Prop :=
  path = "" ∨ path.toList.head? = some '.' ∧ path.toList.getLast? ≠ some '.'

instance (path : String) : Decidable (IsTrimmed path) :=
  inferInstanceAs (Decidable (_ ∨ _))

/-- No opening bracket is followed later by a closing one. -/
def Ungrouped (cs : List Char) : Prop :=
  cs.Pairwise fun c d => ¬(c = '[' ∧ d = ']')

instance (cs : List Char) : Decidable (Ungrouped cs) :=
  inferInstanceAs (Decidable (List.Pairwise _ _))

/-- No bracket group holds another opening bracket, where a group runs from an opening bracket to
the next closing one. -/
def FlatGroups (cs : List Char) : Prop :=
  ∀ held, ('[' :: (held ++ [']'])) <:+: cs → ']' ∉ held → '[' ∉ held

/-! ### Group by group -/

/-- A text begins with a character that opens no group, with a whole group, or with an opening
bracket that nothing closes. -/
private theorem groups_induction {motive : List Char → Prop} (nil : motive [])
    (plain : ∀ c rest, c ≠ '[' → motive rest → motive (c :: rest))
    (group : ∀ held rest, ']' ∉ held → motive rest → motive ('[' :: (held ++ ']' :: rest)))
    (unclosed : ∀ rest, ']' ∉ rest → motive ('[' :: rest)) (cs : List Char) : motive cs := by
  match cs with
  | [] => exact nil
  | c :: rest =>
    by_cases opening : c = '['
    · subst opening
      by_cases closed : ']' ∈ rest
      · obtain ⟨held, behind, split, free⟩ := List.eq_append_cons_of_mem closed
        have shorter : behind.length < rest.length := by
          rw [split, List.length_append, List.length_cons]
          omega
        rw [split]
        exact group held behind free (groups_induction nil plain group unclosed behind)
      · exact unclosed rest closed
    · exact plain c rest opening (groups_induction nil plain group unclosed rest)
termination_by cs.length
decreasing_by
  · exact Nat.lt_succ_of_lt shorter
  · exact Nat.lt_succ_self _

private theorem dotGroups_some_of_closeFree {cs : List Char} (free : ']' ∉ cs)
    (before : List Char) :
    dotGroups (some before) cs = '[' :: (before.reverse ++ cs) := by
  induction cs generalizing before with
  | nil => simp [dotGroups]
  | cons c cs ih =>
    rw [List.mem_cons, not_or] at free
    rw [dotGroups_some_of_ne (Ne.symm free.1), ih free.2]
    simp

/-- A bracket that nothing closes stays, and so does all behind it. -/
private theorem dotGroups_unclosed {cs : List Char} (free : ']' ∉ cs) :
    dotGroups none ('[' :: cs) = '[' :: cs :=
  dotGroups_some_of_closeFree free []

theorem length_dotGroups_le (cs : List Char) : (dotGroups none cs).length ≤ cs.length := by
  induction cs using groups_induction with
  | nil => exact Nat.le_refl _
  | plain c rest other ih =>
    rw [dotGroups_of_ne other]
    exact Nat.succ_le_succ ih
  | group held rest free ih =>
    rw [dotGroups_group free]
    simp only [List.length_cons, List.length_append]
    omega
  | unclosed rest free => rw [dotGroups_unclosed free]

/-! ### Texts without groups -/

private theorem ungrouped_cons {c : Char} (other : c ≠ '[') {cs : List Char} :
    Ungrouped (c :: cs) ↔ Ungrouped cs := by
  have opensNone : ∀ d ∈ cs, ¬(c = '[' ∧ d = ']') := fun _ _ brackets => other brackets.1
  rw [Ungrouped, List.pairwise_cons]
  exact and_iff_right opensNone

private theorem ungrouped_append {front : List Char} (free : '[' ∉ front) {cs : List Char} :
    Ungrouped (front ++ cs) ↔ Ungrouped cs := by
  induction front with
  | nil => exact Iff.rfl
  | cons c front ih =>
    rw [List.mem_cons, not_or] at free
    rw [List.cons_append, ungrouped_cons (Ne.symm free.1), ih free.2]

private theorem ungrouped_unclosed {cs : List Char} (free : ']' ∉ cs) : Ungrouped ('[' :: cs) := by
  have closeFree : ']' ∉ '[' :: cs := by simpa using free
  refine List.pairwise_of_forall_mem_list ?_
  rintro c - d member ⟨-, rfl⟩
  exact closeFree member

private theorem not_ungrouped_group (held rest : List Char) :
    ¬Ungrouped ('[' :: (held ++ ']' :: rest)) := by
  intro ungrouped
  have closes : ']' ∈ held ++ ']' :: rest := by simp
  exact (List.pairwise_cons.mp ungrouped).1 ']' closes ⟨rfl, rfl⟩

/-- A text stays as it is exactly if there is no group in it. -/
theorem dotGroups_eq_self_iff {cs : List Char} : dotGroups none cs = cs ↔ Ungrouped cs := by
  induction cs using groups_induction with
  | nil => exact iff_of_true rfl .nil
  | plain c rest other ih =>
    rw [dotGroups_of_ne other, List.cons_inj_right, ih]
    exact (ungrouped_cons other).symm
  | group held rest free =>
    -- A dot has taken the place of the opening bracket.
    have changed : dotGroups none ('[' :: (held ++ ']' :: rest)) ≠ '[' :: (held ++ ']' :: rest) := by
      rw [dotGroups_group free]
      intro same
      exact absurd (List.head_eq_of_cons_eq same) (by decide)
    exact iff_of_false changed (not_ungrouped_group held rest)
  | unclosed rest free => exact iff_of_true (dotGroups_unclosed free) (ungrouped_unclosed free)

private theorem FlatGroups.of_infix {cs part : List Char} (flat : FlatGroups cs)
    (within : part <:+: cs) :
    FlatGroups part :=
  fun held isGroup => flat held (isGroup.trans within)

/-- Unless a group brings an opening bracket along, no group is left or comes up. -/
private theorem ungrouped_dotGroups {cs : List Char} (flat : FlatGroups cs) :
    Ungrouped (dotGroups none cs) := by
  induction cs using groups_induction with
  | nil => exact .nil
  | plain c rest other ih =>
    rw [dotGroups_of_ne other]
    exact (ungrouped_cons other).mpr (ih (flat.of_infix (List.suffix_cons c rest).isInfix))
  | group held rest free ih =>
    have whole : '[' :: (held ++ ']' :: rest) = ('[' :: (held ++ [']'])) ++ rest := by simp
    rw [whole] at flat
    have heldFlat : '[' ∉ held := flat held (List.prefix_append _ rest).isInfix free
    have behind := ih (flat.of_infix (List.suffix_append _ rest).isInfix)
    rw [dotGroups_group free]
    exact (ungrouped_cons (by decide)).mpr ((ungrouped_append heldFlat).mpr behind)
  | unclosed rest free =>
    rw [dotGroups_unclosed free]
    exact ungrouped_unclosed free

/-! ### Groups of a given text -/

private theorem takeWhile_held {held : List Char} (free : ']' ∉ held) (rest : List Char) :
    (held ++ ']' :: rest).takeWhile (· ≠ ']') = held := by
  have goesOn : ∀ c ∈ held, decide (c ≠ ']') = true := by
    rintro c member
    exact decide_eq_true fun closing => free (closing ▸ member)
  rw [List.takeWhile_append_of_pos goesOn, List.takeWhile_cons_of_neg (by simp), List.append_nil]

/-- The groups of a text are found at the opening brackets that its tails begin with. -/
theorem flatGroups_iff {cs : List Char} :
    FlatGroups cs ↔ ∀ tail ∈ cs.tails, tail.head? = some '[' → ']' ∈ tail →
      '[' ∉ tail.tail.takeWhile (· ≠ ']') := by
  constructor
  · intro flat tail isTail opening closed
    obtain ⟨rest, rfl⟩ := List.head?_eq_some_iff.mp opening
    have closedBehind : ']' ∈ rest := by simpa using closed
    obtain ⟨held, behind, rfl, free⟩ := List.eq_append_cons_of_mem closedBehind
    have within : ('[' :: (held ++ [']'])) <:+: '[' :: (held ++ ']' :: behind) :=
      ⟨[], behind, by simp⟩
    rw [List.tail_cons, takeWhile_held free]
    exact flat held (within.trans ((List.mem_tails _ _).mp isTail).isInfix) free
  · intro flat held within free
    obtain ⟨tail, ⟨behind, split⟩, isTail⟩ := List.infix_iff_prefix_suffix.mp within
    have spelled : tail = '[' :: (held ++ ']' :: behind) := by simp [← split]
    have opening : tail.head? = some '[' := by rw [spelled, List.head?_cons]
    have closed : ']' ∈ tail := by simp [spelled]
    have heldFlat := flat tail ((List.mem_tails _ _).mpr isTail) opening closed
    rwa [spelled, List.tail_cons, takeWhile_held free] at heldFlat

instance (cs : List Char) : Decidable (FlatGroups cs) :=
  decidable_of_iff _ flatGroups_iff.symm

/-! ### Dots at the ends -/

private theorem head?_leadWithDot (cs : List Char) : (leadWithDot cs).head? = some '.' := by
  rw [leadWithDot]
  split
  · assumption
  · rfl

private theorem dropEndDots_isPrefix (cs : List Char) : dropEndDots cs <+: cs := by
  obtain ⟨count, split⟩ := exists_eq_dropEndDots_append cs
  exact ⟨_, split.symm⟩

private theorem getLast?_dropEndDots_ne (cs : List Char) :
    (dropEndDots cs).getLast? ≠ some '.' := by
  rw [dropEndDots, List.getLast?_reverse]
  intro dot
  have stops := List.head?_dropWhile_not (· = '.') cs.reverse
  rw [dot] at stops
  simp at stops

theorem isTrimmed_normalize (token : String) : IsTrimmed (normalize token) := by
  have ends := getLast?_dropEndDots_ne (leadWithDot (dotGroups none token.toList))
  have starts := head?_leadWithDot (dotGroups none token.toList)
  obtain ⟨dropped, split⟩ := dropEndDots_isPrefix (leadWithDot (dotGroups none token.toList))
  rw [normalize, IsTrimmed, String.toList_ofList]
  cases kept : dropEndDots (leadWithDot (dotGroups none token.toList)) with
  | nil => exact .inl rfl
  | cons c more =>
    rw [kept] at ends split
    rw [← split] at starts
    exact .inr ⟨starts, ends⟩

theorem ungrouped_normalize {token : String} (flat : FlatGroups token.toList) :
    Ungrouped (normalize token).toList := by
  have led : Ungrouped (leadWithDot (dotGroups none token.toList)) := by
    rw [leadWithDot]
    split
    · exact ungrouped_dotGroups flat
    · exact (ungrouped_cons (by decide)).mpr (ungrouped_dotGroups flat)
  rw [normalize, String.toList_ofList]
  exact led.sublist (dropEndDots_isPrefix _).sublist

/-! ### Paths that are normalized to themselves -/

private theorem normalize_of_isTrimmed {path : String} (trimmed : IsTrimmed path)
    (ungrouped : Ungrouped path.toList) : normalize path = path := by
  rcases trimmed with rfl | ⟨starts, ends⟩
  · rfl
  · have last : ∀ c ∈ path.toList.getLast?, c ≠ '.' := by
      rintro c isLast rfl
      exact ends isLast
    rw [normalize, dotGroups_eq_self_iff.mpr ungrouped, leadWithDot, if_pos starts,
      dropEndDots_eq_self last, String.ofList_toList]

private theorem ungrouped_of_normalize_eq {path : String} (same : normalize path = path) :
    Ungrouped path.toList := by
  rcases same ▸ isTrimmed_normalize path with rfl | ⟨starts, -⟩
  · exact .nil
  · obtain ⟨rest, spelled⟩ := List.head?_eq_some_iff.mp starts
    have led : leadWithDot (dotGroups none path.toList) = dotGroups none path.toList := by
      rw [spelled, dotGroups_of_ne (by decide)]
      rfl
    -- All of the path is left when the dots at the end are dropped, so none are dropped: there was
    -- no more than the path before, as taking brackets off makes no text longer.
    have whole := congrArg String.toList same
    rw [normalize, led, String.toList_ofList] at whole
    have kept := dropEndDots_isPrefix (dotGroups none path.toList)
    rw [whole] at kept
    exact dotGroups_eq_self_iff.mp (kept.eq_of_length_le (length_dotGroups_le _)).symm

theorem normalize_eq_self_iff {path : String} :
    normalize path = path ↔ IsTrimmed path ∧ Ungrouped path.toList :=
  ⟨fun same => ⟨same ▸ isTrimmed_normalize path, ungrouped_of_normalize_eq same⟩,
    fun h => normalize_of_isTrimmed h.1 h.2⟩

/-- A normalized path is empty, or it begins with a dot and does not end with one. If no bracket
group of the token holds another opening bracket, its path has no opening bracket with a closing one
behind it, and normalizing it again changes nothing. In general, a text is normalized to itself
exactly if it has both these forms. -/
theorem normalize_settles (token : String) :
    IsTrimmed (normalize token) ∧
    (FlatGroups token.toList →
      Ungrouped (normalize token).toList ∧ normalize (normalize token) = normalize token) ∧
    (normalize token = token ↔ IsTrimmed token ∧ Ungrouped token.toList) := by
  have trimmed := isTrimmed_normalize token
  refine ⟨trimmed, fun flat => ?_, normalize_eq_self_iff⟩
  have ungrouped := ungrouped_normalize flat
  exact ⟨ungrouped, normalize_of_isTrimmed trimmed ungrouped⟩

/-- A bracket group, and brackets in the wrong order behind it. -/
theorem normalize_settles_stray :
    FlatGroups "a[0].b][c.".toList ∧ normalize "a[0].b][c." = ".a.0.b][c" ∧
      IsTrimmed (normalize "a[0].b][c.") ∧ Ungrouped (normalize "a[0].b][c.").toList ∧
      normalize (normalize "a[0].b][c.") = normalize "a[0].b][c." ∧
      normalize "a[0].b][c." ≠ "a[0].b][c." := by
  have flat : FlatGroups "a[0].b][c.".toList := by decide
  obtain ⟨trimmed, settled, fixed⟩ := normalize_settles "a[0].b][c."
  obtain ⟨ungrouped, twice⟩ := settled flat
  exact ⟨flat, by decide, trimmed, ungrouped, twice, mt fixed.mp (by decide)⟩

/-- A bracket that a group holds makes a new group with what is behind the group. -/
example : normalize "[[a]]" = ".[a]" ∧ normalize ".[a]" = "..a" := by decide

end BraceTemplate.Path
