import Mathlib.Data.List.TakeWhile
import BraceTemplate.Proofs.Naming

/-!
# Spellings of a path

A token may write each name of a path behind dots or in brackets, and it may have dots where no name
needs them: several in front of a name, some in front of a bracket, some at the end.

## Main result

`spellings_agree`: whatever the spelling, the path that a token is normalized to has the names that
are written in it, so all spellings lead to the same value. A token that spares the dots inside is
normalized to its names with one dot in front of each.

## Proof strategy

Taking the brackets off a name leaves the name with one more dot in front, so what is left of a
spelling is a row of names with dots around them. The other two steps add or drop dots at the ends
of the row, where they make no name and cut none.
-/

namespace BraceTemplate.Path

/-! ### Spellings -/

/-- A name that can be written in brackets as well as behind dots. -/
structure IsPlainName (name : String) : Prop extends IsName name where
  openFree : '[' ∉ name.toList
  closeFree : ']' ∉ name.toList

instance (name : String) : Decidable (IsPlainName name) :=
  decidable_of_iff (IsName name ∧ '[' ∉ name.toList ∧ ']' ∉ name.toList)
    ⟨fun h => ⟨h.1, h.2.1, h.2.2⟩, fun h => ⟨h.toIsName, h.openFree, h.closeFree⟩⟩

/-- A row of dots. -/
def dots (count : Nat) : String :=
  String.ofList (List.replicate count '.')

/-- How a token writes a name. -/
inductive Form where
  /-- As it is. Only the first name of a token can be written so. -/
  | bare
  /-- Behind a dot, which `more` dots may stand in front of. -/
  | dotted (more : Nat)
  /-- In brackets, which `count` dots may stand in front of. -/
  | bracketed (count : Nat)
  deriving DecidableEq, Repr

namespace Form

def write : Form → String → String
  | .bare, name => name
  | .dotted more, name => dots (more + 1) ++ name
  | .bracketed count, name => dots count ++ "[" ++ name ++ "]"

/-- The dots in front of the name when its brackets are taken off. -/
def leadingDots : Form → Nat
  | .bare => 0
  | .dotted more => more + 1
  | .bracketed count => count + 1

/-- There is one dot in front of a dotted name and none in front of a bracket. -/
def IsSparing (form : Form) : Prop :=
  form ∈ [.bare, .dotted 0, .bracketed 0]

instance (form : Form) : Decidable form.IsSparing :=
  inferInstanceAs (Decidable (_ ∈ _))

end Form

/-- A way to write names in a token: each in its form, and dots behind them all. -/
structure Spelling where
  parts : List (Form × String)
  endDots : Nat
  plain : ∀ part ∈ parts, IsPlainName part.2
  bareFirst : ∀ part ∈ parts.tail, part.1 ≠ .bare

namespace Spelling

def names (s : Spelling) : List String :=
  s.parts.map (·.2)

def token (s : Spelling) : String :=
  String.join (s.parts.map fun part => part.1.write part.2) ++ dots s.endDots

def IsSparing (s : Spelling) : Prop :=
  ∀ part ∈ s.parts, part.1.IsSparing

instance (s : Spelling) : Decidable s.IsSparing :=
  List.decidableBAll _ s.parts

end Spelling

/-! ### Bracket groups -/

theorem dotGroups_of_ne {c : Char} (plain : c ≠ '[') (rest : List Char) :
    dotGroups none (c :: rest) = c :: dotGroups none rest := by
  rw [dotGroups]
  exact plain

theorem dotGroups_some_of_ne {c : Char} (inside : c ≠ ']') (before rest : List Char) :
    dotGroups (some before) (c :: rest) = dotGroups (some (c :: before)) rest := by
  rw [dotGroups]
  exact inside

/-- A text without an opening bracket stays as it is. -/
private theorem dotGroups_append {cs : List Char} (free : '[' ∉ cs) (rest : List Char) :
    dotGroups none (cs ++ rest) = cs ++ dotGroups none rest := by
  induction cs with
  | nil => rfl
  | cons c cs ih =>
    rw [List.mem_cons, not_or] at free
    rw [List.cons_append, dotGroups_of_ne (Ne.symm free.1), ih free.2, List.cons_append]

private theorem dotGroups_some_append {held : List Char} (free : ']' ∉ held)
    (before rest : List Char) :
    dotGroups (some before) (held ++ ']' :: rest) =
      '.' :: (before.reverse ++ (held ++ dotGroups none rest)) := by
  induction held generalizing before with
  | nil => rfl
  | cons c held ih =>
    rw [List.mem_cons, not_or] at free
    rw [List.cons_append, dotGroups_some_of_ne (Ne.symm free.1), ih free.2]
    simp

/-- A text in brackets becomes a dot and that text. -/
theorem dotGroups_group {held : List Char} (free : ']' ∉ held) (rest : List Char) :
    dotGroups none ('[' :: (held ++ ']' :: rest)) = '.' :: (held ++ dotGroups none rest) :=
  dotGroups_some_append free [] rest

private theorem openBracket_notMem_dots (count : Nat) : '[' ∉ (dots count).toList := by
  simp [dots]

private theorem dots_succ (count : Nat) : dots (count + 1) = "." ++ dots count := by
  rw [← String.toList_inj]
  simp [dots, List.replicate_succ]

private theorem dots_append_dot (count : Nat) : dots count ++ "." = dots (count + 1) := by
  rw [← String.toList_inj]
  simp [dots, List.replicate_succ']

/-- Whatever its form, a name ends up behind dots. -/
private theorem dotGroups_write (form : Form) {name : String} (plain : IsPlainName name)
    (rest : List Char) :
    dotGroups none ((form.write name).toList ++ rest) =
      (dots form.leadingDots ++ name).toList ++ dotGroups none rest := by
  cases form with
  | bare =>
    have noDots : dots Form.bare.leadingDots ++ name = name := String.empty_append
    rw [noDots]
    exact dotGroups_append plain.openFree rest
  | dotted more =>
    have free : '[' ∉ (dots (more + 1) ++ name).toList := by
      simp [openBracket_notMem_dots, plain.openFree]
    exact dotGroups_append free rest
  | bracketed count =>
    have split : ((Form.bracketed count).write name).toList ++ rest =
        (dots count).toList ++ '[' :: (name.toList ++ ']' :: rest) := by
      simp [Form.write]
    rw [split, dotGroups_append (openBracket_notMem_dots count), dotGroups_group plain.closeFree,
      Form.leadingDots, ← dots_append_dot]
    simp

/-- Names behind dots, in a row that ends with dots. -/
def row (endDots : Nat) (parts : List (Form × String)) : String :=
  String.join (parts.map fun part => dots part.1.leadingDots ++ part.2) ++ dots endDots

private theorem row_nil (endDots : Nat) : row endDots [] = dots endDots :=
  String.empty_append

private theorem row_cons (endDots : Nat) (part : Form × String) (parts : List (Form × String)) :
    row endDots (part :: parts) = dots part.1.leadingDots ++ (part.2 ++ row endDots parts) := by
  simp [row, String.append_assoc]

/-- Without its brackets, a token is its names behind dots. -/
private theorem dotGroups_token (s : Spelling) :
    dotGroups none s.token.toList = (row s.endDots s.parts).toList := by
  obtain ⟨parts, endDots, plain, first⟩ := s
  simp only [Spelling.token]
  clear first
  induction parts with
  | nil =>
    have noGroup := dotGroups_append (openBracket_notMem_dots endDots) []
    simpa [row_nil, dotGroups] using noGroup
  | cons part parts ih =>
    obtain ⟨plain, others⟩ := List.forall_mem_cons.mp plain
    rw [List.map_cons, String.join_cons, String.append_assoc, String.toList_append,
      dotGroups_write part.1 plain, ih others, row_cons, ← String.append_assoc]
    exact String.toList_append.symm

/-! ### Names between dots -/

private theorem isDotted_dots (count : Nat) : IsDotted (dots count) := by
  cases count with
  | zero => exact .inl rfl
  | succ count =>
    refine .inr ?_
    simp [dots, List.replicate_succ]

private theorem names_dots_append (count : Nat) (rest : String) :
    names (dots count ++ rest) = names rest := by
  induction count with
  | zero => exact congrArg names String.empty_append
  | succ count ih => rw [dots_succ, String.append_assoc, names_dot, ih]

private theorem names_dots (count : Nat) : names (dots count) = [] := by
  have alone := names_dots_append count ""
  rwa [String.append_empty] at alone

private theorem names_append_dots (path : String) (count : Nat) :
    names (path ++ dots count) = names path := by
  rw [names_append (isDotted_dots count), names_dots, List.append_nil]

/-- A row begins with a dot unless its first name is bare. -/
private theorem isDotted_row (endDots : Nat) {parts : List (Form × String)}
    (notBare : ∀ part ∈ parts, part.1 ≠ .bare) : IsDotted (row endDots parts) := by
  cases parts with
  | nil =>
    rw [row_nil]
    exact isDotted_dots endDots
  | cons part parts =>
    have someDot : part.1.leadingDots ≠ 0 := by
      have form := notBare part List.mem_cons_self
      cases written : part.1 with
      | bare => exact absurd written form
      | dotted more | bracketed count => exact Nat.succ_ne_zero _
    obtain ⟨less, count⟩ := Nat.exists_eq_succ_of_ne_zero someDot
    refine .inr ?_
    rw [row_cons, count, Nat.succ_eq_add_one, dots_succ, String.append_assoc, String.toList_append]
    rfl

private theorem names_row (endDots : Nat) {parts : List (Form × String)}
    (plain : ∀ part ∈ parts, IsPlainName part.2)
    (bareFirst : ∀ part ∈ parts.tail, part.1 ≠ .bare) :
    names (row endDots parts) = parts.map (·.2) := by
  induction parts with
  | nil => rw [row_nil, names_dots, List.map_nil]
  | cons part parts ih =>
    obtain ⟨plain, others⟩ := List.forall_mem_cons.mp plain
    -- Only the first name can be bare, so a dot ends this one.
    have notBare : ∀ next ∈ parts, next.1 ≠ .bare := bareFirst
    have later : ∀ next ∈ parts.tail, next.1 ≠ .bare :=
      fun next member => notBare next (List.mem_of_mem_tail member)
    rw [row_cons, names_dots_append, names_append (isDotted_row endDots notBare),
      names_of_isName plain.toIsName, ih others later]
    rfl

/-! ### Dots at the ends -/

private theorem names_leadWithDot (cs : List Char) :
    names (String.ofList (leadWithDot cs)) = names (String.ofList cs) := by
  rw [leadWithDot]
  split
  · rfl
  · have split : String.ofList ('.' :: cs) = "." ++ String.ofList cs := by
      rw [← String.toList_inj]
      simp
    rw [split, names_dot]

theorem exists_eq_dropEndDots_append (cs : List Char) :
    ∃ count, cs = dropEndDots cs ++ List.replicate count '.' := by
  have all : cs.reverse.takeWhile (· = '.') =
      List.replicate (cs.reverse.takeWhile (· = '.')).length '.' := by
    refine List.eq_replicate_iff.mpr ⟨rfl, fun c member => ?_⟩
    simpa using List.mem_takeWhile_imp member
  refine ⟨(cs.reverse.takeWhile (· = '.')).length, ?_⟩
  rw [dropEndDots, ← List.reverse_inj, List.reverse_append, List.reverse_replicate, ← all,
    List.reverse_reverse, List.takeWhile_append_dropWhile]

private theorem names_dropEndDots (cs : List Char) :
    names (String.ofList (dropEndDots cs)) = names (String.ofList cs) := by
  obtain ⟨count, split⟩ := exists_eq_dropEndDots_append cs
  have whole : String.ofList cs = String.ofList (dropEndDots cs) ++ dots count := by
    rw [dots, ← String.ofList_append, ← split]
  rw [whole, names_append_dots]

/-- Of the three steps to the normal form, only the first touches names. -/
theorem names_normalize (token : String) :
    names (normalize token) = names (String.ofList (dotGroups none token.toList)) := by
  rw [normalize, names_dropEndDots, names_leadWithDot]

private theorem dropEndDots_append_replicate (cs : List Char) (count : Nat) :
    dropEndDots (cs ++ List.replicate count '.') = dropEndDots cs := by
  have allDots : ∀ c ∈ List.replicate count '.', decide (c = '.') = true := by
    intro c member
    exact decide_eq_true (List.eq_of_mem_replicate member)
  rw [dropEndDots, List.reverse_append, List.reverse_replicate,
    List.dropWhile_append_of_pos allDots]
  rfl

theorem dropEndDots_eq_self {cs : List Char} (last : ∀ c ∈ cs.getLast?, c ≠ '.') :
    dropEndDots cs = cs := by
  rcases List.eq_nil_or_concat cs with rfl | ⟨front, c, rfl⟩
  · rfl
  · have plain : c ≠ '.' := last c (by simp)
    simp [dropEndDots, plain]

/-! ### Sparing spellings -/

/-- Names with one dot in front of each do not end with a dot. -/
private theorem ne_dot_of_mem_getLast? {names : List String}
    (areNames : ∀ name ∈ names, IsName name) :
    ∀ c ∈ (String.join (names.map ("." ++ ·))).toList.getLast?, c ≠ '.' := by
  induction names with
  | nil => simp
  | cons name names ih =>
    obtain ⟨isName, others⟩ := List.forall_mem_cons.mp areNames
    intro c isLast
    rw [List.map_cons, String.join_cons, String.toList_append, List.getLast?_append] at isLast
    cases later : (String.join (names.map ("." ++ ·))).toList.getLast? with
    | some d =>
      rw [later] at isLast
      obtain rfl : d = c := Option.some.inj isLast
      exact ih others d later
    | none =>
      -- Nothing is behind this name, which has a last character of its own.
      have someChar : name.toList ≠ [] := mt String.toList_eq_nil_iff.mp isName.nonempty
      rw [later, Option.none_or, String.toList_append, List.getLast?_append,
        List.getLast?_eq_some_getLast someChar] at isLast
      obtain rfl : name.toList.getLast someChar = c := Option.some.inj isLast
      intro dot
      exact isName.dotFree (dot ▸ List.getLast_mem someChar)

private theorem row_of_isSparing (endDots : Nat) {parts : List (Form × String)}
    (notBare : ∀ part ∈ parts, part.1 ≠ .bare)
    (sparing : ∀ part ∈ parts, part.1.IsSparing) :
    row endDots parts = String.join (parts.map ("." ++ ·.2)) ++ dots endDots := by
  rw [row]
  congr 2
  refine List.map_congr_left fun part member => ?_
  have forms := sparing part member
  simp only [Form.IsSparing, List.mem_cons, List.not_mem_nil, or_false] at forms
  rcases forms with form | form | form
  · exact absurd form (notBare part member)
  · rw [form]
    rfl
  · rw [form]
    rfl

private theorem leadWithDot_bare {name : String} (isName : IsName name) (rest : String) :
    leadWithDot (name ++ rest).toList = ("." ++ (name ++ rest)).toList := by
  have someChar : name.toList ≠ [] := mt String.toList_eq_nil_iff.mp isName.nonempty
  obtain ⟨c, more, spelled⟩ := List.exists_cons_of_ne_nil someChar
  have notDot : c ≠ '.' := by
    intro dot
    refine isName.dotFree ?_
    rw [spelled, dot]
    exact List.mem_cons_self
  simp [leadWithDot, spelled, notDot]

/-- A bare first name is given the dot that the other names have. -/
private theorem leadWithDot_row (endDots : Nat) {part : Form × String}
    {parts : List (Form × String)}
    (isName : IsName part.2) (notBare : ∀ next ∈ parts, next.1 ≠ .bare)
    (sparing : ∀ next ∈ part :: parts, next.1.IsSparing) :
    leadWithDot (row endDots (part :: parts)).toList =
      (String.join ((part :: parts).map ("." ++ ·.2)) ++ dots endDots).toList := by
  have behind := row_of_isSparing endDots notBare fun next member => sparing next (.tail _ member)
  have target : String.join ((part :: parts).map ("." ++ ·.2)) ++ dots endDots =
      "." ++ (part.2 ++ row endDots parts) := by
    rw [List.map_cons, String.join_cons, String.append_assoc, String.append_assoc, ← behind]
  by_cases bare : part.1 = .bare
  · have whole : row endDots (part :: parts) = part.2 ++ row endDots parts := by
      rw [row_cons, bare]
      exact String.empty_append
    rw [whole, leadWithDot_bare isName, target]
  · have noneBare : ∀ next ∈ part :: parts, next.1 ≠ .bare :=
      List.forall_mem_cons.mpr ⟨bare, notBare⟩
    have starts : (row endDots (part :: parts)).toList.head? = some '.' := by
      rw [row_of_isSparing endDots noneBare sparing, target, String.toList_append]
      rfl
    rw [leadWithDot, if_pos starts, row_of_isSparing endDots noneBare sparing]

private theorem dropEndDots_leadWithDot_dots (count : Nat) :
    dropEndDots (leadWithDot (dots count).toList) = [] := by
  have allDots : ∃ more, leadWithDot (dots count).toList = [] ++ List.replicate more '.' := by
    cases count with
    | zero => exact ⟨1, rfl⟩
    | succ count => exact ⟨count + 1, by simp [dots, leadWithDot, List.replicate_succ]⟩
  obtain ⟨more, allDots⟩ := allDots
  rw [allDots, dropEndDots_append_replicate]
  rfl

private theorem dropEndDots_leadWithDot_row (endDots : Nat) {parts : List (Form × String)}
    (plain : ∀ part ∈ parts, IsPlainName part.2)
    (bareFirst : ∀ part ∈ parts.tail, part.1 ≠ .bare)
    (sparing : ∀ part ∈ parts, part.1.IsSparing) :
    dropEndDots (leadWithDot (row endDots parts).toList) =
      (String.join (parts.map ("." ++ ·.2))).toList := by
  cases parts with
  | nil =>
    rw [row_nil, dropEndDots_leadWithDot_dots]
    rfl
  | cons part parts =>
    have areNames : ∀ name ∈ (part :: parts).map (·.2), IsName name := by
      intro name member
      obtain ⟨next, isPart, rfl⟩ := List.mem_map.mp member
      exact (plain next isPart).toIsName
    have ends := ne_dot_of_mem_getLast? areNames
    rw [List.map_map] at ends
    have notBare : ∀ next ∈ parts, next.1 ≠ .bare := bareFirst
    rw [leadWithDot_row endDots (areNames _ List.mem_cons_self) notBare sparing,
      String.toList_append, dots, String.toList_ofList, dropEndDots_append_replicate]
    exact dropEndDots_eq_self ends

theorem normalize_of_isSparing {s : Spelling} (sparing : s.IsSparing) :
    normalize s.token = String.join (s.names.map ("." ++ ·)) := by
  rw [normalize, dotGroups_token, dropEndDots_leadWithDot_row s.endDots s.plain s.bareFirst sparing,
    String.ofList_toList, Spelling.names, List.map_map]
  rfl

/-! ### Main result -/

/-- However names are spelled, they are the keys of the normal form, so the spelling makes no
difference to where the path leads. A sparing spelling makes none to the normal form either. -/
theorem spellings_agree (s : Spelling) :
    Key.ofPath (normalize s.token) = s.names.map .name ∧
    (s.IsSparing → normalize s.token = String.join (s.names.map ("." ++ ·))) ∧
    ∀ other : Spelling, other.names = s.names → ∀ value : Value,
      value.resolve (normalize other.token) = value.resolve (normalize s.token) := by
  have written (s : Spelling) : Key.ofPath (normalize s.token) = s.names.map .name := by
    rw [Key.ofPath, names_normalize, dotGroups_token, String.ofList_toList,
      names_row s.endDots s.plain s.bareFirst, Spelling.names]
  refine ⟨written s, normalize_of_isSparing, ?_⟩
  intro other same value
  rw [Value.resolve, Value.resolve, written other, written s, same]

/-- A bracket and dots at the end, and the same names with dots wherever there can be some. -/
theorem spellings_agree_items :
    ∃ (s other : Spelling) (value : Value), s.token = "items[2].name.." ∧ s.IsSparing ∧
      other.token = "..items...[2]..[name]." ∧ other.names = s.names ∧
      Key.ofPath (normalize s.token) = [.name "items", .name "2", .name "name"] ∧
      normalize s.token = ".items.2.name" ∧
      value.resolve (normalize other.token) = value.resolve (normalize s.token) ∧
      value.resolve (normalize s.token) = some (.string "x") := by
  let s : Spelling :=
    ⟨[(.bare, "items"), (.bracketed 0, "2"), (.dotted 0, "name")], 2, by decide, by decide⟩
  let other : Spelling :=
    ⟨[(.dotted 1, "items"), (.bracketed 3, "2"), (.bracketed 2, "name")], 1, by decide, by decide⟩
  let item : Value := .object ⟨["name"], by decide⟩ [.string "x"]
  let value : Value := .object ⟨["items"], by decide⟩ [.array [.null, .bool true, item]]
  have sparing : s.IsSparing := by decide
  obtain ⟨written, normal, agree⟩ := spellings_agree s
  have normalized : normalize s.token = ".items.2.name" := normal sparing
  have resolved : value.resolve (normalize s.token) = some (.string "x") := by
    rw [normalized]
    rfl
  exact ⟨s, other, value, by decide, sparing, by decide, rfl, written, normalized,
    agree other rfl value, resolved⟩

end BraceTemplate.Path
