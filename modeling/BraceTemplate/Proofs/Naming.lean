import BraceTemplate.Proofs.Meaning
import BraceTemplate.Proofs.Walking

/-!
# Keys and their texts

A path is a text of names with dots between them, and keys are written as such a text. What is
written is read back as names, one for each key, as long as the text of every key can be a name.
The standard access does not tell a key from the name that its text is, so the names lead where the
keys lead.
-/

namespace BraceTemplate

namespace Path

/-- A text that can be a name of a path: it is not empty, and no dot cuts it. -/
structure IsName (name : String) : Prop where
  nonempty : name ≠ ""
  dotFree : '.' ∉ name.toList

instance (name : String) : Decidable (IsName name) :=
  decidable_of_iff (name ≠ "" ∧ '.' ∉ name.toList) ⟨fun h => ⟨h.1, h.2⟩, fun h => ⟨h.1, h.2⟩⟩

/-- Nothing, or a text that begins with a dot. Behind another path it begins with a new name. -/
def IsDotted (path : String) : Prop :=
  path = "" ∨ path.toList.head? = some '.'

instance (path : String) : Decidable (IsDotted path) :=
  inferInstanceAs (Decidable (_ ∨ _))

/-! ### Pieces -/

private theorem pieces_dot (cs : List Char) : pieces ('.' :: cs) = [] :: pieces cs := rfl

private theorem exists_pieces_eq_cons (cs : List Char) :
    ∃ piece more, pieces cs = piece :: more := by
  cases cs with
  | nil => exact ⟨[], [], rfl⟩
  | cons c cs =>
    rw [pieces]
    split
    · exact ⟨_, _, rfl⟩
    · split
      · exact ⟨_, _, rfl⟩
      · exact ⟨_, _, rfl⟩

private theorem pieces_of_ne_dot {c : Char} (other : c ≠ '.') {cs piece : List Char}
    {more : List (List Char)} (behind : pieces cs = piece :: more) :
    pieces (c :: cs) = (c :: piece) :: more := by
  rw [pieces, if_neg other, behind]

/-- A dot keeps the pieces on its two sides apart. -/
private theorem pieces_append_dot (front behind : List Char) :
    pieces (front ++ '.' :: behind) = pieces front ++ pieces behind := by
  induction front with
  | nil => rfl
  | cons c front ih =>
    by_cases dot : c = '.'
    · subst dot
      rw [List.cons_append, pieces_dot, pieces_dot, ih, List.cons_append]
    · -- Any other character makes the first piece longer, and this piece is the same on both sides.
      obtain ⟨piece, more, split⟩ := exists_pieces_eq_cons front
      rw [split, List.cons_append] at ih
      rw [List.cons_append, pieces_of_ne_dot dot ih, pieces_of_ne_dot dot split, List.cons_append]

private theorem pieces_of_dotFree {cs : List Char} (free : '.' ∉ cs) : pieces cs = [cs] := by
  induction cs with
  | nil => rfl
  | cons c cs ih =>
    rw [List.mem_cons, not_or] at free
    exact pieces_of_ne_dot (Ne.symm free.1) (ih free.2)

private theorem dot_notMem_of_mem_pieces {cs piece : List Char} (member : piece ∈ pieces cs) :
    '.' ∉ piece := by
  induction cs generalizing piece with
  | nil =>
    obtain rfl := List.mem_singleton.mp member
    exact List.not_mem_nil
  | cons c cs ih =>
    by_cases dot : c = '.'
    · subst dot
      rcases List.mem_cons.mp member with rfl | behind
      · exact List.not_mem_nil
      · exact ih behind
    · obtain ⟨first, more, split⟩ := exists_pieces_eq_cons cs
      rw [pieces_of_ne_dot dot split] at member
      rcases List.mem_cons.mp member with rfl | behind
      · have insideFirst : '.' ∉ first := by
          refine ih ?_
          rw [split]
          exact List.mem_cons_self
        rw [List.mem_cons, not_or]
        exact ⟨Ne.symm dot, insideFirst⟩
      · refine ih ?_
        rw [split]
        exact List.mem_cons_of_mem first behind

/-! ### Names -/

private theorem names_empty : names "" = [] := rfl

theorem isName_of_mem_names {path name : String} (member : name ∈ names path) : IsName name := by
  obtain ⟨piece, isPiece, rfl⟩ := List.mem_map.mp member
  obtain ⟨isPiece, nonempty⟩ := List.mem_filter.mp isPiece
  refine ⟨?_, ?_⟩
  · intro empty
    rw [String.ofList_eq_empty_iff] at empty
    simp [empty] at nonempty
  · rw [String.toList_ofList]
    exact dot_notMem_of_mem_pieces isPiece

theorem names_of_isName {name : String} (isName : IsName name) : names name = [name] := by
  have nonempty : name.toList ≠ [] := mt String.toList_eq_nil_iff.mp isName.nonempty
  rw [names, pieces_of_dotFree isName.dotFree]
  simp [nonempty]

theorem names_append_dot (path more : String) :
    names (path ++ ("." ++ more)) = names path ++ names more := by
  have split : (path ++ ("." ++ more)).toList = path.toList ++ '.' :: more.toList := by
    simp [String.toList_append]
  rw [names, split, pieces_append_dot, List.filter_append, List.map_append]
  rfl

theorem names_dot (more : String) : names ("." ++ more) = names more := by
  have behindNothing := names_append_dot "" more
  rwa [String.empty_append, names_empty, List.nil_append] at behindNothing

/-- A path and what is put behind it keep their names apart, if that begins with a dot. -/
theorem names_append {more : String} (dotted : IsDotted more) (path : String) :
    names (path ++ more) = names path ++ names more := by
  rcases dotted with rfl | dot
  · rw [String.append_empty, names_empty, List.append_nil]
  · obtain ⟨rest, split⟩ := List.head?_eq_some_iff.mp dot
    obtain rfl : more = "." ++ String.ofList rest := by
      rw [← String.toList_inj]
      simp [split]
    rw [names_append_dot, names_dot]

end Path

namespace Key

/-! ### Keys as texts -/

/-- The text of a path that follows keys: a dot and the text of each key. -/
def written (keys : List Key) : String :=
  String.join (keys.map fun key => "." ++ key.text)

theorem written_append (keys more : List Key) :
    written (keys ++ more) = written keys ++ written more := by
  rw [written, List.map_append, String.join_append]
  rfl

theorem isDotted_written (keys : List Key) : Path.IsDotted (written keys) := by
  cases keys with
  | nil => exact .inl rfl
  | cons key keys =>
    refine .inr ?_
    rw [written, List.map_cons, String.join_cons, String.append_assoc, String.toList_append]
    rfl

theorem written_congr {keys others : List Key} (same : keys.map text = others.map text) :
    written keys = written others := by
  have dotted := congrArg (List.map fun word => "." ++ word) same
  rw [List.map_map, List.map_map] at dotted
  exact congrArg String.join dotted

/-- What is written of keys is read back as their texts. -/
theorem names_written {keys : List Key} (areNames : ∀ key ∈ keys, Path.IsName key.text) :
    Path.names (written keys) = keys.map text := by
  induction keys with
  | nil => rfl
  | cons key keys ih =>
    obtain ⟨isName, areNames⟩ := List.forall_mem_cons.mp areNames
    have split : written (key :: keys) = "." ++ key.text ++ written keys := by
      rw [written, List.map_cons, String.join_cons]
      rfl
    rw [split, Path.names_append (isDotted_written keys), Path.names_dot,
      Path.names_of_isName isName, ih areNames]
    rfl

/-! ### Indices -/

private theorem toList_text_index (place : Nat) :
    (index place).text.toList = Nat.toDigits 10 place :=
  Nat.toList_repr

theorem isName_text_index (place : Nat) : Path.IsName (index place).text := by
  refine ⟨?_, ?_⟩
  · rw [ne_eq, ← String.toList_eq_nil_iff, toList_text_index]
    exact Nat.toDigits_ne_nil
  · rw [toList_text_index]
    intro dot
    exact absurd (Nat.isDigit_of_mem_toDigits (by decide) (by decide) dot) (by decide)

/-- The decimal digits of an index stand for it. -/
theorem place?_text_index (place : Nat) : place? (index place).text = some place := by
  have digits : (Nat.toDigits 10 place).all Char.isDigit = true :=
    List.all_eq_true.mpr fun _ => Nat.isDigit_of_mem_toDigits (by decide) (by decide)
  have value : Decimal.natOfDigits (Nat.toDigits 10 place) = place := by
    rw [Decimal.natOfDigits, ← Nat.ofDigitChars_eq_foldl]
    exact Nat.ofDigitChars_toDigits (by decide) (by decide)
  rw [place?, toList_text_index, value, digits]
  simp [Nat.toDigits_ne_nil]

/-! ### Keys of a path -/

theorem ofPath_append {more : String} (dotted : Path.IsDotted more) (path : String) :
    ofPath (path ++ more) = ofPath path ++ ofPath more := by
  rw [ofPath, Path.names_append dotted, List.map_append]
  rfl

theorem isName_of_mem_ofPath {path : String} {key : Key} (member : key ∈ ofPath path) :
    Path.IsName key.text := by
  obtain ⟨name, isName, rfl⟩ := List.mem_map.mp member
  exact Path.isName_of_mem_names isName

theorem ofPath_written {keys : List Key} (areNames : ∀ key ∈ keys, Path.IsName key.text) :
    ofPath (written keys) = keys.map fun key => .name key.text := by
  rw [ofPath, names_written areNames, List.map_map]
  rfl

end Key

/-! ### The standard access -/

/-- A key leads where the name leads that its text is. -/
theorem Value.lookup_name_text (value : Value) (key : Key) :
    value.lookup (.name key.text) = value.lookup key := by
  cases key with
  | name word => rfl
  | index place =>
    -- An array reads the digits back, and an object compares texts in any case.
    cases value with
    | array items =>
      have stands := Key.place?_text_index place
      simp only [lookup, stands]
    | object keys values => rfl
    | null | bool | number | string => rfl

theorem Value.lookup_congr {key other : Key} (same : key.text = other.text) (value : Value) :
    value.lookup key = value.lookup other := by
  rw [← lookup_name_text value key, same, lookup_name_text]

theorem walk_lookup_congr {keys others : List Key} (same : keys.map Key.text = others.map Key.text)
    (value : Value) : walk Value.lookup value keys = walk Value.lookup value others := by
  induction keys generalizing others value with
  | nil =>
    obtain rfl : others = [] := by simpa using same.symm
    rfl
  | cons key keys ih =>
    -- The other list begins with a key that has the same text, so both go to the same entry.
    obtain ⟨other, others, rfl, first, behind⟩ := List.map_eq_cons_iff.mp same.symm
    rw [walk, walk, Value.lookup_congr first.symm]
    cases value.lookup other with
    | none => rfl
    | some entry => exact ih behind.symm entry

theorem valueBelow_congr {keys others : List Key} (same : keys.map Key.text = others.map Key.text)
    (data : Value) (target : String) :
    valueBelow data .standard keys target = valueBelow data .standard others target := by
  rw [valueBelow_standard, valueBelow_standard, walk_lookup_congr same data]

/-- It does not matter how much of a path is followed beforehand. -/
theorem valueBelow_standard_append (data : Value) (keys : List Key) (path : String) {more : String}
    (dotted : Path.IsDotted more) :
    valueBelow data .standard (keys ++ Key.ofPath path) more =
      valueBelow data .standard keys (path ++ more) := by
  -- Null is left out at the end of the whole path only, so it may lie on the way in both.
  rw [valueBelow_standard, valueBelow_standard, walk_append, Option.bind_assoc]
  congr 1
  funext value
  simp only [Value.resolve, Key.ofPath_append dotted, walk_append]
  cases walk Value.lookup value (Key.ofPath path) <;> rfl

/-- A path may be followed to its end and nothing more be resolved there, as a loop does. -/
theorem valueBelow_standard_ofPath (data : Value) (keys : List Key) (path : String) :
    valueBelow data .standard (keys ++ Key.ofPath path) "" = valueBelow data .standard keys path := by
  have empty : Path.IsDotted "" := .inl rfl
  rw [valueBelow_standard_append data keys path empty, String.append_empty]

end BraceTemplate
