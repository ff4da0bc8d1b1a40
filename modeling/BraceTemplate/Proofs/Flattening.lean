import Mathlib.Logic.Function.Iterate
import BraceTemplate.Data.Text

/-!
# Nested arrays in text

An array in the output is its items with commas between them, and so is an array among the items.
The commas do not tell where one array ends and another begins, so that the text of an array is that
of its leaves.

## Main result

`array_text_flattens`: if each item that is a non-empty array is replaced by its own items, and this
is done again and again, a list of leaves comes out that no longer changes. The text of the array is
the texts of the leaves with commas between them. To put the items of a nested array in its place
does not change the text, however deep in arrays it is done. Inside of an object, where an array is
written with its brackets, it takes one pair of brackets off the text.

## Proof strategy

Rows of texts that are joined one by one and then joined together give what all the texts give when
they are joined at once, as long as no row is empty (`intercalate_append_flatten`). The leaves of a
value are never an empty row. The rest follows along the nesting of arrays (`nested_induction`).
-/

namespace BraceTemplate

/-! ### Rows of texts -/

/-- A row that is not empty may be joined before the texts around it are. -/
private theorem intercalate_splice (separator : String) {row : List String} (nonempty : row ≠ [])
    (front back : List String) :
    separator.intercalate (front ++ (row ++ back)) =
      separator.intercalate (front ++ separator.intercalate row :: back) := by
  have atStart : separator.intercalate (row ++ back) =
      separator.intercalate (separator.intercalate row :: back) := by
    cases back with
    | nil => rw [List.append_nil, String.intercalate_singleton]
    | cons text back =>
      rw [String.intercalate_append_of_ne_nil nonempty (List.cons_ne_nil text back),
        String.intercalate_cons_cons]
  cases front with
  | nil => exact atStart
  | cons text front =>
    have texts : text :: front ≠ [] := List.cons_ne_nil text front
    have someRow : row ++ back ≠ [] := List.append_ne_nil_of_left_ne_nil nonempty back
    rw [String.intercalate_append_of_ne_nil texts someRow, atStart,
      String.intercalate_append_of_ne_nil texts (List.cons_ne_nil _ back)]

/-- Rows that are not empty may be joined one by one beforehand. -/
private theorem intercalate_append_flatten (separator : String) {rows : List (List String)}
    (nonempty : ∀ row ∈ rows, row ≠ []) (front : List String) :
    separator.intercalate (front ++ rows.flatten) =
      separator.intercalate (front ++ rows.map separator.intercalate) := by
  induction rows generalizing front with
  | nil => rfl
  | cons row rows ih =>
    obtain ⟨someText, others⟩ := List.forall_mem_cons.mp nonempty
    rw [List.flatten_cons, ← List.append_assoc, ih others, List.append_assoc,
      intercalate_splice separator someText, List.map_cons]

private theorem exists_intercalate_middle (separator : String) (front back : List String) :
    ∃ before behind, ∀ text, separator.intercalate (front ++ text :: back) =
      before ++ text ++ behind := by
  have atStart : ∃ behind, ∀ text, separator.intercalate (text :: back) = text ++ behind := by
    cases back with
    | nil => exact ⟨"", fun text => by rw [String.intercalate_singleton, String.append_empty]⟩
    | cons next back =>
      exact ⟨_, fun text => by rw [String.intercalate_cons_cons, String.append_assoc]⟩
  obtain ⟨behind, atStart⟩ := atStart
  cases front with
  | nil => exact ⟨"", behind, fun text => by rw [List.nil_append, atStart, String.empty_append]⟩
  | cons first front =>
    refine ⟨separator.intercalate (first :: front) ++ separator, behind, fun text => ?_⟩
    rw [String.intercalate_append_of_ne_nil (List.cons_ne_nil first front)
      (List.cons_ne_nil text back), atStart]
    exact String.append_assoc.symm

namespace Value

/-! ### Leaves -/

/-- Whether a value is an array that is not empty. -/
def hasItems : Value → Bool
  | .array (_ :: _) => true
  | _ => false

/-- The items of a non-empty array. Any other value stays. -/
def spread : Value → List Value
  | .array (item :: rest) => item :: rest
  | value => [value]

/-- Replaces each item that is a non-empty array by its own items. -/
def spreadEach (items : List Value) : List Value :=
  items.flatMap spread

mutual

/-- What is left of a value when nested arrays are replaced by their items until none is left. An
empty array stays. -/
def leaves : Value → List Value
  | .array (item :: rest) => item.leaves ++ leavesEach rest
  | value => [value]

/-- The leaves of each value. -/
def leavesEach : List Value → List Value
  | [] => []
  | value :: rest => value.leaves ++ leavesEach rest

end

/-- An induction along the nesting of arrays. -/
private theorem nested_induction {motive : Value → Prop}
    (plain : ∀ value : Value, value.hasItems = false → motive value)
    (nested : ∀ items, items ≠ [] → (∀ item ∈ items, motive item) → motive (.array items))
    (value : Value) : motive value := by
  cases value with
  | array items =>
    cases items with
    | nil => exact plain (.array []) rfl
    | cons item rest =>
      refine nested (item :: rest) (List.cons_ne_nil item rest) fun inner member => ?_
      have smaller : sizeOf inner < sizeOf (array (item :: rest)) := by
        have inside := List.sizeOf_lt_of_mem member
        rw [array.sizeOf_spec]
        omega
      exact nested_induction plain nested inner
  | null | bool | number | string | object => exact plain _ rfl
termination_by value
decreasing_by exact smaller

theorem textEach_eq_map (values : List Value) : textEach values = values.map text := by
  induction values with
  | nil => rfl
  | cons value values ih => rw [textEach, ih, List.map_cons]

theorem compactEach_eq_map (values : List Value) : compactEach values = values.map compact := by
  induction values with
  | nil => rfl
  | cons value values ih => rw [compactEach, ih, List.map_cons]

theorem leavesEach_eq_flatMap (values : List Value) : leavesEach values = values.flatMap leaves := by
  induction values with
  | nil => rfl
  | cons value values ih => rw [leavesEach, ih, List.flatMap_cons]

theorem leaves_array {items : List Value} (nonempty : items ≠ []) :
    (array items).leaves = leavesEach items := by
  cases items with
  | nil => exact absurd rfl nonempty
  | cons item rest => rfl

/-- A value that is no non-empty array stands for itself, as an item and as a leaf. -/
private theorem spread_and_leaves_of_plain {value : Value} (plain : value.hasItems = false) :
    value.spread = [value] ∧ value.leaves = [value] := by
  cases value with
  | array items =>
    cases items with
    | nil => exact ⟨rfl, rfl⟩
    | cons item rest => cases plain
  | null | bool | number | string | object => exact ⟨rfl, rfl⟩

private theorem leaves_ne_nil (value : Value) : value.leaves ≠ [] := by
  induction value using nested_induction with
  | plain value plain =>
    rw [(spread_and_leaves_of_plain plain).2]
    exact List.cons_ne_nil value []
  | nested items nonempty ih =>
    obtain ⟨item, rest, rfl⟩ := List.exists_cons_of_ne_nil nonempty
    exact List.append_ne_nil_of_left_ne_nil (ih item List.mem_cons_self) _

private theorem hasItems_of_mem_leaves {value leaf : Value} (member : leaf ∈ value.leaves) :
    leaf.hasItems = false := by
  induction value using nested_induction with
  | plain value plain =>
    rw [(spread_and_leaves_of_plain plain).2] at member
    rwa [List.mem_singleton.mp member]
  | nested items nonempty ih =>
    rw [leaves_array nonempty, leavesEach_eq_flatMap] at member
    obtain ⟨item, isItem, inside⟩ := List.mem_flatMap.mp member
    exact ih item isItem inside

/-! ### Texts of leaves -/

theorem text_array (items : List Value) : (array items).text = ",".intercalate (items.map text) := by
  rw [text, textEach_eq_map]

/-- If the text of each item is that of its leaves, the text of all items is that of all leaves. -/
private theorem intercalate_leavesEach {items : List Value}
    (each : ∀ item ∈ items, item.text = ",".intercalate (item.leaves.map text)) :
    ",".intercalate (items.map text) = ",".intercalate ((leavesEach items).map text) := by
  have rows : items.map text =
      (items.map fun item => item.leaves.map text).map ",".intercalate := by
    rw [List.map_map]
    exact List.map_congr_left each
  have nonempty : ∀ row ∈ items.map fun item => item.leaves.map text, row ≠ [] := by
    intro row isRow
    obtain ⟨item, -, rfl⟩ := List.mem_map.mp isRow
    exact mt List.map_eq_nil_iff.mp item.leaves_ne_nil
  have joined := intercalate_append_flatten "," nonempty []
  rw [List.nil_append, List.nil_append] at joined
  rw [rows, ← joined, leavesEach_eq_flatMap, List.map_flatMap]
  rfl

theorem text_eq_leaves (value : Value) : value.text = ",".intercalate (value.leaves.map text) := by
  induction value using nested_induction with
  | plain value plain =>
    rw [(spread_and_leaves_of_plain plain).2, List.map_singleton, String.intercalate_singleton]
  | nested items nonempty ih =>
    rw [text_array, leaves_array nonempty]
    exact intercalate_leavesEach ih

/-! ### Round after round -/

private theorem spreadEach_array {items : List Value} (nonempty : items ≠ []) :
    spreadEach [array items] = items := by
  obtain ⟨item, rest, rfl⟩ := List.exists_cons_of_ne_nil nonempty
  exact List.append_nil (item :: rest)

private theorem iterate_spreadEach_append (rounds : Nat) (front back : List Value) :
    spreadEach^[rounds] (front ++ back) = spreadEach^[rounds] front ++ spreadEach^[rounds] back := by
  induction rounds generalizing front back with
  | zero => rfl
  | succ rounds ih =>
    have once : spreadEach (front ++ back) = spreadEach front ++ spreadEach back :=
      List.flatMap_append
    rw [Function.iterate_succ_apply, once, ih, ← Function.iterate_succ_apply,
      ← Function.iterate_succ_apply]

/-- If the items come to their leaves one by one, all of them come to the leaves of all. -/
private theorem exists_rounds_each {items : List Value}
    (each : ∀ item ∈ items, ∃ enough, ∀ rounds, enough ≤ rounds →
      spreadEach^[rounds] [item] = item.leaves) :
    ∃ enough, ∀ rounds, enough ≤ rounds → spreadEach^[rounds] items = leavesEach items := by
  induction items with
  | nil =>
    have nothing : spreadEach [] = [] := rfl
    exact ⟨0, fun rounds _ => Function.iterate_fixed nothing rounds⟩
  | cons item rest ih =>
    obtain ⟨first, others⟩ := List.forall_mem_cons.mp each
    obtain ⟨enough, reached⟩ := first
    obtain ⟨enoughBehind, reachedBehind⟩ := ih others
    refine ⟨max enough enoughBehind, fun rounds many => ?_⟩
    have apart := iterate_spreadEach_append rounds [item] rest
    rw [reached rounds (Nat.le_trans (Nat.le_max_left _ _) many),
      reachedBehind rounds (Nat.le_trans (Nat.le_max_right _ _) many)] at apart
    exact apart

theorem exists_rounds (value : Value) :
    ∃ enough, ∀ rounds, enough ≤ rounds → spreadEach^[rounds] [value] = value.leaves := by
  induction value using nested_induction with
  | plain value plain =>
    have stays : spreadEach [value] = [value] := by
      rw [spreadEach, List.flatMap_singleton, (spread_and_leaves_of_plain plain).1]
    refine ⟨0, fun rounds _ => ?_⟩
    rw [Function.iterate_fixed stays, (spread_and_leaves_of_plain plain).2]
  | nested items nonempty ih =>
    -- One round takes the brackets off, and then the items go on by themselves.
    obtain ⟨enough, reached⟩ := exists_rounds_each ih
    refine ⟨enough + 1, fun rounds many => ?_⟩
    obtain ⟨more, rfl⟩ := Nat.exists_eq_add_of_le' many
    rw [← Nat.add_assoc, Function.iterate_succ_apply, spreadEach_array nonempty,
      reached _ (Nat.le_add_left enough more), leaves_array nonempty]

/-! ### Nested arrays in place -/

/-- In one place inside of a value, a non-empty array among the items of an array gives way to its
own items. The number counts the objects that are around the place. -/
inductive Spliced : Nat → Value → Value → Prop where
  | here (front back : List Value) {inner : List Value} :
    inner ≠ [] →
    Spliced 0 (.array (front ++ .array inner :: back)) (.array (front ++ (inner ++ back)))
  | inItem (front back : List Value) {objects : Nat} {item other : Value} :
    Spliced objects item other →
    Spliced objects (.array (front ++ item :: back)) (.array (front ++ other :: back))
  | inEntry (keys : KeyList) (front back : List Value) {objects : Nat} {value other : Value} :
    front.length < keys.names.length → Spliced objects value other →
    Spliced (objects + 1) (.object keys (front ++ value :: back))
      (.object keys (front ++ other :: back))

/-- The second text is the first one without one pair of brackets. -/
def LosesBrackets (text other : String) : Prop :=
  ∃ before held behind, text = before ++ ("[" ++ held ++ "]") ++ behind ∧
    other = before ++ held ++ behind

theorem LosesBrackets.inside {text other : String} (loses : LosesBrackets text other)
    (before behind : String) :
    LosesBrackets (before ++ text ++ behind) (before ++ other ++ behind) := by
  obtain ⟨front, held, back, rfl, rfl⟩ := loses
  exact ⟨before ++ front, held, back ++ behind, by simp only [String.append_assoc],
    by simp only [String.append_assoc]⟩

/-- The text of an array around the text of one item. -/
private theorem exists_text_item (front back : List Value) :
    ∃ before behind, ∀ item : Value,
      (array (front ++ item :: back)).text = before ++ item.text ++ behind := by
  obtain ⟨before, behind, middle⟩ :=
    exists_intercalate_middle "," (front.map text) (back.map text)
  refine ⟨before, behind, fun item => ?_⟩
  rw [text_array, List.map_append, List.map_cons, middle]

theorem compact_array (items : List Value) :
    (array items).compact = "[" ++ ",".intercalate (items.map compact) ++ "]" := by
  rw [compact, compactEach_eq_map]

private theorem exists_compact_item (front back : List Value) :
    ∃ before behind, ∀ item : Value,
      (array (front ++ item :: back)).compact = before ++ item.compact ++ behind := by
  obtain ⟨before, behind, middle⟩ :=
    exists_intercalate_middle "," (front.map compact) (back.map compact)
  refine ⟨"[" ++ before, behind ++ "]", fun item => ?_⟩
  rw [compact_array, List.map_append, List.map_cons, middle]
  simp only [String.append_assoc]

theorem compact_object (keys : KeyList) (values : List Value) :
    (object keys values).compact =
      inBraces (",".intercalate (List.zipWith
        (fun key value => Literal.encode key ++ ":" ++ value.compact) keys.names values)) := by
  rw [compact, compactEach_eq_map, List.zipWith_map_right]

private theorem exists_compact_entry {keys : KeyList} {front : List Value}
    (isEntry : front.length < keys.names.length) (back : List Value) :
    ∃ before behind, ∀ value : Value,
      (object keys (front ++ value :: back)).compact = before ++ value.compact ++ behind := by
  -- The key of the entry stands among the others where the value stands.
  obtain ⟨before, key, behind, names, inFront⟩ : ∃ before key behind,
      keys.names = before ++ key :: behind ∧ before.length = front.length :=
    ⟨keys.names.take front.length, keys.names[front.length], keys.names.drop (front.length + 1),
      by simp, List.length_take_of_le (Nat.le_of_lt isEntry)⟩
  obtain ⟨left, right, middle⟩ := exists_intercalate_middle ","
    (List.zipWith (fun key value => Literal.encode key ++ ":" ++ value.compact) before front)
    (List.zipWith (fun key value => Literal.encode key ++ ":" ++ value.compact) behind back)
  refine ⟨String.singleton Brace.opening ++ left ++ (Literal.encode key ++ ":"),
    right ++ String.singleton Brace.closing, fun value => ?_⟩
  rw [compact_object, names, List.zipWith_append inFront, List.zipWith_cons_cons, middle]
  simp only [inBraces, String.append_assoc]

/-- Compact data text shows each array with its brackets. -/
private theorem Spliced.compact_losesBrackets {objects : Nat} {value other : Value}
    (spliced : Spliced objects value other) : LosesBrackets value.compact other.compact := by
  induction spliced with
  | @here front back inner nonempty =>
    obtain ⟨before, behind, middle⟩ :=
      exists_intercalate_middle "," (front.map compact) (back.map compact)
    have someText : inner.map compact ≠ [] := mt List.map_eq_nil_iff.mp nonempty
    refine ⟨"[" ++ before, ",".intercalate (inner.map compact), behind ++ "]", ?_, ?_⟩
    · rw [compact_array, List.map_append, List.map_cons, middle, compact_array]
      simp only [String.append_assoc]
    · rw [compact_array, List.map_append, List.map_append, intercalate_splice "," someText, middle]
      simp only [String.append_assoc]
  | inItem front back _ ih =>
    obtain ⟨before, behind, around⟩ := exists_compact_item front back
    rw [around, around]
    exact ih.inside before behind
  | inEntry keys front back isEntry _ ih =>
    obtain ⟨before, behind, around⟩ := exists_compact_entry isEntry back
    rw [around, around]
    exact ih.inside before behind

/-- Inside of an object, an array is written with its brackets. -/
private theorem Spliced.text_losesBrackets {objects : Nat} {value other : Value}
    (spliced : Spliced objects value other) (within : 0 < objects) :
    LosesBrackets value.text other.text := by
  induction spliced with
  | here => exact absurd within (Nat.lt_irrefl 0)
  | inItem front back _ ih =>
    obtain ⟨before, behind, around⟩ := exists_text_item front back
    rw [around, around]
    exact (ih within).inside before behind
  | inEntry keys front back isEntry spliced _ =>
    exact (Spliced.inEntry keys front back isEntry spliced).compact_losesBrackets

private theorem Spliced.leaves_eq {objects : Nat} {value other : Value}
    (spliced : Spliced objects value other) (outside : objects = 0) :
    other.leaves = value.leaves := by
  induction spliced with
  | @here front back inner nonempty =>
    -- An empty array would be a leaf itself, and nothing would be left in its place.
    have someItem : front ++ (inner ++ back) ≠ [] := by simp [nonempty]
    have someArray : front ++ array inner :: back ≠ [] := by simp
    rw [leaves_array someItem, leaves_array someArray]
    simp only [leavesEach_eq_flatMap, List.flatMap_append, List.flatMap_cons]
    rw [leaves_array nonempty, leavesEach_eq_flatMap]
  | @inItem front back _ item other _ ih =>
    have someItem (middle : Value) : front ++ middle :: back ≠ [] := by simp
    rw [leaves_array (someItem other), leaves_array (someItem item)]
    simp only [leavesEach_eq_flatMap, List.flatMap_append, List.flatMap_cons, ih outside]
  | inEntry => cases outside

/-- If the items of non-empty arrays are put in their place round after round, the leaves come out
and stay: none of them is a non-empty array. The text of an array is the texts of its leaves with
commas between them, where null and an empty array have none. So the text does not change if one
non-empty array gives way to its items, however deep in arrays it is. Inside of an object it loses a
pair of brackets, as an entry that is an array is written in them, with its items as compact data
text. -/
theorem array_text_flattens :
    (∀ items : List Value,
      (∃ enough, ∀ rounds, enough ≤ rounds → spreadEach^[rounds] items = leavesEach items) ∧
      (∀ leaf ∈ leavesEach items, leaf.hasItems = false) ∧
      (array items).text = ",".intercalate ((leavesEach items).map text)) ∧
    (null.text = "" ∧ (array []).text = "") ∧
    (∀ value other, Spliced 0 value other → other.text = value.text) ∧
    (∀ objects value other, 0 < objects → Spliced objects value other →
      LosesBrackets value.text other.text) ∧
    ∀ (keys : KeyList) (front back : List Value), front.length < keys.names.length →
      ∃ before behind, ∀ items : List Value,
        (object keys (front ++ array items :: back)).text =
          before ++ ("[" ++ ",".intercalate (items.map compact) ++ "]") ++ behind := by
  refine ⟨fun items => ⟨exists_rounds_each fun item _ => exists_rounds item, ?_, ?_⟩,
    ⟨rfl, rfl⟩, fun value other spliced => ?_,
    fun _ _ _ within spliced => spliced.text_losesBrackets within,
    fun keys front back isEntry => ?_⟩
  · intro leaf member
    rw [leavesEach_eq_flatMap] at member
    obtain ⟨item, -, inside⟩ := List.mem_flatMap.mp member
    exact hasItems_of_mem_leaves inside
  · rw [text_array]
    exact intercalate_leavesEach fun item _ => item.text_eq_leaves
  · rw [other.text_eq_leaves, spliced.leaves_eq rfl, ← value.text_eq_leaves]
  · obtain ⟨before, behind, around⟩ := exists_compact_entry isEntry back
    refine ⟨before, behind, fun items => ?_⟩
    rw [← compact_array]
    exact around (array items)

/-- Nested arrays with nothing to show, and one that is nested inside of an object. -/
theorem array_text_flattens_mixed :
    ∃ (items : List Value) (other bare : Value),
      (array items).text = "a,,,true,\x7b\"k\":[[null]]\x7d" ∧
      (leavesEach items).map text = ["a", "", "", "true", "\x7b\"k\":[[null]]\x7d"] ∧
      (array [] ∈ leavesEach items ∧ (array []).hasItems = false) ∧
      Spliced 0 (array items) other ∧ other.text = (array items).text ∧
      Spliced 1 (array items) bare ∧ LosesBrackets (array items).text bare.text ∧
      bare.text = "a,,,true,\x7b\"k\":[null]\x7d" ∧
      ∃ before behind, ∀ inner : List Value, (object ⟨["k"], by decide⟩ [array inner]).text =
        before ++ ("[" ++ ",".intercalate (inner.map compact) ++ "]") ++ behind := by
  let keys : KeyList := ⟨["k"], by decide⟩
  let nested : Value := .array [.null, .array [], .array [.bool true]]
  let deep : Value := .object keys [.array [.array [.null]]]
  let items : List Value := [.string "a", nested, deep]
  have inArrays : Spliced 0 (.array items) _ :=
    .inItem [.string "a"] [deep] (.here [.null, .array []] [] (List.cons_ne_nil _ []))
  have inObject : Spliced 1 (.array items) _ :=
    .inItem [.string "a", nested] []
      (.inEntry keys [] [] (by decide) (.here [] [] (List.cons_ne_nil _ [])))
  obtain ⟨leafwise, -, keepsText, losesBrackets, bracketed⟩ := array_text_flattens
  obtain ⟨-, plain, joined⟩ := leafwise items
  have isLeaf : array [] ∈ leavesEach items := .tail _ (.tail _ (.head _))
  have shown : (leavesEach items).map text = ["a", "", "", "true", deep.text] := rfl
  refine ⟨items, _, _, ?_, rfl, ⟨isLeaf, plain _ isLeaf⟩, inArrays, keepsText _ _ inArrays,
    inObject, losesBrackets _ _ _ Nat.one_pos inObject, rfl, bracketed keys [] [] (by decide)⟩
  rw [joined, shown]
  rfl

end Value

end BraceTemplate
