import Mathlib.Data.List.Nodup
import BraceTemplate.Access.Basic

/-!
# Following keys through data

The keys of a value are different from each other and lead to what the value holds, in its order.
Keys are followed one after the other, so following some keys and then more is following all of
them.
-/

namespace BraceTemplate

/-! ### One key after the other -/

theorem walk_append (look : Value → Key → Option Value) (value : Value) (keys more : List Key) :
    walk look value (keys ++ more) = (walk look value keys).bind (walk look · more) := by
  induction keys generalizing value with
  | nil => rfl
  | cons key keys ih =>
    rw [List.cons_append, walk, walk]
    cases look value key with
    | none => rfl
    | some entry => exact ih entry

theorem walk_append_singleton (look : Value → Key → Option Value) (value : Value)
    (keys : List Key) (key : Key) :
    walk look value (keys ++ [key]) = (walk look value keys).bind (look · key) := by
  have last : ∀ entry, walk look entry [key] = look entry key := by
    intro entry
    rw [walk]
    cases look entry key <;> rfl
  rw [walk_append]
  exact congrArg (Option.bind _) (funext last)

namespace Value

theorem resolve_null (path : String) : resolve .null path = none := by
  rw [resolve]
  cases Key.ofPath path <;> rfl

/-! ### The keys of a value -/

/-- The items of an array in their order, or the values of an object in the order of its keys. -/
def members : Value → List Value
  | .array items => items
  | .object keys values => (Value.object keys values).entries.map (·.2)
  | _ => []

private theorem fst_entries_sublist (names : List String) (values : List Value) :
    ((names.zip values).map (·.1)).Sublist names := by
  induction names generalizing values with
  | nil => simp
  | cons name names ih =>
    cases values with
    | nil => simp
    | cons value values => exact (ih values).cons_cons name

theorem ascending_entries (value : Value) : (value.entries.map (·.1)).Pairwise (· < ·) := by
  cases value with
  | object keys values => exact keys.ascending.sublist (fst_entries_sublist keys.names values)
  | null | bool | number | string | array => exact .nil

theorem lookup_of_mem_entries {value : Value} {entry : String × Value}
    (member : entry ∈ value.entries) : value.entries.lookup entry.1 = some entry.2 := by
  obtain ⟨before, after, split⟩ := List.append_of_mem member
  have ascending := value.ascending_entries
  rw [split, List.map_append, List.pairwise_append] at ascending
  -- The names in front of it are smaller, so the look-up passes them.
  have smaller : ∀ other ∈ before, other.1 < entry.1 := by
    intro other isBefore
    exact ascending.2.2 other.1 (List.mem_map_of_mem isBefore) entry.1 (by simp)
  rw [List.lookup_eq_some_iff]
  refine ⟨before, after, split, ?_⟩
  intro other isBefore
  exact bne_iff_ne.mpr (String.ne_of_lt (smaller other isBefore)).symm

theorem nodup_keys (value : Value) : value.keys.Nodup := by
  cases value with
  | array items =>
    have injective : Function.Injective Key.index := fun _ _ same => Key.index.inj same
    exact List.nodup_range.map injective
  | object keys values =>
    have ascending := (Value.object keys values).ascending_entries
    -- An ascending list has no name twice, and different names are different keys.
    have distinct : ((Value.object keys values).entries.map (·.1)).Nodup :=
      ascending.imp String.ne_of_lt
    have injective : Function.Injective Key.name := fun _ _ same => Key.name.inj same
    have named := distinct.map injective
    rw [List.map_map] at named
    exact named
  | null | bool | number | string => exact .nil

/-- The keys of a value lead to what it holds, one by one. -/
theorem map_lookup_keys (value : Value) : value.keys.map value.lookup = value.members.map some := by
  cases value with
  | array items =>
    rw [keys, List.map_map]
    apply List.ext_getElem?
    intro i
    by_cases inside : i < items.length
    · simp [members, lookup, inside]
    · simp [members, inside]
  | object keys values =>
    rw [Value.keys, members, List.map_map, List.map_map]
    apply List.map_congr_left
    intro entry member
    exact lookup_of_mem_entries member
  | null | bool | number | string => rfl

end Value

end BraceTemplate
