import BraceTemplate.Data.Number

/-!
# Template data

What a template is rendered with. The keys of an object are in ascending order of code points, and
no key occurs twice; this is part of the type, so that every object has it.
-/

namespace BraceTemplate

structure KeyList where
  names : List String
  ascending : names.Pairwise (· < ·)
  deriving DecidableEq

namespace KeyList

instance : Repr KeyList := ⟨fun keys => reprPrec keys.names⟩

def empty : KeyList := ⟨[], .nil⟩

end KeyList

/-- A value of the template data. In an object the values stand in the order of their keys. -/
inductive Value where
  | null
  | bool (value : Bool)
  | number (value : Number)
  | string (text : String)
  | array (items : List Value)
  | object (keys : KeyList) (values : List Value)
  deriving Repr

inductive Value.Kind where
  | null
  | bool
  | number
  | string
  | array
  | object
  deriving DecidableEq, Repr

namespace Value

def kind : Value → Kind
  | .null => .null
  | .bool _ => .bool
  | .number _ => .number
  | .string _ => .string
  | .array _ => .array
  | .object _ _ => .object

def isNull : Value → Bool
  | .null => true
  | _ => false

def emptyObject : Value := .object .empty []

/-- The keys of an object with their values. Keys without a value, or values without a key, are no
part of the object. A value that is no object has no entries. -/
def entries : Value → List (String × Value)
  | .object keys values => keys.names.zip values
  | _ => []

/-! ### Objects from entries in any order -/

/-- Puts a key among ascending keys, unless it is one of them. -/
def insertKey (key : String) : List String → List String
  | [] => [key]
  | k :: rest =>
    if key < k then key :: k :: rest
    else if k < key then k :: insertKey key rest
    else k :: rest

theorem mem_insertKey {key k : String} {ks : List String} :
    k ∈ insertKey key ks → k = key ∨ k ∈ ks := by
  induction ks with
  | nil => simp [insertKey]
  | cons first rest ih =>
    simp only [insertKey]
    split
    · simp
    · split
      · simp only [List.mem_cons]
        rintro (h | h)
        · exact .inr (.inl h)
        · exact (ih h).imp id .inr
      · exact .inr

theorem pairwise_insertKey {key : String} {ks : List String} (h : ks.Pairwise (· < ·)) :
    (insertKey key ks).Pairwise (· < ·) := by
  induction ks with
  | nil => simp [insertKey]
  | cons first rest ih =>
    rw [List.pairwise_cons] at h
    simp only [insertKey]
    split
    next before =>
      refine List.pairwise_cons.mpr ⟨fun k member => ?_, List.pairwise_cons.mpr h⟩
      rcases List.mem_cons.mp member with rfl | later
      · exact before
      · exact String.lt_trans before (h.1 k later)
    next =>
      split
      next after =>
        refine List.pairwise_cons.mpr ⟨fun k member => ?_, ih h.2⟩
        rcases mem_insertKey member with rfl | later
        · exact after
        · exact h.1 k later
      next => exact List.pairwise_cons.mpr h

/-- The keys that occur in a list, in ascending order and once each. -/
def sortedKeys : List String → KeyList
  | [] => .empty
  | key :: rest =>
    let keys := sortedKeys rest
    ⟨insertKey key keys.names, pairwise_insertKey keys.ascending⟩

/-- The object with the given entries. Of entries with equal keys the last one counts. -/
def ofEntries (entries : List (String × Value)) : Value :=
  let keys := sortedKeys (entries.map (·.1))
  .object keys (keys.names.filterMap fun key => entries.reverse.lookup key)

end Value

end BraceTemplate
