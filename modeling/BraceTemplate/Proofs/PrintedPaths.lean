import BraceTemplate.Proofs.Naming

/-!
# Paths that are shown

## Main result

`printed_path_leads_back`: a path that a rendering shows is found again. Resolved from the data
itself it gives what the op that shows it would resolve as a value, and no other entry of the data
shows the same path. This needs that the names of entries that loops have gone to can be names of a
path.

## Proof strategy

The ambient path of every state that a run comes to is made of the keys of paths in the program and
of the keys that loops have pushed; this goes by induction over the way to the state. So the texts
of all these keys can be names, and what is written of the path is read back as these texts.
-/

namespace BraceTemplate

/-! ### States that a run comes to -/

namespace Rendering

/-- One round of a loop. -/
def round (body : Program) (s : Rendering) (key : Key) : Rendering :=
  ((s.descend [key]).run body).ascend s.path.length

/-- Running a program comes to a state with some ops ahead, to be run at the same depth. The keys
are those that the loops around these ops have pushed, the outermost first. -/
inductive Reaches : Rendering → Program → List Key → Rendering → Program → Prop where
  | start (r : Rendering) (program : Program) : Reaches r program [] r program
  | behindLeaf {r s : Rendering} {op : Leaf} {rest ahead : Program} {pushed : List Key} :
    Reaches (r.write (r.leafText op)) rest pushed s ahead →
    Reaches r (.leaf op rest) pushed s ahead
  | behindRegion {r s : Rendering} {op : Region} {body rest ahead : Program} {pushed : List Key} :
    Reaches (r.run (.region op body .empty)) rest pushed s ahead →
    Reaches r (.region op body rest) pushed s ahead
  | inScope {r s : Rendering} {path : String} {body rest ahead : Program} {pushed : List Key} :
    Reaches (r.descend (Key.ofPath path)) body pushed s ahead →
    Reaches r (.region (.scope path) body rest) pushed s ahead
  | inHas {r s : Rendering} {path : String} {body rest ahead : Program} {pushed : List Key} :
    (r.valueAt path).isSome = true → Reaches r body pushed s ahead →
    Reaches r (.region (.has path) body rest) pushed s ahead
  | inRound {r s : Rendering} {path : String} {body rest ahead : Program} {pushed : List Key}
      {key : Key} (before after : List Key) :
    r.access.visit ((r.descend (Key.ofPath path)).valueAt "") = before ++ key :: after →
    Reaches ((before.foldl (round body) (r.descend (Key.ofPath path))).descend [key]) body pushed
      s ahead →
    Reaches r (.region (.each path) body rest) (key :: pushed) s ahead
  | inFilter {r s : Rendering} {name : String} {change : String → String}
      {body rest ahead : Program} {pushed : List Key} :
    Reaches { r with output := "" } body pushed s ahead →
    Reaches r (.region (.filter name change) body rest) pushed s ahead

private theorem foldl_round (body : Program) (keys : List Key) (r : Rendering) :
    keys.foldl (round body) r =
      r.write (String.join (keys.map fun key =>
        body.meaning r.data r.access (r.path ++ [key]))) :=
  foldl_visit (run_eq body) keys r

/-- The state is one of the same rendering, at a path that goes on from the given one by keys that
are pushed by loops or can be names. -/
structure IsBelow (r : Rendering) (pushed : List Key) (s : Rendering) : Prop where
  data_eq : s.data = r.data
  access_eq : s.access = r.access
  path_eq : ∃ keys, s.path = r.path ++ keys ∧ ∀ key ∈ keys, key ∈ pushed ∨ Path.IsName key.text

/-- What is below a state that is further down is below the state itself. -/
private theorem IsBelow.of_descend {r s : Rendering} {keys pushed more : List Key}
    (below : IsBelow (r.descend keys) pushed s)
    (known : ∀ key ∈ keys, key ∈ more ∨ Path.IsName key.text) (included : pushed ⊆ more) :
    IsBelow r more s := by
  obtain ⟨data, access, further, path, furtherKnown⟩ := below
  refine ⟨data, access, keys ++ further, ?_, ?_⟩
  · rw [path, descend, List.append_assoc]
  · intro key member
    rcases List.mem_append.mp member with isFirst | isFurther
    · exact known key isFirst
    · exact (furtherKnown key isFurther).imp_left fun isPushed => included isPushed

theorem Reaches.isBelow {r s : Rendering} {program ahead : Program} {pushed : List Key}
    (reached : Reaches r program pushed s ahead) : IsBelow r pushed s := by
  induction reached with
  | start r program => exact ⟨rfl, rfl, [], (List.append_nil _).symm, List.forall_mem_nil _⟩
  | behindLeaf _ ih => exact ⟨ih.data_eq, ih.access_eq, ih.path_eq⟩
  | behindRegion _ ih =>
    -- Behind a region the path is as it was in front of it.
    rw [run_eq] at ih
    exact ⟨ih.data_eq, ih.access_eq, ih.path_eq⟩
  | inScope _ ih =>
    refine ih.of_descend ?_ (List.Subset.refl _)
    intro key member
    exact .inr (Key.isName_of_mem_ofPath member)
  | inHas _ _ ih => exact ih
  | @inRound r s path body _ _ pushed key before _ _ _ ih =>
    -- The rounds in front of this one only write.
    rw [foldl_round] at ih
    have inRound : IsBelow ((r.descend (Key.ofPath path)).descend [key]) pushed s :=
      ⟨ih.data_eq, ih.access_eq, ih.path_eq⟩
    have inLoop : IsBelow (r.descend (Key.ofPath path)) (key :: pushed) s :=
      inRound.of_descend (List.forall_mem_singleton.mpr (.inl List.mem_cons_self))
        (List.subset_cons_self key pushed)
    refine inLoop.of_descend ?_ (List.Subset.refl _)
    intro entered member
    exact .inr (Key.isName_of_mem_ofPath member)
  | inFilter _ ih => exact ⟨ih.data_eq, ih.access_eq, ih.path_eq⟩

end Rendering

/-- The names among the keys can be names of a path. An index is always one in digits. -/
def Key.Named (keys : List Key) : Prop :=
  ∀ name, Key.name name ∈ keys → Path.IsName name

private theorem Key.Named.isName_text {keys : List Key} (named : Key.Named keys) :
    ∀ key ∈ keys, Path.IsName key.text := by
  intro key member
  cases key with
  | index place => exact Key.isName_text_index place
  | name word => exact named word member

/-- Rendering data over the standard access comes to a state, and the names that the loops around it
have pushed can be names of a path. -/
def Program.StandsAt (program : Program) (data : Value) (point : Rendering) : Prop :=
  ∃ pushed ahead, Rendering.Reaches (.initial data .standard) program pushed point ahead ∧
    Key.Named pushed

namespace Program.StandsAt

variable {program : Program} {data : Value} {point : Rendering}

theorem isName_of_mem_path (stands : program.StandsAt data point) :
    ∀ key ∈ point.path, Path.IsName key.text := by
  obtain ⟨pushed, ahead, reached, named⟩ := stands
  obtain ⟨keys, path, known⟩ := reached.isBelow.path_eq
  intro key member
  rw [path] at member
  rcases known key member with isPushed | isName
  · exact named.isName_text key isPushed
  · exact isName

private theorem valueAt_eq (stands : program.StandsAt data point) (path : String) :
    point.valueAt path = valueBelow data .standard point.path path := by
  obtain ⟨pushed, ahead, reached, -⟩ := stands
  have sameData : point.data = data := reached.isBelow.data_eq
  have sameAccess : point.access = .standard := reached.isBelow.access_eq
  rw [← sameData, ← sameAccess]
  rfl

end Program.StandsAt

/-! ### Entries of the data -/

namespace Value

/-- Which member of a value a key leads to. -/
def rank? : Value → Key → Option Nat
  | .array items, .index place => (some place).filter (· < items.length)
  | .array items, .name word => (Key.place? word).filter (· < items.length)
  | .object keys values, key => (Value.object keys values).entries.findIdx? (key.text == ·.1)
  | _, _ => none

/-- The member that is reached by a rank at each level. -/
def memberAt (value : Value) : List Nat → Option Value
  | [] => some value
  | rank :: more => value.members[rank]?.bind (·.memberAt more)

/-- The entry that keys lead to, by its rank at each level. -/
def address (value : Value) : List Key → Option (List Nat)
  | [] => some []
  | key :: more =>
    (value.rank? key).bind fun rank =>
      value.members[rank]?.bind fun member => (member.address more).map (rank :: ·)

private theorem getElem?_filter_lt (items : List Value) (rank? : Option Nat) :
    (rank?.filter (· < items.length)).bind (items[·]?) = rank?.bind (items[·]?) := by
  cases rank? with
  | none => rfl
  | some rank =>
    by_cases inside : rank < items.length
    · simp [Option.filter, inside]
    · simp [Option.filter, inside]

private theorem lookup_eq_findIdx? (word : String) (entries : List (String × Value)) :
    entries.lookup word =
      (entries.findIdx? (word == ·.1)).bind ((entries.map (·.2))[·]?) := by
  induction entries with
  | nil => rfl
  | cons entry entries ih =>
    rw [List.lookup_cons, List.findIdx?_cons]
    cases found : word == entry.1 with
    | true => rfl
    | false =>
      rw [ih]
      cases entries.findIdx? (word == ·.1) <;> rfl

/-- A key leads to the member that has its rank. -/
private theorem lookup_eq_member (value : Value) (key : Key) :
    value.lookup key = (value.rank? key).bind (value.members[·]?) := by
  cases value with
  | array items =>
    cases key with
    | index place => exact (getElem?_filter_lt items (some place)).symm
    | name word =>
      rw [rank?, members, getElem?_filter_lt items (Key.place? word), lookup]
      cases Key.place? word <;> rfl
  | object keys values => exact lookup_eq_findIdx? key.text _
  | null | bool | number | string => rfl

/-- Keys lead to the entry that has their address. -/
private theorem walk_eq_memberAt (value : Value) (keys : List Key) :
    walk lookup value keys = (value.address keys).bind value.memberAt := by
  induction keys generalizing value with
  | nil => rfl
  | cons key keys ih =>
    rw [walk, address, lookup_eq_member]
    cases value.rank? key with
    | none => rfl
    | some rank =>
      simp only [Option.bind_some]
      cases found : value.members[rank]? with
      | none => rfl
      | some member =>
        simp only [Option.bind_some, ih member]
        cases member.address keys with
        | none => rfl
        | some ranks => simp [memberAt, found]

private theorem rank?_congr {key other : Key} (same : key.text = other.text) (value : Value) :
    value.rank? key = value.rank? other := by
  have byName (key : Key) : value.rank? (.name key.text) = value.rank? key := by
    cases key with
    | name word => rfl
    | index place =>
      cases value with
      | array items => rw [rank?, rank?, Key.place?_text_index]
      | object keys values => rfl
      | null | bool | number | string => rfl
  rw [← byName key, same, byName]

/-- Keys with the same texts lead to the same entry. -/
private theorem address_congr {keys others : List Key}
    (same : keys.map Key.text = others.map Key.text)
    (value : Value) : value.address keys = value.address others := by
  induction keys generalizing others value with
  | nil =>
    obtain rfl : others = [] := by simpa using same.symm
    rfl
  | cons key keys ih =>
    obtain ⟨other, others, rfl, first, behind⟩ := List.map_eq_cons_iff.mp same.symm
    simp only [address, rank?_congr first.symm, ih behind.symm]

end Value

/-! ### Paths as they are shown -/

/-- What is written of keys leads back to where the keys lead. -/
theorem resolve_written {keys : List Key} (areNames : ∀ key ∈ keys, Path.IsName key.text)
    {path : String} (dotted : Path.IsDotted path) (data : Value) :
    data.resolve (Key.written keys ++ path) = valueBelow data .standard keys path := by
  have texts : (keys.map fun key => Key.name key.text).map Key.text = keys.map Key.text := by
    rw [List.map_map]
    rfl
  -- What is written may be followed from the data first, and then goes to the texts of the keys.
  have followed := valueBelow_standard_append data [] (Key.written keys) dotted
  rw [List.nil_append, Key.ofPath_written areNames, valueBelow_congr texts] at followed
  exact followed.symm

private theorem Key.map_text_eq_of_written_eq {keys others : List Key}
    (areNames : ∀ key ∈ keys, Path.IsName key.text)
    (othersAreNames : ∀ key ∈ others, Path.IsName key.text)
    (same : written keys = written others) : keys.map text = others.map text := by
  rw [← names_written areNames, same, names_written othersAreNames]

/-- Let a rendering over the standard access come to a state, while the names that loops around it
have pushed can be names of a path. A path that is empty or begins with a dot, as it is shown there,
resolves from the data to what its value is there. Keys that can be names are told apart by what is
written of them. So two such states of one rendering that are at different entries of the data show
different paths, where an entry is known by the ranks of the members that lead to it. -/
theorem printed_path_leads_back (data : Value) (program : Program) :
    (∀ point, program.StandsAt data point → ∀ path, Path.IsDotted path →
      data.resolve (point.leafText (.path path)) = point.valueAt path) ∧
    (∀ keys others, Key.Named keys → Key.Named others →
      Key.written keys = Key.written others → keys.map Key.text = others.map Key.text) ∧
    (∀ keys, walk Value.lookup data keys = (data.address keys).bind data.memberAt) ∧
    ∀ point other, program.StandsAt data point → program.StandsAt data other →
      data.address point.path ≠ data.address other.path →
      point.leafText (.path "") ≠ other.leafText (.path "") := by
  refine ⟨?_, ?_, data.walk_eq_memberAt, ?_⟩
  · intro point stands path dotted
    rw [stands.valueAt_eq]
    exact resolve_written stands.isName_of_mem_path dotted data
  · intro keys others named othersNamed same
    exact Key.map_text_eq_of_written_eq named.isName_text othersNamed.isName_text same
  · intro point other stands otherStands apart samePath
    have written : Key.written point.path ++ "" = Key.written other.path ++ "" := samePath
    rw [String.append_empty, String.append_empty] at written
    have texts := Key.map_text_eq_of_written_eq stands.isName_of_mem_path
      otherStands.isName_of_mem_path written
    exact apart (Value.address_congr texts data)

/-- Two rounds of a loop over an object, inside a loop over an array. -/
theorem printed_path_leads_back_nested :
    ∃ (data : Value) (program : Program) (point other : Rendering),
      program.StandsAt data point ∧ program.StandsAt data other ∧
      data.resolve (point.leafText (.path "")) = point.valueAt "" ∧
      data.resolve (other.leafText (.path ".1")) = other.valueAt ".1" ∧
      data.address point.path = some [0, 0, 0] ∧ data.address other.path = some [0, 0, 1] ∧
      point.leafText (.path "") ≠ other.leafText (.path "") ∧
      point.leafText (.path "") = ".a.0.b" ∧ point.valueAt "" = none ∧
      (other.valueAt ".1").map Value.text = some "x" ∧
      Key.Named point.path ∧ Key.Named [.name "a", .name "0", .name "b"] ∧
      point.path.map Key.text = ["a", "0", "b"] := by
  let object : Value :=
    .object ⟨["b", "c"], by decide⟩ [.null, .array [.bool true, .string "x"]]
  let data : Value := .object ⟨["a"], by decide⟩ [.array [object]]
  let program : Program := .single (.each ".a" (.single (.each "" (.single (.path "")))))
  have firstReached : Rendering.Reaches (.initial data .standard) program
      [.index 0, .name "b"] _ _ :=
    .inRound [] [] rfl (.inRound [] [.name "c"] rfl (.start _ _))
  have secondReached : Rendering.Reaches (.initial data .standard) program
      [.index 0, .name "c"] _ _ :=
    .inRound [] [] rfl (.inRound [.name "b"] [] rfl (.start _ _))
  have firstNamed : Key.Named [.index 0, .name "b"] := by
    intro name member
    obtain rfl : name = "b" := by simpa using member
    decide
  have secondNamed : Key.Named [.index 0, .name "c"] := by
    intro name member
    obtain rfl : name = "c" := by simpa using member
    decide
  have keysNamed : Key.Named [.name "a", .index 0, .name "b"] := by
    intro name member
    obtain rfl | rfl : name = "a" ∨ name = "b" := by simpa using member
    all_goals decide
  have namesNamed : Key.Named [.name "a", .name "0", .name "b"] := by
    intro name member
    obtain rfl | rfl | rfl : name = "a" ∨ name = "0" ∨ name = "b" := by simpa using member
    all_goals decide
  have first : program.StandsAt data _ := ⟨_, _, firstReached, firstNamed⟩
  have second : program.StandsAt data _ := ⟨_, _, secondReached, secondNamed⟩
  obtain ⟨leadsBack, toldApart, -, apart⟩ := printed_path_leads_back data program
  refine ⟨data, program, _, _, first, second, ?_, ?_, rfl, rfl, ?_, rfl, rfl, rfl, keysNamed,
    namesNamed, ?_⟩
  · exact leadsBack _ first "" (by decide)
  · exact leadsBack _ second ".1" (by decide)
  · exact apart _ _ first second (by decide)
  · exact toldApart _ _ keysNamed namesNamed rfl

end BraceTemplate
