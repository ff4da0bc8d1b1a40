import BraceTemplate.Proofs.Meaning
import BraceTemplate.Proofs.Walking

/-!
# What a rendering depends on

## Main results

`scope_rebases`: a program inside a scope renders as it does on the value that the scope leads to,
provided that it shows no path and calls no helper.

`render_eq_of_avoids`: a program that avoids a key of the data renders the same whatever the data
holds under that key.

## Proof strategy

Both compare two renderings of one program that stand at different places or in different data.
Below these places they find the same values, and this is kept by every op that goes further down.
So one induction over the program, `Program.meaning_congr`, serves for both.
-/

namespace BraceTemplate

/-! ### Leaf ops at all depths -/

def Program.AllLeaves (holds : Leaf → Prop) : Program → Prop
  | .empty => True
  | .leaf op rest => holds op ∧ rest.AllLeaves holds
  | .region _ body rest => body.AllLeaves holds ∧ rest.AllLeaves holds

instance Program.decidableAllLeaves (holds : Leaf → Prop) [DecidablePred holds] :
    (program : Program) → Decidable (program.AllLeaves holds)
  | .empty => .isTrue trivial
  | .leaf op rest =>
    have := rest.decidableAllLeaves holds
    inferInstanceAs (Decidable (holds op ∧ rest.AllLeaves holds))
  | .region _ body rest =>
    have := body.decidableAllLeaves holds
    have := rest.decidableAllLeaves holds
    inferInstanceAs (Decidable (body.AllLeaves holds ∧ rest.AllLeaves holds))

theorem Program.AllLeaves.imp {holds also : Leaf → Prop} (implies : ∀ op, holds op → also op)
    {program : Program} (all : program.AllLeaves holds) : program.AllLeaves also := by
  induction program with
  | empty => trivial
  | leaf op rest ih => exact ⟨implies op all.1, ih all.2⟩
  | region op body rest ihBody ihRest => exact ⟨ihBody all.1, ihRest all.2⟩

theorem Program.AllLeaves.of_forall {holds : Leaf → Prop} (all : ∀ op, holds op)
    (program : Program) : program.AllLeaves holds := by
  induction program with
  | empty => trivial
  | leaf op rest ih => exact ⟨all op, ih⟩
  | region op body rest ihBody ihRest => exact ⟨ihBody, ihRest⟩

/-- The op is no call of a helper, which could look at all of the data. -/
def Leaf.CallsNothing : Leaf → Prop
  | .text _ | .value _ | .path _ => True
  | .call _ _ => False

/-- The op shows no path and is no call. -/
def Leaf.Placeless : Leaf → Prop
  | .text _ | .value _ => True
  | .path _ | .call _ _ => False

instance : DecidablePred Leaf.CallsNothing
  | .text _ | .value _ | .path _ => .isTrue trivial
  | .call _ _ => .isFalse id

instance : DecidablePred Leaf.Placeless
  | .text _ | .value _ => .isTrue trivial
  | .path _ | .call _ _ => .isFalse id

def Program.CallsNothing (program : Program) : Prop :=
  program.AllLeaves Leaf.CallsNothing

def Program.Placeless (program : Program) : Prop :=
  program.AllLeaves Leaf.Placeless

instance : DecidablePred Program.CallsNothing :=
  Program.decidableAllLeaves Leaf.CallsNothing

instance : DecidablePred Program.Placeless :=
  Program.decidableAllLeaves Leaf.Placeless

/-! ### Places that look alike -/

section

variable {access : DataAccess} {data other : Value} {path otherPath : List Key}

/-- A region adds the same at two places that show the same values below them, if its body does. -/
theorem Region.meaning_congr
    (values : ∀ more target, valueBelow data access (path ++ more) target =
      valueBelow other access (otherPath ++ more) target)
    {body otherBody : List Key → String}
    (bodies : ∀ more, body (path ++ more) = otherBody (otherPath ++ more))
    (op : Region) (more : List Key) :
    op.meaning data access body (path ++ more) =
      op.meaning other access otherBody (otherPath ++ more) := by
  cases op with
  | scope target =>
    simp only [meaning, List.append_assoc]
    exact bodies (more ++ Key.ofPath target)
  | has target =>
    rw [meaning_has, meaning_has, values more target, bodies more]
  | each target =>
    -- The loops see the same container, so they go through the same keys.
    have container := values (more ++ Key.ofPath target) ""
    have rounds (key : Key) := bodies (more ++ Key.ofPath target ++ [key])
    simp only [← List.append_assoc] at container rounds
    rw [meaning_each, meaning_each, container]
    simp only [rounds]
  | filter name change => simp only [meaning, bodies]

/-- If two places show the same values below them, and the leaf ops of a program give the same text
there, so does the program. -/
theorem Program.meaning_congr
    (values : ∀ more target, valueBelow data access (path ++ more) target =
      valueBelow other access (otherPath ++ more) target)
    (program : Program)
    (leaves : program.AllLeaves fun op => ∀ more,
      (Rendering.standing data access (path ++ more)).leafText op =
        (Rendering.standing other access (otherPath ++ more)).leafText op)
    (more : List Key) :
    program.meaning data access (path ++ more) =
      program.meaning other access (otherPath ++ more) := by
  induction program generalizing more with
  | empty => rfl
  | leaf op rest ih => rw [meaning, meaning, leaves.1 more, ih leaves.2 more]
  | region op body rest ihBody ihRest =>
    have region := Region.meaning_congr values (ihBody leaves.1) op more
    rw [meaning, meaning, region, ihRest leaves.2 more]

theorem Program.Placeless.meaning_congr
    (values : ∀ more target, valueBelow data access (path ++ more) target =
      valueBelow other access (otherPath ++ more) target)
    {program : Program} (placeless : program.Placeless) (more : List Key) :
    program.meaning data access (path ++ more) =
      program.meaning other access (otherPath ++ more) := by
  refine Program.meaning_congr values program (AllLeaves.imp ?_ placeless) more
  intro op isPlaceless more
  cases op with
  | text text => rfl
  | value target => rw [Rendering.leafText_value, Rendering.leafText_value, values more target]
  | path target => exact isPlaceless.elim
  | call name helper => exact isPlaceless.elim

theorem Program.CallsNothing.meaning_congr
    (values : ∀ more target, valueBelow data access (path ++ more) target =
      valueBelow other access (path ++ more) target)
    {program : Program} (callsNothing : program.CallsNothing) (more : List Key) :
    program.meaning data access (path ++ more) = program.meaning other access (path ++ more) := by
  refine Program.meaning_congr values program (AllLeaves.imp ?_ callsNothing) more
  intro op isNoCall more
  cases op with
  | text text => rfl
  | value target => rw [Rendering.leafText_value, Rendering.leafText_value, values more target]
  -- A path may be shown, as it is the same on both sides.
  | path target => rfl
  | call name helper => exact isNoCall.elim

end

/-! ### Rebasing -/

/-- The value that keys lead to, and null if they lead nowhere. -/
def Value.reached (data : Value) (keys : List Key) : Value :=
  (walk lookup data keys).getD .null

/-- What is below a path is found in the value that the path leads to, without the rest of the
data. -/
private theorem valueBelow_append (data : Value) (path more : List Key) (target : String) :
    valueBelow data .standard (path ++ more) target =
      valueBelow (data.reached path) .standard more target := by
  rw [valueBelow_standard, valueBelow_standard, walk_append, Value.reached]
  cases walk Value.lookup data path with
  | some value => rfl
  | none =>
    -- Below null there is nothing either. Null itself is found there, but it counts as absent.
    cases more with
    | nil => exact (Value.resolve_null target).symm
    | cons key more => rfl

theorem Program.Placeless.meaning_reached {program : Program} (placeless : program.Placeless)
    (data : Value) (path : List Key) :
    program.meaning data .standard path = program.meaning (data.reached path) .standard [] := by
  have below (more : List Key) (target : String) :
      valueBelow data .standard (path ++ more) target =
        valueBelow (data.reached path) .standard ([] ++ more) target :=
    valueBelow_append data path more target
  have same := placeless.meaning_congr below []
  rw [List.append_nil, List.append_nil] at same
  exact same

/-- A program that shows no path and calls no helper renders inside a scope as it does alone on the
value that the path of the scope leads to, or on null if it leads nowhere. So two scopes that lead
to the same value render the same, whatever the data around it and whatever the paths. -/
theorem scope_rebases (program : Program) (placeless : program.Placeless) :
    (∀ (data : Value) (path : String),
      (Program.single (.scope path program)).render data .standard =
        program.render (data.reached (Key.ofPath path)) .standard) ∧
    ∀ (data other : Value) (path otherPath : String),
      data.reached (Key.ofPath path) = other.reached (Key.ofPath otherPath) →
      (Program.single (.scope path program)).render data .standard =
        (Program.single (.scope otherPath program)).render other .standard := by
  have rebased (data : Value) (path : String) :
      (Program.single (.scope path program)).render data .standard =
        program.render (data.reached (Key.ofPath path)) .standard := by
    rw [Program.render_eq, Program.render_eq, Program.meaning_single]
    exact placeless.meaning_reached data (Key.ofPath path)
  refine ⟨rebased, ?_⟩
  intro data other path otherPath same
  rw [rebased, rebased, same]

/-- A path that passes through an array and one that leads nowhere. -/
theorem scope_rebases_into_array :
    ∃ (program : Program) (data object : Value), program.Placeless ∧
      (Program.single (.scope ".a.1" program)).render data .standard =
        program.render (data.reached (Key.ofPath ".a.1")) .standard ∧
      (Program.single (.scope ".b.c" program)).render data .standard =
        program.render (data.reached (Key.ofPath ".b.c")) .standard ∧
      data.reached (Key.ofPath ".a.1") = object ∧ data.reached (Key.ofPath ".b.c") = .null ∧
      (Program.single (.scope ".a.1" program)).render data .standard = "[false]false;" ∧
      (Program.single (.scope ".b.c" program)).render data .standard = ";" := by
  let program : Program := .ofOps [
    .has ".b" (.single (.filter "list" (fun text => "[" ++ text ++ "]") (.single (.value ".b")))),
    .each "" (.single (.value "")), .text ";"]
  let object : Value := .object ⟨["b"], by decide⟩ [.bool false]
  let data : Value := .object ⟨["a", "b"], by decide⟩ [.array [.null, object], .null]
  have placeless : program.Placeless := by decide
  obtain ⟨rebases, -⟩ := scope_rebases program placeless
  exact ⟨program, data, object, placeless, rebases data ".a.1", rebases data ".b.c", rfl, rfl, rfl,
    rfl⟩

/-! ### Keys that are avoided -/

/-- The path has a first name, which is not the key. -/
def Path.LeadsPast (key path : String) : Prop :=
  ∃ first ∈ (Path.names path).head?, first ≠ key

/-- The path has no name, so it stays where it is. -/
def Path.Stays (path : String) : Prop :=
  Path.names path = []

def Leaf.Avoids (key : String) : Leaf → Prop
  | .text _ | .path _ => True
  | .value target => Path.LeadsPast key target
  | .call _ _ => False

/-- Run at the root of the data, the program follows no path that begins with the key, and none but
a test or a scope stays at the root. Below another entry it may do anything but call helpers. -/
def Program.Avoids (key : String) : Program → Prop
  | .empty => True
  | .leaf op rest => op.Avoids key ∧ rest.Avoids key
  | .region (.scope target) body rest =>
    (Path.Stays target ∧ body.Avoids key ∨
      Path.LeadsPast key target ∧ body.CallsNothing) ∧ rest.Avoids key
  | .region (.has target) body rest =>
    (Path.Stays target ∨ Path.LeadsPast key target) ∧ body.Avoids key ∧ rest.Avoids key
  | .region (.each target) body rest =>
    Path.LeadsPast key target ∧ body.CallsNothing ∧ rest.Avoids key
  | .region (.filter _ _) body rest => body.Avoids key ∧ rest.Avoids key

instance (key path : String) : Decidable (Path.LeadsPast key path) :=
  inferInstanceAs (Decidable (∃ first ∈ (Path.names path).head?, first ≠ key))

instance (path : String) : Decidable (Path.Stays path) :=
  inferInstanceAs (Decidable (Path.names path = []))

instance (key : String) : DecidablePred (Leaf.Avoids key)
  | .text _ | .path _ => .isTrue trivial
  | .value target => inferInstanceAs (Decidable (Path.LeadsPast key target))
  | .call _ _ => .isFalse id

instance Program.decidableAvoids (key : String) :
    (program : Program) → Decidable (program.Avoids key)
  | .empty => .isTrue trivial
  | .leaf op rest =>
    have := rest.decidableAvoids key
    inferInstanceAs (Decidable (op.Avoids key ∧ rest.Avoids key))
  | .region (.scope target) body rest =>
    have := body.decidableAvoids key
    have := rest.decidableAvoids key
    inferInstanceAs (Decidable ((Path.Stays target ∧ body.Avoids key ∨
      Path.LeadsPast key target ∧ body.CallsNothing) ∧ rest.Avoids key))
  | .region (.has target) body rest =>
    have := body.decidableAvoids key
    have := rest.decidableAvoids key
    inferInstanceAs (Decidable ((Path.Stays target ∨ Path.LeadsPast key target) ∧
      body.Avoids key ∧ rest.Avoids key))
  | .region (.each target) body rest =>
    have := rest.decidableAvoids key
    inferInstanceAs (Decidable (Path.LeadsPast key target ∧
      body.CallsNothing ∧ rest.Avoids key))
  | .region (.filter _ _) body rest =>
    have := body.decidableAvoids key
    have := rest.decidableAvoids key
    inferInstanceAs (Decidable (body.Avoids key ∧ rest.Avoids key))

/-- Two objects whose entries are the same but for the one under a key, which either may lack. -/
structure Value.SameApartFrom (key : String) (data other : Value) : Prop where
  isObject : data.kind = .object
  otherIsObject : other.kind = .object
  entries : ∀ name, name ≠ key → data.entries.lookup name = other.entries.lookup name

namespace Value.SameApartFrom

variable {key : String} {data other : Value}

theorem lookup_eq (same : SameApartFrom key data other) {name : String} (apart : name ≠ key) :
    data.lookup (.name name) = other.lookup (.name name) := by
  obtain ⟨isObject, otherIsObject, entries⟩ := same
  cases data with
  | object keys values =>
    cases other with
    | object otherKeys otherValues => exact entries name apart
    | null | bool | number | string | array => cases otherIsObject
  | null | bool | number | string | array => cases isObject

private theorem walk_eq (same : SameApartFrom key data other) {path : String}
    (past : Path.LeadsPast key path) (more : List Key) :
    walk lookup data (Key.ofPath path ++ more) = walk lookup other (Key.ofPath path ++ more) := by
  obtain ⟨first, isFirst, apart⟩ := past
  obtain ⟨names, split⟩ : ∃ names, Path.names path = first :: names :=
    List.head?_eq_some_iff.mp isFirst
  rw [Key.ofPath, split, List.map_cons, List.cons_append, walk, walk, same.lookup_eq apart]

theorem valueBelow_eq (same : SameApartFrom key data other) {path : String}
    (past : Path.LeadsPast key path) (more : List Key) (target : String) :
    valueBelow data .standard (Key.ofPath path ++ more) target =
      valueBelow other .standard (Key.ofPath path ++ more) target := by
  rw [valueBelow_standard, valueBelow_standard, same.walk_eq past more]

private theorem valueBelow_root_eq (same : SameApartFrom key data other) {path : String}
    (past : Path.LeadsPast key path) :
    valueBelow data .standard [] path = valueBelow other .standard [] path := by
  have walked := same.walk_eq past []
  rw [List.append_nil] at walked
  rw [valueBelow_standard_root, valueBelow_standard_root, Value.resolve, Value.resolve, walked]

private theorem isSome_valueBelow_root {value : Value} (isObject : value.kind = .object)
    {path : String}
    (stays : Path.Stays path) : (valueBelow value .standard [] path).isSome = true := by
  rw [valueBelow_standard_root, Value.resolve, Key.ofPath, stays]
  cases value with
  | object keys values => rfl
  | null | bool | number | string | array => cases isObject

/-- Below an entry under another key all is the same. -/
private theorem meaning_below_eq (same : SameApartFrom key data other) {path : String}
    (past : Path.LeadsPast key path) {body : Program}
    (callsNothing : body.CallsNothing) (more : List Key) :
    body.meaning data .standard (Key.ofPath path ++ more) =
      body.meaning other .standard (Key.ofPath path ++ more) :=
  callsNothing.meaning_congr (same.valueBelow_eq past) more

theorem meaning_eq (same : SameApartFrom key data other) {program : Program}
    (avoids : program.Avoids key) :
    program.meaning data .standard [] = program.meaning other .standard [] := by
  induction program with
  | empty => rfl
  | leaf op rest ih =>
    rw [Program.meaning, Program.meaning, ih avoids.2]
    congr 1
    have own := avoids.1
    cases op with
    | text text => rfl
    | value target =>
      rw [Rendering.leafText_value, Rendering.leafText_value, same.valueBelow_root_eq own]
    | path target => rfl
    | call name helper => exact own.elim
  | region op body rest ihBody ihRest =>
    rw [Program.meaning, Program.meaning]
    cases op with
    | scope target =>
      obtain ⟨own, behind⟩ := avoids
      rw [ihRest behind]
      congr 1
      rcases own with ⟨stays, inside⟩ | ⟨past, callsNothing⟩
      · -- The body runs at the root again, and it avoids the key itself.
        have here : Key.ofPath target = [] := by rw [Key.ofPath, stays, List.map_nil]
        simp only [Region.meaning, here, List.append_nil]
        exact ihBody inside
      · -- The body runs below another entry, which is the same in both.
        have below := same.meaning_below_eq past callsNothing []
        rw [List.append_nil] at below
        exact below
    | has target =>
      obtain ⟨own, inside, behind⟩ := avoids
      rw [ihRest behind]
      congr 1
      have found : (valueBelow data .standard [] target).isSome =
          (valueBelow other .standard [] target).isSome := by
        rcases own with stays | past
        · -- A test of the root itself holds in both, as an object is not null.
          rw [isSome_valueBelow_root same.isObject stays,
            isSome_valueBelow_root same.otherIsObject stays]
        · rw [same.valueBelow_root_eq past]
      rw [Region.meaning_has, Region.meaning_has, found, ihBody inside]
    | each target =>
      obtain ⟨past, callsNothing, behind⟩ := avoids
      rw [ihRest behind]
      congr 1
      -- The container is below another entry, so the rounds are too.
      have container := same.valueBelow_eq past [] ""
      have rounds (entry : Key) := same.meaning_below_eq past callsNothing [entry]
      rw [List.append_nil] at container
      rw [Region.meaning_each, Region.meaning_each, List.nil_append, container]
      simp only [rounds]
    | filter name change =>
      rw [ihRest avoids.2]
      congr 1
      exact congrArg change (ihBody avoids.1)

end Value.SameApartFrom

/-- A program that avoids a key at the root of the data renders the same text for two objects that
differ at most in the entry under that key. -/
theorem render_eq_of_avoids (key : String) (program : Program) (avoids : program.Avoids key)
    (data other : Value) (same : Value.SameApartFrom key data other) :
    program.render data .standard = program.render other .standard := by
  rw [Program.render_eq, Program.render_eq]
  exact same.meaning_eq avoids

/-- The root is asked whether it is there, and the key is used below another one. -/
theorem render_eq_of_avoids_below :
    ∃ (program : Program) (data other : Value), program.Avoids "k" ∧
      data.SameApartFrom "k" other ∧
      program.render data .standard = program.render other .standard ∧
      program.render other .standard = "xx" := by
  let program : Program := .ofOps [
    .has "" (.single (.scope "." (.single (.value ".a.k")))), .each ".a" (.single (.value "")),
    .scope ".b" (.single (.value ".k"))]
  let nested : Value := .object ⟨["k"], by decide⟩ [.string "x"]
  let data : Value := .object ⟨["a", "k"], by decide⟩ [nested, .bool true]
  let other : Value := .object ⟨["a"], by decide⟩ [nested]
  have avoids : program.Avoids "k" := by decide
  have same : data.SameApartFrom "k" other := by
    refine ⟨rfl, rfl, ?_⟩
    intro name apart
    have entries : data.entries = other.entries ++ [("k", .bool true)] := rfl
    have others : List.lookup name [("k", Value.bool true)] = none := by
      simp [List.lookup_cons, beq_eq_false_iff_ne.mpr apart]
    rw [entries, List.lookup_append, others, Option.or_none]
  exact ⟨program, data, other, avoids, same, render_eq_of_avoids "k" program avoids data other same,
    rfl⟩

end BraceTemplate
