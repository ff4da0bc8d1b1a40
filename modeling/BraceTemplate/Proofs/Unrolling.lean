import BraceTemplate.Proofs.Dependence
import BraceTemplate.Proofs.Naming
import BraceTemplate.Program.Stock

/-!
# Loops and their rounds

## Main result

`each_unrolls`: over the standard access, a loop runs as one scope for each entry does, in the order
of the entries, if the names of the entries can be names of a path.

## Proof strategy

In a round of the loop the ambient path ends in the key of the entry, and in the scope it ends in a
name, which for the item of an array is the index in decimal digits. So the two bodies run at
different places. But these places have the same keys as texts, and a program means the same at
places that have: it finds the same values there, shows the same path, and its helpers see the same.
-/

namespace BraceTemplate

/-! ### Places with the same texts -/

private theorem Rendering.ambient_standing_congr {keys others : List Key}
    (same : keys.map Key.text = others.map Key.text) (data : Value) :
    (standing data .standard keys).ambient = (standing data .standard others).ambient := by
  have current : walk Value.lookup data keys = walk Value.lookup data others :=
    walk_lookup_congr same data
  have path : Key.written keys = Key.written others := Key.written_congr same
  change Ambient.mk data (walk Value.lookup data keys) (Key.written keys) .standard =
    Ambient.mk data (walk Value.lookup data others) (Key.written others) .standard
  rw [current, path]

private theorem Rendering.leafText_standing_congr {keys others : List Key}
    (same : keys.map Key.text = others.map Key.text) (data : Value) (op : Leaf) :
    (standing data .standard keys).leafText op = (standing data .standard others).leafText op := by
  cases op with
  | text text => rfl
  | value target => rw [leafText_value, leafText_value, valueBelow_congr same]
  | path target =>
    change Key.written keys ++ target = Key.written others ++ target
    rw [Key.written_congr same]
  | call name helper => exact congrArg helper (ambient_standing_congr same data)

/-- The standard access makes no difference between keys that have the same texts. -/
theorem Program.meaning_standard_congr {keys others : List Key}
    (same : keys.map Key.text = others.map Key.text) (data : Value) (program : Program) :
    program.meaning data .standard keys = program.meaning data .standard others := by
  -- Going further down by the same keys keeps the texts the same.
  have alike (more : List Key) : (keys ++ more).map Key.text = (others ++ more).map Key.text := by
    rw [List.map_append, List.map_append, same]
  have leaves : program.AllLeaves fun op => ∀ more,
      (Rendering.standing data .standard (keys ++ more)).leafText op =
        (Rendering.standing data .standard (others ++ more)).leafText op :=
    .of_forall (fun op more => Rendering.leafText_standing_congr (alike more) data op) program
  have values (more : List Key) (target : String) := valueBelow_congr (alike more) data target
  simpa using Program.meaning_congr values program leaves []

/-! ### Rounds as scopes -/

namespace Program

/-- A scope for each name below a path, all around the same body. -/
def rounds (path : String) (names : List String) (body : Program) : Program :=
  .ofOps (names.map fun name => .scope (path ++ "." ++ name) body)

variable (data : Value) (access : DataAccess) (keys : List Key)

private theorem meaning_ofOps (ops : List Op) :
    (ofOps ops).meaning data access keys =
      String.join (ops.map fun op => op.meaning data access keys) := by
  induction ops with
  | nil => rfl
  | cons op ops ih =>
    rw [List.map_cons, String.join_cons, ← ih]
    exact meaning_cons data access keys op (ofOps ops)

private theorem meaning_rounds (path : String) (names : List String) (body : Program) :
    (rounds path names body).meaning data access keys =
      String.join (names.map fun name =>
        body.meaning data access (keys ++ Key.ofPath (path ++ "." ++ name))) := by
  rw [rounds, meaning_ofOps, List.map_map]
  rfl

end Program

private theorem Key.ofPath_append_name {name : String} (isName : Path.IsName name) (path : String) :
    ofPath (path ++ "." ++ name) = ofPath path ++ [.name name] := by
  rw [ofPath, String.append_assoc, Path.names_append_dot, Path.names_of_isName isName,
    List.map_append]
  rfl

/-- A round that goes to a key means what a scope means that goes to the text of the key. -/
private theorem Program.meaning_round {key : Key} (isName : Path.IsName key.text) (data : Value)
    (keys : List Key) (path : String) (body : Program) :
    body.meaning data .standard (keys ++ Key.ofPath path ++ [key]) =
      body.meaning data .standard (keys ++ Key.ofPath (path ++ "." ++ key.text)) := by
  apply Program.meaning_standard_congr
  rw [Key.ofPath_append_name isName]
  simp [Key.text]

/-- A loop over a value means what scopes mean that go to the texts of its keys. -/
private theorem Op.meaning_each_standard {data value : Value} {keys : List Key} {path : String}
    (resolved : valueBelow data .standard keys path = some value)
    (areNames : ∀ key ∈ value.keys, Path.IsName key.text) (body : Program) :
    (Op.each path body).meaning data .standard keys =
      (Program.rounds path (value.keys.map Key.text) body).meaning data .standard keys := by
  -- The loop first goes down its path and then resolves what is there.
  have container : valueBelow data .standard (keys ++ Key.ofPath path) "" = some value := by
    rw [valueBelow_standard_ofPath, resolved]
  rw [meaning, Region.meaning_each, container, Program.meaning_rounds, List.map_map]
  congr 1
  apply List.map_congr_left
  intro key member
  exact Program.meaning_round (areNames key member) data keys path body

theorem Op.meaning_each_of_no_keys {data : Value} {keys : List Key} {path : String}
    (none : ∀ value, valueBelow data .standard keys path = some value → value.keys = [])
    (body : Program) : (Op.each path body).meaning data .standard keys = "" := by
  have visited : DataAccess.standard.visit
      (valueBelow data .standard (keys ++ Key.ofPath path) "") = [] := by
    rw [valueBelow_standard_ofPath]
    cases resolved : valueBelow data .standard keys path with
    | none => rfl
    | some value => exact none value resolved
  rw [meaning, Region.meaning_each, visited]
  rfl

/-- Over the standard access, a loop over an array runs as scopes do that go to its indices, one
after the other in their order. A loop over an object runs as scopes that go to its names, if these
are not empty and have no dots. A loop over anything else, or over nothing, changes nothing. -/
theorem each_unrolls (data : Value) (keys : List Key) (output path : String) (body : Program) :
    (∀ items, valueBelow data .standard keys path = some (.array items) →
      Rendering.run ⟨data, .standard, keys, output⟩ (.single (.each path body)) =
        Rendering.run ⟨data, .standard, keys, output⟩
          (.rounds path ((List.range items.length).map toString) body)) ∧
    (∀ value, valueBelow data .standard keys path = some value → value.kind = .object →
      (∀ entry ∈ value.entries, Path.IsName entry.1) →
      Rendering.run ⟨data, .standard, keys, output⟩ (.single (.each path body)) =
        Rendering.run ⟨data, .standard, keys, output⟩
          (.rounds path (value.entries.map (·.1)) body)) ∧
    ((∀ value, valueBelow data .standard keys path = some value →
        value.kind ≠ .array ∧ value.kind ≠ .object) →
      Rendering.run ⟨data, .standard, keys, output⟩ (.single (.each path body)) =
        ⟨data, .standard, keys, output⟩) := by
  simp only [Rendering.run_eq, Program.meaning_single]
  refine ⟨?_, ?_, ?_⟩
  · intro items resolved
    have areNames : ∀ key ∈ (Value.array items).keys, Path.IsName key.text :=
      List.forall_mem_map.mpr fun place _ => Key.isName_text_index place
    have texts : (Value.array items).keys.map Key.text =
        (List.range items.length).map toString := by
      rw [Value.keys, List.map_map]
      rfl
    rw [Op.meaning_each_standard resolved areNames, texts]
  · intro value resolved isObject names
    cases value with
    | object objectKeys values =>
      have areNames : ∀ key ∈ (Value.object objectKeys values).keys, Path.IsName key.text :=
        List.forall_mem_map.mpr names
      have texts : (Value.object objectKeys values).keys.map Key.text =
          (Value.object objectKeys values).entries.map (·.1) := by
        rw [Value.keys, List.map_map]
        rfl
      rw [Op.meaning_each_standard resolved areNames, texts]
    | null | bool | number | string | array => cases isObject
  · intro noContainer
    have none : ∀ value, valueBelow data .standard keys path = some value → value.keys = [] := by
      intro value resolved
      obtain ⟨notArray, notObject⟩ := noContainer value resolved
      cases value with
      | array items => exact absurd rfl notArray
      | object objectKeys values => exact absurd rfl notObject
      | null | bool | number | string => rfl
    rw [Op.meaning_each_of_no_keys none, String.append_empty]

/-- Below an item of an array: a loop over an array, one over an object and one over a scalar, with
a body that shows the path, calls a helper and changes its output. -/
theorem each_unrolls_nested :
    ∃ (data : Value) (items : List Value) (value : Value) (body : Program),
      valueBelow data .standard [.index 1] ".a" = some (.array items) ∧
      Rendering.run ⟨data, .standard, [.index 1], "<"⟩ (.single (.each ".a" body)) =
        Rendering.run ⟨data, .standard, [.index 1], "<"⟩
          (.rounds ".a" ((List.range items.length).map toString) body) ∧
      valueBelow data .standard [.index 1] ".b" = some value ∧ value.kind = .object ∧
      (∀ entry ∈ value.entries, Path.IsName entry.1) ∧
      Rendering.run ⟨data, .standard, [.index 1], "<"⟩ (.single (.each ".b" body)) =
        Rendering.run ⟨data, .standard, [.index 1], "<"⟩
          (.rounds ".b" (value.entries.map (·.1)) body) ∧
      Rendering.run ⟨data, .standard, [.index 1], "<"⟩ (.single (.each ".a.1" body)) =
        ⟨data, .standard, [.index 1], "<"⟩ ∧
      (Program.rounds ".a" ["0", "1"] body).meaning data .standard [.index 1] =
        ".1.a.0:[];.1.a.1:[true];" ∧
      (Program.rounds ".b" ["0"] body).meaning data .standard [.index 1] = ".1.b.0:[x];" := by
  let items : List Value := [.null, .bool true]
  let value : Value := .object ⟨["0"], by decide⟩ [.string "x"]
  let data : Value := .array [.null, .object ⟨["a", "b"], by decide⟩ [.array items, value]]
  let body : Program := .ofOps [.call "path" Helper.ambientPath, .text ":",
    .filter "list" (Filter.between "[" "]") (.single (.value "")), .text ";"]
  have names : ∀ entry ∈ value.entries, Path.IsName entry.1 :=
    List.forall_mem_singleton.mpr (by decide)
  have scalar : ∀ found, valueBelow data .standard [.index 1] ".a.1" = some found →
      found.kind ≠ .array ∧ found.kind ≠ .object := by
    rintro found ⟨⟩
    decide
  have overArray := (each_unrolls data [.index 1] "<" ".a" body).1 items rfl
  have overObject := (each_unrolls data [.index 1] "<" ".b" body).2.1 value rfl rfl names
  have overScalar := (each_unrolls data [.index 1] "<" ".a.1" body).2.2 scalar
  exact ⟨data, items, value, body, rfl, overArray, rfl, rfl, names, overObject, overScalar, rfl,
    rfl⟩

end BraceTemplate
