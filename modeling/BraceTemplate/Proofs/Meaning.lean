import BraceTemplate.Render
import BraceTemplate.Proofs.Appending

/-!
# What programs mean

Running a program adds to the output a text that depends on the data, the access to it and the
ambient path alone, and leaves all else as it was. That text is the meaning of the program. It is
given by recursion over the program, without a state.
-/

namespace BraceTemplate

variable (data : Value) (access : DataAccess)

/-- The state of a rendering that stands at a path and has no output. -/
def Rendering.standing (path : List Key) : Rendering :=
  ⟨data, access, path, ""⟩

/-- The value at a path below an ambient path. -/
def valueBelow (path : List Key) (target : String) : Option Value :=
  (walk access.lookup data path).bind (access.resolve · target)

theorem valueBelow_standard (path : List Key) (target : String) :
    valueBelow data .standard path target =
      (walk Value.lookup data path).bind (Value.resolve · target) := rfl

theorem valueBelow_standard_root (target : String) :
    valueBelow data .standard [] target = data.resolve target := rfl

theorem Rendering.valueAt_standing_eq (path : List Key) (target : String) :
    (standing data access path).valueAt target = valueBelow data access path target := rfl

theorem Rendering.leafText_value (path : List Key) (target : String) :
    (standing data access path).leafText (.value target) =
      ((valueBelow data access path target).map access.text).getD "" := rfl

/-- What a region adds to the output, from what its body adds at any path. -/
def Region.meaning (op : Region) (body : List Key → String) (path : List Key) : String :=
  match op with
  | .scope p => body (path ++ Key.ofPath p)
  | .has p => if ((Rendering.standing data access path).valueAt p).isSome then body path else ""
  | .each p =>
    let below := path ++ Key.ofPath p
    String.join ((access.visit ((Rendering.standing data access below).valueAt "")).map
      fun key => body (below ++ [key]))
  | .filter _ change => change (body path)

theorem Region.meaning_has (target : String) (body : List Key → String) (path : List Key) :
    (Region.has target).meaning data access body path =
      if (valueBelow data access path target).isSome then body path else "" := rfl

theorem Region.meaning_each (target : String) (body : List Key → String) (path : List Key) :
    (Region.each target).meaning data access body path =
      String.join ((access.visit (valueBelow data access (path ++ Key.ofPath target) "")).map
        fun key => body (path ++ Key.ofPath target ++ [key])) := rfl

/-- What a program adds to the output at a path. -/
def Program.meaning : Program → List Key → String
  | .empty, _ => ""
  | .leaf op rest, path =>
    (Rendering.standing data access path).leafText op ++ rest.meaning path
  | .region op body rest, path =>
    op.meaning data access body.meaning path ++ rest.meaning path

/-- What an op adds to the output at a path. -/
def Op.meaning : Op → List Key → String
  | .leaf op, path => (Rendering.standing data access path).leafText op
  | .region op body, path => op.meaning data access (body.meaning data access) path

/-! ### Running adds the meaning -/

namespace Rendering

variable {data access}

private theorem leafText_standing (r : Rendering) (op : Leaf) :
    (standing r.data r.access r.path).leafText op = r.leafText op := by
  cases op <;> rfl

private theorem valueAt_standing (r : Rendering) (path : String) :
    (standing r.data r.access r.path).valueAt path = r.valueAt path := rfl

/-- A loop whose body adds its meaning adds one meaning for each key. -/
theorem foldl_visit {body : Program}
    (adds : ∀ r : Rendering,
      r.run body = { r with output := r.output ++ body.meaning r.data r.access r.path })
    (keys : List Key) (r : Rendering) :
    keys.foldl (fun (s : Rendering) key => ((s.descend [key]).run body).ascend s.path.length) r =
      { r with output := r.output ++
          String.join (keys.map fun key => body.meaning r.data r.access (r.path ++ [key])) } := by
  induction keys generalizing r with
  | nil => simp
  | cons key keys ih =>
    rw [List.foldl_cons, ih, adds]
    simp [descend, ascend, String.append_assoc]

/-- Running a program adds its meaning to the output and changes nothing else. -/
theorem run_eq (program : Program) (r : Rendering) :
    r.run program =
      { r with output := r.output ++ program.meaning r.data r.access r.path } := by
  induction program generalizing r with
  | empty => simp [run, Program.meaning]
  | leaf op rest ih =>
    rw [run, ih, Program.meaning, leafText_standing]
    simp [write, String.append_assoc]
  | region op body rest ihBody ihRest =>
    cases op with
    | scope path =>
      rw [run, ihRest, ihBody]
      simp [descend, ascend, Program.meaning, Region.meaning, String.append_assoc]
    | has path =>
      rw [run, ihRest]
      simp only [Program.meaning, Region.meaning, valueAt_standing]
      by_cases present : (r.valueAt path).isSome = true
      · simp [present, ihBody, String.append_assoc]
      · simp [present]
    | each path =>
      -- The body is run once per key, so its hypothesis goes through the fold first.
      rw [run]
      simp only [foldl_visit ihBody, ihRest]
      simp [descend, ascend, Program.meaning, Region.meaning, standing, valueAt, here,
        String.append_assoc]
    | filter name change =>
      rw [run, ihRest, ihBody]
      simp [write, Program.meaning, Region.meaning, String.append_assoc]

/-- A body that is run below a path adds its meaning there, and the path is left as it was. -/
theorem ascend_run_descend (r : Rendering) (keys : List Key) (body : Program) :
    ((r.descend keys).run body).ascend r.path.length =
      r.write (body.meaning r.data r.access (r.path ++ keys)) := by
  rw [run_eq]
  simp [write, descend, ascend]

end Rendering

theorem Program.render_eq (program : Program) :
    program.render data access = program.meaning data access [] := by
  rw [render, Rendering.run_eq]
  simp [Rendering.initial]

/-! ### Putting programs together -/

namespace Program

variable (path : List Key)

private theorem readsInOrder_meaning :
    ReadsInOrder (meaning data access · path) (Op.meaning data access · path) (· ++ ·) "" where
  assoc _ _ _ := String.append_assoc
  nothing_join _ := String.empty_append
  join_nothing _ := String.append_empty
  empty := rfl
  leaf _ _ := rfl
  region _ _ _ := rfl
  text_empty := rfl
  text_append _ _ := rfl

@[simp] theorem meaning_consText (text : String) (program : Program) :
    (consText text program).meaning data access path =
      text ++ program.meaning data access path :=
  (readsInOrder_meaning data access path).consText_eq text program

@[simp] theorem meaning_cons (op : Op) (program : Program) :
    (cons op program).meaning data access path =
      op.meaning data access path ++ program.meaning data access path :=
  (readsInOrder_meaning data access path).cons_eq op program

@[simp] theorem meaning_single (op : Op) :
    (single op).meaning data access path = op.meaning data access path :=
  (readsInOrder_meaning data access path).single_eq op

@[simp] theorem meaning_append (first second : Program) :
    (first ++ second).meaning data access path =
      first.meaning data access path ++ second.meaning data access path :=
  (readsInOrder_meaning data access path).append_eq first second

/-- A program means what its ops mean, one after the other. -/
theorem meaning_eq_join_ops (program : Program) :
    program.meaning data access path =
      String.join (program.ops.map fun op => (single op).meaning data access path) := by
  induction program with
  | empty => rfl
  | leaf op rest ih =>
    rw [ops, List.map_cons, String.join_cons, ← ih, meaning_single]
    rfl
  | region op body rest _ ih =>
    rw [ops, List.map_cons, String.join_cons, ← ih, meaning_single]
    rfl

end Program

/-! ### The laws of meaning -/

/-- What it takes for texts, one for each program and path, to follow the ops of the programs. The
text of a program is made of the texts of its ops, and the text of a region comes from the texts of
its body. -/
structure Program.IsMeaning (mean : Program → List Key → String) : Prop where
  ops : ∀ program path,
    mean program path = String.join (program.ops.map fun op => mean (.single op) path)
  text : ∀ text path, mean (.single (.text text)) path = text
  value : ∀ target path, mean (.single (.value target)) path =
    ((valueBelow data access path target).map access.text).getD ""
  path : ∀ target path, mean (.single (.path target)) path =
    String.join (path.map fun key => "." ++ key.text) ++ target
  call : ∀ name helper path, mean (.single (.call name helper)) path =
    helper ⟨data, walk access.lookup data path, String.join (path.map fun key => "." ++ key.text),
      access⟩
  scope : ∀ target body path,
    mean (.single (.scope target body)) path = mean body (path ++ Key.ofPath target)
  has : ∀ target body path, mean (.single (.has target body)) path =
    if (valueBelow data access path target).isSome then mean body path else ""
  each : ∀ target body path, mean (.single (.each target body)) path =
    String.join ((access.visit (valueBelow data access (path ++ Key.ofPath target) "")).map
      fun key => mean body (path ++ Key.ofPath target ++ [key]))
  filter : ∀ name change body path,
    mean (.single (.filter name change body)) path = change (mean body path)

theorem Program.isMeaning_meaning : IsMeaning data access (meaning data access) where
  ops program path := meaning_eq_join_ops data access path program
  text text path := meaning_single data access path (.text text)
  value target path := meaning_single data access path (.value target)
  path target path := meaning_single data access path (.path target)
  call name helper path := meaning_single data access path (.call name helper)
  scope target body path := meaning_single data access path (.scope target body)
  has target body path := meaning_single data access path (.has target body)
  each target body path := meaning_single data access path (.each target body)
  filter name change body path := meaning_single data access path (.filter name change body)

namespace Program.IsMeaning

variable {data access} {mean : Program → List Key → String}

private theorem leaf_eq (laws : IsMeaning data access mean) (op : Leaf) (rest : Program)
    (path : List Key) :
    mean (.leaf op rest) path = (Op.leaf op).meaning data access path ++ mean rest path := by
  have first : mean (.single (.leaf op)) path = (Op.leaf op).meaning data access path := by
    cases op with
    | text text => exact laws.text text path
    | value target => exact laws.value target path
    | path target => exact laws.path target path
    | call name helper => exact laws.call name helper path
  rw [laws.ops (.leaf op rest), Program.ops, List.map_cons, String.join_cons, ← laws.ops rest,
    first]

private theorem region_eq (laws : IsMeaning data access mean) (op : Region) (body rest : Program)
    (path : List Key) :
    mean (.region op body rest) path =
      op.meaning data access (mean body) path ++ mean rest path := by
  have first : mean (.single (.region op body)) path = op.meaning data access (mean body) path := by
    cases op with
    | scope target => exact laws.scope target body path
    | has target => exact laws.has target body path
    | each target => exact laws.each target body path
    | filter name change => exact laws.filter name change body path
  rw [laws.ops (.region op body rest), Program.ops, List.map_cons, String.join_cons,
    ← laws.ops rest, first]

/-- The laws leave no choice. -/
theorem eq_meaning (laws : IsMeaning data access mean) : mean = meaning data access := by
  funext program path
  induction program generalizing path with
  | empty => exact laws.ops .empty path
  | leaf op rest ih =>
    rw [laws.leaf_eq, ih]
    rfl
  | region op body rest ihBody ihRest =>
    -- A region asks for its body at other paths, so the hypothesis is needed for all of them.
    have body : mean body = body.meaning data access := funext ihBody
    rw [laws.region_eq, body, ihRest]
    rfl

end Program.IsMeaning

/-- The meaning of programs follows their ops, and nothing else does. Running a program, from any
path and behind any output, adds its meaning at the path to the output; the data, the access to it
and the path are as before. -/
theorem run_compositional :
    Program.IsMeaning data access (Program.meaning data access) ∧
    (∀ mean, Program.IsMeaning data access mean → mean = Program.meaning data access) ∧
    ∀ (program : Program) (path : List Key) (output : String),
      Rendering.run ⟨data, access, path, output⟩ program =
        ⟨data, access, path, output ++ program.meaning data access path⟩ := by
  refine ⟨Program.isMeaning_meaning data access, fun mean laws => laws.eq_meaning, ?_⟩
  intro program path output
  exact Rendering.run_eq program ⟨data, access, path, output⟩

theorem run_compositional_nested :
    ∃ (program : Program) (data : Value), program.opCount = 5 ∧
      Rendering.run ⟨data, .standard, [.name "1"], "<"⟩ program =
        ⟨data, .standard, [.name "1"], "<" ++ program.meaning data .standard [.name "1"]⟩ ∧
      program.meaning data .standard [.name "1"] = "[.1.0;.1.0;][.1.1;.1.1;].1" := by
  let doubled : Program := .single (.filter "twice" (fun text => "[" ++ text ++ text ++ "]")
    (.ofOps [.path "", .text ";"]))
  let program : Program := .ofOps [.each "" doubled, .path ""]
  let data : Value := .array [.null, .array [.null, .bool true]]
  obtain ⟨-, -, runs⟩ := run_compositional data .standard
  refine ⟨program, data, rfl, runs program [.name "1"] "<", ?_⟩
  rfl

end BraceTemplate
