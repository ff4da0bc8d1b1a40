import BraceTemplate.Proofs.Naming

/-!
# Scopes and the paths below them

A scope around an op that has a path is the op with both paths put together. Where the op goes below
its path or shows it, this holds over every access to data, as all that counts are the keys on the
ambient path. Where the op resolves its path, it holds over the standard access: there the keys of
the scope may be followed before the path is resolved, or by resolving it.
-/

namespace BraceTemplate

/-- Two programs that lead to the same state from every state with an access to data. -/
def Program.SameOver (access : DataAccess) (first second : Program) : Prop :=
  ∀ (data : Value) (path : List Key) (output : String),
    Rendering.run ⟨data, access, path, output⟩ first =
      Rendering.run ⟨data, access, path, output⟩ second

/-- All that a program does to a state is to add its meaning. -/
theorem Program.sameOver_iff {access : DataAccess} {first second : Program} :
    SameOver access first second ↔
      ∀ data path, first.meaning data access path = second.meaning data access path := by
  constructor
  · intro same data path
    have output := congrArg Rendering.output (same data path "")
    rw [Rendering.run_eq, Rendering.run_eq] at output
    simpa using output
  · intro same data path output
    rw [Rendering.run_eq, Rendering.run_eq, same]

theorem Op.sameOver_single_iff {access : DataAccess} {first second : Op} :
    Program.SameOver access (.single first) (.single second) ↔
      ∀ data path, first.meaning data access path = second.meaning data access path := by
  simp only [Program.sameOver_iff, Program.meaning_single]

/-- Nothing, or names that each have a dot in front. -/
def Path.IsTidy (path : String) : Prop :=
  ∃ names : List String, (∀ name ∈ names, IsName name) ∧
    path = String.join (names.map ("." ++ ·))

/-- A tidy path is what is written of its keys. -/
private theorem Path.IsTidy.written_ofPath {path : String} (tidy : IsTidy path) :
    Key.written (Key.ofPath path) = path := by
  obtain ⟨names, areNames, written⟩ := tidy
  have asKeys : path = Key.written (names.map .name) := by
    rw [written, Key.written, List.map_map]
    rfl
  have readBack : Key.ofPath (Key.written (names.map .name)) = names.map .name := by
    rw [Key.ofPath_written (List.forall_mem_map.mpr areNames), List.map_map]
    rfl
  rw [asKeys, readBack]

namespace Op

variable (data : Value) {more : String}

theorem meaning_scope_single (access : DataAccess) (path : String) (op : Op) (keys : List Key) :
    (scope path (.single op)).meaning data access keys =
      op.meaning data access (keys ++ Key.ofPath path) := by
  rw [meaning, Region.meaning, Program.meaning_single]

theorem meaning_scope_scope (access : DataAccess) (path : String) (dotted : Path.IsDotted more)
    (body : Program) (keys : List Key) :
    (scope path (.single (scope more body))).meaning data access keys =
      (scope (path ++ more) body).meaning data access keys := by
  rw [meaning_scope_single]
  simp only [meaning, Region.meaning, Key.ofPath_append dotted, List.append_assoc]

theorem meaning_scope_each (access : DataAccess) (path : String) (dotted : Path.IsDotted more)
    (body : Program) (keys : List Key) :
    (scope path (.single (each more body))).meaning data access keys =
      (each (path ++ more) body).meaning data access keys := by
  rw [meaning_scope_single]
  simp only [meaning, Region.meaning, Key.ofPath_append dotted, List.append_assoc]

theorem meaning_scope_path (access : DataAccess) {path : String} (tidy : Path.IsTidy path)
    (more : String) (keys : List Key) :
    (scope path (.single (.path more))).meaning data access keys =
      (Op.path (path ++ more)).meaning data access keys := by
  have shown : (scope path (.single (.path more))).meaning data access keys =
      Key.written (keys ++ Key.ofPath path) ++ more :=
    meaning_scope_single data access path (.path more) keys
  rw [shown, Key.written_append, tidy.written_ofPath, String.append_assoc]
  rfl

theorem meaning_scope_value (path : String) (dotted : Path.IsDotted more) (keys : List Key) :
    (scope path (.single (value more))).meaning data .standard keys =
      (value (path ++ more)).meaning data .standard keys := by
  rw [meaning_scope_single, meaning, meaning, Rendering.leafText_value, Rendering.leafText_value,
    valueBelow_standard_append data keys path dotted]

/-- The test inside sees what the test outside sees, so it may stand in front of the scope. -/
theorem meaning_scope_has (path : String) (dotted : Path.IsDotted more) (body : Program)
    (keys : List Key) :
    (scope path (.single (has more body))).meaning data .standard keys =
      (has (path ++ more) (.single (scope path body))).meaning data .standard keys := by
  rw [meaning_scope_single, meaning, meaning, Region.meaning_has, Region.meaning_has,
    valueBelow_standard_append data keys path dotted, Program.meaning_single]
  rfl

end Op

/-- A path that is empty or begins with a dot goes together with the path of a scope around it. For
scopes, loops and shown paths this holds over every access to data; a shown path needs the path of
the scope to be tidy. For values and tests it holds over the standard access, whatever is absent,
null or without entries on the way. -/
theorem scope_fuses (path more : String) (dotted : Path.IsDotted more) (body : Program) :
    (∀ access : DataAccess,
      Program.SameOver access (.single (.scope path (.single (.scope more body))))
        (.single (.scope (path ++ more) body)) ∧
      Program.SameOver access (.single (.scope path (.single (.each more body))))
        (.single (.each (path ++ more) body)) ∧
      (Path.IsTidy path →
        Program.SameOver access (.single (.scope path (.single (.path more))))
          (.single (.path (path ++ more))))) ∧
    Program.SameOver .standard (.single (.scope path (.single (.value more))))
      (.single (.value (path ++ more))) ∧
    Program.SameOver .standard (.single (.scope path (.single (.has more body))))
      (.single (.has (path ++ more) (.single (.scope path body)))) := by
  refine ⟨fun access => ⟨?_, ?_, fun tidy => ?_⟩, ?_, ?_⟩
  · exact Op.sameOver_single_iff.mpr fun data => Op.meaning_scope_scope data access path dotted body
  · exact Op.sameOver_single_iff.mpr fun data => Op.meaning_scope_each data access path dotted body
  · exact Op.sameOver_single_iff.mpr fun data => Op.meaning_scope_path data access tidy more
  · exact Op.sameOver_single_iff.mpr fun data => Op.meaning_scope_value data path dotted
  · exact Op.sameOver_single_iff.mpr fun data => Op.meaning_scope_has data path dotted body

/-- An access that visits entries from the last to the first, and a path through null. -/
theorem scope_fuses_backwards :
    ∃ (access : DataAccess) (data : Value) (body : Program),
      Path.IsDotted ".b" ∧ Path.IsTidy ".a" ∧
      Program.SameOver access (.single (.scope ".a" (.single (.each ".b" body))))
        (.single (.each (".a" ++ ".b") body)) ∧
      Program.SameOver access (.single (.scope ".a" (.single (.path ".b"))))
        (.single (.path (".a" ++ ".b"))) ∧
      Program.SameOver .standard (.single (.scope ".a" (.single (.has ".b" body))))
        (.single (.has (".a" ++ ".b") (.single (.scope ".a" body)))) ∧
      (Program.single (.each (".a" ++ ".b") body)).render data access = ".a.b.1;.a.b.0;" ∧
      (Program.single (.has (".a" ++ ".b") body)).render .null .standard = "" := by
  let access : DataAccess := { visit := fun value => (DataAccess.standard.visit value).reverse }
  let body : Program := .ofOps [.path "", .text ";"]
  let data : Value := .object ⟨["a"], by decide⟩
    [.object ⟨["b"], by decide⟩ [.array [.null, .bool true]]]
  have dotted : Path.IsDotted ".b" := by decide
  have tidy : Path.IsTidy ".a" := ⟨["a"], by decide, rfl⟩
  obtain ⟨always, -, tests⟩ := scope_fuses ".a" ".b" dotted body
  obtain ⟨-, loops, shows⟩ := always access
  exact ⟨access, data, body, dotted, tidy, loops, shows tidy, tests, rfl, rfl⟩

end BraceTemplate
