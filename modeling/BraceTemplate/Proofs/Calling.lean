import BraceTemplate.Access.Stock
import BraceTemplate.Program.Stock
import BraceTemplate.Proofs.Fusing

/-!
# Calls in place of ops

A helper is handed the data, the value at the ambient path, the path as text and the access to the
data. This is enough for it to show what the ops for values and for paths show, in every state of a
rendering. So calls of such helpers may stand in place of these ops.
-/

namespace BraceTemplate

/-! ### Programs that differ in leaf ops -/

/-- The programs have the same regions, and their leaf ops are related one by one. -/
inductive Program.Leafwise (related : Leaf → Leaf → Prop) : Program → Program → Prop
  | empty : Leafwise related .empty .empty
  | leaf {op other : Leaf} {rest others : Program} :
      related op other → Leafwise related rest others →
      Leafwise related (.leaf op rest) (.leaf other others)
  | region (op : Region) {body inside rest others : Program} :
      Leafwise related body inside → Leafwise related rest others →
      Leafwise related (.region op body rest) (.region op inside others)

/-- If related ops show the same in every state, so do the programs. -/
theorem Program.Leafwise.meaning_eq {related : Leaf → Leaf → Prop} {data : Value}
    {access : DataAccess}
    (agree : ∀ {op other : Leaf}, related op other → ∀ path,
      (Rendering.standing data access path).leafText op =
        (Rendering.standing data access path).leafText other)
    {first second : Program} (leafwise : first.Leafwise related second) :
    first.meaning data access = second.meaning data access := by
  induction leafwise with
  | empty => rfl
  | leaf ops _ ih =>
    funext path
    rw [meaning, meaning, agree ops, ih]
  | region op _ _ ihBody ihRest =>
    -- The bodies mean the same at all paths, so it does not matter where the region runs its own.
    funext path
    rw [meaning, meaning, ihBody, ihRest]

/-! ### Helpers that show what ops show -/

/-- The second op is the first one, or a call of a helper that shows the value or the path which the
first one shows. -/
inductive Leaf.CalledAs : Leaf → Leaf → Prop
  | same (op : Leaf) : CalledAs op op
  | value (path name : String) (helper : Ambient → String) :
      (∀ ambient, helper ambient = ((ambient.resolve path).map ambient.text).getD "") →
      CalledAs (.value path) (.call name helper)
  | path (path name : String) (helper : Ambient → String) :
      (∀ ambient, helper ambient = ambient.path ++ path) →
      CalledAs (.path path) (.call name helper)

/-- What a helper is handed in a state is what the ops use there. -/
private theorem Leaf.CalledAs.leafText_eq {op other : Leaf} (called : op.CalledAs other)
    (r : Rendering) :
    r.leafText op = r.leafText other := by
  cases called with
  | same => rfl
  | value path name helper shows => exact (shows r.ambient).symm
  | path path name helper shows => exact (shows r.ambient).symm

/-- Any ops for values and for paths, at any depth, may be replaced by calls of helpers that show
the value or the path. This holds over every access to data and in every state, and so the programs
render the same. -/
theorem calls_replace_ops (program called : Program)
    (replaced : program.Leafwise Leaf.CalledAs called) :
    (∀ access : DataAccess, Program.SameOver access program called) ∧
      ∀ data access, program.render data access = called.render data access := by
  -- All that a program does to a state is in its meaning, so this is what has to be compared.
  have same (data : Value) (access : DataAccess) :
      program.meaning data access = called.meaning data access :=
    replaced.meaning_eq fun calledAs path => calledAs.leafText_eq _
  refine ⟨fun access => Program.sameOver_iff.mpr fun data path => ?_, fun data access => ?_⟩
  · rw [same]
  · rw [Program.render_eq, Program.render_eq, same]

/-- Inside a loop and a filter, over an access whose look-ups and resolved values differ from each
other. One value and one path are called for, and another value is left as it is. -/
theorem calls_replace_ops_in_loop :
    ∃ (program called : Program) (data : Value) (access : DataAccess),
      program.Leafwise Leaf.CalledAs called ∧ Program.SameOver access program called ∧
      program.render data access = called.render data access ∧
      called.render data access = "[x.last.0.b][.last.1.b]true" := by
  let helper : Ambient → String := fun ambient => (ambient.resolve ".a").elim "" ambient.text
  let place : Ambient → String := fun ambient => ambient.path ++ ".b"
  let looped (first second : Op) : Program := .ofOps [
    .each ".last" (.single (.filter "list" (Filter.between "[" "]") (.ofOps [first, second]))),
    .value ".0"]
  let program := looped (.value ".a") (.path ".b")
  let called := looped (.call "value" helper) (.call "path" place)
  let wrapped : Value := .object ⟨["value"], by decide⟩ [.string "x"]
  let data : Value := .array [.bool true, .array [.object ⟨["a"], by decide⟩ [wrapped], .null]]
  let access : DataAccess := { DataAccess.unwrapping with lookup := DataAccess.withLast.lookup }
  have shows : ∀ ambient : Ambient,
      helper ambient = ((ambient.resolve ".a").map ambient.text).getD "" := by
    intro ambient
    change (ambient.resolve ".a").elim "" ambient.text = _
    cases ambient.resolve ".a" with
    | none => rfl
    | some value => rfl
  have replaced : program.Leafwise Leaf.CalledAs called :=
    .region (.each ".last")
      (.region (.filter "list" _)
        (.leaf (.value ".a" "value" helper shows)
          (.leaf (.path ".b" "path" place fun _ => rfl) .empty))
        .empty)
      (.leaf (.same (.value ".0")) .empty)
  obtain ⟨sameOver, rendersAlike⟩ := calls_replace_ops program called replaced
  exact ⟨program, called, data, access, replaced, sameOver access, rendersAlike data access, rfl⟩

end BraceTemplate
