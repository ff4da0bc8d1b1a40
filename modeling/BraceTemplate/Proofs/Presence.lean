import BraceTemplate.Access.Stock
import BraceTemplate.Proofs.Fusing
import BraceTemplate.Proofs.Unrolling

/-!
# What is present

A value, a test, a loop and a helper each look for something at a path. They come to it on different
ways: a test resolves the path from where it stands, a loop goes down the path and resolves nothing
more, and a helper starts from the value that it was given. Over the standard access they find the
same, so that a test around any of them, with its path, changes nothing.
-/

namespace BraceTemplate

/-! ### Tests around ops -/

namespace Op

variable {data : Value} {access : DataAccess} {keys : List Key}

/-- A test may be left out around an op that adds nothing where the test fails. -/
theorem meaning_has_single {path : String} {op : Op}
    (silent : valueBelow data access keys path = none → op.meaning data access keys = "") :
    (has path (.single op)).meaning data access keys = op.meaning data access keys := by
  rw [meaning, Region.meaning_has, Program.meaning_single]
  cases found : valueBelow data access keys path with
  | none => exact (silent found).symm
  | some value => rfl

theorem meaning_value_of_absent {path : String} (absent : valueBelow data access keys path = none) :
    (value path).meaning data access keys = "" := by
  rw [meaning, Rendering.leafText_value, absent]
  rfl

theorem meaning_has_of_absent {path : String} (absent : valueBelow data access keys path = none)
    (body : Program) : (has path body).meaning data access keys = "" := by
  rw [meaning, Region.meaning_has, absent]
  rfl

theorem meaning_each_of_absent {path : String} (absent : valueBelow data .standard keys path = none)
    (body : Program) : (each path body).meaning data .standard keys = "" := by
  refine meaning_each_of_no_keys ?_ body
  intro value resolved
  rw [absent] at resolved
  cases resolved

/-- Of two tests it does not matter which stands inside the other. -/
theorem meaning_has_has (path other : String) (body : Program) :
    (has path (.single (has other body))).meaning data access keys =
      (has other (.single (has path body))).meaning data access keys := by
  simp only [meaning, Region.meaning_has, Program.meaning_single]
  -- A test leaves the path as it is, so both are decided here, before either body runs.
  cases (valueBelow data access keys path).isSome with
  | false => exact (ite_self "").symm
  | true => rfl

theorem meaning_has_append (path : String) (body behind : Program) :
    (has path (body ++ behind)).meaning data access keys =
      (has path body).meaning data access keys ++ (has path behind).meaning data access keys := by
  simp only [meaning, Region.meaning_has, Program.meaning_append]
  split
  · rfl
  · exact String.append_empty.symm

end Op

/-! ### Finding a value -/

namespace Rendering

private theorem run_has (r : Rendering) (path : String) (body : Program) :
    r.run (.single (.has path body)) = if (r.valueAt path).isSome then r.run body else r := rfl

/-- A value is there if a test for it can make a difference. -/
private theorem isSome_valueAt_iff (r : Rendering) (path : String) :
    (r.valueAt path).isSome = true ↔ ∃ body, r.run (.single (.has path body)) ≠ r := by
  constructor
  · intro found
    -- A text is a body that changes every state, as the output gets longer.
    refine ⟨.single (.text "x"), ?_⟩
    rw [run_has, if_pos found]
    intro unchanged
    have lengths := congrArg (fun s : Rendering => s.output.length) unchanged
    simp [run_eq, Op.meaning, leafText] at lengths
  · rintro ⟨body, changed⟩
    rw [run_has] at changed
    by_contra absent
    exact changed (if_neg absent)

/-- What a loop goes through is what the path of the loop resolves to in front of it. -/
private theorem valueAt_descend {r : Rendering} (standard : r.access = .standard) (path : String) :
    (r.descend (Key.ofPath path)).valueAt "" = r.valueAt path := by
  have followed := valueBelow_standard_ofPath r.data r.path path
  rw [← standard] at followed
  exact followed

end Rendering

/-- A test around a value with its path changes nothing, and neither does a test around a test with
the same path; tests may change places, and a test around two programs is a test around each. This
holds over every access to data. Over the standard access a test around a loop with its path changes
nothing either. There, in every state, a loop and a helper find at a path what a value finds, and
this is something exactly if a test can make a difference. -/
theorem presence_agrees (path other : String) (body behind : Program) :
    (∀ access : DataAccess,
      Program.SameOver access (.single (.has path (.single (.value path))))
        (.single (.value path)) ∧
      Program.SameOver access (.single (.has path (.single (.has path body))))
        (.single (.has path body)) ∧
      Program.SameOver access (.single (.has path (.single (.has other body))))
        (.single (.has other (.single (.has path body)))) ∧
      Program.SameOver access (.single (.has path (body ++ behind)))
        (.single (.has path body) ++ .single (.has path behind))) ∧
    Program.SameOver .standard (.single (.has path (.single (.each path body))))
      (.single (.each path body)) ∧
    ∀ (data : Value) (keys : List Key) (output : String),
      let r : Rendering := ⟨data, .standard, keys, output⟩
      (r.descend (Key.ofPath path)).valueAt "" = r.valueAt path ∧
      r.ambient.resolve path = r.valueAt path ∧
      ((r.valueAt path).isSome = true ↔ ∃ inside, r.run (.single (.has path inside)) ≠ r) := by
  refine ⟨fun access => ⟨?_, ?_, ?_, ?_⟩, ?_, ?_⟩
  · exact Op.sameOver_single_iff.mpr fun data keys =>
      Op.meaning_has_single Op.meaning_value_of_absent
  · exact Op.sameOver_single_iff.mpr fun data keys =>
      Op.meaning_has_single fun absent => Op.meaning_has_of_absent absent body
  · exact Op.sameOver_single_iff.mpr fun data keys => Op.meaning_has_has path other body
  · rw [Program.sameOver_iff]
    intro data keys
    rw [Program.meaning_append, Program.meaning_single, Program.meaning_single,
      Program.meaning_single, Op.meaning_has_append]
  · exact Op.sameOver_single_iff.mpr fun data keys =>
      Op.meaning_has_single fun absent => Op.meaning_each_of_absent absent body
  · intro data keys output r
    exact ⟨Rendering.valueAt_descend rfl path, rfl, r.isSome_valueAt_iff path⟩

-- Where a key can be followed that cannot be resolved, a test and a loop do not agree.
example :
    let loop : Program := .single (.each ".last" (.single (.text "x")))
    let data : Value := .array [.array [.null]]
    loop.render data .withLast = "x" ∧
      (Program.single (.has ".last" loop)).render data .withLast = "" := by
  decide

end BraceTemplate
