import BraceTemplate.Proofs.Meaning
import BraceTemplate.Proofs.Walking

/-!
# What loops visit

## Main result

`each_visits_all`: the keys of a value are different from each other and lead to its members. While
a program runs, each loop starts its body once for each member of its container and in the order of
the members, and the ambient path leads from the data to just that member.

## Proof strategy

A traced run is a run that also records its loops, with the states in which it starts their bodies.
That it ends as the run does is one induction over the program. Another one shows that all loops are
faithful: as a body leaves the ambient path as it found it, the paths at which it is started are
those of the keys that the access to the data gives for the container, and nothing else. What the
keys of the standard access lead to is then a matter of following one more key.
-/

namespace BraceTemplate

/-! ### Traced runs -/

/-- A loop of a run: the state in which its op is reached, the path of the op, and the states in
which its body is started, in this order. -/
structure Loop where
  outside : Rendering
  target : String
  starts : List Rendering

/-- The last state of a run, and its loops at all depths. -/
structure Trace where
  final : Rendering
  loops : List Loop

namespace Rendering

/-- Runs a body for each key, and collects the states in which it is started. -/
def visits (body : Rendering → Trace) : Rendering → List Key → List Rendering × Trace
  | s, [] => ([], ⟨s, []⟩)
  | s, key :: keys =>
    let start := s.descend [key]
    let first := body start
    let (starts, others) := visits body (first.final.ascend s.path.length) keys
    (start :: starts, ⟨others.final, first.loops ++ others.loops⟩)

/-- Runs a program and records its loops. -/
def traced (r : Rendering) : Program → Trace
  | .empty => ⟨r, []⟩
  | .leaf op rest => (r.write (r.leafText op)).traced rest
  | .region (.scope path) body rest =>
    let inside := (r.descend (Key.ofPath path)).traced body
    let behind := (inside.final.ascend r.path.length).traced rest
    ⟨behind.final, inside.loops ++ behind.loops⟩
  | .region (.has path) body rest =>
    let inside := if (r.valueAt path).isSome then r.traced body else ⟨r, []⟩
    let behind := inside.final.traced rest
    ⟨behind.final, inside.loops ++ behind.loops⟩
  | .region (.each path) body rest =>
    let inside := r.descend (Key.ofPath path)
    let (starts, visited) := visits (fun s => s.traced body) inside
      (inside.access.visit (inside.valueAt ""))
    let behind := (visited.final.ascend r.path.length).traced rest
    ⟨behind.final, ⟨r, path, starts⟩ :: (visited.loops ++ behind.loops)⟩
  | .region (.filter _ change) body rest =>
    let inside := { r with output := "" }.traced body
    let behind :=
      ({ inside.final with output := r.output }.write (change inside.final.output)).traced rest
    ⟨behind.final, inside.loops ++ behind.loops⟩

private theorem final_visits (body : Rendering → Trace) (s : Rendering) (keys : List Key) :
    (visits body s keys).2.final =
      keys.foldl (fun (s : Rendering) key => (body (s.descend [key])).final.ascend s.path.length)
        s := by
  induction keys generalizing s with
  | nil => rfl
  | cons key keys ih => exact ih _

/-- Recording the loops does not change the run. -/
private theorem final_traced (program : Program) (r : Rendering) :
    (r.traced program).final = r.run program := by
  induction program generalizing r with
  | empty => rfl
  | leaf op rest ih => exact ih _
  | region op body rest ihBody ihRest =>
    cases op with
    | scope path =>
      rw [traced, run, ihRest, ihBody]
    | has path =>
      rw [traced, run, ihRest]
      split
      · rw [ihBody]
      · rfl
    | each path =>
      rw [traced, run, ihRest, final_visits]
      simp only [ihBody]
    | filter name change =>
      rw [traced, run, ihRest, ihBody]

/-! ### Where bodies start -/

/-- A state without its output. -/
def silent (r : Rendering) : Rendering :=
  { r with output := "" }

end Rendering

namespace Loop

/-- The ambient path inside the op, without the key of an entry. -/
def below (loop : Loop) : List Key :=
  loop.outside.path ++ Key.ofPath loop.target

/-- The value that the op resolves. -/
def container (loop : Loop) : Option Value :=
  valueBelow loop.outside.data loop.outside.access loop.below ""

/-- The body is started at the keys that the access to the data gives, and nowhere else. -/
structure IsFaithful (data : Value) (access : DataAccess) (loop : Loop) : Prop where
  data_eq : loop.outside.data = data
  access_eq : loop.outside.access = access
  starts_eq : loop.starts.map Rendering.silent =
    (access.visit loop.container).map fun key =>
      Rendering.standing data access (loop.below ++ [key])

end Loop

namespace Rendering

private theorem starts_visits (body : Program) (s : Rendering) (keys : List Key) :
    (visits (fun s => s.traced body) s keys).1.map silent =
      keys.map fun key => standing s.data s.access (s.path ++ [key]) := by
  induction keys generalizing s with
  | nil => rfl
  | cons key keys ih =>
    -- The first round only writes, so the others start at the same path as it did.
    rw [visits, final_traced, ascend_run_descend, List.map_cons, List.map_cons, ih]
    rfl

private theorem isFaithful_of_mem_visits {body : Program}
    (ihBody : ∀ (s : Rendering), ∀ loop ∈ (s.traced body).loops, loop.IsFaithful s.data s.access)
    (keys : List Key) (s : Rendering) :
    ∀ loop ∈ (visits (fun s => s.traced body) s keys).2.loops, loop.IsFaithful s.data s.access := by
  induction keys generalizing s with
  | nil =>
    intro loop member
    cases member
  | cons key keys ih =>
    intro loop member
    rw [visits, final_traced, ascend_run_descend] at member
    rcases List.mem_append.mp member with first | later
    · exact ihBody (s.descend [key]) loop first
    · exact ih (s.write _) loop later

/-- A loop below a path adds the meanings of its rounds, and the path is left as it was. -/
private theorem ascend_final_visits (body : Program) (r : Rendering) (keys below : List Key) :
    (visits (fun s => s.traced body) (r.descend below) keys).2.final.ascend r.path.length =
      r.write (String.join (keys.map fun key =>
        body.meaning r.data r.access (r.path ++ below ++ [key]))) := by
  rw [final_visits]
  simp only [final_traced]
  rw [foldl_visit (run_eq body)]
  simp [write, descend, ascend]

/-- All loops of a run are faithful, however deep they are nested. -/
private theorem isFaithful_of_mem_traced (program : Program) (r : Rendering) :
    ∀ loop ∈ (r.traced program).loops, loop.IsFaithful r.data r.access := by
  induction program generalizing r with
  | empty =>
    intro loop member
    cases member
  | leaf op rest ih => exact ih _
  | region op body rest ihBody ihRest =>
    intro loop member
    -- The state behind an op differs from the one in front of it by what the op writes.
    have behind {s : Rendering} {text : String} (written : s = r.write text)
        (later : loop ∈ (s.traced rest).loops) : loop.IsFaithful r.data r.access := by
      rw [written] at later
      exact ihRest (r.write text) loop later
    cases op with
    | scope path =>
      rcases List.mem_append.mp member with inside | later
      · exact ihBody (r.descend (Key.ofPath path)) loop inside
      · rw [final_traced] at later
        exact behind (ascend_run_descend r (Key.ofPath path) body) later
    | has path =>
      rw [traced] at member
      split at member
      · rcases List.mem_append.mp member with inside | later
        · exact ihBody r loop inside
        · rw [final_traced] at later
          exact behind (run_eq body r) later
      · exact ihRest r loop member
    | each path =>
      -- The loop is this one, one of a round, or one of what is behind.
      rcases List.mem_cons.mp member with rfl | nested
      · exact ⟨rfl, rfl, starts_visits body _ _⟩
      rcases List.mem_append.mp nested with inside | later
      · exact isFaithful_of_mem_visits ihBody _ (r.descend (Key.ofPath path)) loop inside
      · exact behind (ascend_final_visits body r _ (Key.ofPath path)) later
    | filter name change =>
      rcases List.mem_append.mp member with inside | later
      · exact ihBody { r with output := "" } loop inside
      · rw [final_traced, run_eq] at later
        exact behind rfl later

end Rendering

/-! ### The standard access -/

private theorem valueBelow_standard_empty (data : Value) (path : List Key) :
    valueBelow data .standard path "" = (walk Value.lookup data path).filter (!·.isNull) := by
  rw [valueBelow_standard]
  cases walk Value.lookup data path <;> rfl

namespace Loop

/-- The container is what the data holds inside the op, null apart. The body is started once for
each member of it, in the order of the members, where the ambient path leads from the data to that
member. -/
structure VisitsAll (data : Value) (loop : Loop) : Prop where
  container_eq : loop.container = (walk Value.lookup data loop.below).filter (!·.isNull)
  data_eq : ∀ start ∈ loop.starts, start.data = data
  paths_eq : loop.starts.map (·.path) =
    ((loop.container.map Value.keys).getD []).map fun key => loop.below ++ [key]
  entries_eq : loop.starts.map (fun start => walk Value.lookup data start.path) =
    ((loop.container.map Value.members).getD []).map some
  once : (loop.starts.map (·.path)).Nodup

/-- What the keys of a loop's container lead to, from the data itself, are its members. -/
private theorem map_walk_below {data : Value} {path : List Key} {container : Option Value}
    (resolved : container = (walk Value.lookup data path).filter (!·.isNull)) :
    ((container.map Value.keys).getD []).map
        (fun key => walk Value.lookup data (path ++ [key])) =
      ((container.map Value.members).getD []).map some := by
  cases container with
  | none => rfl
  | some value =>
    -- The path leads to the container, so one more key is looked up in it.
    obtain ⟨reached, -⟩ := Option.filter_eq_some_iff.mp resolved.symm
    have step : ∀ key, walk Value.lookup data (path ++ [key]) = value.lookup key := by
      intro key
      rw [walk_append_singleton, reached]
      rfl
    simp only [step]
    exact value.map_lookup_keys

theorem IsFaithful.visitsAll {data : Value} {loop : Loop}
    (faithful : loop.IsFaithful data .standard) : loop.VisitsAll data := by
  obtain ⟨sameData, sameAccess, starts⟩ := faithful
  have resolved : loop.container = (walk Value.lookup data loop.below).filter (!·.isNull) := by
    rw [Loop.container, sameData, sameAccess, valueBelow_standard_empty]
  have paths : loop.starts.map (·.path) =
      ((loop.container.map Value.keys).getD []).map fun key => loop.below ++ [key] := by
    have mapped := congrArg (List.map Rendering.path) starts
    rw [List.map_map, List.map_map] at mapped
    exact mapped
  have distinct : ((loop.container.map Value.keys).getD []).Nodup := by
    cases loop.container with
    | none => exact .nil
    | some value => exact value.nodup_keys
  refine ⟨resolved, ?_, paths, ?_, ?_⟩
  · intro start member
    have silent : start.silent ∈ loop.starts.map Rendering.silent := List.mem_map_of_mem member
    rw [starts] at silent
    obtain ⟨key, -, same⟩ := List.mem_map.mp silent
    exact (congrArg Rendering.data same).symm
  · have walked := congrArg (List.map (walk Value.lookup data)) paths
    rw [List.map_map, List.map_map] at walked
    exact walked.trans (map_walk_below resolved)
  · have injective : Function.Injective fun key => loop.below ++ [key] := by
      intro first second same
      simpa using same
    rw [paths]
    exact distinct.map injective

end Loop

/-- The keys that the standard access gives for a value are different from each other and lead to
its members in their order. While a program runs on data, from any path and behind any output, each
loop at any depth starts its body once for each member of the container that it resolves, in the
order of the members, at a path that leads from the data to that member. -/
theorem each_visits_all :
    (∀ value : Value, (DataAccess.standard.visit (some value)).Nodup ∧
      (DataAccess.standard.visit (some value)).map value.lookup = value.members.map some) ∧
    ∀ (data : Value) (path : List Key) (output : String) (program : Program),
      (Rendering.traced ⟨data, .standard, path, output⟩ program).final =
        Rendering.run ⟨data, .standard, path, output⟩ program ∧
      ∀ loop ∈ (Rendering.traced ⟨data, .standard, path, output⟩ program).loops,
        loop.VisitsAll data := by
  constructor
  · intro value
    exact ⟨value.nodup_keys, value.map_lookup_keys⟩
  · intro data path output program
    refine ⟨Rendering.final_traced program _, ?_⟩
    intro loop member
    exact (Rendering.isFaithful_of_mem_traced program _ loop member).visitsAll

/-- The inner loop of two, over an object with an empty key, one of digits and one with a dot. -/
theorem each_visits_all_nested :
    ∃ (data : Value) (program : Program) (loop : Loop),
      loop ∈ (Rendering.traced (.initial data .standard) program).loops ∧
      loop.VisitsAll data ∧
      loop.starts.map (·.path) = [[.name "a", .index 1, .name ""], [.name "a", .index 1, .name "0"],
        [.name "a", .index 1, .name "b.c"]] := by
  let object : Value := .object ⟨["", "0", "b.c"], by decide⟩ [.string "x", .null, .bool true]
  let data : Value := .object ⟨["a"], by decide⟩ [.array [.null, object]]
  let program : Program := .single (.each ".a" (.single (.each "" (.single (.value "")))))
  have loops := (each_visits_all.2 data [] "" program).2
  -- The outer loop, the inner one over null and the inner one over the object.
  let trace := Rendering.traced (.initial data .standard) program
  refine ⟨data, program, trace.loops[2], List.getElem_mem _, loops _ (List.getElem_mem _), ?_⟩
  decide +kernel

end BraceTemplate
