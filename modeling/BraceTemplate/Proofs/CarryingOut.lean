import BraceTemplate.Compile

/-!
# Carrying out plans

A plan is carried out without a limit on how deep its requests nest, so that nothing bounds the work
in advance. A plan that comes to its end has nested its requests to some depth only, and is carried
out alike by a recursion on a limit that this depth does not reach.

## Main results

`carryOut_induction`: what holds of each way for a result to come about holds of every result.

`carryOut_eq_some_iff`: a plan comes to its end if and only if it does so with the nesting limited
to some depth, with the same result and the same records.

## Proof strategy

From a limit to none by induction on the limit, as each request leads to a plan with a lower one.
The other way by induction on how the result without a limit came about; a request and the rest of
its plan each have a limit, and the larger of the two serves both, because a higher limit changes no
result.
-/

namespace BraceTemplate

namespace Registry

variable {α β : Type} {registry : Registry}

/-! ### Plans one after the other -/

@[simp] theorem carryOut_done (registry : Registry) (file : Option String) (result : α) :
    registry.carryOut file (.done result) = some (result, []) := by
  rw [carryOut]

@[simp] theorem carryOut_pure (registry : Registry) (file : Option String) (result : α) :
    registry.carryOut file (pure result) = some (result, []) :=
  registry.carryOut_done file result

theorem carryOut_of_unknown {name : String} (unknown : registry.find? name = none)
    (file : Option String) (node : Node) :
    registry.carryOut file (.dispatch name node .done) =
      some (⟨.error (.unknownMacro name ⟨file, node.position⟩), node⟩, []) := by
  simp [carryOut, unknown]

/-- A node that is handed to a macro comes back as the macro leaves it. -/
theorem carryOut_of_found {name : String} {meaning : Meaning}
    (found : registry.find? name = some meaning) (file : Option String) (node : Node) :
    registry.carryOut file (.dispatch name node .done) =
      (registry.carryOut file (meaning.toMacro.plan (registry.setting file) node)).map
        fun answer => (answer.1, ⟨name, meaning.isBuiltin⟩ :: answer.2) := by
  rw [carryOut]
  simp only [found, carryOut_done]
  cases registry.carryOut file (meaning.toMacro.plan (registry.setting file) node) with
  | none => rfl
  | some answer => simp

theorem carryOut_dispatch (registry : Registry) (file : Option String) (name : String) (node : Node)
    (next : Expansion → Plan α) :
    registry.carryOut file (.dispatch name node next) =
      (registry.carryOut file (.dispatch name node .done)).bind fun answer =>
        (registry.carryOut file (next answer.1)).map fun last => (last.1, answer.2 ++ last.2) := by
  cases found : registry.find? name with
  | none =>
    rw [carryOut_of_unknown found, carryOut]
    simp [found]
  | some meaning =>
    rw [carryOut_of_found found, carryOut]
    simp only [found]
    cases registry.carryOut file (meaning.toMacro.plan (registry.setting file) node) with
    | none => rfl
    | some answer =>
      simp only [Option.bind_eq_bind, Option.bind_some, Option.map_some]
      cases registry.carryOut file (next answer.1) <;> rfl

theorem exists_of_carryOut_dispatch {file : Option String} {name : String} {node : Node}
    {next : Expansion → Plan α} {result : α × List Dispatch}
    (ended : registry.carryOut file (.dispatch name node next) = some result) :
    ∃ given last, registry.carryOut file (.dispatch name node .done) = some given ∧
      registry.carryOut file (next given.1) = some last ∧
      result = (last.1, given.2 ++ last.2) := by
  rw [carryOut_dispatch] at ended
  obtain ⟨given, answered, ended⟩ := Option.bind_eq_some_iff.mp ended
  obtain ⟨last, ended, gives⟩ := Option.map_eq_some_iff.mp ended
  exact ⟨given, last, answered, ended, gives.symm⟩

/-- What holds of each way for a result to come about holds of every result. -/
theorem carryOut_induction {registry : Registry} {file : Option String}
    {motive : {α : Type} → Plan α → α × List Dispatch → Prop}
    (done : ∀ {α : Type} (result : α), motive (.done result) (result, []))
    (unknown : ∀ {α : Type} {name : String} {node : Node} {next : Expansion → Plan α}
      {result : α × List Dispatch}, registry.find? name = none →
      motive (next ⟨.error (.unknownMacro name ⟨file, node.position⟩), node⟩) result →
      motive (.dispatch name node next) result)
    (known : ∀ {α : Type} {name : String} {node : Node} {next : Expansion → Plan α}
      {meaning : Meaning} {inside : Expansion × List Dispatch} {behind : α × List Dispatch},
      registry.find? name = some meaning →
      motive (meaning.toMacro.plan (registry.setting file) node) inside →
      motive (next inside.1) behind →
      motive (.dispatch name node next)
        (behind.1, ⟨name, meaning.isBuiltin⟩ :: inside.2 ++ behind.2))
    {plan : Plan α} {result : α × List Dispatch}
    (ended : registry.carryOut file plan = some result) : motive plan result := by
  refine carryOut.partial_correctness registry file motive ?_ plan result ended
  intro recursion ih α plan result ended
  cases plan with
  | done last =>
    obtain rfl : (last, []) = result := Option.some.inj ended
    exact done last
  | dispatch name node next =>
    dsimp only at ended
    cases found : registry.find? name with
    | none =>
      simp only [found] at ended
      exact unknown found (ih _ result ended)
    | some meaning =>
      simp only [found, Option.bind_eq_bind, Option.bind_eq_some_iff] at ended
      obtain ⟨inside, endedInside, behind, endedBehind, gives⟩ := ended
      obtain rfl : _ = result := Option.some.inj gives
      exact known found (ih _ inside endedInside) (ih _ behind endedBehind)

theorem carryOut_bind (registry : Registry) (file : Option String) (plan : Plan α)
    (next : α → Plan β) :
    registry.carryOut file (plan >>= next) = (registry.carryOut file plan).bind fun first =>
      (registry.carryOut file (next first.1)).map fun last => (last.1, first.2 ++ last.2) := by
  induction plan with
  | done result =>
    change registry.carryOut file (next result) = _
    simp
  | dispatch name node answered ih =>
    -- The first request is the same with and without what comes behind the plan.
    change registry.carryOut file (.dispatch name node fun expansion =>
      answered expansion >>= next) = _
    rw [carryOut_dispatch registry file name node answered, carryOut_dispatch, Option.bind_assoc]
    congr
    funext answer
    rw [ih]
    cases registry.carryOut file (answered answer.1) <;> simp [Function.comp_def]

theorem carryOut_bind_of_some {file : Option String} {plan : Plan α} {result : α}
    {log : List Dispatch} (ended : registry.carryOut file plan = some (result, log))
    (next : α → Plan β) :
    registry.carryOut file (plan >>= next) =
      (registry.carryOut file (next result)).map fun last => (last.1, log ++ last.2) := by
  rw [carryOut_bind, ended]
  rfl

theorem carryOut_map (registry : Registry) (file : Option String) (change : α → β)
    (plan : Plan α) :
    registry.carryOut file (change <$> plan) =
      (registry.carryOut file plan).map (.map change id) := by
  change registry.carryOut file (plan >>= fun result => .done (change result)) = _
  rw [carryOut_bind]
  cases registry.carryOut file plan with
  | none => rfl
  | some first => simp [Prod.map]

end Registry

/-! ### Limited nesting -/

/-- Answers the requests of a plan one after the other, and collects what the answers record. A
request without an answer ends the work without a result. -/
def Plan.run {α : Type} (answer : String → Node → Option (Expansion × List Dispatch)) :
    Plan α → Option (α × List Dispatch)
  | .done result => some (result, [])
  | .dispatch name node next =>
    (answer name node).bind fun first =>
      ((next first.1).run answer).map fun last => (last.1, first.2 ++ last.2)

/-- Hands a node to the macro of a name. Requests that nest deeper than `limit` have no answer. -/
def Registry.dispatchWithin (registry : Registry) (file : Option String) :
    Nat → String → Node → Option (Expansion × List Dispatch)
  | 0, _, _ => none
  | limit + 1, name, node =>
    match registry.find? name with
    | none => some (⟨.error (.unknownMacro name ⟨file, node.position⟩), node⟩, [])
    | some meaning =>
      ((meaning.toMacro.plan (registry.setting file) node).run
        (registry.dispatchWithin file limit)).map
          fun answer => (answer.1, ⟨name, meaning.isBuiltin⟩ :: answer.2)

namespace Plan

variable {α : Type} {answer other : String → Node → Option (Expansion × List Dispatch)}

theorem run_dispatch_eq_some_iff {name : String} {node : Node} {next : Expansion → Plan α}
    {result : α × List Dispatch} :
    (Plan.dispatch name node next).run answer = some result ↔
      ∃ first last, answer name node = some first ∧ (next first.1).run answer = some last ∧
        result = (last.1, first.2 ++ last.2) := by
  rw [run]
  simp only [Option.bind_eq_some_iff, Option.map_eq_some_iff]
  constructor
  · rintro ⟨first, answered, last, ran, gives⟩
    exact ⟨first, last, answered, ran, gives.symm⟩
  · rintro ⟨first, last, answered, ran, rfl⟩
    exact ⟨first, answered, last, ran, rfl⟩

/-- More answers leave a result as it is. -/
private theorem run_of_run {plan : Plan α} {result : α × List Dispatch}
    (answers : ∀ name node given, answer name node = some given → other name node = some given)
    (ran : plan.run answer = some result) : plan.run other = some result := by
  induction plan generalizing result with
  | done last => exact ran
  | dispatch name node next ih =>
    obtain ⟨first, last, answered, ranRest, rfl⟩ := run_dispatch_eq_some_iff.mp ran
    exact run_dispatch_eq_some_iff.mpr
      ⟨first, last, answers name node first answered, ih first.1 ranRest, rfl⟩

end Plan

namespace Registry

variable {α β : Type} {registry : Registry} {file : Option String}

private theorem dispatchWithin_of_le {limit more : Nat} (higher : limit ≤ more) (name : String)
    (node : Node) (given : Expansion × List Dispatch)
    (answered : registry.dispatchWithin file limit name node = some given) :
    registry.dispatchWithin file more name node = some given := by
  induction limit generalizing more name node given with
  | zero => cases answered
  | succ limit ih =>
    obtain ⟨more, rfl⟩ : ∃ less, more = less + 1 := ⟨more - 1, by omega⟩
    rw [dispatchWithin] at answered ⊢
    split at answered
    next => exact answered
    next meaning found =>
      obtain ⟨last, ran, rfl⟩ := Option.map_eq_some_iff.mp answered
      have ranHigher := Plan.run_of_run (ih (Nat.le_of_succ_le_succ higher)) ran
      simp only [ranHigher, Option.map_some]

theorem run_of_le {limit more : Nat} (higher : limit ≤ more) {plan : Plan α}
    {result : α × List Dispatch}
    (ran : plan.run (registry.dispatchWithin file limit) = some result) :
    plan.run (registry.dispatchWithin file more) = some result :=
  Plan.run_of_run (dispatchWithin_of_le higher) ran

theorem carryOut_of_run {limit : Nat} {plan : Plan α} {result : α × List Dispatch}
    (ran : plan.run (registry.dispatchWithin file limit) = some result) :
    registry.carryOut file plan = some result := by
  induction limit generalizing α with
  | zero =>
    cases plan with
    | done last => simpa [Plan.run] using ran
    | dispatch name node next => cases ran
  | succ limit ih =>
    -- The limit is lower inside a macro, and behind it the same limit meets a shorter plan.
    induction plan generalizing result with
    | done last => simpa [Plan.run] using ran
    | dispatch name node next ihNext =>
      obtain ⟨first, last, answered, ranRest, rfl⟩ := Plan.run_dispatch_eq_some_iff.mp ran
      have given : registry.carryOut file (.dispatch name node .done) = some first := by
        rw [dispatchWithin] at answered
        split at answered
        next unknown => rw [carryOut_of_unknown unknown, answered]
        next meaning found =>
          obtain ⟨answer, ranInside, rfl⟩ := Option.map_eq_some_iff.mp answered
          rw [carryOut_of_found found, ih ranInside, Option.map_some]
      rw [carryOut_dispatch, given, Option.bind_some, ihNext first.1 ranRest, Option.map_some]

private theorem exists_run_of_carryOut {plan : Plan α} {result : α × List Dispatch}
    (ended : registry.carryOut file plan = some result) :
    ∃ limit, plan.run (registry.dispatchWithin file limit) = some result := by
  refine carryOut_induction
    (motive := fun plan result =>
      ∃ limit, plan.run (registry.dispatchWithin file limit) = some result) ?_ ?_ ?_ ended
  · exact fun _ => ⟨0, rfl⟩
  · rintro α name node next result unknown ⟨limit, ran⟩
    have answered : registry.dispatchWithin file (limit + 1) name node =
        some (⟨.error (.unknownMacro name ⟨file, node.position⟩), node⟩, []) := by
      rw [dispatchWithin, unknown]
    exact ⟨limit + 1, Plan.run_dispatch_eq_some_iff.mpr
      ⟨_, result, answered, run_of_le (Nat.le_succ limit) ran, rfl⟩⟩
  · rintro α name node next meaning inside behind found ⟨limit, ranInside⟩ ⟨more, ranBehind⟩
    refine ⟨max limit more + 1, Plan.run_dispatch_eq_some_iff.mpr
      ⟨(inside.1, ⟨name, meaning.isBuiltin⟩ :: inside.2), behind, ?_, ?_, rfl⟩⟩
    · rw [dispatchWithin]
      simp only [found, run_of_le (Nat.le_max_left limit more) ranInside, Option.map_some]
    · exact run_of_le (by omega) ranBehind

/-- A plan comes to its end if and only if it does so with the nesting of requests limited to some
depth. -/
theorem carryOut_eq_some_iff {plan : Plan α} {result : α × List Dispatch} :
    registry.carryOut file plan = some result ↔
      ∃ limit, plan.run (registry.dispatchWithin file limit) = some result :=
  ⟨exists_run_of_carryOut, fun ⟨_, ran⟩ => carryOut_of_run ran⟩

/-! ### Expanding -/

theorem expandLogged_of_carryOut {work : Node → Plan Expansion} {node : Node}
    {given : Expansion × List Dispatch} (ended : registry.carryOut file (work node) = some given) :
    registry.expandLogged file work node = given := by
  rw [expandLogged, ended, Option.getD_some]

/-- What is read off a result can be computed with limited nesting. -/
theorem exists_carryOut_of_run {plan : Plan α} {read : α × List Dispatch → β} {found : β}
    (limit : Nat)
    (computed : (plan.run (registry.dispatchWithin file limit)).map read = some found) :
    ∃ result, registry.carryOut file plan = some result ∧ read result = found := by
  obtain ⟨result, ran, gives⟩ := Option.map_eq_some_iff.mp computed
  exact ⟨result, carryOut_of_run ran, gives⟩

theorem map_outcome_expand_of_run {work : Node → Plan Expansion} {node : Node} {read : Program → α}
    {found : Except Fault α} (limit : Nat)
    (computed : ((work node).run (registry.dispatchWithin file limit)).map
      (fun given => given.1.outcome.map read) = some found) :
    (registry.expand file work node).outcome.map read = found := by
  obtain ⟨given, ended, gives⟩ := exists_carryOut_of_run limit computed
  rw [expand, expandLogged_of_carryOut ended, gives]

end Registry

end BraceTemplate
