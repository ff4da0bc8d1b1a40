import BraceTemplate.Macro.Builtin

/-!
# Macros by name

A registry holds the macros of a user in the order of their names. A name means the user's macro if
there is one and the built-in macro otherwise.

Carrying out a plan hands each of its requests to the macro of the name and goes on with the answer.
That macro has a plan of its own, which is carried out in the same way. Nothing limits how deep
requests nest, nor does a macro have to ask for nodes of the tree only. A plan whose requests lead
to requests without end has no result.
-/

namespace BraceTemplate

structure Registry where
  macros : List (String × Macro) := []

inductive Meaning where
  | builtin (builtin : Builtin)
  | user (user : Macro)

namespace Meaning

def toMacro : Meaning → Macro
  | .builtin b => b.toMacro
  | .user m => m

def isBuiltin : Meaning → Bool
  | .builtin _ => true
  | .user _ => false

end Meaning

/-- A record of a node handed to a macro. -/
structure Dispatch where
  name : String
  builtin : Bool
  deriving DecidableEq, Repr

namespace Registry

def empty : Registry := {}

/-- Puts a macro in the place of its name, and in the place of the macro that has the name. -/
def insertSorted (name : String) (m : Macro) : List (String × Macro) → List (String × Macro)
  | [] => [(name, m)]
  | first :: rest =>
    if name < first.1 then (name, m) :: first :: rest
    else if first.1 < name then first :: insertSorted name m rest
    else (name, m) :: rest

private theorem lookup_cons_ite (key word : String) (m : Macro) (macros : List (String × Macro)) :
    List.lookup key ((word, m) :: macros) = if key = word then some m else macros.lookup key := by
  by_cases h : key = word
  · simp [h]
  · simp [List.lookup_cons, beq_eq_false_iff_ne.mpr h, h]

/-- A macro put in is found under its name, and every other name keeps its macro. -/
theorem lookup_insertSorted (name key : String) (m : Macro) (macros : List (String × Macro)) :
    (insertSorted name m macros).lookup key = if key = name then some m else macros.lookup key := by
  induction macros with
  | nil => exact lookup_cons_ite key name m []
  | cons first rest ih =>
    obtain ⟨word, other⟩ := first
    simp only [insertSorted]
    split
    · exact lookup_cons_ite key name m _
    next notBefore =>
      split
      next after =>
        have apart : word ≠ name := by
          rintro rfl
          exact String.lt_irrefl _ after
        rw [lookup_cons_ite, lookup_cons_ite, ih]
        by_cases here : key = word
        · simp [here, apart]
        · simp [here]
      next notAfter =>
        have same : word = name := String.le_antisymm notBefore notAfter
        rw [lookup_cons_ite, lookup_cons_ite, same]
        split <;> rfl

/-- Gives a macro a name. A macro that had the name loses it. -/
def insert (registry : Registry) (name : String) (m : Macro) : Registry :=
  ⟨insertSorted name m registry.macros⟩

/-- The registry of named macros; of two with one name the later one counts. -/
def ofList (macros : List (String × Macro)) : Registry :=
  macros.foldl (fun registry entry => registry.insert entry.1 entry.2) empty

/-- What a name means: a macro of the user before a built-in one. -/
def find? (registry : Registry) (name : String) : Option Meaning :=
  match registry.macros.lookup name with
  | some m => some (.user m)
  | none => (Builtin.ofName? name).map .builtin

/-- The names of the user's macros in ascending order. -/
def names (registry : Registry) : List String :=
  registry.macros.map (·.1)

def isEmpty (registry : Registry) : Bool :=
  registry.macros.isEmpty

/-- What the macros of the registry can learn about a compilation. -/
def setting (registry : Registry) (file : Option String) : Setting :=
  ⟨file, registry.names⟩

/-- The registry as it is shown to a developer. -/
def shown (registry : Registry) : String :=
  (registry.setting none).shownMacros

/-- Carries out a plan and records the macros that nodes are handed to. A name without a macro is
answered with an error. There is no result if the plan never comes to its end. -/
def carryOut (registry : Registry) (file : Option String) {α : Type} (plan : Plan α) :
    Option (α × List Dispatch) :=
  match plan with
  | .done result => some (result, [])
  | .dispatch name node next =>
    match registry.find? name with
    | none =>
      let fault := .unknownMacro name ⟨file, node.position⟩
      registry |>.carryOut file (next ⟨.error fault, node⟩)
    | some meaning => do
      let work := meaning.toMacro.plan (registry.setting file) node
      let (expansion, inside) ← registry |>.carryOut file work
      let (result, behind) ← registry |>.carryOut file (next expansion)
      return (result, ⟨name, meaning.isBuiltin⟩ :: inside ++ behind)
partial_fixpoint

/-- Carries out work on a node, and records which macros it went through. -/
def expandLogged (registry : Registry) (file : Option String) (work : Node → Plan Expansion)
    (node : Node) : Expansion × List Dispatch :=
  let endless := .error (.endlessExpansion ⟨file, node.position⟩)
  (registry.carryOut file (work node)).getD (⟨endless, node⟩, [])

def expand (registry : Registry) (file : Option String) (work : Node → Plan Expansion)
    (node : Node) : Expansion :=
  (registry.expandLogged file work node).1

end Registry

end BraceTemplate
