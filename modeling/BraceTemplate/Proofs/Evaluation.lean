import BraceTemplate.Proofs.Expansion
import BraceTemplate.Proofs.Meaning

/-!
# Evaluating a tree

A template can be rendered without a program, by walking its tree: each node claims its name and
its path from its head and adds its text, what it finds in the data, and the nodes inside it, at the
ambient path or below. Compiling and then rendering gives the same text, for every access to data.

The comparison goes macro by macro: the meaning of what a macro compiles to is what the macro
evaluates to, whatever the nodes inside mean.
-/

namespace BraceTemplate

variable (data : Value) (access : DataAccess)

/-- A macro applied to the head behind its name and to the text of the nodes inside at any path. All
but `out` claim a path from the head. -/
def Builtin.evaluate (builtin : Builtin) (head : String) (inner : List Key → String)
    (path : List Key) : String :=
  let (token, text) := Token.claim head
  let target := Path.normalize token
  match builtin with
  | .out => head ++ inner path
  | .value => ((valueBelow data access path target).map access.text).getD "" ++ text ++ inner path
  | .scope => text ++ inner (path ++ Key.ofPath target)
  | .has => if (valueBelow data access path target).isSome then text ++ inner path else ""
  | .each =>
    let below := path ++ Key.ofPath target
    String.join ((access.visit (valueBelow data access below "")).map
      fun key => text ++ inner (below ++ [key]))
  | .path => String.join (path.map fun key => "." ++ key.text) ++ target ++ text ++ inner path

/-- The text of nodes at an ambient path, trailing texts included. -/
def Children.evaluate : Children → List Key → String
  | .nil, _ => ""
  | .cons _ head inner trailing rest, path =>
    let (name, afterName) := Token.claim head
    (match Builtin.ofName? name with
      | some builtin => builtin.evaluate data access afterName inner.evaluate path
      | none => "") ++ trailing ++ rest.evaluate path

/-- The text of a tree: the head of its root as it stands, then the nodes in it. -/
def Node.evaluate (root : Node) : String :=
  root.head ++ root.children.evaluate data access []

/-- What a built-in macro compiles to means what the macro evaluates to. -/
theorem Builtin.meaning_program (builtin : Builtin) (head : String) (inner : Program)
    (path : List Key) :
    (builtin.program head inner).meaning data access path =
      builtin.evaluate data access head (inner.meaning data access) path := by
  cases builtin with
  | out => exact Program.meaning_consText data access path head inner
  | value =>
    simp only [program, evaluate, Program.meaning_cons, Program.meaning_consText, Op.meaning,
      Rendering.leafText, Rendering.valueAt_standing_eq, String.append_assoc]
    rfl
  | path =>
    simp only [program, evaluate, Program.meaning_cons, Program.meaning_consText, Op.meaning,
      Rendering.leafText, Rendering.pathText, Rendering.standing, String.append_assoc]
  | scope =>
    simp only [program, evaluate, Program.meaning_single, Program.meaning_consText, Op.meaning,
      Region.meaning]
  | has =>
    simp only [program, evaluate, Program.meaning_single, Program.meaning_consText, Op.meaning,
      Region.meaning, Rendering.valueAt_standing_eq]
  | each =>
    simp only [program, evaluate, Program.meaning_single, Program.meaning_consText, Op.meaning,
      Region.meaning, Rendering.valueAt_standing_eq]

theorem Children.meaning_program (children : Children) (path : List Key) :
    children.program.meaning data access path = children.evaluate data access path := by
  induction children generalizing path with
  | nil => rfl
  | cons position head inner trailing rest ihInner ihRest =>
    have same : inner.program.meaning data access = inner.evaluate data access := funext ihInner
    simp only [program, evaluate, Program.meaning_append, Program.meaning_consText, ihRest,
      String.append_assoc]
    cases Builtin.ofName? (Token.claim head).1 with
    | none => rfl
    | some builtin => simp only [Builtin.meaning_program, same]

/-- A template that compiles has a tree and renders to what the tree evaluates to, over the access
that its options choose as over any other. -/
theorem render_eq_evaluate (source : String) (options : Options) (template : Template)
    (noUser : options.macros.isEmpty = true) (compiled : compile source options = .ok template) :
    ∃ root, Node.ofText source options.file = .ok root ∧
      (∀ data, template.render data = root.evaluate data options.access) ∧
      ∀ data access, template.program.render data access = root.evaluate data access := by
  -- The program is known from the tree, so it is enough to compare meanings at the root path.
  obtain ⟨root, parsed, rfl⟩ := exists_of_compile noUser compiled
  have same (data : Value) (access : DataAccess) :
      (Program.consText root.head root.children.program).render data access =
        root.evaluate data access := by
    rw [Program.render_eq, Program.meaning_consText, Children.meaning_program, Node.evaluate]
  exact ⟨root, parsed, fun data => same data options.access, same⟩

theorem render_eq_evaluate_each :
    ∃ template root, compile " \x7beach . <\x7b.\x7d>\x7d!" {} = .ok template ∧
      Node.ofText " \x7beach . <\x7b.\x7d>\x7d!" none = .ok root ∧
      template.render (.array [.string "a", .string "b"]) =
        root.evaluate (.array [.string "a", .string "b"]) .standard ∧
      root.evaluate (.array [.string "a", .string "b"]) .standard = " <a><b>!" := by
  obtain ⟨template, compiled⟩ : ∃ template,
      compile " \x7beach . <\x7b.\x7d>\x7d!" {} = .ok template :=
    ⟨_, (compile_eq_ok_iff rfl).mpr ⟨_, rfl, rfl, rfl⟩⟩
  obtain ⟨root, parsed, rendered, -⟩ :=
    render_eq_evaluate " \x7beach . <\x7b.\x7d>\x7d!" {} template rfl compiled
  refine ⟨template, root, compiled, parsed, rendered _, ?_⟩
  cases parsed
  rfl

end BraceTemplate
