import BraceTemplate.Tree.Scan

/-!
# Reading a text

The scanner takes in one character after the other, from the end of a text to its start. What
one character does is stated here once, by its kind: a closing brace, an opening brace with or
without a partner, any other character. Every fact about trees and faults is an induction over the
text that goes through these cases.
-/

namespace BraceTemplate

/-! ### Kinds of characters -/

def isBrace (c : Char) : Bool :=
  c = Brace.opening || c = Brace.closing

/-- A text without braces. -/
def BraceFree (cs : List Char) : Prop :=
  ∀ c ∈ cs, isBrace c = false

theorem brace_cases (c : Char) : c = Brace.opening ∨ c = Brace.closing ∨ isBrace c = false := by
  by_cases opening : c = Brace.opening
  · exact .inl opening
  · by_cases closing : c = Brace.closing
    · exact .inr (.inl closing)
    · exact .inr (.inr (by simp [isBrace, opening, closing]))

theorem ne_opening_of_not_brace {c : Char} (plain : isBrace c = false) : c ≠ Brace.opening := by
  rintro rfl
  exact absurd plain (by decide)

theorem ne_closing_of_not_brace {c : Char} (plain : isBrace c = false) : c ≠ Brace.closing := by
  rintro rfl
  exact absurd plain (by decide)

theorem braceFree_nil : BraceFree [] := by
  intro c member
  cases member

theorem braceFree_cons {c : Char} {cs : List Char} :
    BraceFree (c :: cs) ↔ isBrace c = false ∧ BraceFree cs := by
  simp [BraceFree]

theorem braceFree_append {cs ds : List Char} :
    BraceFree (cs ++ ds) ↔ BraceFree cs ∧ BraceFree ds :=
  List.forall_mem_append

namespace Scan

/-! ### One character -/

theorem State.step_closing (s : State) (p : Position) :
    s.step (Brace.closing, p) =
      { s with level := .empty, pending := (p, s.level) :: s.pending } := rfl

/-- An opening brace with a partner makes a node of the level between the two, and goes on with the
level that begins behind the partner. -/
theorem State.step_opening_paired {s : State} {q : Position} {outside : Level}
    {more : List (Position × Level)} (paired : s.pending = (q, outside) :: more) (p : Position) :
    s.step (Brace.opening, p) =
      { s with
        level := ⟨[], .cons p (String.ofList s.level.slot) s.level.children
          (String.ofList outside.slot) outside.children⟩
        pending := more } := by
  simp [State.step, paired]

theorem State.step_opening_lone {s : State} (lone : s.pending = []) (p : Position) :
    s.step (Brace.opening, p) =
      { s with level := .empty, unclosed := s.unclosed.or (some p) } := by
  simp [State.step, lone]

theorem State.step_plain (s : State) {c : Char} (plain : isBrace c = false) (p : Position) :
    s.step (c, p) = { s with level := { s.level with slot := c :: s.level.slot } } := by
  simp only [State.step, if_neg (ne_closing_of_not_brace plain),
    if_neg (ne_opening_of_not_brace plain)]

/-- All that a character can do: open a node that nothing closes, complete a node, begin to read
one, or belong to the text of one. -/
theorem State.step_cases (s : State) (c : Char) (p : Position) :
    (c = Brace.opening ∧ s.pending = [] ∧
      s.step (c, p) = { s with level := .empty, unclosed := s.unclosed.or (some p) }) ∨
    (∃ q outside more, c = Brace.opening ∧ s.pending = (q, outside) :: more ∧
      s.step (c, p) =
        { s with
          level := ⟨[], .cons p (String.ofList s.level.slot) s.level.children
            (String.ofList outside.slot) outside.children⟩
          pending := more }) ∨
    (c = Brace.closing ∧
      s.step (c, p) = { s with level := .empty, pending := (p, s.level) :: s.pending }) ∨
    (isBrace c = false ∧
      s.step (c, p) = { s with level := { s.level with slot := c :: s.level.slot } }) := by
  rcases brace_cases c with rfl | rfl | plain
  · cases pending : s.pending with
    | nil =>
      refine .inl ⟨rfl, rfl, ?_⟩
      rw [← pending]
      exact State.step_opening_lone pending p
    | cons first more =>
      obtain ⟨q, outside⟩ := first
      exact .inr (.inl ⟨q, outside, more, rfl, rfl, State.step_opening_paired pending p⟩)
  · exact .inr (.inr (.inl ⟨rfl, State.step_closing s p⟩))
  · exact .inr (.inr (.inr ⟨plain, State.step_plain s plain p⟩))

/-- A brace that is never closed stays so, whatever stands in front of it. -/
theorem State.unclosed_of_step {s : State} {c : Char} {p : Position}
    (closed : (s.step (c, p)).unclosed = none) : s.unclosed = none := by
  rcases State.step_cases s c p with
    ⟨-, -, step⟩ | ⟨q, outside, more, -, -, step⟩ | ⟨-, step⟩ | ⟨-, step⟩
  · rw [step] at closed
    exact (Option.or_eq_none_iff.mp closed).1
  all_goals
    rw [step] at closed
    exact closed

/-! ### A whole text -/

/-- Takes in a text that stands at `p` and ends at the reading point. -/
def State.takeIn (s : State) (p : Position) (cs : List Char) : State :=
  (placed p cs).foldr (fun c s => s.step c) s

theorem read_eq_takeIn (cs : List Char) : read cs = State.initial.takeIn .start cs := rfl

@[simp] theorem State.takeIn_nil (s : State) (p : Position) : s.takeIn p [] = s := rfl

@[simp] theorem State.takeIn_cons (s : State) (p : Position) (c : Char) (cs : List Char) :
    s.takeIn p (c :: cs) = (s.takeIn (p.next c) cs).step (c, p) := rfl

theorem State.takeIn_append (s : State) (p : Position) (cs ds : List Char) :
    s.takeIn p (cs ++ ds) = (s.takeIn (cs.foldl Position.next p) ds).takeIn p cs := by
  simp [takeIn, placed_append]

theorem State.takeIn_plain (s : State) (p : Position) {cs : List Char} (free : BraceFree cs) :
    s.takeIn p cs = { s with level := { s.level with slot := cs ++ s.level.slot } } := by
  induction cs generalizing p with
  | nil => rfl
  | cons c rest ih =>
    obtain ⟨plain, free⟩ := braceFree_cons.mp free
    rw [takeIn_cons, ih _ free, State.step_plain _ plain]
    rfl

end Scan

/-! ### What a read text gives -/

namespace Node

open Scan

/-- A text has a tree exactly if no brace lacks its partner, and the tree is the outermost level. -/
theorem ofText_eq_ok_iff (text : String) (file : Option String) (root : Node) :
    ofText text file = .ok root ↔
      (read text.toList).pending = [] ∧ (read text.toList).unclosed = none ∧
        root = ⟨.start, String.ofList (read text.toList).level.slot,
          (read text.toList).level.children⟩ := by
  unfold ofText State.root
  cases pending : (read text.toList).pending with
  | nil =>
    cases unclosed : (read text.toList).unclosed with
    | none => simp [eq_comm]
    | some p => simp
  | cons first more => simp

theorem exists_loneBrace_of_ofText {text : String} {file : Option String}
    (none : ¬∃ root, ofText text file = .ok root) :
    ∃ brace position, ofText text file = .error (.loneBrace brace ⟨file, position⟩) := by
  unfold ofText at none ⊢
  cases root : (read text.toList).root with
  | ok node => simp [root] at none
  | error fault => exact ⟨fault.1, fault.2, rfl⟩

end Node

end BraceTemplate
