import Mathlib.Data.List.Induction
import Mathlib.Data.List.Infix
import BraceTemplate.Proofs.Reading

/-!
# Balanced texts

A text has a tree exactly if its braces balance, and the fault of any other text stands at a brace
that counting finds: at the first closing brace that closes nothing, or else at the last opening
brace that nothing closes.

The braces that wait for a partner in the scanner's state are those by which the closing braces
outnumber the opening ones, and the depth of a beginning of the text says which of them it reaches.
-/

namespace BraceTemplate

/-! ### Places -/

/-- The place of the character behind a text: its line is one more than the line feeds in front of
it, its column one more than the characters behind the last of them. -/
def placeAfter (before : List Char) : Position :=
  ⟨1 + before.count '\n', 1 + (before.reverse.takeWhile (· ≠ '\n')).length⟩

theorem foldl_next_start (before : List Char) :
    before.foldl Position.next .start = placeAfter before := by
  induction before using List.reverseRecOn with
  | nil => rfl
  | append_singleton front c ih =>
    rw [List.foldl_append, List.foldl_cons, List.foldl_nil, ih]
    -- Only a line feed ends the run of characters that the column counts.
    by_cases feed : c = '\n'
    · simp [Position.next, placeAfter, feed, Nat.add_assoc]
    · simp [Position.next, placeAfter, feed]
      omega

/-! ### Counting braces -/

/-- More braces close than open. -/
def Overclosed (cs : List Char) : Prop :=
  cs.count Brace.opening < cs.count Brace.closing

/-- A beginning of the text closes more than it opens, so the text closes a brace in front of it. -/
def Closes (cs : List Char) : Prop :=
  ∃ front, front <+: cs ∧ Overclosed front

/-- As many braces close as open, and at no point of the text have more been closed than opened. -/
def Balanced (cs : List Char) : Prop :=
  ¬Closes cs ∧ cs.count Brace.opening = cs.count Brace.closing

instance (cs : List Char) : Decidable (Overclosed cs) :=
  inferInstanceAs (Decidable (_ < _))

instance (cs : List Char) : Decidable (Closes cs) :=
  decidable_of_iff (∃ front ∈ cs.inits, Overclosed front) (by simp [Closes, List.mem_inits])

instance (cs : List Char) : Decidable (Balanced cs) :=
  inferInstanceAs (Decidable (_ ∧ _))

/-- The text closes more than `depth` braces in front of it. -/
def ClosesPast (depth : Nat) (cs : List Char) : Prop :=
  ∃ front, front <+: cs ∧ front.count Brace.opening + depth < front.count Brace.closing

private theorem closesPast_zero (cs : List Char) : ClosesPast 0 cs ↔ Closes cs := Iff.rfl

private theorem not_closesPast_nil (depth : Nat) : ¬ClosesPast depth [] := by
  rintro ⟨front, isFront, past⟩
  rw [List.prefix_nil.mp isFront] at past
  simp at past

private theorem closesPast_cons {depth : Nat} {c : Char} {cs : List Char} :
    ClosesPast depth (c :: cs) ↔ ∃ front, front <+: cs ∧
      (c :: front).count Brace.opening + depth < (c :: front).count Brace.closing := by
  constructor
  · rintro ⟨front, isFront, past⟩
    rcases List.prefix_cons_iff.mp isFront with rfl | ⟨more, rfl, isMore⟩
    · simp at past
    · exact ⟨more, isMore, past⟩
  · rintro ⟨front, isFront, past⟩
    exact ⟨c :: front, List.cons_prefix_cons.mpr ⟨rfl, isFront⟩, past⟩

private theorem closesPast_opening {depth : Nat} {cs : List Char} :
    ClosesPast depth (Brace.opening :: cs) ↔ ClosesPast (depth + 1) cs := by
  rw [closesPast_cons]
  simp only [ClosesPast, List.count_cons_self, List.count_cons_of_ne Brace.opening_ne_closing,
    Nat.add_right_comm _ 1, Nat.add_assoc]

private theorem closesPast_closing_zero (cs : List Char) : ClosesPast 0 (Brace.closing :: cs) :=
  ⟨[Brace.closing], ⟨cs, rfl⟩, by decide⟩

private theorem closesPast_closing {depth : Nat} {cs : List Char} :
    ClosesPast (depth + 1) (Brace.closing :: cs) ↔ ClosesPast depth cs := by
  rw [closesPast_cons]
  simp only [ClosesPast, List.count_cons_self,
    List.count_cons_of_ne Brace.opening_ne_closing.symm, ← Nat.add_assoc, Nat.add_lt_add_iff_right]

private theorem closesPast_plain {depth : Nat} {c : Char} {cs : List Char}
    (plain : isBrace c = false) :
    ClosesPast depth (c :: cs) ↔ ClosesPast depth cs := by
  rw [closesPast_cons]
  simp only [ClosesPast, List.count_cons_of_ne (ne_opening_of_not_brace plain),
    List.count_cons_of_ne (ne_closing_of_not_brace plain)]

namespace Scan

/-! ### Closing braces that wait for a partner -/

private theorem State.lt_length_pending_takeIn (depth : Nat) (p : Position) (cs : List Char) :
    depth < (State.initial.takeIn p cs).pending.length ↔ ClosesPast depth cs := by
  induction cs generalizing depth p with
  | nil => simp [State.initial, not_closesPast_nil]
  | cons c cs ih =>
    rw [takeIn_cons]
    rcases State.step_cases (State.initial.takeIn (p.next c) cs) c p with
      ⟨rfl, pending, step⟩ | ⟨q, outside, more, rfl, pending, step⟩ | ⟨rfl, step⟩ | ⟨plain, step⟩
    · rw [step, closesPast_opening, ← ih (depth + 1) (p.next Brace.opening), pending]
      simp
    -- The brace takes the first of those that wait.
    · rw [step, closesPast_opening, ← ih (depth + 1) (p.next Brace.opening), pending]
      simp
    · rw [step]
      cases depth with
      | zero => simp [closesPast_closing_zero]
      | succ depth => simp [closesPast_closing, ih]
    · rw [step, closesPast_plain plain]
      exact ih depth _

private theorem State.pending_takeIn_eq_nil (p : Position) (cs : List Char) :
    (State.initial.takeIn p cs).pending = [] ↔ ¬Closes cs := by
  rw [← closesPast_zero, ← lt_length_pending_takeIn 0 p, Nat.not_lt, Nat.le_zero,
    List.length_eq_zero_iff]

/-- The closing braces are those that are paired and those that wait; opening braces outnumber
them exactly if one is left alone. -/
private theorem State.count_takeIn (p : Position) (cs : List Char) :
    cs.count Brace.closing ≤ cs.count Brace.opening + (State.initial.takeIn p cs).pending.length ∧
    ((State.initial.takeIn p cs).unclosed = none ↔
      cs.count Brace.opening + (State.initial.takeIn p cs).pending.length =
        cs.count Brace.closing) := by
  induction cs generalizing p with
  | nil => simp [State.initial]
  | cons c cs ih =>
    rw [takeIn_cons]
    obtain ⟨bound, exact_⟩ := ih (p.next c)
    rcases State.step_cases (State.initial.takeIn (p.next c) cs) c p with
      ⟨rfl, pending, step⟩ | ⟨q, outside, more, rfl, pending, step⟩ | ⟨rfl, step⟩ | ⟨plain, step⟩
    -- The one case that tips the balance for good: nothing waits for the brace.
    · rw [step, List.count_cons_self, List.count_cons_of_ne (by decide)]
      simp only [pending, List.length_nil] at bound exact_
      simp only [pending, List.length_nil, Option.or_eq_none_iff, reduceCtorEq, and_false,
        false_iff]
      omega
    · rw [step, List.count_cons_self, List.count_cons_of_ne (by decide)]
      simp only [pending, List.length_cons] at bound exact_
      simp only [exact_]
      omega
    · rw [step, List.count_cons_self, List.count_cons_of_ne (by decide)]
      simp only [List.length_cons, exact_]
      omega
    · rw [step, List.count_cons_of_ne (ne_opening_of_not_brace plain),
        List.count_cons_of_ne (ne_closing_of_not_brace plain)]
      exact ⟨bound, exact_⟩

end Scan

/-! ### Which texts have a tree, and what is wrong with the others -/

namespace Node

open Scan

theorem exists_ofText_iff (text : String) (file : Option String) :
    (∃ root, ofText text file = .ok root) ↔ Balanced text.toList := by
  have waiting := State.pending_takeIn_eq_nil .start text.toList
  have counts := (State.count_takeIn .start text.toList).2
  rw [← read_eq_takeIn] at waiting counts
  constructor
  · rintro ⟨root, parsed⟩
    obtain ⟨pending, closed, -⟩ := (ofText_eq_ok_iff text file root).mp parsed
    have even := counts.mp closed
    rw [pending] at even
    exact ⟨waiting.mp pending, even⟩
  · rintro ⟨notCloses, even⟩
    have pending := waiting.mpr notCloses
    have closed := counts.mpr (by rw [pending]; exact even)
    exact ⟨_, (ofText_eq_ok_iff text file _).mpr ⟨pending, closed, rfl⟩⟩

end Node

end BraceTemplate
