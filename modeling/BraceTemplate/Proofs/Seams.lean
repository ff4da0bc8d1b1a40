import BraceTemplate.Proofs.Compactness
import BraceTemplate.Proofs.Meaning

/-!
# Where two programs meet

Programs that are put together can be appended in any grouping, and the empty program adds nothing.
What is appended runs one after the other. All ops are kept, but for two texts that meet, which
become one.

## Main result

`append_seam`: the laws of appending, the count of ops and the output for programs that are put
together.

## Proof strategy

In a compact program, no text follows a text. So an op in front of a program that has ops of its own
joins nothing, whatever is appended behind, and only a last op can join.
-/

namespace BraceTemplate.Program

/-- The last op of the first program and the first op of the second are texts. -/
def textsMeet (first second : Program) : Bool :=
  first.ops.getLast?.any Op.isText && second.ops.head?.any Op.isText

private theorem head?_any_isText (program : Program) :
    program.ops.head?.any Op.isText = program.beginsWithText := by
  cases program with
  | empty => rfl
  | leaf op rest => cases op <;> rfl
  | region op body rest => rfl

private theorem textsMeet_leaf {op : Leaf} {rest : Program} (some : rest ≠ .empty)
    (second : Program) :
    textsMeet (.leaf op rest) second = textsMeet rest second := by
  cases rest with
  | empty => exact absurd rfl some
  | leaf next rest => rfl
  | region next body rest => rfl

private theorem textsMeet_region (op : Region) (body rest second : Program) :
    textsMeet (.region op body rest) second = textsMeet rest second := by
  cases rest with
  | empty => rfl
  | leaf next rest => rfl
  | region next body rest => rfl

/-- A program that begins with an op that is no text does so whatever is appended. -/
private theorem beginsWithText_append {first : Program} (some : first ≠ .empty)
    (apart : first.beginsWithText = false) (second : Program) :
    (first ++ second).beginsWithText = false := by
  cases first with
  | empty => exact absurd rfl some
  | leaf op rest =>
    cases op with
    | text text => cases apart
    | value path | path path => rfl
    | call name helper => rfl
  | region op body rest => rfl

private theorem Compact.leaf_append_of_ne_empty {op : Leaf} {rest : Program}
    (compact : (leaf op rest).Compact) (some : rest ≠ .empty) (second : Program) :
    leaf op rest ++ second = leaf op (rest ++ second) := by
  rw [leaf_append]
  cases op with
  | text text => exact consText_of_apart compact.1 (beginsWithText_append some compact.2.1 second)
  | value path | path path => rfl
  | call name helper => rfl

/-- A text in front of a text is no op of its own. -/
private theorem opCount_consText {text : String} (nonempty : text ≠ "") (second : Program) :
    (consText text second).opCount + (if second.beginsWithText then 1 else 0) =
      1 + second.opCount := by
  cases apart : second.beginsWithText with
  | false =>
    rw [consText_of_apart nonempty apart]
    rfl
  | true =>
    obtain ⟨next, rest, rfl⟩ := exists_of_beginsWithText apart
    rw [consText_leaf_text]
    exact Nat.add_comm _ _

/-- One op is lost at the seam if it is in a text. -/
theorem Compact.opCount_append {first : Program} (compact : first.Compact) (second : Program) :
    (first ++ second).opCount + (if textsMeet first second then 1 else 0) =
      first.opCount + second.opCount := by
  induction first with
  | empty =>
    rw [empty_append, opCount]
    exact Nat.add_comm _ _
  | leaf op rest ih =>
    by_cases last : rest = .empty
    · subst last
      cases op with
      | text text =>
        have meets : textsMeet (.leaf (.text text) .empty) second = second.beginsWithText :=
          head?_any_isText second
        rw [meets]
        exact opCount_consText compact.1 second
      | value path | path path => rfl
      | call name helper => rfl
    · rw [compact.leaf_append_of_ne_empty last, textsMeet_leaf last, opCount, opCount]
      have counted := ih compact.of_leaf
      omega
  | region op body rest _ ih =>
    rw [region_append, textsMeet_region, opCount, opCount]
    have counted := ih compact.2
    omega

/-- A program that is appended goes on where the first has ended. -/
theorem run_append (r : Rendering) (first second : Program) :
    r.run (first ++ second) = (r.run first).run second := by
  rw [Rendering.run_eq, Rendering.run_eq, Rendering.run_eq, meaning_append, String.append_assoc]

/-- Programs that are put together can be appended in any grouping, and to or from the empty program
without a change. Appending pushes the ops of the second one by one and keeps them all, unless two
texts meet and become one. The second runs where the first has ended, so its output is behind that
of the first. -/
theorem append_seam {first second : Program} (built : first.Built) (alsoBuilt : second.Built)
    (third : Program) :
    first ++ second ++ third = first ++ (second ++ third) ∧
    .empty ++ first = first ∧ first ++ .empty = first ∧
    first ++ second = second.ops.foldl push first ∧
    (first ++ second).opCount + (if textsMeet first second then 1 else 0) =
      first.opCount + second.opCount ∧
    (∀ r : Rendering, r.run (first ++ second) = (r.run first).run second) ∧
    ∀ (data : Value) (access : DataAccess) (path : List Key) (output : String),
      let outputOf (program : Program) : String :=
        ((Rendering.mk data access path "").run program).output
      ((Rendering.mk data access path output).run (first ++ second)).output =
        output ++ (outputOf first ++ outputOf second) := by
  have compact := built.compact
  have nothing : Compact .empty := trivial
  refine ⟨append_assoc first second third, rfl, compact.append_eq_foldl_push nothing,
    compact.append_eq_foldl_push alsoBuilt.compact, compact.opCount_append second,
    fun r => run_append r first second, ?_⟩
  intro data access path output outputOf
  have alone (program : Program) : outputOf program = program.meaning data access path := by
    have ran := congrArg Rendering.output (Rendering.run_eq program ⟨data, access, path, ""⟩)
    exact ran.trans String.empty_append
  rw [alone, alone, Rendering.run_eq, meaning_append]

/-- Three texts that meet, the middle one a program of its own. -/
theorem append_seam_texts :
    let first := (single (.value ".x")).push (.text "a")
    let second := single (.text "b")
    let third := (single (.text "c")).push (.has ".x" (single (.text "d")))
    let data : Value := .object ⟨["x"], by decide⟩ [.bool true]
    first.Built ∧ second.Built ∧ textsMeet first second = true ∧
    first ++ second ++ third = first ++ (second ++ third) ∧ first ++ .empty = first ∧
    (first ++ second).opCount + 1 = first.opCount + second.opCount ∧
    (first ++ second ++ third).listing =
      "value \".x\"\ntext \"abc\"\nhas \".x\" \x7b\n  text \"d\"\n\x7d\n" ∧
    (first ++ second ++ third).render data .standard = "trueabcd" := by
  intro first second third data
  have built : first.Built := (Built.single (.value ".x") nofun).push (.text "a") nofun
  have alsoBuilt : second.Built := .single (.text "b") nofun
  obtain ⟨grouping, -, nothing, -, count, -⟩ := append_seam built alsoBuilt third
  exact ⟨built, alsoBuilt, rfl, grouping, nothing, count, by decide +kernel, by decide +kernel⟩

end BraceTemplate.Program
