import SettlementOS.Analysis.Markdown

/-!
# Does the renderer come to an end?

It does, and every iteration of its loop consumes a line, exactly when no line that it reads as
text is stuck: a line that begins with `#` is a heading, and a line whose first letter is `|` has
a table separator behind it. On a source with such a line it pushes empty paragraphs for ever.
-/

set_option autoImplicit false

namespace SettlementOS.Results

open SettlementOS.Computation Model.Fingerprint Model.Markdown Program.Markdown
open SettlementOS.Analysis.Markdown

variable {pack : Pack} {source : JsString}

/-! ## Statement -/

/-- `renderMarkdown` returns. -/
def Renders (pack : Pack) (source : JsString) : Prop :=
  ∃ fuel blocks, renderMarkdown pack fuel source = some blocks

/-- Every iteration of the block loop consumes a line at least. -/
def ConsumesLines (pack : Pack) (source : JsString) : Prop :=
  (blockLoop pack).Progresses List.length (sourceLines source)

/-- No line of the source that is read as text is stuck. -/
def Unstuck (source : JsString) : Prop := clear .text (sourceLines source) = true

/-! ## Proof -/

/-- Every iteration consumes a line exactly where no line is stuck. -/
theorem consumesLines_iff_unstuck : ConsumesLines pack source ↔ Unstuck source := by
  apply Loop.progresses_iff (I := fun lines => clear .text lines = true)
  · intro lines hdone
    rw [List.isEmpty_iff.mp hdone]
    rfl
  · intro lines hdone
    cases lines with
    | nil => cases hdone
    | cons line rest =>
      rcases iteration_spec pack line rest with htakes | ⟨hstuck, hsame⟩
      · exact .inl ⟨htakes.shorter, by rw [htakes.kept]; rfl⟩
      · right
        have hbody : ((blockLoop pack).body (line :: rest)).2 = line :: rest := hsame
        rw [hbody, clear_text_cons, hstuck]
        exact ⟨Nat.lt_irrefl _, by simp⟩

/-- The document is rendered exactly where no line is stuck. -/
theorem renders_iff_unstuck : Renders pack source ↔ Unstuck source := by
  rw [← @consumesLines_iff_unstuck pack source]
  have hbody : ∀ lines, (blockLoop pack).done lines = false →
      ((blockLoop pack).body lines).2.length < lines.length ∨
        ((blockLoop pack).body lines).2 = lines := by
    intro lines hdone
    cases lines with
    | nil => cases hdone
    | cons line rest => exact (iteration_spec pack line rest).imp Takes.shorter And.right
  refine Iff.trans ?_ (Loop.terminates_iff hbody)
  constructor
  · rintro ⟨fuel, blocks, hrun⟩
    exact ⟨fuel, Option.isSome_iff_exists.mpr ⟨blocks, hrun⟩⟩
  · rintro ⟨fuel, hrun⟩
    obtain ⟨blocks, hblocks⟩ := Option.isSome_iff_exists.mp hrun
    exact ⟨fuel, blocks, hblocks⟩

/-- **Does it come to an end?** The renderer returns, and every iteration consumes a line,
exactly when no line of the source that is read as text is stuck. -/
theorem renderMarkdown_ends_iff (pack : Pack) (source : JsString) :
    (Renders pack source ↔ Unstuck source) ∧ (ConsumesLines pack source ↔ Unstuck source) :=
  ⟨renders_iff_unstuck, consumesLines_iff_unstuck⟩

/-- A renderer that knows no page. -/
def barePack : Pack := ⟨id, fun _ => false⟩

/-- A hash that is followed by a letter, and a row without a separator: neither comes to an end. -/
theorem hash_never_ends :
    (¬ Renders barePack (ascii "#foo") ∧ ¬ ConsumesLines barePack (ascii "#foo")) ∧
      ¬ Renders barePack (ascii "| a |") ∧ ¬ ConsumesLines barePack (ascii "| a |") := by
  have hhash : ¬ Unstuck (ascii "#foo") := by
    unfold Unstuck
    decide +kernel
  have hrow : ¬ Unstuck (ascii "| a |") := by
    unfold Unstuck
    decide +kernel
  rw [renders_iff_unstuck, consumesLines_iff_unstuck, renders_iff_unstuck,
    consumesLines_iff_unstuck]
  exact ⟨⟨hhash, hhash⟩, hrow, hrow⟩

/-- A small memo of every kind of block is rendered. -/
example : Unstuck (ascii ("# A\n> q\n\n- b\n  more\n1. c\n---\n```\n#d\n```\n" ++
    "| e |\n|-|-|\n| f |\ng")) := by
  unfold Unstuck
  decide +kernel

end SettlementOS.Results
