import Mathlib.Data.List.DropRight
import SettlementOS.Computation.Pattern
import SettlementOS.Model.Fingerprint

/-!
# Lines and spans of a memo (`app/docs/regulatory/markdown.tsx`)

The patterns by which the renderer tells one kind of line from another, and what it makes of the
text inside a line. Strings are their UTF-16 code units. How a letter is put in lower case is the
runtime's business.
-/

set_option autoImplicit false

namespace SettlementOS.Model.Markdown

open SettlementOS.Computation Fingerprint

/-! ## Strings -/

/-- `\s`, which is also what `trim` takes off. -/
def isSpace (u : CodeUnit) : Bool :=
  (0x09 ≤ u.val && u.val ≤ 0x0D) || u.val == 0x20 || u.val == 0xA0 || u.val == 0x1680 ||
    (0x2000 ≤ u.val && u.val ≤ 0x200A) || u.val == 0x2028 || u.val == 0x2029 ||
    u.val == 0x202F || u.val == 0x205F || u.val == 0x3000 || u.val == 0xFEFF

/-- `.`: any unit but the four that end a line. -/
def isDot (u : CodeUnit) : Bool :=
  !(u.val == 0x0A || u.val == 0x0D || u.val == 0x2028 || u.val == 0x2029)

/-- `\d` -/
def isDigit (u : CodeUnit) : Bool := 0x30 ≤ u.val && u.val ≤ 0x39

/-- `s.trim()` -/
def trim (s : JsString) : JsString := (s.dropWhile isSpace).rdropWhile isSpace

/-- `s.startsWith(p)` -/
def startsWith (s p : JsString) : Bool := p.isPrefixOf s

/-- `s.includes(p)` -/
def includes (s p : JsString) : Bool := s.tails.any fun t => startsWith t p

/-- `s.replace(/\r\n/g, "\n")` -/
def unixLines : JsString → JsString
  | [] => []
  | u :: s =>
    if u = unit '\r' ∧ s.head? = some (unit '\n') then unixLines s else u :: unixLines s

/-! ## Kinds of lines -/

/-- `\s` -/
def space : Pattern CodeUnit := .one isSpace

/-- `/^(#{1,4})\s+(.+)$/` -/
def headingPattern : Pattern CodeUnit :=
  .seq ((Pattern.letter (unit '#')).upTo 1 3) (.seq space.plus (Pattern.one isDot).plus)

/-- `/^(-{3,}|\*{3,}|_{3,})\s*$/` -/
def rulePattern : Pattern CodeUnit :=
  .seq (.alt ((Pattern.letter (unit '-')).atLeast 3)
    (.alt ((Pattern.letter (unit '*')).atLeast 3) ((Pattern.letter (unit '_')).atLeast 3)))
    (.many space)

/-- `\s*:?-+:?\s*` -/
def separatorCell : Pattern CodeUnit :=
  .seq (.many space) (.seq (Pattern.letter (unit ':')).opt (.seq (Pattern.letter (unit '-')).plus
    (.seq (Pattern.letter (unit ':')).opt (.many space))))

/-- `/^\|?\s*:?-+:?\s*(\|\s*:?-+:?\s*)+\|?$/` -/
def separatorPattern : Pattern CodeUnit :=
  .seq (Pattern.letter (unit '|')).opt (.seq separatorCell
    (.seq (Pattern.seq (Pattern.letter (unit '|')) separatorCell).plus
      (Pattern.letter (unit '|')).opt))

/-- `/^[-*]\s+/` -/
def bulletPattern : Pattern CodeUnit :=
  (Pattern.seq (.one fun u => u = unit '-' ∨ u = unit '*') space.plus).starts

/-- `/^\d+\.\s+/` -/
def orderedPattern : Pattern CodeUnit :=
  (Pattern.seq (Pattern.one isDigit).plus (.seq (Pattern.letter (unit '.')) space.plus)).starts

/-- `/^\s{2,}\S/` -/
def continuationPattern : Pattern CodeUnit :=
  (Pattern.seq (space.atLeast 2) (.one fun u => !isSpace u)).starts

/-- `line.trim() === ""` -/
def isBlank (line : JsString) : Bool := trim line == []

/-- ``line.startsWith("```")`` -/
def isFence (line : JsString) : Bool := startsWith line (ascii "```")

/-- The groups of `headingPattern`: the level and the text. The blanks take what they can; where
nothing else is left for the text they give their last unit back. -/
def heading (line : JsString) : Option (ℕ × JsString) :=
  if headingPattern.test line then
    let level := (line.takeWhile fun u => u = unit '#').length
    let content := (line.drop level).dropWhile isSpace
    some (level, if content = [] then line.drop (line.length - 1) else content)
  else none

/-- Whether a line is a rule. -/
def isRule (line : JsString) : Bool := rulePattern.test line

/-- `line.trim().startsWith("|")` -/
def isRow (line : JsString) : Bool := startsWith (trim line) [unit '|']

/-- `isTableSeparator` -/
def isTableSeparator (line : JsString) : Bool := separatorPattern.test (trim line)

/-- Whether a line is a quote. -/
def isQuote (line : JsString) : Bool := startsWith line [unit '>']

/-- Whether a line is a bullet. -/
def isBullet (line : JsString) : Bool := bulletPattern.test line

/-- Whether a line is an ordered item. -/
def isOrdered (line : JsString) : Bool := orderedPattern.test line

/-- Whether a line continues an item. -/
def isContinuation (line : JsString) : Bool := continuationPattern.test line

/-- `line.replace(/^>\s?/, "")`, of a line that starts with `>` -/
def unquote (line : JsString) : JsString :=
  match line.drop 1 with
  | [] => []
  | u :: s => if isSpace u then s else u :: s

/-- `line.replace(/^[-*]\s+/, "")`, of a line the pattern matches -/
def stripBullet (line : JsString) : JsString := (line.drop 1).dropWhile isSpace

/-- `line.replace(/^\d+\.\s+/, "")`, of a line the pattern matches -/
def stripOrdered (line : JsString) : JsString :=
  ((line.dropWhile isDigit).drop 1).dropWhile isSpace

/-- `splitTableRow` -/
def splitTableRow (line : JsString) : List JsString :=
  let trimmed := trim line
  let opened := if startsWith trimmed [unit '|'] then trimmed.drop 1 else trimmed
  let closed := if opened.getLast? = some (unit '|') then opened.dropLast else opened
  (closed.splitOn (unit '|')).map trim

/-! ## Text inside a line -/

/-- What a renderer is given besides the source. -/
structure Pack where
  /-- `String.prototype.toLowerCase` -/
  toLowerCase : JsString → JsString
  /-- `knownSlugs` -/
  knownSlugs : JsString → Bool

/-- A node of a line. -/
inductive Inline where
  | text (s : JsString)
  | code (s : JsString)
  | link (slug label : JsString)
  | anchor (href label : JsString)
  | span (title label : JsString)
  | strong (s : JsString)
  | em (s : JsString)
  deriving DecidableEq

/-- `slugFromMdHref` -/
def slugFromMdHref (pack : Pack) (href : JsString) : Option JsString :=
  let bare := trim (href.takeWhile fun u => u ≠ unit '#')
  if bare = [] ∨ includes bare (ascii "://") ∨ startsWith bare [unit '/'] ∨
      includes bare (ascii "..") then none
  else
    let base := if startsWith bare (ascii "./") then bare.drop 2 else bare
    if ¬ (ascii ".md").isSuffixOf base ∨ includes base [unit '/'] then none
    else some (pack.toLowerCase (base.take (base.length - 3)))

/-- `open([^stop]+)close` at the head of a text, where `close` begins with `stop`: what it
encloses and what is left. The run up to `stop` is the only one that can be closed. -/
def enclosed (opening : JsString) (stop : CodeUnit) (closing s : JsString) :
    Option (JsString × JsString) :=
  if startsWith s opening then
    let body := (s.drop opening.length).takeWhile fun u => u ≠ stop
    let rest := (s.drop opening.length).dropWhile fun u => u ≠ stop
    if body ≠ [] ∧ startsWith rest closing then some (body, rest.drop closing.length) else none
  else none

/-- ``(`+)([^`]+)\1``: a run of backquotes is closed by one as long. -/
def codeAt (s : JsString) : Option (Inline × JsString) :=
  let ticks := s.takeWhile fun u => u = unit '`'
  if ticks = [] then none
  else (enclosed ticks (unit '`') ticks s).map fun (body, rest) => (.code body, rest)

/-- What a link to `href` becomes. -/
def linkNode (pack : Pack) (label href : JsString) : Inline :=
  match (slugFromMdHref pack href).filter fun slug => slug ≠ [] && pack.knownSlugs slug with
  | some slug => .link slug label
  | none =>
    if startsWith href (ascii "http://") || startsWith href (ascii "https://") then
      .anchor href label
    else .span href label

/-- `\[([^\]]+)\]\(([^)]+)\)` -/
def linkAt (pack : Pack) (s : JsString) : Option (Inline × JsString) := do
  let (label, rest) ← enclosed [unit '['] (unit ']') [unit ']', unit '('] s
  let (href, rest) ← enclosed [] (unit ')') [unit ')'] rest
  return (linkNode pack label href, rest)

/-- The alternatives of the pattern, in their order, at the head of a text. -/
def inlineAt (pack : Pack) (s : JsString) : Option (Inline × JsString) :=
  codeAt s <|> linkAt pack s <|>
    (enclosed (ascii "**") (unit '*') (ascii "**") s).map (fun (t, rest) => (.strong t, rest)) <|>
    (enclosed (ascii "*") (unit '*') (ascii "*") s).map (fun (t, rest) => (.em t, rest)) <|>
    (enclosed (ascii "__") (unit '_') (ascii "__") s).map (fun (t, rest) => (.strong t, rest)) <|>
    (enclosed (ascii "_") (unit '_') (ascii "_") s).map (fun (t, rest) => (.em t, rest))

/-- What is enclosed is not empty, so less is left. -/
theorem enclosed_shorter {opening closing s body rest : JsString} {stop : CodeUnit}
    (h : enclosed opening stop closing s = some (body, rest)) : rest.length < s.length := by
  unfold enclosed at h
  split at h
  · dsimp only at h
    split at h
    · rename_i hclosed
      simp only [Option.some.injEq, Prod.mk.injEq] at h
      obtain ⟨rfl, rfl⟩ := h
      have hsplit := congrArg List.length
        (List.takeWhile_append_dropWhile (p := fun u => decide (u ≠ stop))
          (l := s.drop opening.length))
      have hpos := List.length_pos_iff.mpr hclosed.1
      rw [List.length_append, List.length_drop] at hsplit
      rw [List.length_drop]
      omega
    · cases h
  · cases h

/-- What follows a code span is shorter. -/
theorem codeAt_shorter {s rest : JsString} {node : Inline} (h : codeAt s = some (node, rest)) :
    rest.length < s.length := by
  unfold codeAt at h
  dsimp only at h
  split at h
  · cases h
  · obtain ⟨⟨body, rest'⟩, hbody, heq⟩ := Option.map_eq_some_iff.mp h
    cases heq
    exact enclosed_shorter hbody

/-- What follows a link is shorter. -/
theorem linkAt_shorter {pack : Pack} {s rest : JsString} {node : Inline}
    (h : linkAt pack s = some (node, rest)) : rest.length < s.length := by
  unfold linkAt at h
  obtain ⟨⟨label, rest₁⟩, hlabel, h⟩ := Option.bind_eq_some_iff.mp h
  obtain ⟨⟨href, rest₂⟩, hhref, h⟩ := Option.bind_eq_some_iff.mp h
  cases h
  exact Nat.lt_trans (enclosed_shorter hhref) (enclosed_shorter hlabel)

/-- Every match of the pattern takes something. -/
theorem inlineAt_shorter {pack : Pack} {s rest : JsString} {node : Inline}
    (h : inlineAt pack s = some (node, rest)) : rest.length < s.length := by
  have hmap : ∀ {opening closing : JsString} {stop : CodeUnit} {f : JsString → Inline},
      (enclosed opening stop closing s).map (fun x => (f x.1, x.2)) = some (node, rest) →
        rest.length < s.length := by
    intro opening closing stop f hf
    obtain ⟨⟨body, rest'⟩, hbody, heq⟩ := Option.map_eq_some_iff.mp hf
    cases heq
    exact enclosed_shorter hbody
  unfold inlineAt at h
  simp only [Option.orElse_eq_orElse, Option.orElse_eq_or, Option.or_eq_some_iff] at h
  rcases h with h | ⟨-, h | ⟨-, h | ⟨-, h | ⟨-, h | ⟨-, h⟩⟩⟩⟩⟩
  · exact codeAt_shorter h
  · exact linkAt_shorter h
  · exact hmap h
  · exact hmap h
  · exact hmap h
  · exact hmap h

/-- The text between two nodes, when there is some. -/
def plainNode (s : JsString) : List Inline := if s = [] then [] else [.text s]

/-- `renderInline` from some position on, with the text since the last node. -/
def renderFrom (pack : Pack) (since : JsString) (s : JsString) : List Inline :=
  match _hit : inlineAt pack s with
  | some (node, rest) => plainNode since ++ node :: renderFrom pack [] rest
  | none =>
    match s with
    | [] => plainNode since
    | u :: s => renderFrom pack (since ++ [u]) s
termination_by s.length
decreasing_by
  · exact inlineAt_shorter _hit
  · simp

/-- `renderInline` -/
def renderInline (pack : Pack) (text : JsString) : List Inline := renderFrom pack [] text

end SettlementOS.Model.Markdown
