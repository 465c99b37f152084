import SettlementOS.Computation.Loop
import SettlementOS.Model.Markdown

/-!
# Rendering a memo (`app/docs/regulatory/markdown.tsx`)

`renderMarkdown` takes the source line by line: its loop looks at the first line that is left,
takes what belongs to a block of its kind, and goes on with the rest. Class names and the keys of
the elements, which count the blocks, are left out.
-/

set_option autoImplicit false

namespace SettlementOS.Program.Markdown

open SettlementOS.Computation Model.Fingerprint Model.Markdown

/-- An element of the page. -/
inductive Block where
  | pre (body : JsString)
  | heading (level : ℕ) (content : List Inline)
  | hr
  | table (header : List (List Inline)) (rows : List (List (List Inline)))
  | blockquote (paragraphs : List (List Inline))
  | ul (items : List (List Inline))
  | ol (items : List (List Inline))
  | p (content : List Inline)
  deriving DecidableEq

/-! ## The branches of the loop -/

/-- The lines of a quote, joined into paragraphs on its blank lines. -/
def paragraphs (quoteLines : List JsString) : List JsString :=
  let (paragraphs, buf) := quoteLines.foldl (fun (paragraphs, buf) ql =>
    if isBlank ql then
      if buf = [] then (paragraphs, buf) else (paragraphs ++ [joined (unit ' ') buf], [])
    else (paragraphs, buf ++ [trim ql])) ([], [])
  if buf = [] then paragraphs else paragraphs ++ [joined (unit ' ') buf]

/-- The items of a list, each with its continuation lines, and the lines behind it. -/
def listItems (isItem : JsString → Bool) (strip : JsString → JsString) :
    List JsString → List JsString × List JsString
  | [] => ([], [])
  | line :: rest =>
    if isItem line then
      let item := (rest.takeWhile isContinuation).foldl (fun item l => item ++ unit ' ' :: trim l)
        (strip line)
      let (items, left) := listItems isItem strip (rest.dropWhile isContinuation)
      (item :: items, left)
    else ([], line :: rest)
termination_by lines => lines.length
decreasing_by
  exact Nat.lt_succ_of_le (List.dropWhile_suffix _).length_le

/-- A line that the paragraph branch takes. -/
def isPlain (line : JsString) : Bool :=
  !isBlank line && !startsWith line [unit '#'] && !isQuote line && !isFence line &&
    !isRow line && !isBullet line && !isOrdered line && !isRule line

/-- One iteration of the loop: the blocks it pushes and the lines it leaves. -/
def iteration (pack : Pack) : List JsString → List Block × List JsString
  | [] => ([], [])
  | line :: rest =>
    if isBlank line then ([], rest)
    else if isFence line then
      ([.pre (joined (unit '\n') (rest.takeWhile fun l => !isFence l))],
        (rest.dropWhile fun l => !isFence l).drop 1)
    else match Model.Markdown.heading line with
    | some (level, content) => ([.heading level (renderInline pack content)], rest)
    | none =>
      if isRule line then ([.hr], rest)
      else if isRow line && rest.head?.any isTableSeparator then
        let cells (row : JsString) := (splitTableRow row).map (renderInline pack)
        ([.table (cells line) (((rest.drop 1).takeWhile isRow).map cells)],
          (rest.drop 1).dropWhile isRow)
      else if isQuote line then
        let quoteLines := ((line :: rest).takeWhile isQuote).map unquote
        ([.blockquote ((paragraphs quoteLines).map (renderInline pack))],
          (line :: rest).dropWhile isQuote)
      else if isBullet line then
        let (items, left) := listItems isBullet stripBullet (line :: rest)
        ([.ul (items.map (renderInline pack))], left)
      else if isOrdered line then
        let (items, left) := listItems isOrdered stripOrdered (line :: rest)
        ([.ol (items.map (renderInline pack))], left)
      else
        let para := ((line :: rest).takeWhile isPlain).map trim
        ([.p (renderInline pack (joined (unit ' ') para))], (line :: rest).dropWhile isPlain)

/-! ## The loop -/

/-- The block loop: it goes on while there are lines. -/
def blockLoop (pack : Pack) : Loop (List JsString) Block where
  done lines := lines.isEmpty
  body := iteration pack

/-- The lines of a source. -/
def sourceLines (source : JsString) : List JsString := (unixLines source).splitOn (unit '\n')

/-- `renderMarkdown`, when it is done after so many iterations. -/
def renderMarkdown (pack : Pack) (fuel : ℕ) (source : JsString) : Option (List Block) :=
  (blockLoop pack).run fuel (sourceLines source)

end SettlementOS.Program.Markdown
