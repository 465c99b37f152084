import SettlementOS.Program.Markdown

/-!
# The lines that stop the renderer

The paragraph branch refuses every line that looks like the start of another block, whether or
not the branch of that block takes it. A line is `isStuck` when nobody takes it. Which lines the
loop comes to depends on the blocks before them: `clear` reads the source line by line and says
whether one of those is stuck.
-/

set_option autoImplicit false

namespace SettlementOS.Analysis.Markdown

open SettlementOS.Computation Model.Fingerprint Model.Markdown Program.Markdown

variable {line : JsString} {u : CodeUnit} {s : JsString}

/-! ## How lines begin -/

/-- A line that starts with `p` is `p` and something more. -/
theorem exists_of_startsWith {p : JsString} (h : startsWith line p = true) :
    ∃ t, line = p ++ t := by
  obtain ⟨t, ht⟩ := List.isPrefixOf_iff_prefix.mp h
  exact ⟨t, ht.symm⟩

/-- Whether a line starts with a single unit is read off its first. -/
theorem startsWith_cons {c : CodeUnit} : startsWith (u :: s) [c] = decide (u = c) := by
  apply Bool.eq_iff_iff.mpr
  rw [decide_eq_true_iff]
  constructor
  · intro h
    obtain ⟨t, ht⟩ := exists_of_startsWith h
    exact (List.cons.inj ht).1
  · rintro rfl
    exact List.isPrefixOf_iff_prefix.mpr ⟨s, rfl⟩

/-- What a line that begins with a letter is trimmed to begins with it. -/
theorem trim_cons (hu : isSpace u = false) : ∃ t, trim (u :: s) = u :: t := by
  have hdrop : (u :: s).dropWhile isSpace = u :: s := by simp [hu]
  obtain ⟨t, ht⟩ := List.rdropWhile_prefix (p := isSpace) (l := u :: s)
  unfold trim
  rw [hdrop]
  cases hr : (u :: s).rdropWhile isSpace with
  | nil =>
    have hall := List.rdropWhile_eq_nil_iff.mp hr u List.mem_cons_self
    rw [hu] at hall
    cases hall
  | cons v t' =>
    rw [hr] at ht
    exact ⟨t', by rw [(List.cons.inj ht).1]⟩

/-- A line whose first unit is no space is not blank. -/
theorem isBlank_cons (hu : isSpace u = false) : isBlank (u :: s) = false := by
  obtain ⟨t, ht⟩ := trim_cons (s := s) hu
  simp [isBlank, ht]

/-- Such a line is a row exactly if that unit is a bar. -/
theorem isRow_cons (hu : isSpace u = false) : isRow (u :: s) = decide (u = unit '|') := by
  obtain ⟨t, ht⟩ := trim_cons (s := s) hu
  rw [isRow, ht, startsWith_cons]

/-- A fence starts with a back tick. -/
theorem isFence_cons (h : isFence line = true) : ∃ s, line = unit '`' :: s := by
  obtain ⟨t, rfl⟩ := exists_of_startsWith h
  exact ⟨_, rfl⟩

/-- A quote starts with an angle bracket. -/
theorem isQuote_cons (h : isQuote line = true) : ∃ s, line = unit '>' :: s := by
  obtain ⟨t, rfl⟩ := exists_of_startsWith h
  exact ⟨_, rfl⟩

/-- A heading starts with a hash. -/
theorem heading_cons {g : ℕ × JsString} (h : heading line = some g) :
    ∃ s, line = unit '#' :: s := by
  unfold heading at h
  split at h
  · rename_i htest
    have hbegins : headingPattern.Begins fun u => u = unit '#' :=
      Pattern.begins_seq (Pattern.begins_upTo
        (Pattern.begins_one fun _ hx => of_decide_eq_true hx) 0 3)
    obtain ⟨u, s, rfl, rfl⟩ := hbegins line (Pattern.test_iff.mp htest)
    exact ⟨s, rfl⟩
  · cases h

/-- An ordered item starts with a digit. -/
theorem isOrdered_cons (h : isOrdered line = true) : ∃ u s, line = u :: s ∧ isDigit u = true := by
  have hbegins : orderedPattern.Begins fun u => isDigit u = true :=
    Pattern.begins_starts (Pattern.begins_seq (Pattern.begins_plus
      (Pattern.begins_one fun _ hx => hx)))
  exact hbegins line (Pattern.test_iff.mp h)

/-- A bullet is followed by a blank. -/
theorem isBullet_cons (h : isBullet line = true) :
    ∃ u v s, line = u :: v :: s ∧ (u = unit '-' ∨ u = unit '*') ∧ isSpace v = true := by
  cases Pattern.test_iff.mp h with
  | seq ha hb =>
    cases ha with
    | seq hmark hspace =>
      obtain ⟨u, rfl, hu⟩ := Pattern.matches_one hmark
      have hbegins : space.plus.Begins fun v => isSpace v = true :=
        Pattern.begins_plus (Pattern.begins_one fun _ hx => hx)
      obtain ⟨v, s, rfl, hv⟩ := hbegins _ hspace
      exact ⟨u, v, _, rfl, of_decide_eq_true hu, hv⟩

/-- A rule begins with its letter twice. -/
theorem isRule_cons (h : isRule line = true) :
    ∃ u s, line = u :: u :: s ∧ (u = unit '-' ∨ u = unit '*' ∨ u = unit '_') := by
  cases Pattern.test_iff.mp h with
  | seq ha hb =>
    cases ha with
    | left ha =>
      obtain ⟨t, rfl⟩ := Pattern.matches_atLeast_letter ha
      exact ⟨unit '-', _, rfl, .inl rfl⟩
    | right ha =>
      cases ha with
      | left ha =>
        obtain ⟨t, rfl⟩ := Pattern.matches_atLeast_letter ha
        exact ⟨unit '*', _, rfl, .inr (.inl rfl)⟩
      | right ha =>
        obtain ⟨t, rfl⟩ := Pattern.matches_atLeast_letter ha
        exact ⟨unit '_', _, rfl, .inr (.inr rfl)⟩

/-! ## Reading the source line by line -/

/-- A line that no branch takes, with the line behind it: it begins like a heading and is none, or
like a table and no separator follows. -/
def isStuck (line : JsString) (next : Option JsString) : Bool :=
  startsWith line [unit '#'] && (heading line).isNone ||
    isRow line && !next.any isTableSeparator

/-- What a line is read as, by the lines before it. -/
inductive Mode where
  /-- the start of a block, or more of a paragraph or a quote -/
  | text
  /-- code, up to the closing fence -/
  | fence
  /-- the separator of a table -/
  | delimiter
  /-- a row of a table, or what comes behind it -/
  | table
  /-- more of an item, or what comes behind it -/
  | item
  deriving DecidableEq

/-- What the line behind a line of text is read as. -/
def enter (line : JsString) : Mode :=
  if isFence line then .fence
  else if isRow line then .delimiter
  else if isBullet line || isOrdered line then .item
  else .text

/-- A line is not stuck, and what comes behind it is read so. -/
def LeadsTo (line : JsString) (mode : Mode) : Prop :=
  ∀ next, isStuck line next = false ∧ enter line = mode

/-- No line that is read as text is stuck. -/
def clear : Mode → List JsString → Bool
  | _, [] => true
  | .fence, line :: rest => clear (if isFence line then .text else .fence) rest
  | .delimiter, _ :: rest => clear .table rest
  | mode, line :: rest =>
    if mode = .table ∧ isRow line then clear .table rest
    else if mode = .item ∧ isContinuation line then clear .item rest
    else !isStuck line rest.head? && clear (enter line) rest

/-- Outside a block a line is passed if it is not stuck, and the rest from the state it leads to. -/
theorem clear_text_cons {rest : List JsString} :
    clear .text (line :: rest) = (!isStuck line rest.head? && clear (enter line) rest) := by
  simp [clear]

/-- The inside of a fence, and the fence that closes it. -/
theorem clear_fence (rest : List JsString) :
    clear .fence rest = clear .text ((rest.dropWhile fun l => !isFence l).drop 1) := by
  induction rest with
  | nil => rfl
  | cons l rest ih =>
    cases hl : isFence l with
    | true => simp [clear, hl]
    | false => simpa [clear, hl] using ih

/-- A table is passed once the lines after its rows are. -/
theorem clear_table (rest : List JsString) :
    clear .table rest = clear .text (rest.dropWhile isRow) := by
  induction rest with
  | nil => rfl
  | cons l rest ih =>
    cases hl : isRow l with
    | true => simpa [clear, hl] using ih
    | false => simp [clear, hl]

/-- An item is passed once the lines after those that continue it are. -/
theorem clear_item (rest : List JsString) :
    clear .item rest = clear .text (rest.dropWhile isContinuation) := by
  induction rest with
  | nil => rfl
  | cons l rest ih =>
    cases hl : isContinuation l with
    | true => simpa [clear, hl] using ih
    | false => simp [clear, hl]

/-- Lines that lead nowhere may be skipped. -/
theorem clear_dropWhile {p : JsString → Bool}
    (hp : ∀ l, p l = true → LeadsTo l .text)
    (lines : List JsString) : clear .text lines = clear .text (lines.dropWhile p) := by
  induction lines with
  | nil => rfl
  | cons l rest ih =>
    cases hl : p l with
    | true =>
      obtain ⟨hstuck, henter⟩ := hp l hl rest.head?
      rw [clear_text_cons, hstuck, henter, List.dropWhile_cons_of_pos hl]
      exact ih
    | false => rw [List.dropWhile_cons_of_neg (by simp [hl])]

/-- One item is taken, with what continues it, and the others follow. -/
theorem listItems_left {isItem : JsString → Bool} {strip : JsString → JsString}
    {rest : List JsString} (h : isItem line = true) :
    (listItems isItem strip (line :: rest)).2 =
      (listItems isItem strip (rest.dropWhile isContinuation)).2 := by
  rw [listItems, if_pos h]

/-- The items of a list may be skipped, with what continues them. -/
theorem clear_listItems {isItem : JsString → Bool} {strip : JsString → JsString}
    (hp : ∀ l, isItem l = true → LeadsTo l .item)
    (lines : List JsString) :
    clear .text lines = clear .text (listItems isItem strip lines).2 ∧
      (listItems isItem strip lines).2.length ≤ lines.length := by
  generalize hn : lines.length = n
  induction n using Nat.strongRecOn generalizing lines with
  | _ n ih =>
    cases lines with
    | nil => exact ⟨by rw [listItems], by simp [listItems]⟩
    | cons line rest =>
      by_cases hitem : isItem line = true
      · obtain ⟨hstuck, henter⟩ := hp line hitem rest.head?
        have hdrop := (List.dropWhile_suffix isContinuation (l := rest)).length_le
        rw [List.length_cons] at hn
        obtain ⟨hclear, hlength⟩ := ih _ (by omega) (rest.dropWhile isContinuation) rfl
        rw [listItems_left hitem, clear_text_cons, hstuck, henter, clear_item, ← hclear]
        exact ⟨Bool.true_and _, by omega⟩
      · rw [listItems, if_neg hitem]
        exact ⟨rfl, Nat.le_of_eq hn⟩

/-! ## Lines by their first letters -/

/-- A digit is no space. -/
theorem isSpace_of_isDigit (h : isDigit u = true) : isSpace u = false := by
  simp only [isDigit, Bool.and_eq_true, decide_eq_true_eq] at h
  simp only [isSpace, Bool.or_eq_false_iff, Bool.and_eq_false_iff, beq_eq_false_iff_ne,
    decide_eq_false_iff_not]
  omega

/-- A line that starts with another unit is no fence. -/
theorem isFence_ne (h : u ≠ unit '`') : isFence (u :: s) = false := by
  apply Bool.eq_false_iff.mpr
  intro hfence
  obtain ⟨t, ht⟩ := isFence_cons hfence
  exact h (List.cons.inj ht).1

/-- A line that starts with neither a dash nor a star is no bullet. -/
theorem isBullet_ne (hdash : u ≠ unit '-') (hstar : u ≠ unit '*') : isBullet (u :: s) = false := by
  apply Bool.eq_false_iff.mpr
  intro hbullet
  obtain ⟨v, w, t, ht, hv, -⟩ := isBullet_cons hbullet
  obtain ⟨rfl, -⟩ := List.cons.inj ht
  exact hv.elim hdash hstar

/-- A line that does not start with a digit is no ordered item. -/
theorem isOrdered_ne (h : isDigit u = false) : isOrdered (u :: s) = false := by
  apply Bool.eq_false_iff.mpr
  intro hordered
  obtain ⟨v, t, ht, hv⟩ := isOrdered_cons hordered
  obtain ⟨rfl, -⟩ := List.cons.inj ht
  rw [h] at hv
  cases hv

/-- A line that begins with a letter other than `#` and `|` is not stuck. -/
theorem isStuck_ne {next : Option JsString} (hu : isSpace u = false) (hhash : u ≠ unit '#')
    (hbar : u ≠ unit '|') : isStuck (u :: s) next = false := by
  simp [isStuck, startsWith_cons, isRow_cons hu, hhash, hbar]

/-- A blank line begins with no letter. -/
theorem not_blank (hu : isSpace u = false) : isBlank (u :: s) ≠ true := by
  rw [isBlank_cons hu]
  decide

/-! ## Where the lines of each kind lead -/

/-- A blank line leads on to text. -/
theorem blank_leads (h : isBlank line = true) : LeadsTo line .text := by
  intro next
  have hrow : isRow line = false := by
    have htrim : trim line = [] := eq_of_beq h
    rw [isRow, htrim]
    rfl
  cases line with
  | nil => exact ⟨by simp [isStuck, hrow, startsWith, List.isPrefixOf], by decide⟩
  | cons u s =>
    have hu : isSpace u = true := by
      by_contra hu
      exact not_blank (by simpa using hu) h
    have hne : ∀ v, isSpace v = false → u ≠ v := by
      rintro v hv rfl
      rw [hv] at hu
      cases hu
    have hdigit : isDigit u = false := by
      by_contra hdigit
      have hspace := isSpace_of_isDigit (u := u) (by simpa using hdigit)
      rw [hspace] at hu
      cases hu
    constructor
    · simp [isStuck, hrow, startsWith_cons, hne (unit '#') (by decide)]
    · simp [enter, hrow, isFence_ne (hne _ (by decide)), isOrdered_ne hdigit,
        isBullet_ne (hne _ (by decide)) (hne _ (by decide))]

/-- A fence leads into the fenced block. -/
theorem fence_leads (h : isFence line = true) : LeadsTo line .fence := by
  intro next
  obtain ⟨s, rfl⟩ := isFence_cons h
  exact ⟨isStuck_ne (by decide) (by decide) (by decide), if_pos h⟩

/-- A heading leads on to text. -/
theorem heading_leads (h : (heading line).isSome = true) : LeadsTo line .text := by
  intro next
  obtain ⟨g, hg⟩ := Option.isSome_iff_exists.mp h
  obtain ⟨s, rfl⟩ := heading_cons hg
  have hrow : isRow (unit '#' :: s) = false := by
    rw [isRow_cons (by decide)]
    decide
  constructor
  · simp [isStuck, hg, hrow]
  · simp [enter, hrow, isFence_ne (show unit '#' ≠ unit '`' by decide),
      isOrdered_ne (show isDigit (unit '#') = false by decide),
      isBullet_ne (show unit '#' ≠ unit '-' by decide) (by decide)]

/-- A rule leads on to text. -/
theorem rule_leads (h : isRule line = true) : LeadsTo line .text := by
  intro next
  obtain ⟨u, s, rfl, hu⟩ := isRule_cons h
  have hkinds : isSpace u = false ∧ u ≠ unit '#' ∧ u ≠ unit '|' ∧ u ≠ unit '`' ∧
      isDigit u = false := by
    rcases hu with rfl | rfl | rfl <;> decide
  obtain ⟨hspace, hhash, hbar, htick, hdigit⟩ := hkinds
  have hbullet : isBullet (u :: u :: s) = false := by
    apply Bool.eq_false_iff.mpr
    intro hbullet
    obtain ⟨v, w, t, ht, -, hw⟩ := isBullet_cons hbullet
    obtain ⟨rfl, htail⟩ := List.cons.inj ht
    rw [← (List.cons.inj htail).1, hspace] at hw
    cases hw
  exact ⟨isStuck_ne hspace hhash hbar, by
    simp [enter, isRow_cons hspace, hbar, isFence_ne htick, hbullet, isOrdered_ne hdigit]⟩

/-- A quote leads on to text. -/
theorem quote_leads (h : isQuote line = true) : LeadsTo line .text := by
  intro next
  obtain ⟨s, rfl⟩ := isQuote_cons h
  have hrow : isRow (unit '>' :: s) = false := by
    rw [isRow_cons (by decide)]
    decide
  refine ⟨isStuck_ne (by decide) (by decide) (by decide), ?_⟩
  simp [enter, hrow, isFence_ne (show unit '>' ≠ unit '`' by decide),
    isOrdered_ne (show isDigit (unit '>') = false by decide),
    isBullet_ne (show unit '>' ≠ unit '-' by decide) (by decide)]

/-- A bullet leads into its list. -/
theorem bullet_leads (h : isBullet line = true) : LeadsTo line .item := by
  intro next
  obtain ⟨u, v, s, rfl, hu, -⟩ := isBullet_cons h
  have hkinds : isSpace u = false ∧ u ≠ unit '#' ∧ u ≠ unit '|' ∧ u ≠ unit '`' := by
    rcases hu with rfl | rfl <;> decide
  obtain ⟨hspace, hhash, hbar, htick⟩ := hkinds
  exact ⟨isStuck_ne hspace hhash hbar, by
    simp [enter, isRow_cons hspace, hbar, isFence_ne htick, h]⟩

/-- An ordered item leads into its list. -/
theorem ordered_leads (h : isOrdered line = true) : LeadsTo line .item := by
  intro next
  obtain ⟨u, s, rfl, hu⟩ := isOrdered_cons h
  have hne : ∀ v, isDigit v = false → u ≠ v := by
    rintro v hv rfl
    rw [hv] at hu
    cases hu
  have hspace := isSpace_of_isDigit hu
  have hbar : u ≠ unit '|' := hne _ (by decide)
  exact ⟨isStuck_ne hspace (hne _ (by decide)) hbar, by
    simp [enter, isRow_cons hspace, hbar, isFence_ne (hne (unit '`') (by decide)), h]⟩

/-- A plain line leads on to text. -/
theorem plain_leads (h : isPlain line = true) : LeadsTo line .text := by
  intro next
  simp only [isPlain, Bool.and_eq_true, Bool.not_eq_true'] at h
  obtain ⟨⟨⟨⟨⟨⟨⟨-, hhash⟩, -⟩, hfence⟩, hrow⟩, hbullet⟩, hordered⟩, -⟩ := h
  exact ⟨by simp [isStuck, hhash, hrow], by simp [enter, hfence, hrow, hbullet, hordered]⟩

/-! ## One iteration -/

variable {rest : List JsString}

/-- From a line that is not stuck on, some lines are taken, and no stuck one is missed. -/
structure Takes (line : JsString) (rest left : List JsString) : Prop where
  free : isStuck line rest.head? = false
  shorter : left.length < (line :: rest).length
  kept : clear .text (line :: rest) = clear .text left

/-- A block of a single line takes that line. -/
theorem takes_one (h : LeadsTo line .text) : Takes line rest rest := by
  obtain ⟨hstuck, henter⟩ := h rest.head?
  refine ⟨hstuck, Nat.lt_succ_self _, ?_⟩
  rw [clear_text_cons, hstuck, henter]
  rfl

/-- A block of like lines takes all that follow each other. -/
theorem takes_while {p : JsString → Bool} (hp : ∀ l, p l = true → LeadsTo l .text)
    (h : p line = true) : Takes line rest ((line :: rest).dropWhile p) := by
  refine ⟨(hp line h _).1, ?_, clear_dropWhile hp _⟩
  rw [List.dropWhile_cons_of_pos h]
  exact Nat.lt_succ_of_le (List.dropWhile_suffix p).length_le

/-- A list takes its items with what continues them. -/
theorem takes_items {isItem : JsString → Bool} {strip : JsString → JsString}
    (hp : ∀ l, isItem l = true → LeadsTo l .item) (h : isItem line = true) :
    Takes line rest (listItems isItem strip (line :: rest)).2 := by
  refine ⟨(hp line h _).1, ?_, (clear_listItems hp _).1⟩
  have hlength : (listItems isItem strip (rest.dropWhile isContinuation)).2.length ≤
      (rest.dropWhile isContinuation).length := (clear_listItems hp _).2
  have hdrop := (List.dropWhile_suffix isContinuation (l := rest)).length_le
  rw [listItems_left h, List.length_cons]
  omega

/-- A fenced block takes everything up to the closing fence, and the fence. -/
theorem takes_fence (h : isFence line = true) :
    Takes line rest ((rest.dropWhile fun l => !isFence l).drop 1) := by
  obtain ⟨hstuck, henter⟩ := fence_leads h rest.head?
  have hdrop := (List.dropWhile_suffix (fun l => !isFence l) (l := rest)).length_le
  refine ⟨hstuck, ?_, ?_⟩
  · rw [List.length_drop, List.length_cons]
    omega
  · rw [clear_text_cons, hstuck, henter, clear_fence]
    rfl

/-- A row is neither a heading nor a fence. -/
theorem startsWith_hash_of_row (h : isRow line = true) : startsWith line [unit '#'] = false := by
  apply Bool.eq_false_iff.mpr
  intro hhash
  obtain ⟨t, rfl⟩ := exists_of_startsWith hhash
  rw [List.singleton_append, isRow_cons (by decide)] at h
  exact absurd h (by decide)

/-- A row is no fence. -/
theorem isFence_of_row (h : isRow line = true) : isFence line = false := by
  apply Bool.eq_false_iff.mpr
  intro hfence
  obtain ⟨t, rfl⟩ := isFence_cons hfence
  rw [isRow_cons (by decide)] at h
  exact absurd h (by decide)

/-- The separator of a table is taken with the line before it. -/
theorem takes_table (hrow : isRow line = true) (hnext : rest.head?.any isTableSeparator = true) :
    Takes line rest ((rest.drop 1).dropWhile isRow) := by
  have hstuck : isStuck line rest.head? = false := by
    simp [isStuck, startsWith_hash_of_row hrow, hnext]
  have henter : enter line = .delimiter := by simp [enter, isFence_of_row hrow, hrow]
  have hdrop := (List.dropWhile_suffix isRow (l := rest.drop 1)).length_le
  refine ⟨hstuck, ?_, ?_⟩
  · rw [List.length_drop] at hdrop
    rw [List.length_cons]
    omega
  · rw [clear_text_cons, hstuck, henter, ← clear_table]
    cases rest with
    | nil => cases hnext
    | cons next rest => simp [clear]

/-- The paragraph branch comes to a line that none before it has taken. -/
theorem paragraph_spec (hblank : isBlank line = false) (hfence : isFence line = false)
    (hheading : heading line = none) (hrule : isRule line = false)
    (htable : (isRow line && rest.head?.any isTableSeparator) = false)
    (hquote : isQuote line = false) (hbullet : isBullet line = false)
    (hordered : isOrdered line = false) :
    Takes line rest ((line :: rest).dropWhile isPlain) ∨
      (isStuck line rest.head? = true ∧ (line :: rest).dropWhile isPlain = line :: rest) := by
  by_cases hplain : isPlain line = true
  · exact .inl (takes_while (fun _ h => plain_leads h) hplain)
  · right
    have hrefused : startsWith line [unit '#'] = true ∨ isRow line = true := by
      by_contra hneither
      simp only [not_or, Bool.not_eq_true] at hneither
      exact hplain (by simp [isPlain, hblank, hneither, hquote, hfence, hbullet, hordered, hrule])
    refine ⟨?_, List.dropWhile_cons_of_neg hplain⟩
    rcases hrefused with hhash | hrow
    · simp [isStuck, hhash, hheading]
    · rw [hrow, Bool.true_and] at htable
      simp [isStuck, hrow, htable]

/-- **What an iteration does to the lines.** It takes some and misses no stuck one, or it has
come to a stuck line, and leaves them all. -/
theorem iteration_spec (pack : Pack) (line : JsString) (rest : List JsString) :
    Takes line rest (iteration pack (line :: rest)).2 ∨
      (isStuck line rest.head? = true ∧ (iteration pack (line :: rest)).2 = line :: rest) := by
  by_cases hblank : isBlank line = true
  · rw [iteration, if_pos hblank]
    exact .inl (takes_one (blank_leads hblank))
  by_cases hfence : isFence line = true
  · rw [iteration, if_neg hblank, if_pos hfence]
    exact .inl (takes_fence hfence)
  cases hheading : heading line with
  | some g =>
    obtain ⟨level, content⟩ := g
    simp only [iteration, if_neg hblank, if_neg hfence, hheading]
    exact .inl (takes_one (heading_leads (by simp [hheading])))
  | none =>
    simp only [iteration, if_neg hblank, if_neg hfence, hheading]
    by_cases hrule : isRule line = true
    · rw [if_pos hrule]
      exact .inl (takes_one (rule_leads hrule))
    rw [if_neg hrule]
    by_cases htable : (isRow line && rest.head?.any isTableSeparator) = true
    · rw [if_pos htable]
      obtain ⟨hrow, hnext⟩ := Bool.and_eq_true_iff.mp htable
      exact .inl (takes_table hrow hnext)
    rw [if_neg htable]
    by_cases hquote : isQuote line = true
    · rw [if_pos hquote]
      exact .inl (takes_while (fun _ h => quote_leads h) hquote)
    rw [if_neg hquote]
    by_cases hbullet : isBullet line = true
    · rw [if_pos hbullet]
      exact .inl (takes_items (fun _ h => bullet_leads h) hbullet)
    rw [if_neg hbullet]
    by_cases hordered : isOrdered line = true
    · rw [if_pos hordered]
      exact .inl (takes_items (fun _ h => ordered_leads h) hordered)
    rw [if_neg hordered]
    simp only [Bool.not_eq_true] at hblank hfence hrule htable hquote hbullet hordered
    exact paragraph_spec hblank hfence hheading hrule htable hquote hbullet hordered

end SettlementOS.Analysis.Markdown
