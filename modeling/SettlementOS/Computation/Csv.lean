import SettlementOS.Computation.Delimited

/-!
# Comma-separated values

A reader of records and fields, character by character: a field may stand between quotes, where a
quote is written twice, and outside quotes a comma ends the field and a line feed, a carriage return
or both end the record. A text is read as a field when a reader that starts on a field has that
field behind it; texts joined by commas are then read as a record of them, and records joined by
line feeds as those records. A carriage return outside quotes is never part of a field.
-/

set_option autoImplicit false

namespace SettlementOS.Computation.Csv

/-- A text, character by character. -/
abbrev Text : Type := List Char

/-! ## The reader -/

/-- Where the reader stands. -/
inductive Mode where
  /-- before the first character of a record -/
  | fresh
  /-- behind a carriage return that ended a record -/
  | returned
  /-- before the first character of a field -/
  | opened
  /-- in a field without quotes -/
  | plain
  /-- between quotes -/
  | quoted
  /-- behind a quote that ends the field, unless another one follows -/
  | closed
  deriving DecidableEq, Repr

/-- The records that are read, the record that is being read, and its field. -/
structure Reader where
  records : List (List Text)
  record : List Text
  field : Text
  mode : Mode
  deriving DecidableEq, Repr

namespace Reader

/-- A character that stands outside quotes. -/
def outside (s : Reader) (c : Char) : Reader :=
  if c = ',' then { s with record := s.record ++ [s.field], field := [], mode := .opened }
  else if c = '\n' then ⟨s.records ++ [s.record ++ [s.field]], [], [], .fresh⟩
  else if c = '\r' then ⟨s.records ++ [s.record ++ [s.field]], [], [], .returned⟩
  else { s with field := s.field ++ [c], mode := .plain }

/-- A character that may open a quoted field. -/
def opening (s : Reader) (c : Char) : Reader :=
  if c = '"' then { s with mode := .quoted } else s.outside c

/-- One character. -/
def step (s : Reader) (c : Char) : Reader :=
  match s.mode with
  | .fresh => s.opening c
  | .returned => if c = '\n' then { s with mode := .fresh } else s.opening c
  | .opened => s.opening c
  | .plain => s.outside c
  | .quoted =>
    if c = '"' then { s with mode := .closed } else { s with field := s.field ++ [c] }
  | .closed =>
    if c = '"' then { s with field := s.field ++ [c], mode := .quoted } else s.outside c

/-- What is read in the end. Behind the end of a record there is no other. -/
def finish (s : Reader) : List (List Text) :=
  match s.mode with
  | .fresh | .returned => s.records
  | _ => s.records ++ [s.record ++ [s.field]]

/-- The reader before a text. -/
def start : Reader := ⟨[], [], [], .fresh⟩

end Reader

open Reader

/-- The records of a text. -/
def read (text : Text) : List (List Text) := (text.foldl step start).finish

/-! ## Fields -/

/-- A character that stands for itself outside quotes. -/
def Ordinary (c : Char) : Prop := c ≠ ',' ∧ c ≠ '\n' ∧ c ≠ '\r' ∧ c ≠ '"'

/-- The reader is at the start of a field. -/
def Reader.AtField (s : Reader) : Prop := (s.mode = .fresh ∨ s.mode = .opened) ∧ s.field = []

/-- The reader has a field behind it, which the next separator ends. -/
structure Reader.Behind (s s' : Reader) (f : Text) : Prop where
  records : s'.records = s.records
  record : s'.record = s.record
  field : s'.field = f
  mode : s'.mode = s.mode ∨ s'.mode = .plain ∨ s'.mode = .closed

/-- A text that is read as a field. -/
def ReadsAs (text f : Text) : Prop := ∀ s : Reader, s.AtField → s.Behind (text.foldl step s) f

/-- An ordinary character outside a field is part of it. -/
theorem outside_ordinary {s : Reader} {c : Char} (h : Ordinary c) :
    s.outside c = { s with field := s.field ++ [c], mode := .plain } := by
  unfold outside
  rw [if_neg h.1, if_neg h.2.1, if_neg h.2.2.1]

/-- An ordinary character at the start of a field opens a plain one. -/
theorem opening_ordinary {s : Reader} {c : Char} (h : Ordinary c) :
    s.opening c = { s with field := s.field ++ [c], mode := .plain } := by
  rw [opening, if_neg h.2.2.2, outside_ordinary h]

/-- Ordinary characters in a plain field are part of it. -/
theorem foldl_plain {text : Text} (h : ∀ c ∈ text, Ordinary c) {s : Reader}
    (hmode : s.mode = .plain) :
    text.foldl step s = { s with field := s.field ++ text } := by
  induction text generalizing s with
  | nil =>
    rw [List.foldl_nil, List.append_nil]
  | cons c text ih =>
    have hstep : s.step c = { s with field := s.field ++ [c] } := by
      unfold step
      rw [hmode]
      dsimp only
      rw [outside_ordinary (h c List.mem_cons_self)]
    have hmode' : (s.step c).mode = .plain := by
      rw [hstep]
      exact hmode
    rw [List.foldl_cons, ih (fun d hd => h d (List.mem_cons_of_mem c hd)) hmode', hstep,
      List.append_assoc]
    rfl

/-- At the start of a field a character opens it. -/
theorem step_atField {s : Reader} (hs : s.AtField) (c : Char) : s.step c = s.opening c := by
  unfold step
  rcases hs.1 with hmode | hmode <;> rw [hmode]

/-- Ordinary characters are read as they stand. -/
theorem readsAs_plain {text : Text} (h : ∀ c ∈ text, Ordinary c) : ReadsAs text text := by
  intro s hs
  cases text with
  | nil => exact ⟨rfl, rfl, hs.2, .inl rfl⟩
  | cons c text =>
    have hstep : s.step c = { s with field := [c], mode := .plain } := by
      rw [step_atField hs, opening_ordinary (h c List.mem_cons_self), hs.2, List.nil_append]
    rw [List.foldl_cons, hstep, foldl_plain (fun d hd => h d (List.mem_cons_of_mem c hd)) rfl]
    exact ⟨rfl, rfl, rfl, .inr (.inl rfl)⟩

/-- A text with each of its quotes written twice. -/
def doubled (f : Text) : Text := f.flatMap fun c => if c = '"' then ['"', '"'] else [c]

/-- A quoted text with its quotes doubled is read as the text. -/
theorem foldl_doubled (f : Text) {s : Reader} (hmode : s.mode = .quoted) :
    (doubled f).foldl step s = { s with field := s.field ++ f } := by
  induction f generalizing s with
  | nil => rw [doubled, List.flatMap_nil, List.foldl_nil, List.append_nil]
  | cons c f ih =>
    have hone : (if c = '"' then ['"', '"'] else [c]).foldl step s =
        { s with field := s.field ++ [c] } := by
      by_cases hc : c = '"'
      · subst hc
        simp [step, hmode]
      · simp [step, hmode, hc]
    have hmode' : ({ s with field := s.field ++ [c] } : Reader).mode = .quoted := hmode
    rw [doubled, List.flatMap_cons, List.foldl_append, hone, ← doubled, ih hmode',
      List.append_assoc]
    rfl

/-- Whatever stands between quotes, each of its quotes doubled, is read. -/
theorem readsAs_quoted (f : Text) : ReadsAs ('"' :: (doubled f ++ ['"'])) f := by
  intro s hs
  have hopen : s.step '"' = { s with mode := .quoted } := by
    rw [step_atField hs, opening, if_pos rfl]
  have hmode : ({ s with mode := .quoted } : Reader).mode = .quoted := rfl
  rw [List.foldl_cons, hopen, List.foldl_append, foldl_doubled f hmode, hs.2]
  exact ⟨rfl, rfl, rfl, .inr (.inr rfl)⟩

/-- A text that a carriage return cuts short of a field. -/
def Broken (text f : Text) : Prop :=
  ∃ u v, text = u ++ '\r' :: v ∧ (∀ c ∈ u, Ordinary c) ∧ u ≠ f

/-! ## Records -/

/-- The first of several lists is set off by the separator. -/
theorem joined_cons_cons {σ : Type} (sep : σ) (x y : List σ) (ys : List (List σ)) :
    joined sep (x :: y :: ys) = x ++ sep :: joined sep (y :: ys) := rfl

/-- Behind a field another character than a quote is read as outside. -/
theorem step_behind {s s' : Reader} {f : Text} (hs : s.AtField) (h : s.Behind s' f) {c : Char}
    (hc : c ≠ '"') : s'.step c = s'.outside c := by
  have hmode : s'.mode = .fresh ∨ s'.mode = .opened ∨ s'.mode = .plain ∨ s'.mode = .closed := by
    rcases h.mode with hmode | hmode | hmode
    · rw [hmode]
      rcases hs.1 with hfresh | hopened
      · exact .inl hfresh
      · exact .inr (.inl hopened)
    · exact .inr (.inr (.inl hmode))
    · exact .inr (.inr (.inr hmode))
  unfold step
  rcases hmode with hmode | hmode | hmode | hmode <;> rw [hmode]
  · exact if_neg hc
  · exact if_neg hc
  · exact if_neg hc

/-- A comma ends the field that is behind. -/
theorem step_comma {s s' : Reader} {f : Text} (hs : s.AtField) (h : s.Behind s' f) :
    s'.step ',' = ⟨s.records, s.record ++ [f], [], .opened⟩ := by
  rw [step_behind hs h (by decide), outside, if_pos rfl, h.records, h.record, h.field]

/-- The reader has a record behind it, which the next line feed ends. -/
structure Reader.Past (s s' : Reader) (fs : List Text) : Prop where
  records : s'.records = s.records
  whole : s'.record ++ [s'.field] = s.record ++ fs
  mode : s'.mode ≠ .quoted ∧ s'.mode ≠ .returned
  late : s.mode = .opened ∨ 2 ≤ fs.length → s'.mode ≠ .fresh

variable {enc : Text → Text} {bad : Text → Prop}

/-- Fields that are read, joined by commas, are read as a record. -/
theorem record_past {fs : List Text} (hfs : fs ≠ []) (hread : ∀ f ∈ fs, ReadsAs (enc f) f)
    {s : Reader} (hs : s.AtField) : s.Past ((joined ',' (fs.map enc)).foldl step s) fs := by
  induction fs generalizing s with
  | nil => exact absurd rfl hfs
  | cons f fs ih =>
    have hbehind := hread f List.mem_cons_self s hs
    cases fs with
    | nil =>
      rw [List.map_cons, List.map_nil, joined, List.flatMap_nil, List.append_nil]
      refine ⟨hbehind.records, by rw [hbehind.record, hbehind.field], ?_, ?_⟩
      · rcases hbehind.mode with hmode | hmode | hmode
        · rw [hmode]
          rcases hs.1 with hfresh | hopened
          · rw [hfresh]
            decide
          · rw [hopened]
            decide
        · rw [hmode]
          decide
        · rw [hmode]
          decide
      · rintro (hopened | hwide)
        · rcases hbehind.mode with hmode | hmode | hmode
          · rw [hmode, hopened]
            decide
          · rw [hmode]
            decide
          · rw [hmode]
            decide
        · exact absurd hwide (by simp)
    | cons g fs =>
      have hnext : Reader.AtField ⟨s.records, s.record ++ [f], [], .opened⟩ := ⟨.inr rfl, rfl⟩
      have hpast := ih (List.cons_ne_nil g fs) (fun f' hf' => hread f' (List.mem_cons_of_mem f hf'))
        hnext
      rw [List.map_cons, List.map_cons, joined_cons_cons, List.foldl_append, List.foldl_cons,
        step_comma hs hbehind]
      refine ⟨hpast.records, ?_, hpast.mode, fun _ => hpast.late (.inl rfl)⟩
      rw [List.map_cons] at hpast
      rw [hpast.whole, List.append_assoc]
      rfl

/-- A line feed ends the record that is behind. -/
theorem step_lineFeed {s s' : Reader} {fs : List Text} (h : s.Past s' fs) (hs : s.record = []) :
    s'.step '\n' = ⟨s.records ++ [fs], [], [], .fresh⟩ := by
  have houtside : s'.outside '\n' = ⟨s.records ++ [fs], [], [], .fresh⟩ := by
    rw [outside, if_neg (by decide), if_pos rfl, h.records, h.whole, hs, List.nil_append]
  rw [← houtside]
  unfold step
  cases hmode : s'.mode with
  | quoted => exact absurd hmode h.mode.1
  | returned => exact absurd hmode h.mode.2
  | plain => rfl
  | closed => exact if_neg (by decide)
  | fresh => exact if_neg (by decide)
  | opened => exact if_neg (by decide)

/-! ## Records are never taken back -/

/-- A character takes no record back. -/
theorem step_records (s : Reader) (c : Char) : s.records <+: (s.step c).records := by
  have houtside : s.records <+: (s.outside c).records := by
    unfold outside
    split_ifs
    · exact List.prefix_rfl
    · exact List.prefix_append _ _
    · exact List.prefix_append _ _
    · exact List.prefix_rfl
  have hopening : s.records <+: (s.opening c).records := by
    unfold opening
    split_ifs
    · exact List.prefix_rfl
    · exact houtside
  unfold step
  cases s.mode with
  | fresh => exact hopening
  | opened => exact hopening
  | plain => exact houtside
  | returned =>
    dsimp only
    split_ifs
    · exact List.prefix_rfl
    · exact hopening
  | quoted =>
    dsimp only
    split_ifs <;> exact List.prefix_rfl
  | closed =>
    dsimp only
    split_ifs
    · exact List.prefix_rfl
    · exact houtside

/-- Nor does a text. -/
theorem foldl_records (s : Reader) (text : Text) :
    s.records <+: (text.foldl step s).records := by
  induction text generalizing s with
  | nil => exact List.prefix_rfl
  | cons c text ih => exact (step_records s c).trans (ih (s.step c))

/-- Nor does the end. -/
theorem finish_records (s : Reader) : s.records <+: s.finish := by
  unfold finish
  cases s.mode with
  | fresh => exact List.prefix_rfl
  | returned => exact List.prefix_rfl
  | opened => exact List.prefix_append _ _
  | plain => exact List.prefix_append _ _
  | quoted => exact List.prefix_append _ _
  | closed => exact List.prefix_append _ _

/-! ## Tables -/

/-- Where a record breaks, it ends with the fields before and what stands before the carriage
return. -/
theorem record_broken {fs : List Text} (hgood : ∀ f ∈ fs, ¬ bad f → ReadsAs (enc f) f)
    (hbroken : ∀ f ∈ fs, bad f → Broken (enc f) f) (hbad : ∃ f ∈ fs, bad f) {s : Reader}
    (hs : s.AtField) (rest : Text) :
    ∃ fs', fs' ≠ s.record ++ fs ∧
      s.records ++ [fs'] <+: ((joined ',' (fs.map enc) ++ rest).foldl step s).records := by
  induction fs generalizing s with
  | nil =>
    obtain ⟨f, hf, -⟩ := hbad
    exact absurd hf List.not_mem_nil
  | cons f fs ih =>
    by_cases hf : bad f
    · obtain ⟨u, v, htext, hu, hne⟩ := hbroken f List.mem_cons_self hf
      have hbehind := readsAs_plain hu s hs
      have hstep : (u.foldl step s).step '\r' =
          ⟨s.records ++ [s.record ++ [u]], [], [], .returned⟩ := by
        rw [step_behind hs hbehind (by decide), outside, if_neg (by decide), if_neg (by decide),
          if_pos rfl, hbehind.records, hbehind.record, hbehind.field]
      refine ⟨s.record ++ [u], ?_, ?_⟩
      · intro heq
        exact hne (List.cons.inj (List.append_cancel_left heq)).1
      · obtain ⟨more, hmore⟩ : ∃ more, joined ',' ((f :: fs).map enc) ++ rest =
            u ++ '\r' :: (v ++ more) := by
          refine ⟨(fs.map enc).flatMap (',' :: ·) ++ rest, ?_⟩
          rw [List.map_cons, joined, htext]
          simp only [List.append_assoc, List.cons_append]
        rw [hmore, List.foldl_append, List.foldl_cons, hstep]
        exact foldl_records ⟨s.records ++ [s.record ++ [u]], [], [], .returned⟩ _
    · have hbehind := hgood f List.mem_cons_self hf s hs
      have hlater : ∃ g ∈ fs, bad g := by
        obtain ⟨g, hg, hbadg⟩ := hbad
        rcases List.mem_cons.mp hg with rfl | hg
        · exact absurd hbadg hf
        · exact ⟨g, hg, hbadg⟩
      obtain ⟨fs', hne, hprefix⟩ := ih (fun g hg => hgood g (List.mem_cons_of_mem f hg))
        (fun g hg => hbroken g (List.mem_cons_of_mem f hg)) hlater
        (s := ⟨s.records, s.record ++ [f], [], .opened⟩) ⟨.inr rfl, rfl⟩
      refine ⟨fs', ?_, ?_⟩
      · rw [List.append_assoc] at hne
        exact hne
      · cases fs with
        | nil => exact absurd hlater (by simp)
        | cons g fs =>
          rw [List.map_cons] at hprefix
          rw [List.map_cons, List.map_cons, joined_cons_cons, List.append_assoc, List.foldl_append,
            List.cons_append, List.foldl_cons, step_comma hs hbehind]
          exact hprefix

/-- The text of a record. -/
def recordText (enc : Text → Text) (fs : List Text) : Text := joined ',' (fs.map enc)

/-- The text of records. -/
def tableText (enc : Text → Text) (rows : List (List Text)) : Text :=
  joined '\n' (rows.map (recordText enc))

/-- The end closes the record that is open. -/
theorem finish_past {s s' : Reader} {fs : List Text} (h : s.Past s' fs) (hs : s.record = [])
    (hwide : 2 ≤ fs.length) : s'.finish = s.records ++ [fs] := by
  have hlast : s'.records ++ [s'.record ++ [s'.field]] = s.records ++ [fs] := by
    rw [h.records, h.whole, hs, List.nil_append]
  unfold finish
  cases hmode : s'.mode with
  | fresh => exact absurd hmode (h.late (.inr hwide))
  | returned => exact absurd hmode h.mode.2
  | quoted => exact absurd hmode h.mode.1
  | opened => exact hlast
  | plain => exact hlast
  | closed => exact hlast

/-- From the start of a record on, the records are read exactly when none of their fields is bad. -/
theorem finish_table_iff {rows : List (List Text)} (hrows : rows ≠ [])
    (hwide : ∀ row ∈ rows, 2 ≤ row.length)
    (hgood : ∀ row ∈ rows, ∀ f ∈ row, ¬ bad f → ReadsAs (enc f) f)
    (hbroken : ∀ row ∈ rows, ∀ f ∈ row, bad f → Broken (enc f) f) (done : List (List Text)) :
    ((tableText enc rows).foldl step ⟨done, [], [], .fresh⟩).finish = done ++ rows ↔
      ∀ row ∈ rows, ∀ f ∈ row, ¬ bad f := by
  induction rows generalizing done with
  | nil => exact absurd rfl hrows
  | cons row rows ih =>
    have hat : Reader.AtField ⟨done, [], [], .fresh⟩ := ⟨.inl rfl, rfl⟩
    have hfirst := hgood row List.mem_cons_self
    by_cases hrow : ∃ f ∈ row, bad f
    · refine ⟨fun hread => ?_, fun hnone => ?_⟩
      · obtain ⟨more, hmore⟩ : ∃ more, tableText enc (row :: rows) = recordText enc row ++ more :=
          ⟨_, rfl⟩
        obtain ⟨fs', hne, hprefix⟩ :=
          record_broken hfirst (hbroken row List.mem_cons_self) hrow hat more
        rw [← recordText, ← hmore] at hprefix
        have hall := hprefix.trans (finish_records _)
        rw [hread] at hall
        obtain ⟨later, hlater⟩ := hall
        rw [List.append_assoc] at hlater
        exact absurd (List.cons.inj (List.append_cancel_left hlater)).1 hne
      · obtain ⟨f, hf, hbad⟩ := hrow
        exact absurd hbad (hnone row List.mem_cons_self f hf)
    · have hnot : ∀ f ∈ row, ¬ bad f := fun f hf hbad => hrow ⟨f, hf, hbad⟩
      have hne : row ≠ [] := by
        rintro rfl
        exact absurd (hwide [] List.mem_cons_self) (by simp)
      have hpast := record_past hne (fun f hf => hfirst f hf (hnot f hf)) hat
      cases rows with
      | nil =>
        have hone : tableText enc [row] = joined ',' (row.map enc) := by
          simp [tableText, recordText, joined]
        rw [hone, finish_past hpast rfl (hwide row List.mem_cons_self)]
        simpa using hnot
      | cons next rows =>
        have hread := ih (List.cons_ne_nil next rows)
          (fun r hr => hwide r (List.mem_cons_of_mem row hr))
          (fun r hr => hgood r (List.mem_cons_of_mem row hr))
          (fun r hr => hbroken r (List.mem_cons_of_mem row hr)) (done ++ [row])
        have htext : tableText enc (row :: next :: rows) =
            joined ',' (row.map enc) ++ '\n' :: tableText enc (next :: rows) := rfl
        rw [htext, List.foldl_append, List.foldl_cons, step_lineFeed hpast rfl]
        rw [List.append_assoc] at hread
        rw [show done ++ row :: next :: rows = done ++ ([row] ++ next :: rows) from rfl, hread]
        constructor
        · intro hlater r hr
          rcases List.mem_cons.mp hr with rfl | hr
          · exact hnot
          · exact hlater r hr
        · exact fun hall r hr => hall r (List.mem_cons_of_mem row hr)

/-- **Tables.** Records of several fields each, every field either read as it is written or broken
by a carriage return, are read back exactly when none is broken. -/
theorem read_tableText_iff {rows : List (List Text)} (hrows : rows ≠ [])
    (hwide : ∀ row ∈ rows, 2 ≤ row.length)
    (hgood : ∀ row ∈ rows, ∀ f ∈ row, ¬ bad f → ReadsAs (enc f) f)
    (hbroken : ∀ row ∈ rows, ∀ f ∈ row, bad f → Broken (enc f) f) :
    read (tableText enc rows) = rows ↔ ∀ row ∈ rows, ∀ f ∈ row, ¬ bad f := by
  have hread := finish_table_iff hrows hwide hgood hbroken []
  rwa [List.nil_append] at hread

end SettlementOS.Computation.Csv
