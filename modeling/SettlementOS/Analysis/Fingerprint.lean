import Mathlib.Data.List.Nodup
import Mathlib.Data.List.Perm.Basic
import SettlementOS.Model.Fingerprint

/-!
# What the canonical text of a body says

A string between quotes is read back unit by unit, whatever was escaped. So is a value, with
whatever comes after it, once numbers are written without a character that ends them; and an
object's text says its entries up to their order and nothing about it.
-/

set_option autoImplicit false

namespace SettlementOS.Analysis

open SettlementOS.Computation Model.Fingerprint

/-! ## Strings -/

/-- A hexadecimal digit tells its value. -/
theorem hexDigit_inj {n m : ℕ} (hn : n < 16) (hm : m < 16) (h : hexDigit n = hexDigit m) :
    n = m := by
  have hval := congrArg Fin.val h
  simp only [hexDigit, Fin.ofNat] at hval
  split at hval <;> split at hval <;> omega

/-- An escape tells the unit it stands for. -/
theorem hexEscape_inj {u v : CodeUnit} (h : hexEscape u = hexEscape v) : u = v := by
  simp only [hexEscape, List.cons.injEq, and_true, true_and] at h
  obtain ⟨h₁, h₂, h₃, h₄⟩ := h
  have hu : u.val < 65536 := u.isLt
  have hv : v.val < 65536 := v.isLt
  have hd₁ := hexDigit_inj (by omega) (by omega) h₁
  have hd₂ := hexDigit_inj (by omega) (by omega) h₂
  have hd₃ := hexDigit_inj (by omega) (by omega) h₃
  have hd₄ := hexDigit_inj (by omega) (by omega) h₄
  exact Fin.ext (by omega)

/-- What a short escape stands for. -/
def escaped (c : CodeUnit) : ℕ :=
  if c = unit 'b' then 0x08
  else if c = unit 't' then 0x09
  else if c = unit 'n' then 0x0A
  else if c = unit 'f' then 0x0C
  else if c = unit 'r' then 0x0D
  else if c = unit '"' then 0x22
  else 0x5C

/-- A short escape stands for its unit, and is not taken for the long one. -/
theorem escaped_shortEscape {u : CodeUnit} {c : Char} (h : shortEscape u = some c) :
    escaped (unit c) = u.val ∧ unit c ≠ unit 'u' := by
  unfold shortEscape at h
  split_ifs at h with h₁ h₂ h₃ h₄ h₅ h₆ h₇ <;> cases h
  · rw [h₁]; decide
  · rw [h₂]; decide
  · rw [h₃]; decide
  · rw [h₄]; decide
  · rw [h₅]; decide
  · rw [h₆]; decide
  · rw [h₇]; decide

/-- The three ways a unit is written. -/
theorem quoteUnit_cases (paired : Bool) (u : CodeUnit) :
    (quoteUnit paired u = [u] ∧ u ≠ unit '\\' ∧ u ≠ unit '"') ∨
      (∃ c, shortEscape u = some c ∧ quoteUnit paired u = [unit '\\', unit c]) ∨
      quoteUnit paired u = hexEscape u := by
  unfold quoteUnit
  cases hshort : shortEscape u with
  | some c => exact .inr (.inl ⟨c, rfl, rfl⟩)
  | none =>
    dsimp only
    split_ifs
    · exact .inr (.inr rfl)
    · refine .inl ⟨rfl, ?_, ?_⟩ <;> rintro rfl <;> revert hshort <;> decide

/-- The first quoted unit can be read off, with the rest. -/
theorem quoteUnit_inj {b b' : Bool} {u v : CodeUnit} {rest rest' : JsString}
    (h : quoteUnit b u ++ rest = quoteUnit b' v ++ rest') : u = v ∧ rest = rest' := by
  rcases quoteUnit_cases b u with ⟨hu, hslash, -⟩ | ⟨c, hc, hu⟩ | hu <;>
    rcases quoteUnit_cases b' v with ⟨hv, hslash', -⟩ | ⟨c', hc', hv⟩ | hv <;> rw [hu, hv] at h
  · exact List.cons.inj h
  · exact absurd (List.cons.inj h).1 hslash
  · exact absurd (List.cons.inj h).1 hslash
  · exact absurd (List.cons.inj h).1.symm hslash'
  · -- both have a character of their own
    obtain ⟨hchar, hrest⟩ := List.cons.inj (List.cons.inj h).2
    have hcode := (escaped_shortEscape hc).1
    rw [hchar, (escaped_shortEscape hc').1] at hcode
    exact ⟨Fin.ext hcode.symm, hrest⟩
  · exact absurd (List.cons.inj (List.cons.inj h).2).1 (escaped_shortEscape hc).2
  · exact absurd (List.cons.inj h).1.symm hslash'
  · exact absurd (List.cons.inj (List.cons.inj h).2).1.symm (escaped_shortEscape hc').2
  · have hlength : (hexEscape u).length = (hexEscape v).length := rfl
    obtain ⟨hhex, hrest⟩ := List.append_inj h hlength
    exact ⟨hexEscape_inj hhex, hrest⟩

/-- No unit is written with a quote first. -/
theorem quoteUnit_ne_quote {b : Bool} {u : CodeUnit} {rest rest' : JsString} :
    quoteUnit b u ++ rest ≠ unit '"' :: rest' := by
  intro h
  rcases quoteUnit_cases b u with ⟨hu, -, hquote⟩ | ⟨c, -, hu⟩ | hu <;> rw [hu] at h
  · exact hquote (List.cons.inj h).1
  · exact absurd (List.cons.inj h).1 (by decide)
  · exact absurd (List.cons.inj h).1 (by decide)

/-- A text is quoted unit by unit, each in view of its neighbours. -/
theorem quoteUnits_cons (b : Bool) (u : CodeUnit) (s : JsString) :
    quoteUnits b (u :: s) =
      quoteUnit (leads u && s.head?.any trails || trails u && b) u ++ quoteUnits (leads u) s := rfl

/-- A quoted text ends at its quote, and tells what it quotes. -/
theorem quoteUnits_inj {b b' : Bool} {s t rest rest' : JsString}
    (h : quoteUnits b s ++ unit '"' :: rest = quoteUnits b' t ++ unit '"' :: rest') :
    s = t ∧ rest = rest' := by
  induction s generalizing b b' t with
  | nil =>
    cases t with
    | nil => exact ⟨rfl, (List.cons.inj h).2⟩
    | cons v t =>
      rw [quoteUnits_cons, List.append_assoc] at h
      exact absurd h.symm quoteUnit_ne_quote
  | cons u s ih =>
    cases t with
    | nil =>
      rw [quoteUnits_cons, List.append_assoc] at h
      exact absurd h quoteUnit_ne_quote
    | cons v t =>
      rw [quoteUnits_cons, quoteUnits_cons, List.append_assoc, List.append_assoc] at h
      obtain ⟨rfl, htail⟩ := quoteUnit_inj h
      obtain ⟨rfl, hrest⟩ := ih htail
      exact ⟨rfl, hrest⟩

/-- A quoted string is read back, whatever comes after it. -/
theorem quote_inj {s t rest rest' : JsString} (h : quote s ++ rest = quote t ++ rest') :
    s = t ∧ rest = rest' := by
  have hbody : quoteUnits false s ++ [unit '"'] ++ rest =
      quoteUnits false t ++ [unit '"'] ++ rest' := (List.cons.inj h).2
  rw [List.append_assoc, List.append_assoc] at hbody
  exact quoteUnits_inj hbody

/-! ## Values up to the order of keys -/

variable {ν : Type}

mutual

/-- The same value, but for the order in which objects have their keys, at every depth. -/
def SameJson : Value ν → Value ν → Prop
  | .undefined, .undefined => True
  | .null, .null => True
  | .bool b, .bool c => b = c
  | .number n, .number m => n = m
  | .string s, .string t => s = t
  | .array items, .array items' => SameItems items items'
  | .object entries, .object entries' =>
    ∃ reordered, SameEntries entries reordered ∧ reordered.Perm entries'
  | _, _ => False

/-- Items that are the same JSON value one by one. -/
def SameItems : List (Value ν) → List (Value ν) → Prop
  | [], [] => True
  | a :: items, b :: items' => SameJson a b ∧ SameItems items items'
  | _, _ => False

/-- Entries with the same keys whose values are the same JSON value one by one. -/
def SameEntries : List (JsString × Value ν) → List (JsString × Value ν) → Prop
  | [], [] => True
  | (key, a) :: entries, (key', b) :: entries' =>
    key = key' ∧ SameJson a b ∧ SameEntries entries entries'
  | _, _ => False

end

/-- Entries with the same key and the same value. -/
def SameEntry (e f : JsString × Value ν) : Prop := e.1 = f.1 ∧ SameJson e.2 f.2

/-- Lists of the same items are related one by one. -/
theorem sameItems_iff {xs ys : List (Value ν)} :
    SameItems xs ys ↔ List.Forall₂ SameJson xs ys := by
  induction xs generalizing ys with
  | nil => cases ys <;> simp [SameItems]
  | cons x xs ih => cases ys <;> simp [SameItems, ih]

/-- Lists of the same entries are related one by one. -/
theorem sameEntries_iff {es fs : List (JsString × Value ν)} :
    SameEntries es fs ↔ List.Forall₂ SameEntry es fs := by
  induction es generalizing fs with
  | nil => cases fs <;> simp [SameEntries]
  | cons e es ih => cases fs <;> simp [SameEntries, SameEntry, ih, and_assoc]

/-- What holds of a value when it holds of everything in it holds of every value. -/
theorem Value.induct {P : Value ν → Prop} (undefined : P .undefined) (null : P .null)
    (bool : ∀ b, P (.bool b)) (number : ∀ n, P (.number n)) (string : ∀ s, P (.string s))
    (array : ∀ items, (∀ v ∈ items, P v) → P (.array items))
    (object : ∀ entries, (∀ e ∈ entries, P e.2) → P (.object entries)) (v : Value ν) : P v := by
  refine @Value.rec ν P (fun items => ∀ v ∈ items, P v) (fun entries => ∀ e ∈ entries, P e.2)
    (fun e => P e.2) undefined null bool number string array object ?_ ?_ ?_ ?_ ?_ v
  · exact fun v hv => absurd hv List.not_mem_nil
  · rintro item items hitem hitems v hv
    rcases List.mem_cons.mp hv with rfl | hv
    · exact hitem
    · exact hitems v hv
  · exact fun e he => absurd he List.not_mem_nil
  · rintro e entries hentry hentries e' he'
    rcases List.mem_cons.mp he' with rfl | he'
    · exact hentry
    · exact hentries e' he'
  · exact fun _ _ hvalue => hvalue

/-! ## Entries in order -/

section

variable {α β : Type}

/-- Sorting the entries keeps them all. -/
theorem sortEntries_perm (entries : List (JsString × α)) : (sortEntries entries).Perm entries :=
  List.mergeSort_perm entries _

/-- The entries are sorted by their keys. -/
theorem sortEntries_pairwise (entries : List (JsString × α)) :
    (sortEntries entries).Pairwise fun a b => a.1 ≤ b.1 := by
  have htrans : ∀ a b c : JsString × α, decide (a.1 ≤ b.1) = true → decide (b.1 ≤ c.1) = true →
      decide (a.1 ≤ c.1) = true := fun a b c hab hbc =>
    decide_eq_true (le_trans (of_decide_eq_true hab) (of_decide_eq_true hbc))
  have htotal : ∀ a b : JsString × α, (decide (a.1 ≤ b.1) || decide (b.1 ≤ a.1)) = true := by
    intro a b
    simp only [Bool.or_eq_true, decide_eq_true_eq]
    exact le_total a.1 b.1
  exact (List.pairwise_mergeSort htrans htotal entries).imp fun hab => of_decide_eq_true hab

/-- The order of the entries is lost, when no key is there twice. -/
theorem sortEntries_eq_of_perm {es fs : List (JsString × α)} (h : es.Perm fs)
    (hkeys : (es.map Prod.fst).Nodup) : sortEntries es = sortEntries fs := by
  have hperm : (sortEntries es).Perm (sortEntries fs) :=
    (sortEntries_perm es).trans (h.trans (sortEntries_perm fs).symm)
  refine hperm.eq_of_pairwise ?_ (sortEntries_pairwise es) (sortEntries_pairwise fs)
  intro a b ha hb hab hba
  have hmem : b ∈ es := h.mem_iff.mpr ((sortEntries_perm fs).mem_iff.mp hb)
  exact List.inj_on_of_nodup_map hkeys ((sortEntries_perm es).mem_iff.mp ha) hmem
    (le_antisymm hab hba)

/-- What is done to the values does not touch the order. -/
theorem sortEntries_map (f : α → β) (entries : List (JsString × α)) :
    sortEntries (entries.map fun e => (e.1, f e.2)) =
      (sortEntries entries).map fun e => (e.1, f e.2) := by
  unfold sortEntries
  exact (List.map_mergeSort (f := fun e : JsString × α => (e.1, f e.2))
    (s := fun a b => decide (a.1 ≤ b.1)) fun _ _ _ _ => rfl).symm

end

/-! ## The text of a value -/

variable {textOf : ν → JsString}

/-- The items are canonicalized one by one. -/
theorem canonicalItems_eq (items : List (Value ν)) :
    canonicalItems textOf items = items.map (canonical textOf) := by
  induction items with
  | nil => simp [canonicalItems]
  | cons item items ih => simp [canonicalItems, ih]

/-- A list is JSON if each of its items is. -/
theorem allJson_iff {items : List (Value ν)} : AllJson items ↔ ∀ v ∈ items, IsJson v := by
  induction items with
  | nil => simp [AllJson]
  | cons item items ih => simp [AllJson, ih]

/-- Entries are JSON if each of their values is. -/
theorem entriesJson_iff {entries : List (JsString × Value ν)} :
    EntriesJson entries ↔ ∀ e ∈ entries, IsJson e.2 := by
  induction entries with
  | nil => simp [EntriesJson]
  | cons e entries ih => simp [EntriesJson, ih]

/-- Of a JSON object no entry is left out. -/
theorem canonicalEntries_eq {entries : List (JsString × Value ν)}
    (h : ∀ e ∈ entries, IsJson e.2) :
    canonicalEntries textOf entries = entries.map fun e => (e.1, canonical textOf e.2) := by
  induction entries with
  | nil => simp [canonicalEntries]
  | cons e entries ih =>
    obtain ⟨key, value⟩ := e
    have hrest := ih fun e' he' => h e' (List.mem_cons_of_mem _ he')
    have hvalue : IsJson value := h (key, value) List.mem_cons_self
    cases value with
    | undefined => simp [IsJson] at hvalue
    | _ => simp [canonicalEntries, hrest]

/-- The text of an entry. -/
def memberOf (textOf : ν → JsString) (e : JsString × Value ν) : JsString :=
  member (e.1, canonical textOf e.2)

/-- An array is its items in brackets, with commas between them. -/
theorem canonical_array (items : List (Value ν)) : canonical textOf (.array items) =
    unit '[' :: (joined (unit ',') (items.map (canonical textOf)) ++ [unit ']']) := by
  rw [canonical, canonicalItems_eq]

/-- An object is its sorted members in braces, with commas between them. -/
theorem canonical_object {entries : List (JsString × Value ν)} (h : ∀ e ∈ entries, IsJson e.2) :
    canonical textOf (.object entries) = unit '{' ::
      (joined (unit ',') ((sortEntries entries).map (memberOf textOf)) ++ [unit '}']) := by
  rw [canonical, canonicalEntries_eq h, sortEntries_map, List.map_map]
  rfl

/-- Arrays of values that have the same texts have the same text. -/
theorem canonical_array_of_same {items items' : List (Value ν)}
    (h : List.Forall₂ SameJson items items')
    (htexts : ∀ a ∈ items, ∀ b ∈ items', SameJson a b → canonical textOf a = canonical textOf b) :
    canonical textOf (.array items) = canonical textOf (.array items') := by
  have hall : items.map (canonical textOf) = items'.map (canonical textOf) := by
    induction h with
    | nil => rfl
    | cons hxy _ ih =>
      rw [List.map_cons, List.map_cons, htexts _ List.mem_cons_self _ List.mem_cons_self hxy,
        ih fun a ha b hb => htexts a (List.mem_cons_of_mem _ ha) b (List.mem_cons_of_mem _ hb)]
  rw [canonical_array, canonical_array, hall]

/-- Objects with the same keys, and under each values that have the same texts, have the same text,
in whatever order the entries are. -/
theorem canonical_object_of_same {entries reordered entries' : List (JsString × Value ν)}
    (h : List.Forall₂ SameEntry entries reordered) (hperm : reordered.Perm entries')
    (hkeys : (entries.map Prod.fst).Nodup) (ha : ∀ e ∈ entries, IsJson e.2)
    (hb : ∀ e ∈ entries', IsJson e.2)
    (htexts : ∀ e ∈ entries, ∀ f ∈ reordered, SameJson e.2 f.2 →
      canonical textOf e.2 = canonical textOf f.2) :
    canonical textOf (.object entries) = canonical textOf (.object entries') := by
  have hall : entries.map (fun e => (e.1, canonical textOf e.2)) =
      reordered.map fun e => (e.1, canonical textOf e.2) := by
    clear hkeys ha hperm
    induction h with
    | nil => rfl
    | cons hef _ ih =>
      rw [List.map_cons, List.map_cons, hef.1,
        htexts _ List.mem_cons_self _ List.mem_cons_self hef.2,
        ih fun e he f hf => htexts e (List.mem_cons_of_mem _ he) f (List.mem_cons_of_mem _ hf)]
  have hnodup : ((reordered.map fun e => (e.1, canonical textOf e.2)).map Prod.fst).Nodup := by
    rw [← hall, List.map_map]
    exact hkeys
  rw [canonical, canonical, canonicalEntries_eq ha, canonicalEntries_eq hb, hall,
    sortEntries_eq_of_perm (hperm.map _) hnodup]

/-- Values that are the same up to the order of keys have the same text. -/
theorem canonical_of_same {a b : Value ν} (h : SameJson a b) (ha : IsJson a) (hb : IsJson b) :
    canonical textOf a = canonical textOf b := by
  induction a using Value.induct generalizing b with
  | undefined => exact absurd ha (by simp [IsJson])
  | null =>
    cases b with
    | null => rfl
    | _ => simp [SameJson] at h
  | bool x =>
    cases b with
    | bool y =>
      simp only [SameJson] at h
      rw [h]
    | _ => simp [SameJson] at h
  | number n =>
    cases b with
    | number m =>
      simp only [SameJson] at h
      rw [h]
    | _ => simp [SameJson] at h
  | string s =>
    cases b with
    | string t =>
      simp only [SameJson] at h
      rw [h]
    | _ => simp [SameJson] at h
  | array items ih =>
    cases b with
    | array items' =>
      simp only [SameJson, sameItems_iff] at h
      simp only [IsJson, allJson_iff] at ha hb
      exact canonical_array_of_same h fun v hv w hw hvw => ih v hv hvw (ha v hv) (hb w hw)
    | _ => simp [SameJson] at h
  | object entries ih =>
    cases b with
    | object entries' =>
      simp only [SameJson, sameEntries_iff] at h
      simp only [IsJson, entriesJson_iff] at ha hb
      obtain ⟨reordered, hsame, hperm⟩ := h
      exact canonical_object_of_same hsame hperm ha.1 ha.2 hb.2 fun e he f hf hef =>
        ih e he hef (ha.2 e he) (hb.2 f (hperm.mem_iff.mp hf))
    | _ => simp [SameJson] at h

/-! ## Reading a text back -/

/-- The characters numbers are written with. -/
def numeralUnits : JsString :=
  ['0', '1', '2', '3', '4', '5', '6', '7', '8', '9', '+', '-', '.', 'e', 'E'].map unit

/-- How a runtime writes finite numbers: each in its own way, with characters of its own. -/
structure Numerals (textOf : ν → JsString) : Prop where
  injective : Function.Injective textOf
  nonempty : ∀ n, textOf n ≠ []
  numeral : ∀ n, ∀ u ∈ textOf n, u ∈ numeralUnits

/-- What may stand behind a value. -/
def ends (u : CodeUnit) : Prop := u ∉ numeralUnits

instance : DecidablePred ends := fun u => inferInstanceAs (Decidable (u ∉ numeralUnits))

/-- What a text is of, by its first unit. -/
def sortOf (text : JsString) : ℕ :=
  match text.head? with
  | none => 0
  | some u =>
    if u = unit 'n' then 1
    else if u = unit 't' ∨ u = unit 'f' then 2
    else if u = unit '"' then 3
    else if u = unit '[' then 4
    else if u = unit '{' then 5
    else if u ∈ numeralUnits then 6
    else 0

/-- A text that begins like a numeral is read as a number. -/
theorem sortOf_numeral {u : CodeUnit} (h : u ∈ numeralUnits) (units : JsString) :
    sortOf (u :: units) = 6 := by
  simp only [numeralUnits, List.map_cons, List.map_nil, List.mem_cons, List.not_mem_nil,
    or_false] at h
  rcases h with rfl | rfl | rfl | rfl | rfl | rfl | rfl | rfl | rfl | rfl | rfl | rfl | rfl | rfl |
    rfl <;> rfl

/-- What a value is. -/
def kindOf : Value ν → ℕ
  | .undefined => 1
  | .null => 1
  | .bool _ => 2
  | .string _ => 3
  | .array _ => 4
  | .object _ => 5
  | .number _ => 6

/-- A text tells by its first unit what it is of. -/
theorem sortOf_canonical (hnum : Numerals textOf) (v : Value ν) (rest : JsString) :
    sortOf (canonical textOf v ++ rest) = kindOf v := by
  cases v with
  | number n =>
    rw [canonical]
    have hnumeral := hnum.numeral n
    cases htext : textOf n with
    | nil => exact absurd htext (hnum.nonempty n)
    | cons u units =>
      have hu : u ∈ numeralUnits := hnumeral u (htext ▸ List.mem_cons_self)
      exact sortOf_numeral hu _
  | bool b =>
    rw [canonical]
    cases b <;> rfl
  | _ =>
    rw [canonical]
    rfl

/-- What is of a kind begins with nothing that is of none. -/
theorem head_of_kind {text : JsString} (h : sortOf text ≠ 0) {close : CodeUnit}
    (hclose : sortOf [close] = 0) : ∃ c ∈ text.head?, c ≠ close := by
  cases text with
  | nil => exact absurd rfl h
  | cons u units =>
    refine ⟨u, rfl, ?_⟩
    rintro rfl
    exact h hclose

/-- The text of a value begins with a unit that closes nothing. -/
theorem canonical_head (hnum : Numerals textOf) (v : Value ν) {close : CodeUnit}
    (hclose : sortOf [close] = 0) : ∃ c ∈ (canonical textOf v).head?, c ≠ close := by
  refine head_of_kind ?_ hclose
  have hkind := sortOf_canonical hnum v []
  rw [List.append_nil] at hkind
  rw [hkind]
  cases v <;> exact Nat.succ_ne_zero _

/-- The text of a value tells its kind, whatever follows it. -/
theorem kindOf_eq (hnum : Numerals textOf) {v w : Value ν} {rest rest' : JsString}
    (h : canonical textOf v ++ rest = canonical textOf w ++ rest') : kindOf v = kindOf w := by
  rw [← sortOf_canonical hnum v rest, h, sortOf_canonical hnum w rest']

/-- Entries are read back when their values are. -/
theorem readBack_member {e f : JsString × Value ν}
    (h : ReadBack ends (canonical textOf) SameJson e.2 f.2) :
    ReadBack ends (memberOf textOf) SameEntry e f := by
  intro rest rest' hrest hrest' heq
  have hall : quote e.1 ++ (unit ':' :: (canonical textOf e.2 ++ rest)) =
      quote f.1 ++ (unit ':' :: (canonical textOf f.2 ++ rest')) := by
    simpa only [memberOf, member, List.append_assoc, List.cons_append] using heq
  obtain ⟨hkey, hafter⟩ := quote_inj hall
  obtain ⟨hvalue, hend⟩ := h rest rest' hrest hrest' (List.cons.inj hafter).2
  exact ⟨⟨hkey, hvalue⟩, hend⟩

/-- What stands between brackets, with what comes after them. -/
theorem behind_open {u close : CodeUnit} {body body' rest rest' : JsString}
    (h : u :: (body ++ [close]) ++ rest = u :: (body' ++ [close]) ++ rest') :
    body ++ close :: rest = body' ++ close :: rest' := by
  have hall : body ++ [close] ++ rest = body' ++ [close] ++ rest' := (List.cons.inj h).2
  rwa [List.append_assoc, List.append_assoc] at hall

/-! ### One kind of value after the other -/

/-- Values of different kinds have no text in common, so those of one kind are all there is to
tell apart. -/
theorem readBack_of_kind (hnum : Numerals textOf) {a b : Value ν}
    (h : kindOf a = kindOf b → ReadBack ends (canonical textOf) SameJson a b) :
    ReadBack ends (canonical textOf) SameJson a b :=
  fun rest rest' hrest hrest' heq => h (kindOf_eq hnum heq) rest rest' hrest hrest' heq

/-- There is one null. -/
theorem readBack_null : ReadBack ends (canonical textOf) SameJson .null .null := by
  intro rest rest' _ _ heq
  rw [canonical] at heq
  exact ⟨by simp [SameJson], List.append_cancel_left heq⟩

/-- The two truth values begin differently. -/
theorem readBack_bool (x y : Bool) :
    ReadBack ends (canonical textOf) SameJson (.bool x) (.bool y) := by
  intro rest rest' _ _ heq
  rw [canonical, canonical] at heq
  cases x <;> cases y
  · exact ⟨by simp [SameJson], List.append_cancel_left heq⟩
  · exact absurd (List.cons.inj heq).1 (by decide)
  · exact absurd (List.cons.inj heq).1 (by decide)
  · exact ⟨by simp [SameJson], List.append_cancel_left heq⟩

/-- A numeral is over where a unit comes that no numeral has. -/
theorem readBack_number (hnum : Numerals textOf) (n m : ν) :
    ReadBack ends (canonical textOf) SameJson (.number n) (.number m) := by
  intro rest rest' hrest hrest' heq
  rw [canonical, canonical] at heq
  obtain ⟨htext, hend⟩ := unstopped_inj (fun u hu => not_not.mpr (hnum.numeral n u hu))
    (fun u hu => not_not.mpr (hnum.numeral m u hu)) hrest hrest' heq
  refine ⟨?_, hend⟩
  simp only [SameJson]
  exact hnum.injective htext

/-- A string is over at its second quote. -/
theorem readBack_string (s t : JsString) :
    ReadBack ends (canonical textOf) SameJson (.string s) (.string t) := by
  intro rest rest' _ _ heq
  rw [canonical, canonical] at heq
  obtain ⟨hst, hend⟩ := quote_inj heq
  refine ⟨?_, hend⟩
  simp only [SameJson]
  exact hst

/-- An array is read back when its items are. -/
theorem readBack_array (hnum : Numerals textOf) {items items' : List (Value ν)}
    (h : ∀ v ∈ items, ∀ w ∈ items', ReadBack ends (canonical textOf) SameJson v w) :
    ReadBack ends (canonical textOf) SameJson (.array items) (.array items') := by
  intro rest rest' _ _ heq
  rw [canonical_array, canonical_array] at heq
  have hbody : joined (unit ',') (items.map (canonical textOf)) ++ unit ']' :: rest =
      joined (unit ',') (items'.map (canonical textOf)) ++ unit ']' :: rest' :=
    behind_open heq
  obtain ⟨hsame, hend⟩ := joined_inj h (by decide) (by decide) (by decide)
    (fun v _ => canonical_head hnum v rfl) (fun v _ => canonical_head hnum v rfl) hbody
  refine ⟨?_, hend⟩
  simp only [SameJson]
  exact sameItems_iff.mpr hsame

/-- An object is read back, in the order of its keys, when its values are. -/
theorem readBack_object {entries entries' : List (JsString × Value ν)}
    (ha : ∀ e ∈ entries, IsJson e.2) (hb : ∀ e ∈ entries', IsJson e.2)
    (h : ∀ e ∈ entries, ∀ f ∈ entries', ReadBack ends (canonical textOf) SameJson e.2 f.2) :
    ReadBack ends (canonical textOf) SameJson (.object entries) (.object entries') := by
  intro rest rest' _ _ heq
  rw [canonical_object ha, canonical_object hb] at heq
  have hbody : joined (unit ',') ((sortEntries entries).map (memberOf textOf)) ++
        unit '}' :: rest =
      joined (unit ',') ((sortEntries entries').map (memberOf textOf)) ++ unit '}' :: rest' :=
    behind_open heq
  have hentries : ∀ e ∈ sortEntries entries, ∀ f ∈ sortEntries entries',
      ReadBack ends (memberOf textOf) SameEntry e f := fun e he f hf =>
    readBack_member (h e ((sortEntries_perm entries).mem_iff.mp he) f
      ((sortEntries_perm entries').mem_iff.mp hf))
  obtain ⟨hsame, hend⟩ := joined_inj hentries (by decide) (by decide) (by decide)
    (fun e _ => ⟨unit '"', rfl, by decide⟩) (fun e _ => ⟨unit '"', rfl, by decide⟩) hbody
  refine ⟨?_, hend⟩
  obtain ⟨reordered, hreordered, hperm⟩ :=
    List.perm_comp_forall₂ (sortEntries_perm entries).symm hsame
  simp only [SameJson]
  exact ⟨reordered, sameEntries_iff.mpr hreordered, hperm.trans (sortEntries_perm entries')⟩

/-- **A value is read back** from its text, up to the order of keys, whatever comes after it. -/
theorem readBack_canonical (hnum : Numerals textOf) {a b : Value ν} (ha : IsJson a)
    (hb : IsJson b) : ReadBack ends (canonical textOf) SameJson a b := by
  induction a using Value.induct generalizing b with
  | undefined => exact absurd ha (by simp [IsJson])
  | null =>
    refine readBack_of_kind hnum fun hkind => ?_
    cases b with
    | undefined => exact absurd hb (by simp [IsJson])
    | null => exact readBack_null
    | _ => simp [kindOf] at hkind
  | bool x =>
    refine readBack_of_kind hnum fun hkind => ?_
    cases b with
    | bool y => exact readBack_bool x y
    | _ => simp [kindOf] at hkind
  | number n =>
    refine readBack_of_kind hnum fun hkind => ?_
    cases b with
    | number m => exact readBack_number hnum n m
    | _ => simp [kindOf] at hkind
  | string s =>
    refine readBack_of_kind hnum fun hkind => ?_
    cases b with
    | string t => exact readBack_string s t
    | _ => simp [kindOf] at hkind
  | array items ih =>
    refine readBack_of_kind hnum fun hkind => ?_
    cases b with
    | array items' =>
      simp only [IsJson, allJson_iff] at ha hb
      exact readBack_array hnum fun v hv w hw => ih v hv (ha v hv) (hb w hw)
    | _ => simp [kindOf] at hkind
  | object entries ih =>
    refine readBack_of_kind hnum fun hkind => ?_
    cases b with
    | object entries' =>
      simp only [IsJson, entriesJson_iff] at ha hb
      exact readBack_object ha.2 hb.2 fun e he f hf => ih e he (ha.2 e he) (hb.2 f hf)
    | _ => simp [kindOf] at hkind

end SettlementOS.Analysis
