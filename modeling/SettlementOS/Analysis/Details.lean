import SettlementOS.Program.AuditLog

/-!
# How the details of events open

The detail of a status change is the text of an object whose first two keys are `from` and `to`:
the columns and the details its callers hand over come after them and are called otherwise. The
detail of an event whose first key is another one does not open like that, whatever is in it,
since a quote inside a key is escaped.
-/

set_option autoImplicit false

namespace SettlementOS.Analysis

open Model Program AuditLog

variable {env : AuditEnv}

/-! ## Texts -/

/-- A character is spelled with a backslash, or it is not a quote and stands for itself. -/
theorem jsonEscape_cases (c : Char) :
    (∃ l, AuditEnv.jsonEscape c = '\\' :: l) ∨ (AuditEnv.jsonEscape c = [c] ∧ c ≠ '"') := by
  unfold AuditEnv.jsonEscape
  split
  case h_8 n _ _ _ _ _ hquote _ =>
    by_cases hn : c.toNat < 32
    · exact .inl ⟨_, if_pos hn⟩
    · exact .inr ⟨if_neg hn, fun he => hquote (by rw [he]; rfl)⟩
  all_goals exact .inl ⟨_, rfl⟩

/-- A key whose spelling opens with a plain word and a quote is that word. -/
theorem eq_of_spelled {word key l : List Char} (hplain : '\\' ∉ word)
    (h : word ++ ['"'] <+: key.flatMap AuditEnv.jsonEscape ++ '"' :: l) (hquote : '"' ∉ word) :
    key = word := by
  induction word generalizing key with
  | nil =>
    cases key with
    | nil => rfl
    | cons c key =>
      rcases jsonEscape_cases c with ⟨l', hc⟩ | ⟨hc, hne⟩
      · simp [hc, List.cons_prefix_cons] at h
      · simp only [List.flatMap_cons, hc, List.nil_append, List.cons_append,
          List.cons_prefix_cons] at h
        exact absurd h.1.symm hne
  | cons c word ih =>
    simp only [List.mem_cons, not_or] at hplain hquote
    cases key with
    | nil =>
      simp only [List.flatMap_nil, List.nil_append, List.cons_append, List.cons_prefix_cons] at h
      exact absurd h.1.symm hquote.1
    | cons c' key =>
      rcases jsonEscape_cases c' with ⟨l', hc⟩ | ⟨hc, -⟩
      · simp only [List.flatMap_cons, hc, List.cons_append, List.cons_prefix_cons] at h
        exact absurd h.1.symm hplain.1
      · simp only [List.flatMap_cons, hc, List.cons_append, List.nil_append,
          List.cons_prefix_cons] at h
        rw [h.1, ih hplain.2 h.2 hquote.2]

/-- The text of an object opens with its first key. -/
theorem stringifyDetail_cons (env : AuditEnv) (kv : String × Json) (d : Detail) : ∃ l,
    (env.stringifyDetail (kv :: d)).toList = '\x7b' :: ((env.stringifyEntry kv).toList ++ l) := by
  cases d with
  | nil => exact ⟨['\x7d'], by simp [AuditEnv.stringifyDetail]⟩
  | cons kv' d =>
    refine ⟨',' :: (",".intercalate ((kv' :: d).map env.stringifyEntry)).toList ++ ['\x7d'], ?_⟩
    simp [AuditEnv.stringifyDetail, String.intercalate_cons_cons]

/-- An object with another first key, or with none, does not open with `from`. -/
theorem not_opens_from {d : Detail} (hd : ∀ kv ∈ d.head?, kv.1 ≠ "from") :
    ¬ "\x7b\"from\"".toList <+: (env.stringifyDetail d).toList := by
  intro h
  cases d with
  | nil => exact absurd h (by simp [AuditEnv.stringifyDetail])
  | cons kv d =>
    obtain ⟨l, hl⟩ := stringifyDetail_cons env kv d
    rw [hl] at h
    have hspelled : "from".toList ++ ['"'] <+: kv.1.toList.flatMap AuditEnv.jsonEscape ++
        '"' :: (':' :: (env.stringify kv.2).toList ++ l) := by
      simpa [AuditEnv.stringifyEntry, AuditEnv.jsonString, List.cons_prefix_cons] using h
    have := eq_of_spelled (by decide) hspelled (by decide)
    exact hd kv rfl (String.toList_inj.mp this)

/-! ## The detail of a status change -/

/-- No key of the object is `from` or `to`. -/
def Apart (d : Detail) : Prop := ∀ kv ∈ d, kv.1 ≠ "from" ∧ kv.1 ≠ "to"

/-- The columns are called otherwise. -/
theorem apart_toDetail (data : PaymentPatch) : Apart data.toDetail := by
  intro kv hkv
  simp only [PaymentPatch.toDetail, List.mem_append, Option.mem_toList, Option.map_eq_some_iff]
    at hkv
  casesm* _ ∨ _
  all_goals
    obtain ⟨_, -, rfl⟩ := hkv
    simp

/-- Spreading such an object leaves the two keys where they are. -/
theorem spread_opens {x y : Json} {d : Detail} (hd : Apart d) (l : Detail) : ∃ l',
    Detail.spread (("from", x) :: ("to", y) :: l) d = ("from", x) :: ("to", y) :: l' := by
  induction d generalizing l with
  | nil => exact ⟨l, rfl⟩
  | cons kv d ih =>
    obtain ⟨hfrom, hto⟩ := hd kv List.mem_cons_self
    have hset : Detail.set (("from", x) :: ("to", y) :: l) kv.1 kv.2 =
        ("from", x) :: ("to", y) :: Detail.set l kv.1 kv.2 := by
      rw [Detail.set, if_neg (Ne.symm hfrom), Detail.set, if_neg (Ne.symm hto)]
    obtain ⟨l', hl'⟩ := ih (fun kv' h => hd kv' (List.mem_cons_of_mem _ h)) (Detail.set l kv.1 kv.2)
    exact ⟨l', by rw [← hl', Detail.spread, List.foldl_cons, hset]; rfl⟩

/-- The detail opens with the two statuses. -/
theorem transitionDetail_opens {opts : TransitionOpts} (h : PlainOpts opts)
    (s next : PaymentStatus) :
    ∃ l, transitionDetail s next opts =
      ("from", .str s.name) :: ("to", .str next.name) :: l := by
  obtain ⟨l, hl⟩ := spread_opens (x := .str s.name) (y := .str next.name)
    (apart_toDetail (opts.auditData.getD opts.data)) []
  rw [transitionDetail, hl]
  exact spread_opens h.keys l

/-- Nothing in the name of a status is escaped. -/
theorem jsonString_name (s : PaymentStatus) :
    AuditEnv.jsonString s.name = "\"" ++ s.name ++ "\"" := by
  cases s <;> decide

/-- The text the detail of a status change opens with. -/
def opening (s next : PaymentStatus) : String :=
  "\x7b\"from\":\"" ++ s.name ++ "\",\"to\":\"" ++ next.name ++ "\""

/-- The detail of a status change opens with its two statuses. -/
theorem opening_prefix {opts : TransitionOpts} (h : PlainOpts opts) (s next : PaymentStatus) :
    (opening s next).toList <+: (env.stringifyDetail (transitionDetail s next opts)).toList := by
  obtain ⟨l, hl⟩ := transitionDetail_opens h s next
  rw [hl]
  have hto : ∃ t,
      (",".intercalate ((("to", Json.str next.name) :: l).map env.stringifyEntry)).toList =
      (env.stringifyEntry ("to", .str next.name)).toList ++ t := by
    cases l with
    | nil => exact ⟨[], by simp⟩
    | cons kv l => exact ⟨_, by
        rw [List.map_cons, List.map_cons, String.intercalate_cons_cons, String.toList_append,
          String.toList_append, List.append_assoc]⟩
  obtain ⟨t, ht⟩ := hto
  refine ⟨t ++ ['\x7d'], ?_⟩
  rw [AuditEnv.stringifyDetail, List.map_cons, List.map_cons, String.intercalate_cons_cons,
    ← List.map_cons]
  simp only [String.toList_append, ht]
  simp [opening, AuditEnv.stringifyEntry, AuditEnv.stringify, jsonString_name,
    show AuditEnv.jsonString "from" = "\"from\"" by decide,
    show AuditEnv.jsonString "to" = "\"to\"" by decide]

end SettlementOS.Analysis
