import SettlementOS.Computation.Trails
import SettlementOS.Program.Admin

/-!
# Who may sign in, and who may move the password

Every session that is handed out, and every password that is written, follows from what its own
request was answered before: the row it compared the password with, and whose key it was shown.
-/

set_option autoImplicit false

namespace SettlementOS.Analysis.Admin

open SettlementOS.Computation Law Model Model.Admin Program.Admin

variable {crypto : Crypto} {env : AdminEnv} {r : Request} {past : List (Event adminEffects)}

/-- A key was looked up, and is this principal's. -/
def Identified (raw : String) (principal : Principal) (past : List (Event adminEffects)) : Prop :=
  (⟨.principalForKey raw, .ok (some principal)⟩ : Event adminEffects) ∈ past

/-- The row an environment asks for. -/
def Seeds (crypto : Crypto) (env : AdminEnv) (row : AdminCredential) : Prop :=
  ∃ salt : Bytes SALT_BYTES, row.id = ADMIN_CREDENTIAL_ID ∧
    row.username = trimString (env.adminUsername.getD "") ∧ row.username ≠ "" ∧
    env.adminPassword.getD "" ≠ "" ∧
    row.passwordHash = (crypto.scrypt (env.adminPassword.getD "") salt.bytes).hex ∧
    row.salt = salt.hex

/-- What a change needs before it is written: the caller is an operator, and the password it knows
opens the row it has read. -/
def Changes (crypto : Crypto) (r : Request) (id passwordHash salt : String) (record : AuditRecord)
    (past : List (Event adminEffects)) : Prop :=
  ∃ key current new principal row salt', r = .password key current (some new) ∧ new ≠ "" ∧
    id = ADMIN_CREDENTIAL_ID ∧ Identified (key.getD "") principal past ∧
    principal.role = .operator ∧ record = passwordChanged principal ∧
    (⟨.findUnique ADMIN_CREDENTIAL_ID, .ok (some row)⟩ : Event adminEffects) ∈ past ∧
    Opens crypto (current.getD "") row ∧
    passwordHash = (crypto.scrypt new salt'.bytes).hex ∧ salt = (salt' : Bytes SALT_BYTES).hex

/-- The law of a request. -/
def custody (crypto : Crypto) (env : AdminEnv) (r : Request) : Law adminEffects where
  Answers o a :=
    match o, a with
    | .hashPassword password salt, .ok derived => derived = crypto.scrypt password salt
    | _, _ => True
  Allows past e :=
    match e.stmt with
    | .create row => Seeds crypto env row
    | .changePassword id passwordHash salt record =>
      Changes crypto r id passwordHash salt record past
    | _ => True

/-- What a reply follows from. -/
def Grounds (crypto : Crypto) (env : AdminEnv) (r : Request) (reply : Reply)
    (past : List (Event adminEffects)) : Prop :=
  match reply, r with
  | .session s, .session username password => ∃ row principal,
      (⟨.findFirst, .ok (some row)⟩ : Event adminEffects) ∈ past ∧
        row.username = trimString (username.getD "") ∧ Opens crypto (password.getD "") row ∧
        Identified s.raw principal past ∧ principal.role = .operator ∧
        s = ⟨trimString (env.adminApiKey.getD ""), principal.role, principal.label⟩
  | .session s, .login apiKey => ∃ principal, Identified s.raw principal past ∧
      s = ⟨trimString (apiKey.getD ""), principal.role, principal.label⟩
  | .session _, .password .. => False
  | .changed, .password .. => ∃ id passwordHash salt record,
      (⟨.changePassword id passwordHash salt record, .ok ()⟩ : Event adminEffects) ∈ past
  | .changed, _ => False
  | .refused _, _ => True

/-- What follows a statement goes on from its answer. -/
theorem keeps_called {α : Type} {o : AdminStmt} {rest : o.Result → Operation α}
    {X : α → List (Event adminEffects) → Prop}
    (hallows : ∀ a, (custody crypto env r).Allows past ⟨o, a⟩)
    (hrest : ∀ x, (custody crypto env r).Answers o (.ok x) →
      (custody crypto env r).Keeps X (fun _ _ => True) (rest x) (⟨o, .ok x⟩ :: past)) :
    (custody crypto env r).Keeps X (fun _ _ => True) (call o >>= rest) past := by
  apply keeps_bind
  refine fun a ha => ⟨hallows a, keeps_ofExcept (fun x hx => ?_) fun _ _ => trivial⟩
  subst hx
  exact hrest x ha

/-! ## Checking a password -/

/-- Whoever is let in by a password knows what opens the row. -/
theorem keeps_verifyPassword {password : String} {row : AdminCredential} :
    (custody crypto env r).Keeps
      (fun ok later => past ⊆ later ∧ (ok = true → Opens crypto password row))
      (fun _ _ => True) (verifyPassword password row.passwordHash row.salt) past := by
  unfold verifyPassword
  split
  · exact ⟨List.Subset.refl _, fun h => Bool.noConfusion h⟩
  · rename_i hhex
    dsimp only
    split
    · exact ⟨List.Subset.refl _, fun h => Bool.noConfusion h⟩
    · simp only [Bool.or_eq_true, Bool.not_eq_true', not_or, Bool.not_eq_false] at hhex
      apply keeps_handle
      apply keeps_bind
      refine fun a ha => ⟨trivial, keeps_ofExcept (fun derived hderived => ?_) fun _ _ => ?_⟩
      · subst hderived
        have hscrypt : derived = crypto.scrypt password (bufferFrom row.salt) := ha
        split
        · exact ⟨List.subset_cons_self _ _, fun h => Bool.noConfusion h⟩
        · refine ⟨List.subset_cons_self _ _, fun hsame => ⟨hhex.1, hhex.2, ?_⟩⟩
          exact hscrypt ▸ of_decide_eq_true hsame
      · exact ⟨List.subset_cons_self _ _, fun h => Bool.noConfusion h⟩

/-- Creating the row from the environment. -/
theorem keeps_ensureAdminCredential :
    (custody crypto env r).Keeps (fun _ later => past ⊆ later) (fun _ _ => True)
      (ensureAdminCredential env) past := by
  refine keeps_called (fun _ => trivial) fun found _ => ?_
  cases found with
  | some row => exact List.subset_cons_self _ _
  | none =>
    dsimp only
    split
    · exact List.subset_cons_self _ _
    · rename_i hgiven
      obtain ⟨hname, hpassword⟩ := not_or.mp hgiven
      refine keeps_called (fun _ => trivial) fun salt _ => ?_
      refine keeps_called (fun _ => trivial) fun derived hderived => ?_
      have hscrypt : derived = crypto.scrypt (env.adminPassword.getD "") salt.bytes := hderived
      apply keeps_handle
      apply keeps_bind
      refine fun a _ => ⟨⟨salt, rfl, rfl, hname, hpassword, by rw [hscrypt], rfl⟩,
        keeps_ofExcept (fun _ _ => ?_) fun _ _ => ?_⟩
      · intro x hx
        simp [hx]
      · refine fun a _ => ⟨trivial, keeps_ofExcept (fun _ _ => ?_) fun _ _ => trivial⟩
        intro x hx
        simp [hx]

/-! ## The routes -/

/-- Whoever is let in knows what opens the row that was read. -/
theorem keeps_verifyAdminLogin {username password : String} :
    (custody crypto env r).Keeps
      (fun ok later => past ⊆ later ∧ (ok = true → ∃ row,
        (⟨.findFirst, .ok (some row)⟩ : Event adminEffects) ∈ later ∧ row.username = username ∧
          Opens crypto password row))
      (fun _ _ => True) (verifyAdminLogin username password) past := by
  refine keeps_called (fun _ => trivial) fun found _ => ?_
  cases found with
  | none =>
    refine keeps_called (fun _ => trivial) fun _ _ => ?_
    exact ⟨fun x hx => by simp [hx], fun h => Bool.noConfusion h⟩
  | some row =>
    apply keeps_bind
    refine keeps_mono keeps_verifyPassword ?_ fun _ _ _ => trivial
    rintro passOk later ⟨hlater, hopens⟩
    refine ⟨fun x hx => hlater (List.mem_cons_of_mem _ hx), fun hok => ?_⟩
    obtain ⟨huser, hpass⟩ := Bool.and_eq_true_iff.mp hok
    exact ⟨row, hlater List.mem_cons_self, (of_decide_eq_true huser).symm, hopens hpass⟩

/-- A session is resolved for an operator whose key was shown. -/
theorem keeps_resolveOperatorSessionKey :
    (custody crypto env r).Keeps (fun s later => past ⊆ later ∧ ∃ principal,
        Identified s.raw principal later ∧ principal.role = .operator ∧
          s = ⟨trimString (env.adminApiKey.getD ""), principal.role, principal.label⟩)
      (fun _ _ => True) (resolveOperatorSessionKey env) past := by
  unfold resolveOperatorSessionKey
  dsimp only
  split
  · trivial
  · refine keeps_called (fun _ => trivial) fun found _ => ?_
    cases found with
    | none => trivial
    | some principal =>
      dsimp only
      split
      · trivial
      · rename_i hrole
        exact ⟨List.subset_cons_self _ _, principal, List.mem_cons_self, not_not.mp hrole, rfl⟩

/-- What is let through by `beginWrite`. -/
theorem keeps_gated {rest : Operation Reply} (h : ∀ later, past ⊆ later →
      (custody crypto env r).Keeps (Grounds crypto env r) (fun _ _ => True) rest later) :
    (custody crypto env r).Keeps (Grounds crypto env r) (fun _ _ => True) (gated rest) past := by
  refine keeps_called (fun _ => trivial) fun refused _ => ?_
  cases refused with
  | some error => trivial
  | none => exact h _ (List.subset_cons_self _ _)

/-- A session by password has its grounds. -/
theorem keeps_postSession {username password : Option String} :
    (custody crypto env (.session username password)).Keeps
      (Grounds crypto env (.session username password)) (fun _ _ => True)
      (postSession env username password) past := by
  apply keeps_gated
  intro past _
  refine keeps_catch (Y := fun _ _ => True) ?_ fun _ _ _ => trivial
  unfold signIn
  split
  · trivial
  · apply keeps_seq keeps_ensureAdminCredential
    intro found past _
    cases found with
    | none => trivial
    | some _ =>
      apply keeps_seq keeps_verifyAdminLogin
      rintro ok past ⟨-, hmatched⟩
      cases ok with
      | false => trivial
      | true =>
        apply keeps_seq keeps_resolveOperatorSessionKey
        rintro session later ⟨hlater, principal, hkey, hrole, hsession⟩
        obtain ⟨row, hread, huser, hopens⟩ := hmatched rfl
        exact ⟨row, principal, hlater hread, huser, hopens, hkey, hrole, hsession⟩

/-- Whose key it is was looked up. -/
theorem keeps_authenticate {raw : String} :
    (custody crypto env r).Keeps (fun found later => past ⊆ later ∧ ∀ principal,
      found = some principal → Identified raw principal later) (fun _ _ => True)
      (authenticate raw) past := by
  unfold authenticate
  split
  · exact ⟨List.Subset.refl _, fun _ h => by cases h⟩
  · refine fun a _ => ⟨trivial, keeps_ofExcept (fun found hfound => ?_) fun _ _ => trivial⟩
    subst hfound
    exact ⟨List.subset_cons_self _ _, fun principal h => h ▸ List.mem_cons_self⟩

/-- A session by key has its grounds. -/
theorem keeps_postLogin {apiKey : Option String} :
    (custody crypto env (.login apiKey)).Keeps (Grounds crypto env (.login apiKey))
      (fun _ _ => True) (postLogin apiKey) past := by
  apply keeps_gated
  intro past _
  refine keeps_bind (keeps_mono keeps_authenticate ?_ fun _ _ _ => trivial)
  rintro found past ⟨-, hfound⟩
  cases found with
  | none => trivial
  | some principal => exact ⟨principal, hfound principal rfl, rfl⟩

/-- An operator who was identified changes the password. -/
theorem keeps_changePassword {key current new : Option String} {principal : Principal}
    (hkey : Identified (key.getD "") principal past) (hrole : principal.role = .operator) :
    (custody crypto env (.password key current new)).Keeps
      (Grounds crypto env (.password key current new)) (fun _ _ => True)
      (changePassword principal (current.getD "") (new.getD "")) past := by
  unfold changePassword
  split
  · trivial
  · rename_i hnew
    obtain ⟨text, rfl⟩ : ∃ text, new = some text := by
      cases new with
      | none => exact absurd rfl hnew
      | some text => exact ⟨text, rfl⟩
    refine keeps_called (fun _ => trivial) fun found _ => ?_
    cases found with
    | none => trivial
    | some row =>
      apply keeps_seq keeps_verifyPassword
      rintro ok past' ⟨hpast, hopens⟩
      cases ok with
      | false => trivial
      | true =>
        have hread : (⟨.findUnique ADMIN_CREDENTIAL_ID, .ok (some row)⟩ : Event adminEffects) ∈
            past' := hpast List.mem_cons_self
        have hcaller : Identified (key.getD "") principal past' :=
          hpast (List.mem_cons_of_mem _ hkey)
        refine keeps_called (fun _ => trivial) fun salt _ => ?_
        refine keeps_called (fun _ => trivial) fun derived hderived => ?_
        have hscrypt : derived = crypto.scrypt text salt.bytes := hderived
        refine keeps_called (fun _ => ⟨key, current, text, principal, row, salt, rfl, hnew, rfl,
          List.mem_cons_of_mem _ (List.mem_cons_of_mem _ hcaller), hrole, rfl,
          List.mem_cons_of_mem _ (List.mem_cons_of_mem _ hread), hopens rfl,
          congrArg Bytes.hex hscrypt, rfl⟩) fun _ _ => ?_
        exact ⟨_, _, _, _, List.mem_cons_self⟩

/-- A change of the password has its grounds. -/
theorem keeps_postPassword {key current new : Option String} :
    (custody crypto env (.password key current new)).Keeps
      (Grounds crypto env (.password key current new)) (fun _ _ => True)
      (postPassword key current new) past := by
  refine keeps_bind (keeps_mono keeps_authenticate ?_ fun _ _ _ => trivial)
  rintro caller past ⟨-, hcaller⟩
  cases caller with
  | none => trivial
  | some principal =>
    cases hrequired : requireRole principal [.operator] with
    | error e =>
      dsimp only
      rw [hrequired]
      trivial
    | ok u =>
      dsimp only
      rw [hrequired]
      have hrole : principal.role = .operator :=
        List.mem_singleton.mp (role_of_requireRole hrequired)
      apply keeps_gated
      intro later hlater
      refine keeps_catch (Y := fun _ _ => True) ?_ fun _ _ _ => trivial
      exact keeps_changePassword (hlater (hcaller principal rfl)) hrole

/-- Every request keeps the law, and replies on grounds. -/
theorem serve_custody (r : Request) :
    (custody crypto env r).Keeps (Grounds crypto env r) (fun _ _ => True) (serve env r) past := by
  cases r with
  | session username password => exact keeps_postSession
  | login apiKey => exact keeps_postLogin
  | password key current new => exact keeps_postPassword

/-! ## What a statement does to the rows -/

section

variable {o : AdminStmt} {c : AdminChoice} {s s' : AdminState} {a : Except AdminErr o.Result}

/-- A new row: there was none with its id. -/
def Created (s s' : AdminState) (row : AdminCredential) : Prop :=
  (∀ old ∈ s.credentials, old.id ≠ row.id) ∧ s'.credentials = s.credentials ++ [row] ∧
    s'.events = s.events

/-- The password of a row is changed, with its event. -/
def Rewritten (s s' : AdminState) (id passwordHash salt : String) (record : AuditRecord) : Prop :=
  s'.credentials = s.credentials.map (fun row =>
    if row.id = id then { row with passwordHash := passwordHash, salt := salt } else row) ∧
    s'.events = s.events ++ [record]

/-- What statements do to the rows. -/
inductive Writes (o : AdminStmt) (s s' : AdminState) : Prop where
  | none (hrows : s'.credentials = s.credentials) (hevents : s'.events = s.events)
  | created (row : AdminCredential) (ho : o = .create row) (h : Created s s' row)
  | rewritten (id passwordHash salt : String) (record : AuditRecord)
      (ho : o = .changePassword id passwordHash salt record)
      (h : Rewritten s s' id passwordHash salt record)

/-- A statement that is carried out writes no more than it is meant to. -/
theorem writes_of_perform : Writes o s (perform crypto o c s).2 := by
  cases o with
  | create row =>
    simp only [perform]
    split
    · exact .none rfl rfl
    · rename_i hnone
      refine .created row rfl ⟨fun old hold hid => hnone ?_, rfl, rfl⟩
      exact List.any_eq_true.mpr ⟨old, hold, by simp [hid]⟩
  | changePassword id passwordHash salt record =>
    simp only [perform]
    split
    · exact .rewritten id passwordHash salt record rfl ⟨rfl, rfl⟩
    · exact .none rfl rfl
  | _ => exact .none rfl rfl

/-- A statement that was answered has been carried out, or threw. -/
theorem exec_cases (h : exec crypto o c s = (a, s')) :
    s' = s ∧ (∃ e, a = .error e) ∨ s' = (perform crypto o c s).2 ∧
      (a = (perform crypto o c s).1 ∨ ∃ e, a = .error e) := by
  unfold exec at h
  split at h
  · cases h
    exact .inl ⟨rfl, _, rfl⟩
  · cases h
    exact .inr ⟨rfl, .inr ⟨_, rfl⟩⟩
  · exact .inr ⟨(congrArg Prod.snd h).symm, .inl (congrArg Prod.fst h).symm⟩

/-- So it is whatever becomes of its answer. -/
theorem writes_of_exec (h : exec crypto o c s = (a, s')) : Writes o s s' := by
  rcases exec_cases h with ⟨rfl, -⟩ | ⟨rfl, -⟩
  · exact .none rfl rfl
  · exact writes_of_perform

/-- A statement answers as the law has it. -/
theorem answers_of_exec (h : exec crypto o c s = (a, s')) : (custody crypto env r).Answers o a := by
  cases o with
  | hashPassword password salt =>
    rcases exec_cases h with ⟨-, e, rfl⟩ | ⟨-, rfl | ⟨e, rfl⟩⟩
    · trivial
    · rfl
    · trivial
  | _ => trivial

/-- What is answered was found. -/
theorem perform_of_exec {x : o.Result} (h : exec crypto o c s = (.ok x, s')) :
    (perform crypto o c s).1 = .ok x := by
  rcases exec_cases h with ⟨-, e, he⟩ | ⟨-, ha | ⟨e, he⟩⟩
  · cases he
  · exact ha.symm
  · cases he

/-- A row that is found is one of the table's. -/
theorem found_of_exec {row : AdminCredential}
    (h : exec crypto (.findUnique ADMIN_CREDENTIAL_ID) c s = (.ok (some row), s')) :
    row ∈ s.credentials :=
  List.mem_of_find?_eq_some (Except.ok.inj (perform_of_exec h))

/-- The first row is one of the table's. -/
theorem first_of_exec {row : AdminCredential}
    (h : exec crypto .findFirst c s = (.ok (some row), s')) : row ∈ s.credentials :=
  List.mem_of_mem_head? (Except.ok.inj (perform_of_exec h))

/-- The principal of a key is the one its hash is stored for. -/
theorem principal_of_exec {raw : String} {principal : Principal}
    (h : exec crypto (.principalForKey raw) c s = (.ok (some principal), s')) :
    principalForKey s.apiKeys (crypto.hashKey raw) = some principal :=
  Except.ok.inj (perform_of_exec h)

end

end SettlementOS.Analysis.Admin
