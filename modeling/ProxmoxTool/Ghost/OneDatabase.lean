import ProxmoxTool.Ghost.Aborted
import ProxmoxTool.Lib.MySql
import ProxmoxTool.Lib.Stateful

/-!
# The grant on Ghost's database

`_ensure_ghost_db_privileges` against a MySQL server: what its commands do to the accounts and their privileges, and what a second run does.

The name of the database is written into the `GRANT` without quotes, so the server takes it for a pattern, in which `_` stands for any
character.  And `$` in the test of the name lets a newline at the end pass, which the server takes for a blank.  The grant is on one database just
if the name has neither, or is none that goes without quotes (`one_database_iff`).
-/

namespace ProxmoxTool.Ghost

open MySql

/-- A command is run and answered, or fails, after it has run or before. -/
inductive Delivery
  | answered
  | failed (ran : Bool) (r : Option Reply) (h : ∀ reply ∈ r, reply.code ≠ 0)

/-- What the commands meet, apart from the server. -/
structure Surroundings where
  config : Option Reply
  host : Option Reply
  onShow : Delivery := .answered
  onGrant : Delivery := .answered
  others : ∀ c, Answer c

/-- The server, and the commands of the client so far. -/
structure Machine where
  server : Server
  issued : List Site := []

def localhost : Text := "localhost".toList

def showGrantsSql (user : Text) : Text := "SHOW GRANTS FOR '".toList ++ user ++ "'@'localhost'".toList

def grantSql (db user : Text) : Text :=
  "GRANT ALL PRIVILEGES ON ".toList ++ db ++ ".* TO '".toList ++ user ++ "'@'localhost'; FLUSH PRIVILEGES;".toList

def mysqlCommand (sql : Text) : Text := "mysql -u root -e \"".toList ++ (sql ++ "\"".toList)

section

variable (py : Python) (δ : Dialect) (env : Surroundings)

def deliver (d : Delivery) (sql : Text) (site : Site) : StateM Machine (Option Reply) := fun m =>
  let r := runCommand δ (mysqlCommand sql) m.server
  match d with
  | .answered => (some ⟨r.out, r.err, r.code⟩, ⟨r.server, m.issued ++ [site]⟩)
  | .failed ran reply _ => (reply, ⟨if ran then r.server else m.server, m.issued ++ [site]⟩)

def handle : ∀ c, StateM Machine (Answer c)
  | .execute .dbConfig => pure env.config
  | .execute (.dbHost _) => pure env.host
  | .execute (.showGrants user) => deliver δ env.onShow (showGrantsSql user) (.showGrants user)
  | .execute (.grant db user) => deliver δ env.onGrant (grantSql db user) (.grant db user)
  | c => pure (env.others c)

def perform {α : Type} (x : Step α) (m : Machine) : Except Unit α × Machine := Script.run (handle δ env) x.run m

def check (s : Server) : Except Unit Bool × Machine := perform δ env (ensureGhostDbPrivileges py) ⟨s, []⟩

end

/-- Whatever the server holds: the user has no other privileges on other databases than before, no account is created, and after a grant that
succeeds a second run issues none. -/
def OneDatabase (py : Python) (δ : Dialect) (config : Reply) (db user : Text) : Prop :=
  ∀ (env env' : Surroundings) (s : Server), env.config = some config → env'.config = some config →
    let first := check py δ env s
    (∀ d ∈ s.databases, d ≠ db → first.2.server.privileges δ (user, localhost) d = s.privileges δ (user, localhost) d) ∧
      first.2.server.accounts = s.accounts ∧
      (first.1 = .ok true → .grant db user ∈ first.2.issued →
        ∀ db' user', .grant db' user' ∉ (check py δ env' first.2.server).2.issued)

/-! ### Names -/

/-- What `_DB_IDENT_RE` matches. -/
def Ident (t : Text) : Prop := line t ≠ [] ∧ ∀ c ∈ line t, c.isAlphanum = true ∨ c = '_'

theorem ident_of_isDbIdent {s : Str} (h : isDbIdent (.str s) = some true) : Ident (textOf s) := by
  have hident : (!(line (textOf s)).isEmpty && (line (textOf s)).all fun c => c.isAlphanum || decide (c = '_')) = true :=
    Option.some.inj h
  rw [Bool.and_eq_true, Bool.not_eq_true', List.isEmpty_eq_false_iff] at hident
  refine ⟨hident.1, fun c hc => ?_⟩
  have hchar := List.all_eq_true.1 hident.2 c hc
  rwa [Bool.or_eq_true, decide_eq_true_iff] at hchar

theorem ident_of_account {py : Python} {config : Reply} {db user : Text} (h : account py config = some (some (db, user))) :
    Ident db ∧ Ident user := by
  unfold account at h
  split at h
  · split at h
    · rename_i hidents
      cases h
      exact ⟨ident_of_isDbIdent hidents.1, ident_of_isDbIdent hidents.2⟩
    · cases h
  · split at h
    · cases h
    · cases h
  · cases h
  · cases h

/-- A newline at the end is all that a name may have beside its line. -/
theorem line_append (t : Text) : t = line t ++ if t.getLast? = some '\n' then ['\n'] else [] := by
  unfold line
  split
  · rename_i hlast
    obtain ⟨u, rfl⟩ := List.getLast?_eq_some_iff.1 hlast
    rw [List.dropLast_concat]
  · rw [List.append_nil]

theorem line_eq_self {t : Text} (h : t.getLast? ≠ some '\n') : line t = t := if_neg h

theorem Ident.mem {t : Text} (ht : Ident t) {c : Char} (hc : c ∈ t) : c.isAlphanum = true ∨ c = '_' ∨ c = '\n' := by
  rw [line_append t, List.mem_append] at hc
  rcases hc with hc | hc
  · exact (ht.2 c hc).imp_right .inl
  · split at hc
    · exact .inr (.inr (List.mem_singleton.1 hc))
    · cases hc

theorem isAlphanum_ne {c d : Char} (hc : c.isAlphanum = true) (hd : d.isAlphanum = false) : c ≠ d := by
  rintro rfl
  rw [hc] at hd
  cases hd

/-- Such a name has no character that means something in a statement or to the shell. -/
theorem Ident.ne {t : Text} (ht : Ident t) {c d : Char} (hc : c ∈ t) (hd : d.isAlphanum = false) (hline : d ≠ '_' ∧ d ≠ '\n') : c ≠ d := by
  rcases ht.mem hc with halnum | rfl | rfl
  · exact isAlphanum_ne halnum hd
  · exact hline.1.symm
  · exact hline.2.symm

theorem Ident.ordinary {t : Text} (ht : Ident t) : ∀ c ∈ t, Posix.isDoubleOrdinary c = true ∧ c ≠ '\x00' := by
  intro c hc
  have hquote : c ≠ '"' := ht.ne hc (by decide) (by decide)
  have hescape : c ≠ '\\' := ht.ne hc (by decide) (by decide)
  have hdollar : c ≠ '$' := ht.ne hc (by decide) (by decide)
  have htick : c ≠ '`' := ht.ne hc (by decide) (by decide)
  refine ⟨?_, ht.ne hc (by decide) (by decide)⟩
  simp [Posix.isDoubleOrdinary, hquote, hescape, hdollar, htick]

theorem Ident.quotable {t : Text} (ht : Ident t) : ∀ c ∈ t, c ≠ '\'' ∧ c ≠ '\\' :=
  fun _ hc => ⟨ht.ne hc (by decide) (by decide), ht.ne hc (by decide) (by decide)⟩

theorem quotable_localhost : ∀ c ∈ localhost, c ≠ '\'' ∧ c ≠ '\\' := forall_mem_of_all (by decide)

/-! ### The statements on the server -/

section

variable (δ : Dialect)

theorem runCommand_mysqlCommand {sql : Text} (h : ∀ c ∈ sql, Posix.isDoubleOrdinary c = true ∧ c ≠ '\x00') (s : Server) :
    runCommand δ (mysqlCommand sql) s = exec δ sql s := by
  unfold runCommand mysqlCommand
  rw [statementOf_text h]

theorem ordinary_append {t u : Text} (ht : ∀ c ∈ t, Posix.isDoubleOrdinary c = true ∧ c ≠ '\x00')
    (hu : ∀ c ∈ u, Posix.isDoubleOrdinary c = true ∧ c ≠ '\x00') : ∀ c ∈ t ++ u, Posix.isDoubleOrdinary c = true ∧ c ≠ '\x00' := by
  intro c hc
  rcases List.mem_append.1 hc with hc | hc
  · exact ht c hc
  · exact hu c hc

theorem runCommand_showGrants {user : Text} (huser : Ident user) (s : Server) :
    runCommand δ (mysqlCommand (showGrantsSql user)) s =
      if (user, localhost) ∈ s.accounts then ⟨s, s.grantsText (user, localhost), [], 0⟩
      else refused s "ERROR 1141 (42000): There is no such grant defined".toList := by
  have hordinary : ∀ c ∈ showGrantsSql user, Posix.isDoubleOrdinary c = true ∧ c ≠ '\x00' :=
    ordinary_append (ordinary_append (forall_mem_of_all (by decide)) huser.ordinary) (forall_mem_of_all (by decide))
  have htext : showGrantsSql user = "SHOW GRANTS FOR ".toList ++ accountText (user, localhost) := by
    have hfirst : "SHOW GRANTS FOR '".toList = "SHOW GRANTS FOR ".toList ++ ['\''] := by decide
    have hlast : "'@'localhost'".toList = '\'' :: ('@' :: '\'' :: (localhost ++ ['\''])) := by decide
    unfold showGrantsSql accountText
    rw [hfirst, hlast]
    simp only [List.append_assoc, List.cons_append, List.nil_append]
  rw [runCommand_mysqlCommand δ hordinary, htext]
  unfold exec
  rw [readShowGrants_text huser.quotable quotable_localhost]
  rfl

theorem runCommand_grant {db user : Text} (hdb : Ident db) (huser : Ident user) (s : Server) :
    runCommand δ (mysqlCommand (grantSql db user)) s =
      if δ.bare (line db) = false then refused s syntaxError
      else if (user, localhost) ∈ s.accounts then ⟨{ s with entries := grantAll (user, localhost) (line db) s.entries }, [], [], 0⟩
      else if δ.createsAccounts then
        ⟨{ s with accounts := s.accounts ++ [(user, localhost)], entries := grantAll (user, localhost) (line db) s.entries }, [], [], 0⟩
      else refused s "ERROR 1410 (42000): You are not allowed to create a user with GRANT".toList := by
  have hordinary : ∀ c ∈ grantSql db user, Posix.isDoubleOrdinary c = true ∧ c ≠ '\x00' :=
    ordinary_append (ordinary_append (ordinary_append (ordinary_append (forall_mem_of_all (by decide)) hdb.ordinary)
      (forall_mem_of_all (by decide))) huser.ordinary) (forall_mem_of_all (by decide))
  have htext : grantSql db user = "GRANT ALL PRIVILEGES ON ".toList ++ (line db ++ ((if db.getLast? = some '\n' then ['\n'] else []) ++
      (".* TO ".toList ++ (accountText (user, localhost) ++ "; FLUSH PRIVILEGES;".toList)))) := by
    have hto : ".* TO '".toList = ".* TO ".toList ++ ['\''] := by decide
    have hlast : "'@'localhost'; FLUSH PRIVILEGES;".toList =
        '\'' :: ('@' :: '\'' :: (localhost ++ '\'' :: "; FLUSH PRIVILEGES;".toList)) := by decide
    unfold grantSql accountText
    rw [hto, hlast]
    conv_lhs => rw [line_append db]
    simp only [List.append_assoc, List.cons_append, List.nil_append]
  have hname : ∀ c ∈ line db, isNameChar c = true := by
    intro c hc
    rcases hdb.2 c hc with halnum | rfl
    · simp [isNameChar, halnum]
    · rfl
  have hblanks : ∀ c ∈ (if db.getLast? = some '\n' then ['\n'] else []), isNameChar c = false ∧ isBlank c = true := by
    intro c hc
    split at hc
    · rw [List.mem_singleton.1 hc]
      exact ⟨rfl, rfl⟩
    · cases hc
  rw [runCommand_mysqlCommand δ hordinary, htext]
  unfold exec
  rw [readShowGrants_grantAll, readGrantAll_text hname hblanks huser.quotable quotable_localhost]
  rfl

end

/-! ### The check -/

section

variable {δ : Dialect} {env : Surroundings} {py : Python} {config : Reply} {db user : Text} {α β : Type}

theorem perform_bind (x : Step α) (f : α → Step β) (m : Machine) :
    perform δ env (x >>= f) m = match perform δ env x m with
      | (.ok a, m') => perform δ env (f a) m'
      | (.error e, m') => (.error e, m') := by
  unfold perform
  rw [ExceptT.run_bind, Script.run_bind, Stateful.stateM_bind_run]
  rcases Script.run (handle δ env) x.run m with ⟨⟨e⟩ | ⟨a⟩, m'⟩
  · rfl
  · rfl

theorem perform_ask (site : Site) (m : Machine) :
    perform δ env (ask site) m = match handle δ env (.execute site) m with
      | (some r, m') => (.ok r, m')
      | (none, m') => (.error (), m') := by
  unfold ask
  rw [perform_bind]
  have hissue : perform δ env (issue (.execute site)) m =
      (.ok (handle δ env (.execute site) m).1, (handle δ env (.execute site) m).2) := rfl
  rw [hissue]
  rcases handle δ env (.execute site) m with ⟨⟨⟩ | ⟨r⟩, m'⟩
  · rfl
  · rfl

theorem perform_pure (a : α) (m : Machine) : perform δ env (pure a) m = (.ok a, m) := rfl

/-- A check that grants: the server is on the guest, the grants are read, and they lack all privileges. -/
structure Granted (env : Surroundings) (db user : Text) (s : Server) : Prop where
  local' : ∃ r ∈ env.host, resolveGhostDbHost r.out (r.code = 0) ∈ localDbHosts
  answered : env.onShow = .answered
  account : (user, localhost) ∈ s.accounts
  lacking : hasAll db (s.grantsText (user, localhost)) = false

theorem deliver_showGrants (huser : Ident user) (d : Delivery) (m : Machine) :
    ∃ r, deliver δ d (showGrantsSql user) (.showGrants user) m = (r, ⟨m.server, m.issued ++ [.showGrants user]⟩) ∧
      ((∃ reply ∈ r, reply.code = 0) ↔ d = .answered ∧ (user, localhost) ∈ m.server.accounts) ∧
      ∀ reply ∈ r, reply.code = 0 → reply.out = m.server.grantsText (user, localhost) := by
  unfold deliver
  dsimp only
  rw [runCommand_showGrants δ huser]
  have hserver : (if (user, localhost) ∈ m.server.accounts then (⟨m.server, m.server.grantsText (user, localhost), [], 0⟩ : Result)
      else refused m.server "ERROR 1141 (42000): There is no such grant defined".toList).server = m.server := by
    split <;> rfl
  cases d with
  | answered =>
    refine ⟨_, by rw [hserver], ?_⟩
    by_cases haccount : (user, localhost) ∈ m.server.accounts
    · rw [if_pos haccount]
      refine ⟨⟨fun _ => ⟨rfl, haccount⟩, fun _ => ⟨_, rfl, rfl⟩⟩, fun reply hreply _ => ?_⟩
      cases hreply
      rfl
    · rw [if_neg haccount]
      have hcode : ∀ reply ∈ some (⟨(refused m.server "ERROR 1141 (42000): There is no such grant defined".toList).out,
          (refused m.server "ERROR 1141 (42000): There is no such grant defined".toList).err, 1⟩ : Reply), reply.code ≠ 0 := by
        intro reply hreply
        cases hreply
        exact Int.one_ne_zero
      refine ⟨⟨fun ⟨reply, hreply, hzero⟩ => absurd hzero (hcode reply hreply), fun h => absurd h.2 haccount⟩, fun reply hreply hzero => ?_⟩
      exact absurd hzero (hcode reply hreply)
  | failed ran r hfailed =>
    refine ⟨r, ?_, ⟨fun ⟨reply, hreply, hzero⟩ => absurd hzero (hfailed reply hreply), nofun⟩, fun reply hreply hzero => ?_⟩
    · dsimp only
      rw [hserver, ite_self]
    · exact absurd hzero (hfailed reply hreply)

/-- A check grants, or leaves the server alone. -/
theorem check_cases (hacc : account py config = some (some (db, user))) (hconfig : env.config = some config) (s : Server) :
    (¬Granted env db user s ∧ (check py δ env s).2.server = s ∧ ∀ db' user', .grant db' user' ∉ (check py δ env s).2.issued) ∨
      Granted env db user s ∧ check py δ env s =
        match deliver δ env.onGrant (grantSql db user) (.grant db user) ⟨s, [.showGrants user]⟩ with
          | (some r, m) => (.ok (decide (r.code = 0)), m)
          | (none, m) => (.error (), m) := by
  obtain ⟨-, huser⟩ := ident_of_account hacc
  have hnone : ∀ db' user', Site.grant db' user' ∉ ([] : List Site) := fun _ _ => List.not_mem_nil
  have hshown : ∀ db' user', Site.grant db' user' ∉ [Site.showGrants user] := fun _ _ hmem => nomatch List.mem_singleton.1 hmem
  obtain ⟨out, hout⟩ : ∃ out, check py δ env s = out := ⟨_, rfl⟩
  have hread : handle δ env (.execute .dbConfig) ⟨s, []⟩ = (some config, ⟨s, []⟩) := congrArg (·, (⟨s, []⟩ : Machine)) hconfig
  have hhost : handle δ env (.execute (.dbHost false)) ⟨s, []⟩ = (env.host, ⟨s, []⟩) := rfl
  obtain ⟨shown, hshow, hanswered, htext⟩ := deliver_showGrants (δ := δ) huser env.onShow ⟨s, []⟩
  have hshow' : handle δ env (.execute (.showGrants user)) ⟨s, []⟩ = (shown, ⟨s, [.showGrants user]⟩) := hshow
  rw [hout]
  unfold check ensureGhostDbPrivileges at hout
  rw [perform_bind, perform_ask, hread] at hout
  dsimp only at hout
  rw [hacc] at hout
  dsimp only at hout
  rw [perform_bind, ghostDbHost, perform_bind, perform_ask, hhost] at hout
  cases hresolved : env.host with
  | none =>
    rw [hresolved] at hout
    subst hout
    refine .inl ⟨fun hgranted => ?_, rfl, hnone⟩
    obtain ⟨r, hr, -⟩ := hgranted.local'
    rw [hresolved] at hr
    cases hr
  | some r =>
    rw [hresolved] at hout
    dsimp only at hout
    rw [perform_pure] at hout
    dsimp only at hout
    by_cases hlocal : resolveGhostDbHost r.out (decide (r.code = 0)) ∈ localDbHosts
    · rw [if_neg (not_not.2 hlocal), perform_bind, perform_ask, hshow'] at hout
      by_cases hzero : ∃ reply ∈ shown, reply.code = 0
      · obtain ⟨hdelivered, haccount⟩ := hanswered.1 hzero
        obtain ⟨grants, rfl, hcode⟩ := hzero
        dsimp only at hout
        rw [if_neg (not_not.2 hcode), htext grants rfl hcode] at hout
        cases hall : hasAll db (s.grantsText (user, localhost)) with
        | true =>
          rw [hall, if_pos rfl] at hout
          subst hout
          refine .inl ⟨fun hgranted => ?_, rfl, hshown⟩
          rw [hgranted.lacking] at hall
          cases hall
        | false =>
          have hgrant : handle δ env (.execute (.grant db user)) ⟨s, [.showGrants user]⟩ =
              deliver δ env.onGrant (grantSql db user) (.grant db user) ⟨s, [.showGrants user]⟩ := rfl
          rw [hall, if_neg Bool.false_ne_true, perform_bind, perform_ask, hgrant] at hout
          refine .inr ⟨⟨⟨r, hresolved, hlocal⟩, hdelivered, haccount, hall⟩, hout.symm.trans ?_⟩
          rcases deliver δ env.onGrant (grantSql db user) (.grant db user) ⟨s, [.showGrants user]⟩ with ⟨⟨⟩ | ⟨r⟩, m⟩
          · rfl
          · rfl
      · have hleft : out.2 = ⟨s, [.showGrants user]⟩ := by
          cases shown with
          | none =>
            subst hout
            rfl
          | some grants =>
            have hcode : grants.code ≠ 0 := fun hcode => hzero ⟨grants, rfl, hcode⟩
            dsimp only at hout
            rw [if_pos hcode] at hout
            subst hout
            rfl
        rw [hleft]
        exact .inl ⟨fun hgranted => hzero (hanswered.2 ⟨hgranted.answered, hgranted.account⟩), rfl, hshown⟩
    · rw [if_pos hlocal] at hout
      subst hout
      refine .inl ⟨fun hgranted => ?_, rfl, hnone⟩
      obtain ⟨r', hr', hlocal'⟩ := hgranted.local'
      rw [hresolved] at hr'
      cases hr'
      exact hlocal hlocal'

end

/-! ### One database -/

section

variable {δ : Dialect} {env : Surroundings} {py : Python} {config : Reply} {db user : Text}

/-- A `GRANT` to an account that exists has no effect and fails, or grants all privileges on the pattern. -/
theorem deliver_grant (hdb : Ident db) (huser : Ident user) (d : Delivery) {m : Machine} (haccount : (user, localhost) ∈ m.server.accounts) :
    ((deliver δ d (grantSql db user) (.grant db user) m).2.server = m.server ∧
        ∀ r ∈ (deliver δ d (grantSql db user) (.grant db user) m).1, r.code ≠ 0) ∨
      δ.bare (line db) = true ∧ (deliver δ d (grantSql db user) (.grant db user) m).2.server =
        { m.server with entries := grantAll (user, localhost) (line db) m.server.entries } := by
  unfold deliver
  dsimp only
  rw [runCommand_grant δ hdb huser]
  cases hbare : δ.bare (line db) with
  | false =>
    rw [if_pos rfl]
    refine .inl ?_
    cases d with
    | answered =>
      refine ⟨rfl, fun r hr => ?_⟩
      cases hr
      exact Int.one_ne_zero
    | failed ran r hfailed => exact ⟨ite_self _, hfailed⟩
  | true =>
    rw [if_neg (Ne.symm Bool.false_ne_true), if_pos haccount]
    cases d with
    | answered => exact .inr ⟨rfl, rfl⟩
    | failed ran r hfailed =>
      cases ran with
      | false => exact .inl ⟨rfl, hfailed⟩
      | true => exact .inr ⟨rfl, rfl⟩

theorem Ident.plain {t : Text} (ht : Ident t) (hline : line t = t) : ∀ c ∈ t, c.isAlphanum = true ∨ c = '_' :=
  fun c hc => ht.2 c (hline.symm ▸ hc)

/-- All privileges on the database are found in what the server shows of them. -/
theorem hasAll_grantsText (hdb : Ident db) (hline : line db = db) (huser : Ident user) {entries : List Entry}
    (h : ∃ e ∈ entries, e.account = (user, localhost) ∧ e.pattern = db ∧ e.privileges = allPrivileges) (s : Server) :
    hasAll db (Server.grantsText { s with entries := entries } (user, localhost)) = true := by
  obtain ⟨e, he, haccount, rfl, hprivileges⟩ := h
  have hrow : escapeValue e.row ∈ splitLines (Server.grantsText { s with entries := entries } (user, localhost)) := by
    refine mem_splitLines_printLines (forall_mem_escapeValue ⟨rfl, rfl, rfl, rfl⟩ fun c hc hnewline => ?_)
      (List.mem_cons_of_mem _ (List.mem_map_of_mem ?_))
    · have hname : ∀ t : Text, Ident t → ∀ c ∈ t, isLineEnd c = false ∨ c = '\n' := by
        intro t ht c hc
        rcases ht.mem hc with halnum | rfl | rfl
        · exact .inl (isLineEnd_of_between (between_of_isAlphanum halnum))
        · exact .inl rfl
        · exact .inr rfl
      have hfixed : ∀ t : Text, (t.all fun c => !isLineEnd c) = true → ∀ c ∈ t, isLineEnd c = false ∨ c = '\n' := by
        intro t ht c hc
        exact .inl (Bool.not_eq_true' _ ▸ List.all_eq_true.1 ht c hc)
      have hquoted : ∀ c ∈ quoteName e.pattern, isLineEnd c = false ∨ c = '\n' := by
        rw [quoteName_eq fun hmem => hdb.ne hmem (by decide) (by decide) rfl]
        intro c hc
        rw [List.mem_cons, List.mem_append, List.mem_singleton] at hc
        rcases hc with rfl | hc | rfl
        · exact .inl rfl
        · exact hname _ hdb c hc
        · exact .inl rfl
      unfold Entry.row at hc
      rw [hprivileges, haccount] at hc
      exact (forall_mem_grantRow (hfixed _ (by decide)) (hfixed _ (by decide)) hquoted (hname _ huser)
        (hfixed _ (by decide)) c hc).resolve_right hnewline
    · exact haccount ▸ mem_grantRows (s := { s with entries := entries }) he
  have hhas : hasSub ("ALL PRIVILEGES ON `".toList ++ e.pattern ++ "`.*".toList) (escapeValue e.row) = true := by
    refine hasSub_row hprivileges fun c hc => ?_
    have hplain : c.isAlphanum = true ∨ c = '_' := hdb.plain hline c hc
    refine ⟨?_, hdb.ne hc (by decide) (by decide), hdb.ne hc (by decide) (by decide), hdb.ne hc (by decide) (by decide),
      hdb.ne hc (by decide) (by decide)⟩
    rintro rfl
    rcases hplain with halnum | hunder
    · cases halnum
    · cases hunder
  exact List.any_eq_true.2 ⟨_, hrow, Bool.or_eq_true_iff.2 (.inr hhas)⟩

theorem oneDatabase_of (hacc : account py config = some (some (db, user)))
    (h : δ.bare (line db) = false ∨ '_' ∉ db ∧ db.getLast? ≠ some '\n') : OneDatabase py δ config db user := by
  obtain ⟨hdb, huser⟩ := ident_of_account hacc
  intro env env' s hconfig hconfig'
  dsimp only
  rcases check_cases hacc hconfig s with ⟨-, hserver, hissued⟩ | ⟨hgranted, hcheck⟩
  · rw [hserver]
    exact ⟨fun _ _ _ => rfl, rfl, fun _ hgrant => absurd hgrant (hissued db user)⟩
  · rcases deliver_grant (δ := δ) hdb huser env.onGrant (m := ⟨s, [.showGrants user]⟩) hgranted.account with ⟨hserver, hcode⟩ | ⟨hbare, hserver⟩
    · rw [hcheck]
      rcases hdeliver : deliver δ env.onGrant (grantSql db user) (.grant db user) ⟨s, [.showGrants user]⟩ with ⟨_ | r, m⟩
      · rw [hdeliver] at hserver
        have hsame : m.server = s := hserver
        exact ⟨fun _ _ _ => by rw [hsame], congrArg Server.accounts hsame, nofun⟩
      · rw [hdeliver] at hserver hcode
        have hsame : m.server = s := hserver
        refine ⟨fun _ _ _ => by rw [hsame], congrArg Server.accounts hsame, fun hok => ?_⟩
        exact absurd (of_decide_eq_true (Except.ok.inj hok)) (hcode r rfl)
    · obtain ⟨hany, hlast⟩ := h.resolve_left (by rw [hbare]; exact (Ne.symm Bool.false_ne_true))
      have hline : line db = db := line_eq_self hlast
      have hafter : (check py δ env s).2.server = { s with entries := grantAll (user, localhost) db s.entries } := by
        rw [hline] at hserver
        rw [hcheck, ← hserver]
        rcases deliver δ env.onGrant (grantSql db user) (.grant db user) ⟨s, [.showGrants user]⟩ with ⟨_ | r, m⟩
        · rfl
        · rfl
      have hplain : ∀ c ∈ db, c ≠ '%' ∧ c ≠ '\\' := fun c hc => ⟨hdb.ne hc (by decide) (by decide), hdb.ne hc (by decide) (by decide)⟩
      rw [hafter]
      refine ⟨fun d _ hd => ?_, rfl, fun _ _ db' user' hmem => ?_⟩
      · refine privileges_grantAll_of_not δ s s.accounts (user, localhost) ?_
        rw [← Bool.not_eq_true, matchesPattern_iff_eq hplain hany]
        exact hd
      · rcases check_cases hacc hconfig' { s with entries := grantAll (user, localhost) db s.entries } with
          ⟨-, -, hissued⟩ | ⟨hgranted', -⟩
        · exact hissued db' user' hmem
        · have hall := hasAll_grantsText hdb hline huser (exists_mem_grantAll (user, localhost) db s.entries) s
          rw [hgranted'.lacking] at hall
          cases hall

/-- A server of two databases, where the user has no privileges. -/
def unprivileged (db other user : Text) : Server where
  databases := [db, other]
  accounts := [(user, localhost)]
  global _ := "USAGE".toList
  entries := []

def noAnswer : ∀ c, Answer c
  | .protect _ => none
  | .connect => false
  | .nodeRange _ => none
  | .execute _ => none
  | .setSetting _ _ => false

/-- The configuration names no host, and all statements are answered. -/
def calmly (config : Reply) : Surroundings where
  config := some config
  host := some ⟨"\"\"".toList, [], 0⟩
  others := noAnswer

theorem hasAll_eq_false {t : Text} (h : "PRIVILEGES".toList ∉ t.splitOn ' ') : hasAll db t = false := by
  have hlacks : ∀ sub : Text, ' ' :: ("PRIVILEGES".toList ++ [' ']) <:+: sub → ∀ ln ∈ splitLines t, hasSub sub ln = false := by
    intro sub hsub ln hln
    rw [← Bool.not_eq_true]
    intro hhas
    exact h (mem_splitOn_of_between (by decide) ((hsub.trans (infix_of_hasSub hhas)).trans (infix_of_mem_splitLinesFrom hln)))
  unfold hasAll
  rw [List.any_eq_false]
  intro ln hln
  rw [Bool.not_eq_true, Bool.or_eq_false_iff]
  refine ⟨hlacks _ ⟨"ALL".toList, "ON *.*".toList, by decide⟩ ln hln, hlacks _ ?_ ln hln⟩
  have hstart : ' ' :: ("PRIVILEGES".toList ++ [' ']) <:+: "ALL PRIVILEGES ON `".toList := ⟨"ALL".toList, "ON `".toList, by decide⟩
  exact hstart.trans ((List.prefix_append _ _).trans (List.prefix_append _ _)).isInfix

theorem not_hasAll_unprivileged (huser : Ident user) (other : Text) :
    hasAll db ((unprivileged db other user).grantsText (user, localhost)) = false := by
  refine hasAll_eq_false ?_
  have hspace : ∀ t : Text, Ident t → ' ' ∉ t := fun t ht hmem => ht.ne hmem (by decide) (by decide) rfl
  have hescaped : ' ' ∉ escapeValue user := fun hmem =>
    forall_mem_escapeValue (P := fun c => c ≠ ' ') (by decide) (fun c hc _ => huser.ne hc (by decide) (by decide)) ' ' hmem rfl
  have hrow : grantRow "USAGE".toList ['*'] (user, localhost) false = "GRANT USAGE ON *.* TO `".toList ++ (user ++ "`@`localhost`".toList) := by
    have hstart : "GRANT USAGE ON *.* TO `".toList = "GRANT ".toList ++ "USAGE".toList ++ " ON ".toList ++ ['*'] ++ ".* TO ".toList ++ ['`'] := by
      decide
    have hend : "`@`localhost`".toList = '`' :: '@' :: '`' :: (localhost ++ ['`']) := by decide
    have hlocal : '`' ∉ localhost := by decide
    unfold grantRow
    rw [quoteName_eq fun hmem => huser.ne hmem (by decide) (by decide) rfl, quoteName_eq hlocal, hstart, hend,
      if_neg Bool.false_ne_true]
    simp only [List.append_assoc, List.cons_append, List.nil_append, List.append_nil]
  have htext : (unprivileged db other user).grantsText (user, localhost) = "Grants".toList ++ ' ' :: ("for".toList ++ ' ' ::
      ((user ++ ('@' :: (localhost ++ '\n' :: "GRANT".toList))) ++ ' ' :: ("USAGE".toList ++ ' ' :: ("ON".toList ++ ' ' ::
        ("*.*".toList ++ ' ' :: ("TO".toList ++ ' ' :: ('`' :: (escapeValue user ++ "`@`localhost`\n".toList)))))))) := by
    have hheading : "Grants for ".toList = "Grants".toList ++ ' ' :: ("for".toList ++ [' ']) := by decide
    have hstart : "GRANT USAGE ON *.* TO `".toList = "GRANT".toList ++ ' ' :: ("USAGE".toList ++ ' ' :: ("ON".toList ++ ' ' ::
        ("*.*".toList ++ ' ' :: ("TO".toList ++ ' ' :: ['`'])))) := by decide
    have hend : "`@`localhost`\n".toList = "`@`localhost`".toList ++ ['\n'] := by decide
    change printLines (("Grants for ".toList ++ user ++ '@' :: localhost) ::
      [escapeValue (grantRow "USAGE".toList ['*'] (user, localhost) false)]) = _
    rw [hrow, escapeValue_append, escapeValue_append,
      escapeValue_eq_self (t := "GRANT USAGE ON *.* TO `".toList) (forall_mem_of_all (by decide)),
      escapeValue_eq_self (t := "`@`localhost`".toList) (forall_mem_of_all (by decide)), hheading, hstart, hend]
    simp only [printLines, List.flatMap_cons, List.flatMap_nil, List.append_assoc, List.cons_append, List.nil_append, List.append_nil]
  have hat : ' ' ∉ user ++ ('@' :: (localhost ++ '\n' :: "GRANT".toList)) := by
    rw [List.mem_append, not_or]
    exact ⟨hspace user huser, by decide⟩
  have hlast : ' ' ∉ '`' :: (escapeValue user ++ "`@`localhost`\n".toList) := by
    rw [List.mem_cons, List.mem_append, not_or, not_or]
    exact ⟨by decide, hescaped, by decide⟩
  rw [htext, List.splitOn_append_cons_self, List.splitOn_append_cons_self, List.splitOn_append_cons_self, List.splitOn_append_cons_self,
    List.splitOn_append_cons_self, List.splitOn_append_cons_self, List.splitOn_append_cons_self, List.splitOn_eq_singleton hat,
    List.splitOn_eq_singleton hlast]
  intro hmem
  simp only [List.mem_append, List.mem_singleton] at hmem
  rcases hmem with h | h | h | h | h | h | h | h
  · exact absurd h (by decide)
  · exact absurd h (by decide)
  · have hsign : '@' ∈ "PRIVILEGES".toList := h ▸ List.mem_append_right _ List.mem_cons_self
    exact absurd hsign (by decide)
  · exact absurd h (by decide)
  · exact absurd h (by decide)
  · exact absurd h (by decide)
  · exact absurd h (by decide)
  · have hsign : '`' ∈ "PRIVILEGES".toList := h ▸ List.mem_cons_self
    exact absurd hsign (by decide)

/-- The name covers another database. -/
theorem exists_other (hdb : Ident db) (h : ¬('_' ∉ db ∧ db.getLast? ≠ some '\n')) :
    ∃ other, other ≠ db ∧ matchesPattern (line db) other = true := by
  have hplain : ∀ c ∈ line db, c ≠ '%' ∧ c ≠ '\\' := by
    intro c hc
    have hmem : c ∈ db := by
      rw [line_append db]
      exact List.mem_append_left _ hc
    exact ⟨hdb.ne hmem (by decide) (by decide), hdb.ne hmem (by decide) (by decide)⟩
  by_cases hlast : db.getLast? = some '\n'
  · refine ⟨line db, fun heq => ?_, ?_⟩
    · have hlength := congrArg List.length (line_append db)
      rw [if_pos hlast, List.length_append, heq, List.length_singleton] at hlength
      omega
    · rw [matchesPattern_iff_forall₂ hplain, List.forall₂_same]
      exact fun c _ => .inr rfl
  · have hany : '_' ∈ db := by
      by_contra hany
      exact h ⟨hany, hlast⟩
    refine ⟨(line db).map fun c => if c = '_' then 'x' else c, fun heq => ?_, matchesPattern_map hplain 'x'⟩
    rw [← heq] at hany
    obtain ⟨c, -, hc⟩ := List.mem_map.1 hany
    by_cases hc' : c = '_'
    · rw [if_pos hc'] at hc
      cases hc
    · rw [if_neg hc'] at hc
      exact hc' hc

/-- The grant is on one database just if its name has no `_` and no newline at the end, or is none that the server reads without quotes. -/
theorem one_database_iff (hacc : account py config = some (some (db, user))) :
    OneDatabase py δ config db user ↔ δ.bare (line db) = false ∨ '_' ∉ db ∧ db.getLast? ≠ some '\n' := by
  obtain ⟨hdb, huser⟩ := ident_of_account hacc
  refine ⟨fun hone => ?_, oneDatabase_of hacc⟩
  by_contra hnot
  rw [not_or, Bool.not_eq_false] at hnot
  obtain ⟨other, hother, hmatches⟩ := exists_other hdb hnot.2
  have hgranted : Granted (calmly config) db user (unprivileged db other user) :=
    ⟨⟨_, rfl, by decide +kernel⟩, rfl, List.mem_singleton_self _, not_hasAll_unprivileged huser other⟩
  obtain ⟨hprivileges, -, -⟩ := hone (calmly config) (calmly config) (unprivileged db other user) rfl rfl
  have hconfig : (calmly config).config = some config := rfl
  have hcheck := ((check_cases (δ := δ) hacc hconfig (unprivileged db other user)).resolve_left fun h => h.1 hgranted).2
  have hafter : (check py δ (calmly config) (unprivileged db other user)).2.server =
      { unprivileged db other user with entries := grantAll (user, localhost) (line db) [] } := by
    rw [hcheck]
    change (runCommand δ (mysqlCommand (grantSql db user)) (unprivileged db other user)).server = _
    rw [runCommand_grant δ hdb huser, hnot.1, if_neg (Ne.symm Bool.false_ne_true), if_pos hgranted.account]
    rfl
  have hsame := hprivileges other (by simp [unprivileged]) hother
  rw [hafter] at hsame
  have hcounts : ([{ account := (user, localhost), pattern := line db, privileges := allPrivileges }] : List Entry).filter
      (fun e => e.account = (user, localhost) && matchesPattern e.pattern other) =
        [{ account := (user, localhost), pattern := line db, privileges := allPrivileges }] := by
    rw [List.filter_cons_of_pos (by simp [hmatches]), List.filter_nil]
  have hnow : Server.privileges δ { unprivileged db other user with entries := grantAll (user, localhost) (line db) [] }
      (user, localhost) other = ("USAGE".toList, some (allPrivileges, false)) := by
    unfold Server.privileges
    change (_, (δ.first (([{ account := (user, localhost), pattern := line db, privileges := allPrivileges }] : List Entry).filter _)).map _) = _
    rw [hcounts, δ.first_singleton]
    rfl
  have hbefore : Server.privileges δ (unprivileged db other user) (user, localhost) other = ("USAGE".toList, none) := by
    unfold Server.privileges
    change (_, (δ.first []).map _) = _
    rw [δ.first_nil]
    rfl
  rw [hnow, hbefore] at hsame
  cases hsame

/-- A server that takes names of letters, digits and the like without quotes, and creates no accounts for a grant. -/
def mysql8 : Dialect where
  bare t := !t.isEmpty && t.all isNameChar && !t.all Char.isDigit
  createsAccounts := false
  first := List.head?
  first_singleton _ := rfl
  first_nil := rfl

def configOf (db user : Text) : Reply := ⟨['[', '"'] ++ db ++ ['"', ',', ' ', '"'] ++ user ++ ['"', ']'], [], 0⟩

theorem ghost_one_database : OneDatabase asciiPython mysql8 (configOf "ghost".toList "ghost".toList) "ghost".toList "ghost".toList :=
  (one_database_iff (by decide +kernel)).2 (.inr (by decide +kernel))

/-- A grant on `news_db` is one on `newsxdb` too. -/
theorem news_db_covers_newsxdb :
    (check asciiPython mysql8 (calmly (configOf "news_db".toList "ghost".toList))
        (unprivileged "news_db".toList "newsxdb".toList "ghost".toList)).2.server.privileges mysql8 ("ghost".toList, localhost) "newsxdb".toList =
      ("USAGE".toList, some (allPrivileges, false)) ∧
    ¬OneDatabase asciiPython mysql8 (configOf "news_db".toList "ghost".toList) "news_db".toList "ghost".toList := by
  have hgranted : (check asciiPython mysql8 (calmly (configOf "news_db".toList "ghost".toList))
      (unprivileged "news_db".toList "newsxdb".toList "ghost".toList)).2.server.privileges mysql8 ("ghost".toList, localhost) "newsxdb".toList =
        ("USAGE".toList, some (allPrivileges, false)) := by
    decide +kernel
  refine ⟨hgranted, fun hone => ?_⟩
  obtain ⟨hsame, -, -⟩ := hone (calmly (configOf "news_db".toList "ghost".toList)) (calmly (configOf "news_db".toList "ghost".toList))
    (unprivileged "news_db".toList "newsxdb".toList "ghost".toList) rfl rfl
  have hbefore := hsame "newsxdb".toList (List.mem_cons_of_mem _ (List.mem_singleton_self _)) (by decide +kernel)
  rw [hgranted] at hbefore
  cases hbefore

end

end ProxmoxTool.Ghost
