import Mathlib.Data.List.Forall2
import ProxmoxTool.Lib.Fields
import ProxmoxTool.Lib.Posix

/-!
# Grants of MySQL

The accounts of a server with their privileges, as far as `SHOW GRANTS FOR` and `GRANT ALL PRIVILEGES ON` a database go.  The statements are
read from their text, and this from the command line of a shell that hands it to `mysql`.

A grant on a database is one for all databases whose name matches: `_` stands for any character and `%` for any text, unless a backslash
is before it.  A name without these matches itself only (`matchesPattern_iff_eq`).
-/

namespace ProxmoxTool.MySql

/-- The name matches the pattern of a grant. -/
def matchesPattern : Text → Text → Bool
  | [], name => name.isEmpty
  | c :: p, name =>
    if c = '%' then name.tails.any fun rest => matchesPattern p rest
    else
      match name with
      | [] => false
      | d :: name =>
        if c = '\\' then
          match p with
          | e :: p => e = d && matchesPattern p name
          | [] => d = '\\' && name.isEmpty
        else (c = '_' || c = d) && matchesPattern p name

/-- A user and the host they come from. -/
abbrev Account := Text × Text

/-- The privileges of an account on the databases of a pattern. -/
structure Entry where
  account : Account
  pattern : Text
  privileges : Text
  grantOption : Bool := false
  deriving DecidableEq

structure Server where
  databases : List Text
  accounts : List Account
  /-- The privileges on all databases. -/
  global : Account → Text
  entries : List Entry

/-- What differs between servers: which names need no quotes, whether `GRANT` creates an account, and which one of the entries that match a
database counts. -/
structure Dialect where
  bare : Text → Bool
  createsAccounts : Bool
  first : List Entry → Option Entry
  first_singleton : ∀ e, first [e] = some e
  first_nil : first [] = none

/-- The privileges of an account on a database, those on all databases first. -/
def Server.privileges (δ : Dialect) (s : Server) (a : Account) (database : Text) : Text × Option (Text × Bool) :=
  (s.global a, (δ.first (s.entries.filter fun e => e.account = a && matchesPattern e.pattern database)).map fun e =>
    (e.privileges, e.grantOption))

def allPrivileges : Text := "ALL PRIVILEGES".toList

def grantAll (a : Account) (pattern : Text) (entries : List Entry) : List Entry :=
  if entries.any fun e => e.account = a && e.pattern = pattern then
    entries.map fun e => if e.account = a && e.pattern = pattern then { e with privileges := allPrivileges } else e
  else entries ++ [{ account := a, pattern := pattern, privileges := allPrivileges }]

/-! ### What is printed -/

def quoteName (t : Text) : Text := '`' :: ((t.flatMap fun c => if c = '`' then ['`', '`'] else [c]) ++ ['`'])

def grantRow (privileges scope : Text) (a : Account) (grantOption : Bool) : Text :=
  "GRANT ".toList ++ privileges ++ " ON ".toList ++ scope ++ ".* TO ".toList ++ quoteName a.1 ++ '@' :: quoteName a.2 ++
    if grantOption then " WITH GRANT OPTION".toList else []

/-- A value in the output of the client. -/
def escapeValue (t : Text) : Text :=
  t.flatMap fun c =>
    if c = '\n' then ['\\', 'n'] else if c = '\t' then ['\\', 't'] else if c = '\\' then ['\\', '\\']
    else if c = '\x00' then ['\\', '0'] else [c]

def Entry.row (e : Entry) : Text := grantRow e.privileges (quoteName e.pattern) e.account e.grantOption

def Server.grantRows (s : Server) (a : Account) : List Text :=
  grantRow (s.global a) ['*'] a false :: (s.entries.filter fun e => e.account = a).map Entry.row

/-- The rows below their heading. -/
def Server.grantsText (s : Server) (a : Account) : Text :=
  printLines (("Grants for ".toList ++ a.1 ++ '@' :: a.2) :: (s.grantRows a).map escapeValue)

/-! ### Statements -/

inductive Statement
  | showGrants (a : Account)
  | grantAll (name : Text) (a : Account)
  deriving DecidableEq

/-- What is behind a text at the start. -/
def afterPrefix (p t : Text) : Option Text := if p.isPrefixOf t then some (t.drop p.length) else none

def isNameChar (c : Char) : Bool := c.isAlphanum || c = '_' || c = '$' || 0x80 ≤ c.toNat

def isBlank (c : Char) : Bool := c = ' ' || c = '\t' || c = '\n' || c = '\r' || c = '\x0b' || c = '\x0c'

/-- A text between single quotes at the start, without escapes. -/
def readQuoted (t : Text) : Option (Text × Text) := do
  let t ← afterPrefix ['\''] t
  let value := t.takeWhile (· ≠ '\'')
  let rest ← afterPrefix ['\''] (t.dropWhile (· ≠ '\''))
  if '\\' ∈ value ∨ rest.head? = some '\'' then none else some (value, rest)

def readAccount (t : Text) : Option (Account × Text) := do
  let (user, t) ← readQuoted t
  let t ← afterPrefix ['@'] t
  let (host, t) ← readQuoted t
  some ((user, host), t)

def readShowGrants (sql : Text) : Option Statement := do
  let t ← afterPrefix "SHOW GRANTS FOR ".toList sql
  let (a, t) ← readAccount t
  if t = [] then some (.showGrants a) else none

def readGrantAll (sql : Text) : Option Statement := do
  let t ← afterPrefix "GRANT ALL PRIVILEGES ON ".toList sql
  let t' ← afterPrefix ".* TO ".toList ((t.dropWhile isNameChar).dropWhile isBlank)
  let (a, t') ← readAccount t'
  if t' = "; FLUSH PRIVILEGES;".toList then some (.grantAll (t.takeWhile isNameChar) a) else none

structure Result where
  server : Server
  out : Text
  err : Text
  code : Int

def refused (s : Server) (err : Text) : Result := ⟨s, [], err, 1⟩

def syntaxError : Text := "ERROR 1064 (42000): You have an error in your SQL syntax".toList

def exec (δ : Dialect) (sql : Text) (s : Server) : Result :=
  match (readShowGrants sql).or (readGrantAll sql) with
  | some (.showGrants a) =>
    if a ∈ s.accounts then ⟨s, s.grantsText a, [], 0⟩
    else refused s "ERROR 1141 (42000): There is no such grant defined".toList
  | some (.grantAll name a) =>
    if δ.bare name = false then refused s syntaxError
    else if a ∈ s.accounts then ⟨{ s with entries := grantAll a name s.entries }, [], [], 0⟩
    else if δ.createsAccounts then ⟨{ s with accounts := s.accounts ++ [a], entries := grantAll a name s.entries }, [], [], 0⟩
    else refused s "ERROR 1410 (42000): You are not allowed to create a user with GRANT".toList
  | none => refused s syntaxError

/-- The client, for a statement as root. -/
def clientWords : List Text := ["mysql".toList, "-u".toList, "root".toList, "-e".toList]

/-- The statement of a command line of a shell that runs the client. -/
def statementOf (command : Text) : Option Text :=
  match Posix.parse command with
  | some [(simple, _)] =>
    match simple.argv with
    | some [program, option, user, execute, sql] =>
      if [program, option, user, execute] = clientWords ∧ simple = { words := simple.words } then some sql else none
    | _ => none
  | _ => none

def runCommand (δ : Dialect) (command : Text) (s : Server) : Result :=
  match statementOf command with
  | some sql => exec δ sql s
  | none => refused s "mysql: unknown option".toList

/-! ### Patterns -/

/-- Without `%` and backslashes a pattern is matched character by character. -/
theorem matchesPattern_iff_forall₂ {p name : Text} (hp : ∀ c ∈ p, c ≠ '%' ∧ c ≠ '\\') :
    matchesPattern p name = true ↔ List.Forall₂ (fun c d => c = '_' ∨ c = d) p name := by
  induction p generalizing name with
  | nil =>
    cases name with
    | nil => exact ⟨fun _ => .nil, fun _ => rfl⟩
    | cons d name =>
      refine ⟨fun h => ?_, fun h => ?_⟩
      · cases h
      · cases h
  | cons c p ih =>
    obtain ⟨⟨hpercent, hescape⟩, hrest⟩ := List.forall_mem_cons.1 hp
    unfold matchesPattern
    rw [if_neg hpercent]
    cases name with
    | nil =>
      refine ⟨fun h => ?_, fun h => ?_⟩
      · cases h
      · cases h
    | cons d name =>
      dsimp only
      rw [if_neg hescape, Bool.and_eq_true, ih hrest, List.forall₂_cons, Bool.or_eq_true, decide_eq_true_iff, decide_eq_true_iff]

theorem eq_of_forall₂ {p name : Text} (h : List.Forall₂ (fun c d => c = '_' ∨ c = d) p name) (hany : '_' ∉ p) : name = p := by
  induction h with
  | nil => rfl
  | cons hcd _ ih =>
    rw [List.mem_cons, not_or] at hany
    rw [ih hany.2, hcd.resolve_left (Ne.symm hany.1)]

/-- A pattern of plain characters matches itself only. -/
theorem matchesPattern_iff_eq {p name : Text} (hp : ∀ c ∈ p, c ≠ '%' ∧ c ≠ '\\') (hany : '_' ∉ p) :
    matchesPattern p name = true ↔ name = p := by
  rw [matchesPattern_iff_forall₂ hp]
  refine ⟨fun h => eq_of_forall₂ h hany, ?_⟩
  rintro rfl
  exact List.forall₂_same.2 fun c _ => .inr rfl

/-- Any character may stand for `_`. -/
theorem matchesPattern_map {p : Text} (hp : ∀ c ∈ p, c ≠ '%' ∧ c ≠ '\\') (d : Char) :
    matchesPattern p (p.map fun c => if c = '_' then d else c) = true := by
  rw [matchesPattern_iff_forall₂ hp, List.forall₂_map_right_iff, List.forall₂_same]
  intro c _
  by_cases hc : c = '_'
  · exact .inl hc
  · exact .inr (if_neg hc).symm

/-! ### Grants -/

/-- Only the databases that match have other privileges than before. -/
theorem privileges_grantAll_of_not (δ : Dialect) (s : Server) (accounts : List Account) (a : Account) {pattern database : Text}
    (h : matchesPattern pattern database = false) :
    Server.privileges δ { s with accounts := accounts, entries := grantAll a pattern s.entries } a database = s.privileges δ a database := by
  have hentries : ((grantAll a pattern s.entries).filter fun e => e.account = a && matchesPattern e.pattern database) =
      s.entries.filter fun e => e.account = a && matchesPattern e.pattern database := by
    unfold grantAll
    split
    · rw [List.filter_map]
      have hsame : ∀ e : Entry, ((fun e : Entry => decide (e.account = a) && matchesPattern e.pattern database) ∘
          fun e => if e.account = a && e.pattern = pattern then { e with privileges := allPrivileges } else e) e =
            (decide (e.account = a) && matchesPattern e.pattern database) := by
        intro e
        dsimp only [Function.comp]
        split <;> rfl
      rw [List.filter_congr fun e _ => hsame e]
      refine (List.map_congr_left fun e he => ?_).trans (List.map_id _)
      have hmatches := (Bool.and_eq_true _ _ ▸ (List.mem_filter.1 he).2).2
      refine if_neg fun heq => ?_
      rw [Bool.and_eq_true, decide_eq_true_iff, decide_eq_true_iff] at heq
      rw [heq.2, h] at hmatches
      cases hmatches
    · have hnew : (decide (a = a) && matchesPattern pattern database) = false := by rw [h, Bool.and_false]
      rw [List.filter_append, List.filter_cons_of_neg (by rw [hnew]; exact Bool.false_ne_true), List.filter_nil, List.append_nil]
  unfold Server.privileges
  rw [hentries]

/-- The account holds all privileges on the pattern. -/
theorem exists_mem_grantAll (a : Account) (pattern : Text) (entries : List Entry) :
    ∃ e ∈ grantAll a pattern entries, e.account = a ∧ e.pattern = pattern ∧ e.privileges = allPrivileges := by
  unfold grantAll
  split
  · rename_i hany
    obtain ⟨e, he, heq⟩ := List.any_eq_true.1 hany
    refine ⟨_, List.mem_map_of_mem he, ?_⟩
    rw [if_pos heq]
    rw [Bool.and_eq_true, decide_eq_true_iff, decide_eq_true_iff] at heq
    exact ⟨heq.1, heq.2, rfl⟩
  · exact ⟨_, List.mem_append_right _ (List.mem_singleton_self _), rfl, rfl, rfl⟩

/-! ### What the server shows -/

theorem escapeValue_append (t u : Text) : escapeValue (t ++ u) = escapeValue t ++ escapeValue u := List.flatMap_append

theorem escapeValue_eq_self {t : Text} (h : ∀ c ∈ t, c ≠ '\n' ∧ c ≠ '\t' ∧ c ≠ '\\' ∧ c ≠ '\x00') : escapeValue t = t := by
  induction t with
  | nil => rfl
  | cons c t ih =>
    obtain ⟨⟨hnewline, htab, hescape, hnul⟩, hrest⟩ := List.forall_mem_cons.1 h
    have hcons : escapeValue (c :: t) = _ ++ escapeValue t := List.flatMap_cons
    rw [hcons, if_neg hnewline, if_neg htab, if_neg hescape, if_neg hnul, ih hrest, List.singleton_append]

/-- A newline in a value is written with other characters. -/
theorem forall_mem_escapeValue {P : Char → Prop} {t : Text} (hfixed : P '\\' ∧ P 'n' ∧ P 't' ∧ P '0') (h : ∀ c ∈ t, c ≠ '\n' → P c) :
    ∀ c ∈ escapeValue t, P c := by
  obtain ⟨hescape, hn, ht, hzero⟩ := hfixed
  intro c hc
  obtain ⟨d, hd, hmem⟩ := List.mem_flatMap.1 hc
  have hpair : ∀ e : Char, P e → c ∈ ['\\', e] → P c := by
    intro e he hmem
    rcases List.mem_pair.1 hmem with rfl | rfl
    · exact hescape
    · exact he
  split at hmem
  · exact hpair 'n' hn hmem
  · rename_i hnewline
    split at hmem
    · exact hpair 't' ht hmem
    · split at hmem
      · exact hpair '\\' hescape hmem
      · split at hmem
        · exact hpair '0' hzero hmem
        · rw [List.mem_singleton.1 hmem]
          exact h d hd hnewline

theorem quoteName_eq {t : Text} (h : '`' ∉ t) : quoteName t = '`' :: (t ++ ['`']) := by
  have hsame : (t.flatMap fun c => if c = '`' then ['`', '`'] else [c]) = t := by
    induction t with
    | nil => rfl
    | cons c t ih =>
      rw [List.mem_cons, not_or] at h
      rw [List.flatMap_cons, if_neg (Ne.symm h.1), ih h.2, List.singleton_append]
  unfold quoteName
  rw [hsame]

/-- The characters of a row are those of its parts. -/
theorem forall_mem_grantRow {P : Char → Prop} {privileges scope user host : Text} {grantOption : Bool}
    (hfixed : ∀ c ∈ "GRANT ON .* TO @ WITH GRANT OPTION`".toList, P c) (hprivileges : ∀ c ∈ privileges, P c) (hscope : ∀ c ∈ scope, P c)
    (huser : ∀ c ∈ user, P c) (hhost : ∀ c ∈ host, P c) : ∀ c ∈ grantRow privileges scope (user, host) grantOption, P c := by
  have hpart : ∀ t : Text, (∀ c ∈ t, c ∈ "GRANT ON .* TO @ WITH GRANT OPTION`".toList) → ∀ c ∈ t, P c := fun t ht c hc => hfixed c (ht c hc)
  have hquoted : ∀ t : Text, (∀ c ∈ t, P c) → ∀ c ∈ quoteName t, P c := by
    intro t ht c hc
    have htick : P '`' := hfixed '`' (by decide)
    unfold quoteName at hc
    rw [List.mem_cons, List.mem_append, List.mem_singleton, List.mem_flatMap] at hc
    rcases hc with rfl | ⟨d, hd, hmem⟩ | rfl
    · exact htick
    · split at hmem
      · rcases List.mem_pair.1 hmem with rfl | rfl <;> exact htick
      · rw [List.mem_singleton.1 hmem]
        exact ht d hd
    · exact htick
  unfold grantRow
  simp only [List.forall_mem_append, List.forall_mem_cons]
  refine ⟨⟨⟨⟨⟨⟨⟨hpart _ (forall_mem_of_all (by decide)), hprivileges⟩, hpart _ (forall_mem_of_all (by decide))⟩, hscope⟩,
    hpart _ (forall_mem_of_all (by decide))⟩,
    hquoted user huser⟩, hfixed '@' (by decide), hquoted host hhost⟩, ?_⟩
  cases grantOption with
  | true => exact hpart _ (forall_mem_of_all (by decide))
  | false => exact fun c hc => nomatch hc

/-- A grant of all privileges on a database is in the line of its row. -/
theorem hasSub_row {e : Entry} (hprivileges : e.privileges = allPrivileges)
    (hpattern : ∀ c ∈ e.pattern, c ≠ '\n' ∧ c ≠ '\t' ∧ c ≠ '\\' ∧ c ≠ '\x00' ∧ c ≠ '`') :
    hasSub ("ALL PRIVILEGES ON `".toList ++ e.pattern ++ "`.*".toList) (escapeValue e.row) = true := by
  have hself : escapeValue ("ALL PRIVILEGES ON `".toList ++ e.pattern ++ "`.*".toList) =
      "ALL PRIVILEGES ON `".toList ++ e.pattern ++ "`.*".toList := by
    refine escapeValue_eq_self ?_
    rw [List.forall_mem_append, List.forall_mem_append]
    refine ⟨⟨forall_mem_of_all (by decide), fun c hc => ?_⟩, forall_mem_of_all (by decide)⟩
    obtain ⟨hnewline, htab, hescape, hnul, -⟩ := hpattern c hc
    exact ⟨hnewline, htab, hescape, hnul⟩
  have hrow : ∃ rest, e.row = "GRANT ".toList ++ (("ALL PRIVILEGES ON `".toList ++ e.pattern ++ "`.*".toList) ++ rest) := by
    have hon : "ALL PRIVILEGES ON `".toList = allPrivileges ++ " ON ".toList ++ ['`'] := by decide
    have hto : ".* TO ".toList = ".*".toList ++ " TO ".toList := by decide
    have hstar : "`.*".toList = ['`'] ++ ".*".toList := by decide
    refine ⟨" TO ".toList ++ (quoteName e.account.1 ++ ('@' :: quoteName e.account.2 ++
      if e.grantOption then " WITH GRANT OPTION".toList else [])), ?_⟩
    unfold Entry.row grantRow
    rw [hprivileges, quoteName_eq fun hmem => (hpattern _ hmem).2.2.2.2 rfl, hon, hto, hstar]
    simp only [List.append_assoc, List.cons_append, List.nil_append]
  obtain ⟨rest, hrow⟩ := hrow
  rw [hrow, escapeValue_append, escapeValue_append, hself]
  exact hasSub_append _ _ _

theorem mem_grantRows {s : Server} {e : Entry} (he : e ∈ s.entries) : e.row ∈ s.grantRows e.account :=
  List.mem_cons_of_mem _ (List.mem_map_of_mem (List.mem_filter.2 ⟨he, decide_eq_true rfl⟩))

/-! ### Reading statements -/

theorem afterPrefix_append (p t : Text) : afterPrefix p (p ++ t) = some t := by
  rw [afterPrefix, if_pos (List.isPrefixOf_iff_prefix.2 (List.prefix_append p t)), List.drop_left]

theorem afterPrefix_cons (c : Char) (t : Text) : afterPrefix [c] (c :: t) = some t := afterPrefix_append [c] t

theorem takeWhile_append_cons {q : Char → Bool} {t : Text} {c : Char} (ht : ∀ d ∈ t, q d = true) (hc : q c = false) (rest : Text) :
    (t ++ c :: rest).takeWhile q = t := by
  rw [List.takeWhile_append_of_pos ht, List.takeWhile_cons_of_neg (by simp [hc]), List.append_nil]

theorem dropWhile_append_cons {q : Char → Bool} {t : Text} {c : Char} (ht : ∀ d ∈ t, q d = true) (hc : q c = false) (rest : Text) :
    (t ++ c :: rest).dropWhile q = c :: rest := by
  rw [List.dropWhile_append_of_pos ht, List.dropWhile_cons_of_neg (by simp [hc])]

theorem readQuoted_append {value t : Text} (hvalue : ∀ c ∈ value, c ≠ '\'' ∧ c ≠ '\\') (hrest : t.head? ≠ some '\'') :
    readQuoted ('\'' :: (value ++ '\'' :: t)) = some (value, t) := by
  have hquote : ∀ c ∈ value, decide (c ≠ '\'') = true := fun c hc => decide_eq_true (hvalue c hc).1
  have hend : decide ('\'' ≠ '\'') = false := rfl
  have hescape : ¬('\\' ∈ value ∨ t.head? = some '\'') := by
    rintro (hmem | hhead)
    · exact (hvalue _ hmem).2 rfl
    · exact hrest hhead
  unfold readQuoted
  rw [afterPrefix_cons, Option.bind_eq_bind, Option.bind_some]
  dsimp only
  rw [dropWhile_append_cons hquote hend, afterPrefix_cons, Option.bind_some, takeWhile_append_cons hquote hend,
    if_neg hescape]

/-- An account between quotes. -/
def accountText (a : Account) : Text := '\'' :: (a.1 ++ '\'' :: ('@' :: '\'' :: (a.2 ++ ['\''])))

theorem readAccount_append {a : Account} {t : Text} (huser : ∀ c ∈ a.1, c ≠ '\'' ∧ c ≠ '\\') (hhost : ∀ c ∈ a.2, c ≠ '\'' ∧ c ≠ '\\')
    (hrest : t.head? ≠ some '\'') : readAccount (accountText a ++ t) = some (a, t) := by
  have htext : accountText a ++ t = '\'' :: (a.1 ++ '\'' :: (['@'] ++ '\'' :: (a.2 ++ '\'' :: t))) := by
    simp [accountText]
  have hfirst := readQuoted_append (t := ['@'] ++ '\'' :: (a.2 ++ '\'' :: t)) huser (by simp)
  have hsecond := readQuoted_append hhost hrest
  rw [htext]
  unfold readAccount
  rw [hfirst, Option.bind_eq_bind, Option.bind_some]
  dsimp only
  rw [afterPrefix_append, Option.bind_eq_bind, Option.bind_some, hsecond]
  rfl

theorem readShowGrants_text {a : Account} (huser : ∀ c ∈ a.1, c ≠ '\'' ∧ c ≠ '\\') (hhost : ∀ c ∈ a.2, c ≠ '\'' ∧ c ≠ '\\') :
    readShowGrants ("SHOW GRANTS FOR ".toList ++ accountText a) = some (.showGrants a) := by
  have haccount : readAccount (accountText a) = some (a, []) := by
    have h := readAccount_append (t := []) huser hhost (by simp)
    rwa [List.append_nil] at h
  unfold readShowGrants
  rw [afterPrefix_append, Option.bind_eq_bind, Option.bind_some, haccount]
  rfl

/-- The name ends where something else begins. -/
theorem readGrantAll_text {name blanks : Text} {a : Account} (hname : ∀ c ∈ name, isNameChar c = true)
    (hblanks : ∀ c ∈ blanks, isNameChar c = false ∧ isBlank c = true) (huser : ∀ c ∈ a.1, c ≠ '\'' ∧ c ≠ '\\')
    (hhost : ∀ c ∈ a.2, c ≠ '\'' ∧ c ≠ '\\') :
    readGrantAll ("GRANT ALL PRIVILEGES ON ".toList ++ (name ++ (blanks ++ (".* TO ".toList ++ (accountText a ++ "; FLUSH PRIVILEGES;".toList))))) =
      some (.grantAll name a) := by
  have htail : ∃ c t, blanks ++ (".* TO ".toList ++ (accountText a ++ "; FLUSH PRIVILEGES;".toList)) = c :: t ∧ isNameChar c = false := by
    cases blanks with
    | nil => exact ⟨'.', _, rfl, rfl⟩
    | cons c t => exact ⟨c, _, rfl, (hblanks c List.mem_cons_self).1⟩
  obtain ⟨c, t, htext, hc⟩ := htail
  have hblank : ∀ c ∈ blanks, isBlank c = true := fun c hc => (hblanks c hc).2
  unfold readGrantAll
  rw [afterPrefix_append, Option.bind_eq_bind, Option.bind_some]
  dsimp only
  rw [htext, dropWhile_append_cons hname hc, takeWhile_append_cons hname hc, ← htext]
  have hdrop : (blanks ++ (".* TO ".toList ++ (accountText a ++ "; FLUSH PRIVILEGES;".toList))).dropWhile isBlank =
      ".* TO ".toList ++ (accountText a ++ "; FLUSH PRIVILEGES;".toList) := dropWhile_append_cons (c := '.') hblank rfl _
  rw [hdrop, afterPrefix_append, Option.bind_some, readAccount_append huser hhost (by decide)]
  rfl

theorem readShowGrants_grantAll (t : Text) : readShowGrants ("GRANT ALL PRIVILEGES ON ".toList ++ t) = none := rfl

/-! ### The command line -/

/-- The client gets a statement as it is written between double quotes. -/
theorem statementOf_text {sql : Text} (h : ∀ c ∈ sql, Posix.isDoubleOrdinary c = true ∧ c ≠ '\x00') :
    statementOf ("mysql -u root -e \"".toList ++ (sql ++ "\"".toList)) = some sql := by
  have hwords : Posix.run {} "mysql -u root -e \"".toList =
      some ⟨.double, some [], clientWords.map fun w => .word (Posix.unquoted w)⟩ := by decide
  have hsql := Posix.run_double (List.all_eq_true.2 fun c hc => (h c hc).1) []
    (clientWords.map fun w => .word (Posix.unquoted w))
  have hnul : '\x00' ∉ "mysql -u root -e \"".toList ++ (sql ++ "\"".toList) := by
    rw [List.mem_append, List.mem_append, not_or, not_or]
    exact ⟨by decide, fun hmem => (h _ hmem).2 rfl, by decide⟩
  have hrun : Posix.run {} ("mysql -u root -e \"".toList ++ (sql ++ "\"".toList)) =
      some ⟨.plain, some (Posix.quoted sql), clientWords.map fun w => .word (Posix.unquoted w)⟩ := by
    rw [Posix.run_append_of hwords, Posix.run_append_of hsql]
    rfl
  have hparse : Posix.parse ("mysql -u root -e \"".toList ++ (sql ++ "\"".toList)) =
      some [({ words := clientWords.map Posix.unquoted ++ [Posix.quoted sql] }, .semi)] := by
    rw [Posix.parse_of_run hnul hrun]
    exact Posix.parse_words (w := Posix.unquoted "mysql".toList) (by decide) (by decide)
      [Posix.unquoted "-u".toList, Posix.unquoted "root".toList, Posix.unquoted "-e".toList, Posix.quoted sql]
  have hargv : (clientWords.map Posix.unquoted ++ [Posix.quoted sql]).mapM Posix.Word.literal = some (clientWords ++ [sql]) := by
    have hfirst : (clientWords.map Posix.unquoted).mapM Posix.Word.literal = some clientWords := by decide
    rw [List.mapM_append, hfirst]
    change (List.mapM Posix.Word.literal [Posix.quoted sql]).bind _ = _
    rw [List.mapM_cons, Posix.literal_quoted]
    rfl
  unfold statementOf
  rw [hparse]
  dsimp only
  unfold Posix.Simple.argv
  rw [hargv]
  exact if_pos ⟨rfl, rfl⟩

end ProxmoxTool.MySql
