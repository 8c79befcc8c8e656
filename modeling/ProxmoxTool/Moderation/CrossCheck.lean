import Mathlib.Data.List.Dedup
import ProxmoxTool.Apps.Validate
import ProxmoxTool.Moderation.Client
import ProxmoxTool.Ssh.Capture

/-!
# PeerTube users against Mastodon addresses

`run_moderation_check` takes every PeerTube user without staff role whose address is on no line of psql's output as unknown to
Mastodon, and asks PeerTube to block it if `auto_ban` is on.  The output is cut after `MAX_OUTPUT_BYTES` while the command still
exits 0, and its lines are stripped where the addresses of PeerTube are not.  So a registered user is spared exactly if
its address is one of the lines that are left (`auto_ban_spares_registered_iff`).

`str.lower` and the Unicode tables are parameters.
-/

namespace ProxmoxTool.Moderation

open Ssh Utf8

/-- An address as psql prints it: one line. -/
structure Address where
  text : Text
  single : '\n' ∉ text

/-- A row of Mastodon's users table, with the columns of the query. -/
structure MastodonUser where
  email : Address
  confirmed : Bool
  disabled : Bool
  suspended : Bool

/-- The `WHERE` clause of `fetch_mastodon_emails`. -/
def MastodonUser.selected (m : MastodonUser) : Bool := m.confirmed && !m.disabled && !m.suspended

/-- The rows of the query. -/
def selectedEmails (table : List MastodonUser) : List Text := (table.filter MastodonUser.selected).map fun m => m.email.text

/-- A run of the query: if it exits 0, standard output is the rows. -/
structure Psql (table : List MastodonUser) where
  exec : Exec
  printed : ∀ out err, exec = .finished out err 0 → out.flatten = encode (printLines (selectedEmails table))

structure DbGuest where
  name : Text
  ipAddress : Option Text
  credential : Bool

/-- `role` in a user of the listing. -/
inductive RawRole
  | object (id : Option Int)
  | number (id : Int)

/-- A user of the listing, its id a number; `email` may be missing or null. -/
structure RawUser where
  id : Option Int
  username : Option Text
  email : Option (Option Text)
  role : Option RawRole

structure PeerTubeUser where
  id : Int
  username : Text
  /-- In lower case. -/
  email : Text
  role : Int
  deriving DecidableEq

inductive PageReply
  | page (data : List RawUser) (total : Int)
  | redirect (code : Int)
  | httpError (code : Int) (reason : Text)
  | failed (message : Text)

inductive BanReply
  | status (code : Int)
  | redirect (code : Int)
  | httpError (code : Int) (reason : Text)
  | failed (message : Text)

/-- What a check finds: the settings it reads, Python's `repr`, the guests, what `decrypt` makes of the token (`none` if it raises), the run of
psql, the pages of PeerTube's listing by their start, and PeerTube's answers to requests to block. -/
structure Site where
  apiUrl : Option Text
  apiToken : Option Text
  autoBanEnabled : Option Text
  dbGuestId : Option Text
  dbName : Option Text
  repr : Text → Text
  decrypt : Text → Option (Option Text)
  guest : Int → Option DbGuest
  table : List MastodonUser
  /-- Connecting may fail before the query runs. -/
  connect : Except Text (Psql table)
  page : Nat → PageReply
  ban : Int → BanReply

structure Entry where
  id : Int
  username : Text
  email : Text
  banned : Bool

structure CheckResult where
  totalPeertubeUsers : Nat := 0
  totalMastodonEmails : Nat := 0
  matched : Nat := 0
  unmatched : List Entry := []
  skippedAdmins : Nat := 0
  errors : List Text := []

/-- What a check returns, and the users it asked PeerTube to block. -/
structure Check where
  success : Bool
  result : CheckResult
  requests : List PeerTubeUser := []

section

variable (u : CharTable) (lower : Text → Text)

/-- The addresses of psql's output. -/
def readEmails : Text × Text × Int → Except Text (List Text)
  | (stdout, stderr, code) =>
    if code ≠ 0 then .error ("psql query failed (exit ".toList ++ intText code ++ "): ".toList ++ strip stderr)
    else .ok ((strippedLines stdout).map lower).dedup

/-- `fetch_mastodon_emails`; `none` if it raises. -/
def fetchMastodonEmails (site : Site) : Option (Except Text (List Text)) :=
  match truthy site.dbGuestId with
  | none => some (.error "Mastodon DB guest not configured (mastodon_db_guest_id)".toList)
  | some dbGuestId => do
    let id ← parseInt dbGuestId
    match site.guest id with
    | none => some (.error ("Mastodon DB guest (id=".toList ++ dbGuestId ++ ") not found".toList))
    | some guest =>
      let named := "Mastodon DB guest '".toList ++ guest.name
      if (truthy guest.ipAddress).isNone then some (.error (named ++ "' has no IP address".toList))
      else if guest.credential = false then some (.error (named ++ "' has no SSH credential".toList))
      else match truthy site.dbName with
        | none => some (.error "Database name is empty".toList)
        | some dbName =>
          if u.validateShellParam dbName = false then some (.error ("Database name contains unsafe characters: ".toList ++ site.repr dbName))
          else match site.connect with
            | .error message => some (.error ("SSH error querying Mastodon DB: ".toList ++ message))
            | .ok psql => some (readEmails lower (execute 30 psql.exec))

/-- A user of the listing as `fetch_peertube_users` keeps it; `none` if that raises. -/
def RawUser.read (raw : RawUser) : Option PeerTubeUser := do
  let role := match raw.role with
    | none => 2
    | some (.object id) => id.getD 2
    | some (.number id) => id
  let id ← raw.id
  let email ← raw.email.getD (some [])
  return { id, username := raw.username.getD [], email := lower email, role }

/-- The loop of `fetch_peertube_users`; `none` if it raises. -/
def fetchPages (page : Nat → PageReply) : Nat → Nat → List PeerTubeUser → Option (Except Text (List PeerTubeUser))
  | 0, _, users => some (.ok users)
  | n + 1, start, users =>
    match page start with
    | .redirect code =>
      some (.error ("PeerTube API answered with a redirect (HTTP ".toList ++ intText code ++ "); not following it".toList))
    | .httpError code reason => some (.error ("PeerTube API error: HTTP ".toList ++ intText code ++ " - ".toList ++ reason))
    | .failed message => some (.error ("PeerTube API error: ".toList ++ message))
    | .page data total => do
      let users := users ++ (← data.mapM (RawUser.read lower))
      let start := start + 100
      if total ≤ start ∨ data.isEmpty then some (.ok users) else fetchPages page n start users

/-- `fetch_peertube_users`, `_MAX_PEERTUBE_PAGES` pages at most. -/
def fetchPeertubeUsers (page : Nat → PageReply) : Option (Except Text (List PeerTubeUser)) := fetchPages lower page 1000 0 []

/-- `ban_peertube_user`. -/
def banPeertubeUser : BanReply → Except Text Unit
  | .status code => if code = 200 ∨ code = 204 then .ok () else .error ("Unexpected status ".toList ++ intText code)
  | .redirect code =>
    .error ("PeerTube API answered with a redirect (HTTP ".toList ++ intText code ++ "); not following it".toList)
  | .httpError code reason => .error ("HTTP ".toList ++ intText code ++ ": ".toList ++ reason)
  | .failed message => .error message

def PeerTubeUser.isStaff (user : PeerTubeUser) : Bool := user.role == 0 || user.role == 1

/-- One user of the comparison. -/
def compareUser (autoBan : Bool) (ban : Int → BanReply) (emails : List Text) (c : Check) (user : PeerTubeUser) : Check :=
  if user.isStaff then { c with result := { c.result with skippedAdmins := c.result.skippedAdmins + 1 } }
  else if user.email ∈ emails then { c with result := { c.result with matched := c.result.matched + 1 } }
  else
    let entry : Entry := ⟨user.id, user.username, user.email, false⟩
    if autoBan then
      let (entry, errors) := match banPeertubeUser (ban user.id) with
        | .ok _ => ({ entry with banned := true }, c.result.errors)
        | .error err => (entry, c.result.errors ++ ["Failed to ban ".toList ++ user.username ++ ": ".toList ++ err])
      { c with
        result := { c.result with errors, unmatched := c.result.unmatched ++ [entry] }
        requests := c.requests ++ [user] }
    else { c with result := { c.result with unmatched := c.result.unmatched ++ [entry] } }

def Site.autoBan (site : Site) : Bool := site.autoBanEnabled == some "true".toList

/-- `run_moderation_check`; `none` if it raises, which it does before it asks for anything. -/
def runModerationCheck (site : Site) : Option Check :=
  let refuse (result : CheckResult) (msg : Text) : Check := { success := false, result := { result with errors := result.errors ++ [msg] } }
  match truthy site.apiUrl, truthy site.apiToken with
  | some _, some apiToken => do
    match truthy (← site.decrypt apiToken) with
    | none => some (refuse {} "Failed to decrypt PeerTube API token".toList)
    | some _ =>
      match ← fetchMastodonEmails u lower site with
      | .error err => some (refuse {} err)
      | .ok emails =>
        let result : CheckResult := { totalMastodonEmails := emails.length }
        if site.autoBan ∧ emails = [] then
          some (refuse result "Refusing to auto-ban: the Mastodon email set is empty".toList)
        else
          match ← fetchPeertubeUsers lower site.page with
          | .error err => some (refuse result err)
          | .ok users =>
            let result := { result with totalPeertubeUsers := users.length }
            some (users.foldl (compareUser site.autoBan site.ban emails) { success := true, result })
  | _, _ => some (refuse {} "PeerTube API URL or token not configured".toList)

/-! ### What is left of the addresses -/

/-- The lines of psql's output that `execute` keeps. -/
def capturedLines (limit : Nat) (rows : List Text) : List Text :=
  cutLines limit rows ++ if limit < (encode (printLines rows)).length then [CappedBuffer.mark limit] else []

/-- The addresses on these lines. -/
def keptEmails (limit : Nat) (rows : List Text) : List Text := (((capturedLines limit rows).map strip).filter (· ≠ [])).map lower

/-- The address, which is in lower case, is one of a registered user, without regard to case. -/
def Registered (table : List MastodonUser) (email : Text) : Prop := ∃ m ∈ table, m.selected = true ∧ lower m.email.text = email

theorem newline_not_mem_mark (limit : Nat) : '\n' ∉ CappedBuffer.mark limit := by
  unfold CappedBuffer.mark
  rw [List.mem_append, List.mem_append, not_or, not_or]
  exact ⟨⟨by decide, not_mem_natText (by decide)⟩, by decide⟩

theorem splitOn_text_capture {limit : Nat} {out : List Bytes} {rows : List Text} (hrows : ∀ row ∈ rows, '\n' ∉ row)
    (hout : out.flatten = encode (printLines rows)) : (capture limit out).text.splitOn '\n' = capturedLines limit rows := by
  rw [text_capture, hout, capturedLines]
  split
  · have hmark : (CappedBuffer.mark limit).splitOn '\n' = [CappedBuffer.mark limit] := by
      refine List.splitOnP_eq_singleton ?_
      intro c hc
      rw [beq_eq_false_iff_ne]
      rintro rfl
      exact newline_not_mem_mark limit hc
    rw [← splitOn_take_printLines hrows, ← hmark]
    exact List.splitOnP_append_cons _ _ (by simp)
  · rw [List.append_nil, List.append_nil, splitOn_take_printLines hrows]

theorem newline_not_mem_selectedEmails {table : List MastodonUser} : ∀ row ∈ selectedEmails table, '\n' ∉ row := by
  intro row hrow
  obtain ⟨m, -, rfl⟩ := List.mem_map.1 hrow
  exact m.email.single

/-- The set of addresses that a check works with. -/
theorem mem_strippedLines_capture {limit : Nat} {out : List Bytes} {rows : List Text} (hrows : ∀ row ∈ rows, '\n' ∉ row)
    (hout : out.flatten = encode (printLines rows)) (email : Text) :
    email ∈ ((strippedLines (capture limit out).text).map lower).dedup ↔ email ∈ keptEmails lower limit rows := by
  rw [List.mem_dedup, keptEmails, List.mem_map, List.mem_map]
  refine exists_congr fun line => and_congr_left fun _ => ?_
  rw [mem_strippedLines, splitOn_text_capture hrows hout, List.mem_filter, List.mem_map, decide_eq_true_eq]
  exact and_comm

/-! ### A check -/

/-- The query runs and exits 0. -/
structure Site.Queries (site : Site) (psql : Psql site.table) : Prop where
  database : ∃ key id guest name, truthy site.dbGuestId = some key ∧ parseInt key = some id ∧ site.guest id = some guest ∧
    (truthy guest.ipAddress).isNone = false ∧ guest.credential = true ∧ truthy site.dbName = some name ∧
    u.validateShellParam name = true
  connected : site.connect = .ok psql
  exits : ∃ out err, psql.exec = .finished out err 0

/-- The check comes to the comparison, with these users. -/
structure Site.Compares (site : Site) (users : List PeerTubeUser) : Prop where
  url : (truthy site.apiUrl).isSome = true
  token : ∃ apiToken secret, truthy site.apiToken = some apiToken ∧ site.decrypt apiToken = some secret ∧
    (truthy secret).isSome = true
  queries : ∃ psql, site.Queries u psql
  some_email : site.autoBan = true → keptEmails lower maxOutputBytes (selectedEmails site.table) ≠ []
  listing : fetchPeertubeUsers lower site.page = some (.ok users)

variable {u lower}

theorem readEmails_eq_ok_iff {stdout stderr : Text} {code : Int} {emails : List Text} :
    readEmails lower (stdout, stderr, code) = .ok emails ↔ code = 0 ∧ ((strippedLines stdout).map lower).dedup = emails := by
  rw [readEmails]
  by_cases hcode : code = 0
  · rw [if_neg (not_not.2 hcode), Except.ok.injEq]
    exact (and_iff_right hcode).symm
  · rw [if_pos hcode]
    constructor
    · intro h
      cases h
    · rintro ⟨h, -⟩
      exact absurd h hcode

theorem readEmails_ok {exec : Exec} {emails : List Text} (h : readEmails lower (execute 30 exec) = .ok emails) :
    ∃ out err, exec = .finished out err 0 ∧ ((strippedLines (capture maxOutputBytes out).text).map lower).dedup = emails := by
  cases exec with
  | expired | failed => exact absurd (readEmails_eq_ok_iff.1 h).1 (by decide)
  | finished out err code =>
    obtain ⟨rfl, hemails⟩ := readEmails_eq_ok_iff.1 h
    exact ⟨out, err, rfl, hemails⟩

theorem readEmails_finished (out err : List Bytes) : readEmails lower (execute 30 (.finished out err 0)) =
    .ok ((strippedLines (capture maxOutputBytes out).text).map lower).dedup := readEmails_eq_ok_iff.2 ⟨rfl, rfl⟩

/-- The addresses come from a run of the query that exits 0, as far as its output is kept. -/
theorem fetchMastodonEmails_ok {site : Site} {emails : List Text}
    (h : fetchMastodonEmails u lower site = some (.ok emails)) : (∃ psql, site.Queries u psql) ∧
      ∀ email, email ∈ emails ↔ email ∈ keptEmails lower maxOutputBytes (selectedEmails site.table) := by
  unfold fetchMastodonEmails at h
  split at h
  · cases h
  rename_i key hkey
  obtain ⟨id, hid, h⟩ := Option.bind_eq_some_iff.1 h
  split at h
  · cases h
  rename_i guest hguest
  dsimp only at h
  split at h
  · cases h
  rename_i hip
  split at h
  · cases h
  rename_i hcred
  split at h
  · cases h
  rename_i name hname
  split at h
  · cases h
  rename_i hvalid
  split at h
  · cases h
  rename_i psql hconn
  obtain ⟨out, err, hexec, hemails⟩ := readEmails_ok (Option.some.inj h)
  refine ⟨⟨psql, ⟨key, id, guest, name, hkey, hid, hguest, eq_false_of_ne_true hip, eq_true_of_ne_false hcred, hname,
    eq_true_of_ne_false hvalid⟩, hconn, out, err, hexec⟩, ?_⟩
  intro email
  rw [← hemails]
  exact mem_strippedLines_capture lower newline_not_mem_selectedEmails (psql.printed out err hexec) email

variable (lower) in
theorem fetchMastodonEmails_of_queries {site : Site} {psql : Psql site.table} (h : site.Queries u psql) :
    ∃ emails, fetchMastodonEmails u lower site = some (.ok emails) := by
  obtain ⟨key, id, guest, name, hkey, hid, hguest, hip, hcred, hname, hvalid⟩ := h.database
  obtain ⟨out, err, hexec⟩ := h.exits
  unfold fetchMastodonEmails
  rw [hkey]
  dsimp only
  rw [hid, Option.bind_eq_bind, Option.bind_some, hguest]
  dsimp only
  rw [if_neg (by simp [hip]), if_neg (by simp [hcred]), hname]
  dsimp only
  rw [if_neg (by simp [hvalid]), h.connected]
  dsimp only
  rw [hexec, readEmails_finished]
  exact ⟨_, rfl⟩

/-- What a check did up to some user. -/
structure Check.After (c : Check) (autoBan : Bool) (emails : List Text) (users : List PeerTubeUser) : Prop where
  requests : c.requests = users.filter fun user => autoBan && !user.isStaff && decide (user.email ∉ emails)
  counts : c.result.matched + c.result.unmatched.length + c.result.skippedAdmins = users.length

theorem Check.After.step {c : Check} {autoBan : Bool} {emails : List Text} {users : List PeerTubeUser} (h : c.After autoBan emails users)
    (ban : Int → BanReply) (user : PeerTubeUser) : (compareUser autoBan ban emails c user).After autoBan emails (users ++ [user]) := by
  have hrequests := h.requests
  have hcounts := h.counts
  constructor
  · rw [List.filter_append, ← hrequests]
    unfold compareUser
    cases hstaff : user.isStaff with
    | true => simp [hstaff]
    | false =>
      by_cases hmem : user.email ∈ emails
      · simp [hstaff, hmem]
      · cases autoBan with
        | true => simp [hstaff, hmem]
        | false => simp [hmem]
  · rw [List.length_append, List.length_singleton, ← hcounts]
    unfold compareUser
    split
    · dsimp only
      omega
    · split
      · dsimp only
        omega
      · split
        · dsimp only
          rw [List.length_append, List.length_singleton]
          omega
        · dsimp only
          rw [List.length_append, List.length_singleton]
          omega

theorem Check.After.foldl {c : Check} {autoBan : Bool} {emails : List Text} {before : List PeerTubeUser}
    (h : c.After autoBan emails before) (ban : Int → BanReply) (users : List PeerTubeUser) :
    (users.foldl (compareUser autoBan ban emails) c).After autoBan emails (before ++ users) := by
  induction users generalizing c before with
  | nil => rwa [List.append_nil]
  | cons user users ih =>
    have hnext := ih (h.step ban user)
    rwa [List.append_assoc, List.singleton_append] at hnext

theorem compareUser_frame (autoBan : Bool) (ban : Int → BanReply) (emails : List Text) (c : Check) (user : PeerTubeUser) :
    (compareUser autoBan ban emails c user).success = c.success ∧
      (compareUser autoBan ban emails c user).result.totalPeertubeUsers = c.result.totalPeertubeUsers := by
  unfold compareUser
  split
  · exact ⟨rfl, rfl⟩
  · split
    · exact ⟨rfl, rfl⟩
    · split
      · exact ⟨rfl, rfl⟩
      · exact ⟨rfl, rfl⟩

theorem compare_frame (autoBan : Bool) (ban : Int → BanReply) (emails : List Text) (users : List PeerTubeUser) (c : Check) :
    (users.foldl (compareUser autoBan ban emails) c).success = c.success ∧
      (users.foldl (compareUser autoBan ban emails) c).result.totalPeertubeUsers = c.result.totalPeertubeUsers := by
  induction users generalizing c with
  | nil => exact ⟨rfl, rfl⟩
  | cons user users ih =>
    obtain ⟨hsuccess, htotal⟩ := ih (compareUser autoBan ban emails c user)
    obtain ⟨hsuccess', htotal'⟩ := compareUser_frame autoBan ban emails c user
    exact ⟨hsuccess.trans hsuccess', htotal.trans htotal'⟩

/-- A check that compared these users. -/
structure Site.Compared (site : Site) (lower : Text → Text) (users : List PeerTubeUser) (c : Check) : Prop where
  success : c.success = true
  total : c.result.totalPeertubeUsers = users.length
  after : c.After site.autoBan (keptEmails lower maxOutputBytes (selectedEmails site.table)) users

/-- A check that stopped before it compared any. -/
structure Check.Refused (c : Check) : Prop where
  success : c.success = false
  requests : c.requests = []
  counts : c.result.matched = 0 ∧ c.result.unmatched = [] ∧ c.result.skippedAdmins = 0 ∧ c.result.totalPeertubeUsers = 0

theorem Check.After.congr {c : Check} {autoBan : Bool} {emails emails' : List Text} {users : List PeerTubeUser}
    (h : c.After autoBan emails users) (heq : ∀ email, email ∈ emails ↔ email ∈ emails') : c.After autoBan emails' users := by
  refine ⟨?_, h.counts⟩
  rw [h.requests]
  refine List.filter_congr fun user _ => ?_
  simp only [heq]

/-- A check compares the users of the listing, or it stops. -/
theorem runModerationCheck_cases {site : Site} {c : Check} (h : runModerationCheck u lower site = some c) :
    (∃ users, site.Compares u lower users ∧ site.Compared lower users c) ∨ c.Refused := by
  unfold runModerationCheck at h
  dsimp only at h
  split at h
  · rename_i url apiToken hurl htoken
    obtain ⟨secret, hdecrypt, h⟩ := Option.bind_eq_some_iff.1 h
    split at h
    · cases h
      exact Or.inr ⟨rfl, rfl, rfl, rfl, rfl, rfl⟩
    rename_i plain hplain
    obtain ⟨fetched, hfetched, h⟩ := Option.bind_eq_some_iff.1 h
    split at h
    · cases h
      exact Or.inr ⟨rfl, rfl, rfl, rfl, rfl, rfl⟩
    rename_i emails
    obtain ⟨hqueries, hemails⟩ := fetchMastodonEmails_ok hfetched
    split at h
    · cases h
      exact Or.inr ⟨rfl, rfl, rfl, rfl, rfl, rfl⟩
    rename_i hfloor
    obtain ⟨listing, hlisting, h⟩ := Option.bind_eq_some_iff.1 h
    split at h
    · cases h
      exact Or.inr ⟨rfl, rfl, rfl, rfl, rfl, rfl⟩
    rename_i users
    refine Or.inl ⟨users, ⟨by rw [hurl]; rfl, ⟨apiToken, secret, htoken, hdecrypt, by rw [hplain]; rfl⟩, hqueries, ?_,
      hlisting⟩, ?_⟩
    · intro hban hnone
      refine hfloor ⟨hban, List.eq_nil_iff_forall_not_mem.2 fun email hmem => ?_⟩
      have := (hemails email).1 hmem
      rw [hnone] at this
      exact List.not_mem_nil this
    · obtain rfl := Option.some.inj h
      obtain ⟨hsuccess, htotal⟩ := compare_frame site.autoBan site.ban emails users
        { success := true, result := { totalMastodonEmails := emails.length, totalPeertubeUsers := users.length } }
      have hstart : Check.After { success := true, result := { totalMastodonEmails := emails.length, totalPeertubeUsers := users.length } }
          site.autoBan emails [] := ⟨rfl, rfl⟩
      exact ⟨hsuccess, htotal, (hstart.foldl site.ban users).congr hemails⟩
  · cases h
    exact Or.inr ⟨rfl, rfl, rfl, rfl, rfl, rfl⟩

/-- A check that can compare the users does. -/
theorem runModerationCheck_of_compares {site : Site} {users : List PeerTubeUser} (h : site.Compares u lower users) :
    ∃ c, runModerationCheck u lower site = some c ∧ site.Compared lower users c := by
  obtain ⟨url, hurl⟩ := Option.isSome_iff_exists.1 h.url
  obtain ⟨apiToken, secret, htoken, hdecrypt, hplain⟩ := h.token
  obtain ⟨plain, hplain⟩ := Option.isSome_iff_exists.1 hplain
  obtain ⟨psql, hqueries⟩ := h.queries
  obtain ⟨emails, hfetched⟩ := fetchMastodonEmails_of_queries lower hqueries
  have hemails := (fetchMastodonEmails_ok hfetched).2
  have hfloor : ¬ (site.autoBan = true ∧ emails = []) := by
    rintro ⟨hban, rfl⟩
    exact h.some_email hban (List.eq_nil_iff_forall_not_mem.2 fun email hmem => List.not_mem_nil ((hemails email).2 hmem))
  obtain ⟨c, hc, hsuccess⟩ : ∃ c, runModerationCheck u lower site = some c ∧ c.success = true := by
    unfold runModerationCheck
    rw [hurl, htoken]
    dsimp only
    rw [hdecrypt, Option.bind_eq_bind, Option.bind_some, hplain]
    dsimp only
    rw [hfetched, Option.bind_eq_bind, Option.bind_some]
    dsimp only
    rw [if_neg hfloor, h.listing, Option.bind_eq_bind, Option.bind_some]
    exact ⟨_, rfl, (compare_frame _ _ _ _ _).1⟩
  rcases runModerationCheck_cases hc with ⟨users', hcompares, hcompared⟩ | hrefused
  · have hsame : some (Except.ok (ε := Text) users') = some (.ok users) := hcompares.listing.symm.trans h.listing
    cases hsame
    exact ⟨c, hc, hcompared⟩
  · rw [hrefused.success] at hsuccess
    cases hsuccess

/-! ### Whom a check spares -/

variable (lower) in
/-- What a check is to keep: it asks to block a user only with `auto_ban`, only without staff role, and only if no registered
user has the address; and every user fetched is counted once. -/
structure Site.Keeps (site : Site) (c : Check) : Prop where
  spares : ∀ user ∈ c.requests, site.autoBan = true ∧ user.role ≠ 0 ∧ user.role ≠ 1 ∧ ¬ Registered lower site.table user.email
  counts : c.result.matched + c.result.unmatched.length + c.result.skippedAdmins = c.result.totalPeertubeUsers
  fetched : c.success = true → ∃ users, fetchPeertubeUsers lower site.page = some (.ok users) ∧
    c.result.totalPeertubeUsers = users.length

theorem isStaff_eq_false_iff {user : PeerTubeUser} : user.isStaff = false ↔ user.role ≠ 0 ∧ user.role ≠ 1 := by
  unfold PeerTubeUser.isStaff
  rw [Bool.or_eq_false_iff, beq_eq_false_iff_ne, beq_eq_false_iff_ne]

theorem Check.After.mem_requests {c : Check} {autoBan : Bool} {emails : List Text} {users : List PeerTubeUser}
    (h : c.After autoBan emails users) {user : PeerTubeUser} :
    user ∈ c.requests ↔ user ∈ users ∧ autoBan = true ∧ user.isStaff = false ∧ user.email ∉ emails := by
  rw [h.requests, List.mem_filter, Bool.and_eq_true, Bool.and_eq_true, Bool.not_eq_true', decide_eq_true_eq, and_assoc]

/-- A check spares every registered user exactly if each of them that it could ask to block has its address on a line of psql's
output that is left. -/
theorem auto_ban_spares_registered_iff (u : CharTable) (lower : Text → Text) (site : Site) :
    (∀ c, runModerationCheck u lower site = some c → site.Keeps lower c) ↔
      ∀ users, site.Compares u lower users → site.autoBan = true → ∀ user ∈ users, user.role ≠ 0 → user.role ≠ 1 →
        Registered lower site.table user.email → user.email ∈ keptEmails lower maxOutputBytes (selectedEmails site.table) := by
  constructor
  · intro h users hcompares hban user huser hadmin hmoderator hregistered
    obtain ⟨c, hc, hcompared⟩ := runModerationCheck_of_compares hcompares
    by_contra hlost
    have hasked : user ∈ c.requests :=
      hcompared.after.mem_requests.2 ⟨huser, hban, isStaff_eq_false_iff.2 ⟨hadmin, hmoderator⟩, hlost⟩
    exact ((h c hc).spares user hasked).2.2.2 hregistered
  · intro h c hc
    rcases runModerationCheck_cases hc with ⟨users, hcompares, hcompared⟩ | hrefused
    · refine ⟨?_, hcompared.after.counts.trans hcompared.total.symm, fun _ => ⟨users, hcompares.listing, hcompared.total⟩⟩
      intro user hasked
      obtain ⟨huser, hban, hstaff, hlost⟩ := hcompared.after.mem_requests.1 hasked
      obtain ⟨hadmin, hmoderator⟩ := isStaff_eq_false_iff.1 hstaff
      exact ⟨hban, hadmin, hmoderator, fun hregistered =>
        hlost (h users hcompares hban user huser hadmin hmoderator hregistered)⟩
    · obtain ⟨hmatched, hunmatched, hskipped, htotal⟩ := hrefused.counts
      refine ⟨?_, ?_, ?_⟩
      · rw [hrefused.requests]
        exact fun user hasked => absurd hasked List.not_mem_nil
      · rw [hmatched, hunmatched, hskipped, htotal]
        rfl
      · rw [hrefused.success]
        exact fun hfalse => absurd hfalse Bool.false_ne_true

/-! ### A table that is too long -/

/-- An address of the host `example.com`. -/
def exampleAddress (name : Text) (h : '\n' ∉ name) : Address where
  text := name ++ "@example.com".toList
  single := by
    rw [List.mem_append, not_or]
    exact ⟨h, by decide⟩

def confirmedUser (email : Address) : MastodonUser := { email, confirmed := true, disabled := false, suspended := false }

def numbered (i : Nat) : MastodonUser :=
  confirmedUser (exampleAddress ('u' :: natText i) (by
    rw [List.mem_cons, not_or]
    exact ⟨by decide, not_mem_natText (by decide)⟩))

def zoe : MastodonUser := confirmedUser (exampleAddress "zoe".toList (by decide))

def crowd : List MastodonUser := (List.range 600000).map numbered ++ [zoe]

/-- Auto-ban is on, six hundred thousand registered users stand before `zoe`, and `zoe` has a PeerTube account. -/
def crowdedSite : Site where
  apiUrl := some "https://peertube.example.com".toList
  apiToken := some ['t']
  autoBanEnabled := some "true".toList
  dbGuestId := some ['1']
  dbName := some "mastodon_production".toList
  repr t := '\'' :: t ++ ['\'']
  decrypt _ := some (some ['t'])
  guest _ := some ⟨['d', 'b'], some "10.0.0.5".toList, true⟩
  table := crowd
  connect := .ok
    { exec := .finished [encode (printLines (selectedEmails crowd))] [] 0
      printed := by
        rintro out err h
        cases h
        rw [List.flatten_singleton] }
  page _ := .page [⟨some 7, some "zoe".toList, some (some "zoe@example.com".toList), some (.object (some 2))⟩] 1
  ban _ := .status 204

def crowdRows : List Text := (List.range 600000).map fun i => 'u' :: natText i ++ "@example.com".toList

theorem selectedEmails_crowd : selectedEmails crowd = crowdRows ++ ["zoe@example.com".toList] := by
  have hall : ∀ i ∈ List.range 600000, (MastodonUser.selected ∘ numbered) i = true := fun i _ => rfl
  unfold selectedEmails crowd
  rw [List.filter_append, List.map_append, List.filter_map, List.filter_eq_self.2 hall, List.map_map]
  rfl

theorem exists_of_mem_crowdRows {row : Text} (h : row ∈ crowdRows) : ∃ i, row = 'u' :: natText i ++ "@example.com".toList := by
  obtain ⟨i, -, rfl⟩ := List.mem_map.1 h
  exact ⟨i, rfl⟩

theorem le_length_crowdRows : maxOutputBytes ≤ (encode (printLines crowdRows)).length := by
  have hrow : ∀ row ∈ crowdRows, 13 ≤ row.length := by
    intro row hrow
    obtain ⟨i, rfl⟩ := exists_of_mem_crowdRows hrow
    have htail : "@example.com".toList.length = 12 := by decide
    rw [List.length_append, List.length_cons, htail]
    omega
  have hlength := le_length_encode_printLines hrow
  have hrows : crowdRows.length = 600000 := by rw [crowdRows, List.length_map, List.length_range]
  rw [hrows] at hlength
  exact Nat.le_trans (by decide) hlength

/-- The first character of a stripped line is its own. -/
theorem strip_cons_of_not_space {c : Char} (hc : isSpace c = false) (t : Text) : ∃ t', strip (c :: t) = c :: t' := by
  unfold strip
  rw [List.dropWhile_cons_of_neg (by simp [hc])]
  change ∃ t', List.rdropWhile isSpace (c :: t) = c :: t'
  obtain ⟨s, hs⟩ := List.rdropWhile_prefix isSpace (c :: t)
  cases hr : List.rdropWhile isSpace (c :: t) with
  | nil =>
    rw [List.rdropWhile_eq_nil_iff] at hr
    rw [hr c (by simp)] at hc
    cases hc
  | cons d t' =>
    rw [hr, List.cons_append, List.cons.injEq] at hs
    exact ⟨t', by rw [hs.1]⟩

/-- A captured line of the crowd is empty or begins with a letter that is no `z`. -/
theorem capturedLines_crowd {line : Text} (h : line ∈ capturedLines maxOutputBytes (selectedEmails crowd)) :
    line = [] ∨ ∃ c t, line = c :: t ∧ c ∈ ['u', replacement, '['] := by
  unfold capturedLines at h
  rw [List.mem_append] at h
  rcases h with h | h
  · rw [selectedEmails_crowd, cutLines_append_of_le _ le_length_crowdRows] at h
    rcases of_mem_cutLines h with hnil | ⟨row, hrow, k, hk⟩
    · exact Or.inl hnil
    · obtain ⟨i, rfl⟩ := exists_of_mem_crowdRows hrow
      cases k with
      | zero =>
        rcases hk with rfl | rfl
        · exact Or.inl rfl
        · exact Or.inr ⟨replacement, [], rfl, by decide⟩
      | succ k =>
        rcases hk with rfl | rfl
        · exact Or.inr ⟨'u', _, rfl, by decide⟩
        · exact Or.inr ⟨'u', _, rfl, by decide⟩
  · split at h
    · rw [List.mem_singleton.1 h]
      exact Or.inr ⟨'[', _, rfl, by decide⟩
    · exact absurd h List.not_mem_nil

theorem zoe_lost : "zoe@example.com".toList ∉ keptEmails (List.map Char.toLower) maxOutputBytes (selectedEmails crowd) := by
  intro h
  obtain ⟨line, hline, hzoe⟩ := List.mem_map.1 h
  obtain ⟨hmem, hne⟩ := List.mem_filter.1 hline
  obtain ⟨captured, hcaptured, rfl⟩ := List.mem_map.1 hmem
  rcases capturedLines_crowd hcaptured with rfl | ⟨c, t, rfl, hc⟩
  · exact absurd rfl (of_decide_eq_true hne)
  · have hother : isSpace c = false ∧ c.toLower ≠ 'z' := by
      simp only [List.mem_cons, List.not_mem_nil, or_false] at hc
      rcases hc with rfl | rfl | rfl
      · exact ⟨by decide, by decide⟩
      · exact ⟨by decide, by decide⟩
      · exact ⟨by decide, by decide⟩
    obtain ⟨t', ht'⟩ := strip_cons_of_not_space hother.1 t
    rw [ht', List.map_cons] at hzoe
    exact hother.2 (List.cons.inj hzoe).1

theorem keptEmails_crowd_ne_nil : keptEmails (List.map Char.toLower) maxOutputBytes (selectedEmails crowd) ≠ [] := by
  obtain ⟨rows, hrows⟩ : ∃ rows, selectedEmails crowd = "u0@example.com".toList :: rows := by
    have hrange : List.range 600000 = 0 :: (List.range 599999).map Nat.succ := List.range_succ_eq_map
    have hfirst : 'u' :: natText 0 ++ "@example.com".toList = "u0@example.com".toList := by decide
    rw [selectedEmails_crowd, crowdRows, hrange, List.map_cons, List.cons_append, hfirst]
    exact ⟨_, rfl⟩
  have hcaptured : "u0@example.com".toList ∈ capturedLines maxOutputBytes (selectedEmails crowd) := by
    rw [hrows, capturedLines, cutLines, if_pos (by decide)]
    exact List.mem_append_left _ List.mem_cons_self
  have hstrip : strip "u0@example.com".toList ≠ [] := by decide
  have hkept : strip "u0@example.com".toList ∈ ((capturedLines maxOutputBytes (selectedEmails crowd)).map strip).filter (· ≠ []) :=
    List.mem_filter.2 ⟨List.mem_map.2 ⟨_, hcaptured, rfl⟩, decide_eq_true hstrip⟩
  exact List.ne_nil_of_mem (List.mem_map_of_mem hkept)

/-- No character outside ASCII counts as a letter. -/
def asciiOnly : CharTable := ⟨fun _ => false, fun _ => false⟩

def peerTubeZoe : PeerTubeUser := ⟨7, "zoe".toList, "zoe@example.com".toList, 2⟩

theorem crowdedSite_compares : crowdedSite.Compares asciiOnly (List.map Char.toLower) [peerTubeZoe] where
  url := rfl
  token := ⟨['t'], some ['t'], rfl, rfl, rfl⟩
  queries := ⟨_, ⟨['1'], 1, _, _, rfl, by decide, rfl, rfl, rfl, rfl, by decide⟩, rfl, _, _, rfl⟩
  some_email _ := keptEmails_crowd_ne_nil
  listing := rfl

theorem registered_zoe : Registered (List.map Char.toLower) crowd "zoe@example.com".toList := by
  have hmem : zoe ∈ crowd := by
    unfold crowd
    exact List.mem_append.2 (Or.inr (List.mem_singleton_self zoe))
  exact ⟨zoe, hmem, rfl, by decide⟩

/-- `zoe` is registered, and PeerTube is asked to block her. -/
theorem crowded_out : ¬ ∀ c, runModerationCheck asciiOnly (List.map Char.toLower) crowdedSite = some c →
    crowdedSite.Keeps (List.map Char.toLower) c := by
  intro h
  obtain ⟨c, hc, hcompared⟩ := runModerationCheck_of_compares crowdedSite_compares
  have hasked : peerTubeZoe ∈ c.requests := hcompared.after.mem_requests.2 ⟨List.mem_singleton_self _, rfl, rfl, zoe_lost⟩
  exact ((h c hc).spares peerTubeZoe hasked).2.2.2 registered_zoe

end

end ProxmoxTool.Moderation
