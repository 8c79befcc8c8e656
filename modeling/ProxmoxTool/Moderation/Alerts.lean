import ProxmoxTool.Lib.Dedupe
import ProxmoxTool.Lib.Rows
import ProxmoxTool.Moderation.Settings

/-!
# Moderation alerts

An alert is about a subject: its kind, the account, and for a post the status.  `record_alert` inserts an alert unless a row
with the same dedupe key stands, and the key determines the subject (`makeDedupeKey_injective`), so an insertion is
`Marks.raise` on the subjects (`marks_recordAlert`).

`Db` has the tables of the watch poll.  Three of its fields record the run: `log` has every alert ever inserted, `outbox` the
subjects that were notified on, and `welcomed` the accounts that got a welcome message.  None of them ever shrinks.
-/

namespace ProxmoxTool.Moderation

abbrev AccountId := Nat
abbrev StatusId := Nat
abbrev WatchId := Nat

/-- Seconds since 1970. -/
abbrev Time := Int

def days (n : Int) : Time := 86400 * n

def hours (n : Int) : Time := 3600 * n

inductive AlertKind
  | watchedPost
  | newAccount
  | silentLogin
  deriving DecidableEq, Repr

def AlertKind.text : AlertKind → Text
  | .watchedPost => ['w', 'a', 't', 'c', 'h', 'e', 'd', '_', 'p', 'o', 's', 't']
  | .newAccount => ['n', 'e', 'w', '_', 'a', 'c', 'c', 'o', 'u', 'n', 't']
  | .silentLogin => ['s', 'i', 'l', 'e', 'n', 't', '_', 'l', 'o', 'g', 'i', 'n']

/-- What an alert is about. -/
structure Subject where
  kind : AlertKind
  account : AccountId
  status : Option StatusId
  deriving DecidableEq, Repr

def Subject.post (account : AccountId) (status : StatusId) : Subject := ⟨.watchedPost, account, some status⟩

def Subject.signup (account : AccountId) : Subject := ⟨.newAccount, account, none⟩

def Subject.silent (account : AccountId) : Subject := ⟨.silentLogin, account, none⟩

/-- `ModerationAlert.make_dedupe_key`; the ids of Mastodon are decimal numerals. -/
def makeDedupeKey (s : Subject) : Text :=
  s.kind.text ++ ':' :: (natText s.account ++ ':' :: (s.status.map natText).getD [])

private theorem natText_injective {m n : Nat} (h : natText m = natText n) : m = n := by
  have := congrArg parseInt h
  rw [parseInt_natText, parseInt_natText] at this
  exact Int.ofNat.inj (Option.some.inj this)

private theorem split_at_colon {a a' b b' : Text} (ha : ':' ∉ a) (ha' : ':' ∉ a') (h : a ++ ':' :: b = a' ++ ':' :: b') :
    a = a' ∧ b = b' := by
  have hp := congrArg (partition ':') h
  rw [partition_append ha, partition_append ha'] at hp
  exact ⟨(Prod.mk.inj hp).1, (Prod.mk.inj (Prod.mk.inj hp).2).2⟩

/-- Two subjects have the same key only if they are the same. -/
theorem makeDedupeKey_injective : Function.Injective makeDedupeKey := by
  rintro ⟨kind, account, status⟩ ⟨kind', account', status'⟩ h
  have hkind : ∀ k : AlertKind, ':' ∉ k.text := by
    intro k
    cases k <;> decide
  have hid : ∀ n, ':' ∉ natText n := fun n => not_mem_natText (by decide)
  obtain ⟨hk, h⟩ := split_at_colon (hkind kind) (hkind kind') h
  obtain ⟨ha, hs⟩ := split_at_colon (hid account) (hid account') h
  have hkinds : kind = kind' := by
    revert hk
    cases kind <;> cases kind' <;> decide
  have hstatus : status = status' := by
    cases status with
    | none => cases status' with
      | none => rfl
      | some b => exact absurd hs.symm (natText_ne_nil b)
    | some a => cases status' with
      | none => exact absurd hs (natText_ne_nil a)
      | some b => exact congrArg some (natText_injective hs)
  rw [hkinds, natText_injective ha, hstatus]

/-! ### Rows -/

/-- A status as `summarize_status` gives it. -/
structure Status where
  id : StatusId
  url : Option Text := none
  excerpt : Text := []
  accountAcct : Option Text := none
  deriving DecidableEq, Repr

/-- The part of an account that `record_alert` reads. -/
structure Account where
  id : AccountId
  acct : Text
  excerpt : Option Text := none
  deriving DecidableEq, Repr

/-- A row of `moderation_alerts`; the column `dedupe_key` is `makeDedupeKey` of the subject. -/
structure Alert where
  subject : Subject
  acct : Text
  statusUrl : Option Text
  excerpt : Option Text
  createdAt : Time
  acknowledgedAt : Option Time := none
  deriving DecidableEq, Repr

def Alert.dedupeKey (a : Alert) : Text := makeDedupeKey a.subject

/-- A row of `moderation_watches`. -/
structure Watch where
  id : WatchId
  account : AccountId
  acct : Text
  autoAdded : Bool := false
  expiresAt : Option Time := none
  lastStatusId : Option StatusId := none
  lastCheckedAt : Option Time := none
  deriving DecidableEq, Repr

structure Db where
  watches : List Watch := []
  alerts : List Alert := []
  /-- The accounts with a row in `moderation_welcomes`. -/
  welcomes : List AccountId := []
  /-- The setting `moderation_watch_new_account_cursor`. -/
  newAccountCursor : Option Time := none
  /-- The setting `moderation_watch_silent_last_scan_at`. -/
  silentLastScanAt : Option Time := none
  log : List Alert := []
  outbox : List Subject := []
  welcomed : List AccountId := []
  deriving DecidableEq, Repr

/-- The subjects of the alerts that stand and of all alerts so far. -/
def Db.marks (db : Db) : Marks Subject := ⟨db.alerts.map Alert.subject, db.log.map Alert.subject⟩

/-! ### Recording -/

def http : Text := ['h', 't', 't', 'p']

def badUrlChars : List Char := [' ', '"', '\'', '<', '>', '\\']

/-- `_http_url_or_none`. -/
def httpUrlOrNone (value : Option Text) : Option Text :=
  match value with
  | none => none
  | some value =>
    let value := strip value
    let head := (value.take 8).map Char.toLower
    if 512 < value.length then none
    else if !((http ++ [':', '/', '/']).isPrefixOf head || (http ++ ['s', ':', '/', '/']).isPrefixOf head) then none
    else if value.any fun c => c ∈ badUrlChars || c.toNat < 32 then none
    else some value

/-- `record_alert`, with the inserted row. -/
def recordAlert (notify : Bool) (clock : Time) (kind : AlertKind) (account : Account) (status : Option Status) (db : Db) :
    Db × Option Alert :=
  let subject : Subject := ⟨kind, account.id, status.map Status.id⟩
  if db.alerts.any fun r => r.dedupeKey = makeDedupeKey subject then (db, none)
  else
    let alert : Alert := {
      subject := subject
      acct := account.acct
      statusUrl := status.bind fun s => httpUrlOrNone s.url
      excerpt := match status with
        | some s => some s.excerpt
        | none => account.excerpt
      createdAt := clock }
    ({ db with
      alerts := db.alerts ++ [alert]
      log := db.log ++ [alert]
      outbox := if notify then db.outbox ++ [subject] else db.outbox }, some alert)

section

variable (notify : Bool) (clock : Time) (kind : AlertKind) (account : Account) (status : Option Status) (db : Db)

theorem any_dedupeKey (subject : Subject) :
    (db.alerts.any fun r => r.dedupeKey = makeDedupeKey subject) = true ↔ subject ∈ db.marks.standing := by
  rw [List.any_eq_true]
  constructor
  · rintro ⟨r, hr, hkey⟩
    rw [← makeDedupeKey_injective (of_decide_eq_true hkey)]
    exact List.mem_map_of_mem hr
  · intro h
    obtain ⟨r, hr, rfl⟩ := List.mem_map.1 h
    exact ⟨r, hr, decide_eq_true rfl⟩

/-- Recording an alert raises its subject. -/
theorem marks_recordAlert : (recordAlert notify clock kind account status db).1.marks =
    db.marks.raise ⟨kind, account.id, status.map Status.id⟩ := by
  unfold recordAlert Marks.raise
  by_cases h : (⟨kind, account.id, status.map Status.id⟩ : Subject) ∈ db.marks.standing
  · rw [if_pos ((any_dedupeKey db _).2 h), if_pos h]
  · rw [if_neg (mt (any_dedupeKey db _).1 h), if_neg h]
    simp [Db.marks]

/-- Recording an alert leaves the other tables and the cursors. -/
theorem recordAlert_frame :
    let db' := (recordAlert notify clock kind account status db).1
    db'.watches = db.watches ∧ db'.welcomes = db.welcomes ∧ db'.welcomed = db.welcomed ∧
      db'.newAccountCursor = db.newAccountCursor ∧ db'.silentLastScanAt = db.silentLastScanAt := by
  unfold recordAlert
  dsimp only
  split
  · exact ⟨rfl, rfl, rfl, rfl, rfl⟩
  · exact ⟨rfl, rfl, rfl, rfl, rfl⟩

@[simp] theorem recordAlert_watches : (recordAlert notify clock kind account status db).1.watches = db.watches :=
  (recordAlert_frame notify clock kind account status db).1

@[simp] theorem recordAlert_welcomes : (recordAlert notify clock kind account status db).1.welcomes = db.welcomes :=
  (recordAlert_frame notify clock kind account status db).2.1

@[simp] theorem recordAlert_welcomed : (recordAlert notify clock kind account status db).1.welcomed = db.welcomed :=
  (recordAlert_frame notify clock kind account status db).2.2.1

@[simp] theorem recordAlert_newAccountCursor :
    (recordAlert notify clock kind account status db).1.newAccountCursor = db.newAccountCursor :=
  (recordAlert_frame notify clock kind account status db).2.2.2.1

/-- What was notified on was inserted. -/
theorem outbox_recordAlert (h : db.outbox.Sublist db.marks.raised) :
    (recordAlert notify clock kind account status db).1.outbox.Sublist
      (recordAlert notify clock kind account status db).1.marks.raised := by
  unfold recordAlert
  dsimp only
  split
  · exact h
  · simp only [Db.marks, List.map_append, List.map_singleton]
    split
    · exact h.append (List.Sublist.refl _)
    · exact h.trans (List.sublist_append_left _ _)

end

end ProxmoxTool.Moderation
