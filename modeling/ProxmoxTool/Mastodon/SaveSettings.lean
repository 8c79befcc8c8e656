import Mathlib
import ProxmoxTool.Apps.Validate
import ProxmoxTool.Guests.Access
import ProxmoxTool.Settings.Cache

/-!
# Saving the Mastodon settings

The model of `save` in `routes/mastodon.py` with the hooks that run before it, of `resolve_guest_selection` and
`configured_guests_out_of_scope` in `core/guest_scope.py`, and of the validators of `apps/utils.py` with their messages.

The texts and ports are all checked before anything is written, but each guest selection is stored before the next one is
looked at: a form that is refused for its second or third guest has already changed the settings of the guests before it,
unless they hold these values anyway (`rejected_form_keeps_settings_iff`).
-/

namespace ProxmoxTool.Mastodon.SaveSettings

open Guests.Access (User Guest)

/-- What Python knows of digits and of showing a text: `decimal` is the value of a decimal digit outside ASCII, `digit` holds of the
other characters that `isdigit` accepts there. -/
structure Python extends CharTable where
  value : Char → Option Nat
  digit : Char → Bool
  repr : Text → Text

variable (py : Python)

/-! ### The validators -/

def message (label : String) (text : String) : Text := label.toList ++ text.toList

/-- A validator: an empty value, then the checks in order, each with what its message says behind the label. -/
def validate (label : String) (value : Text) (checks : List (Bool × Text)) : Except Text Unit :=
  if value = [] then .error (message label " is empty")
  else match checks.find? fun check => !check.1 with
    | some check => .error (label.toList ++ check.2)
    | none => .ok ()

/-- The message of a check that shows the value. -/
def shown (text : String) (value : Text) : Text := text.toList ++ py.repr value

def checkDbName (value : Text) (label : String) : Except Text Unit :=
  validate label value [(validateDbName value, shown py " is not a valid database name: " value)]

def checkUsername (value : Text) (label : String) : Except Text Unit :=
  validate label value [(validateUsername value, shown py " is not a valid user name: " value)]

/-- `_ABS_PATH_RE`. -/
def absPathPattern (t : Text) : Bool :=
  2 ≤ t.length && t.head? == some '/' && (t.tail.all fun c => py.isWord c || c ∈ ['.', '-', '/']) && t.getLast? != some '/'

def checkAbsPath (value : Text) (label : String) : Except Text Unit :=
  validate label value
    [(value ≠ ['/'], " must not be the filesystem root".toList),
      (absPathPattern py value, shown py " must be an absolute path without spaces or shell characters: " value),
      (!(value.splitOn '/').contains ['.', '.'], shown py " must not contain '..': " value)]

/-- `_GIT_REPO_RE`. -/
def gitRepoPattern (t : Text) : Bool :=
  match t.splitOn '/' with
  | [owner, name] => [owner, name].all fun part => !part.isEmpty && part.all fun c => py.isWord c || c ∈ ['.', '-']
  | _ => false

def checkGitRepo (value : Text) (label : String) : Except Text Unit :=
  validate label value
    [(gitRepoPattern py value && !hasSub ['.', '.'] value, shown py " must be of the form owner/repo: " value)]

def checkGitBranch (value : Text) (label : String) : Except Text Unit :=
  validate label value [(py.validateGitBranch value, shown py " is not a valid git branch name: " value)]

/-- `_SHELL_SAFE_RE.match`: `$` also matches before a newline at the end. -/
def shellSafePattern (t : Text) : Bool :=
  let cs := if t.getLast? = some '\n' then t.dropLast else t
  !cs.isEmpty && cs.all py.isShellSafe

/-! ### The form -/

/-- `request.form.get(name)`. -/
abbrev Form := String → Option Text

def Form.strip (form : Form) (name default : String) : Text := ProxmoxTool.strip ((form name).getD default.toList)

/-- `.strip() or default`. -/
def Form.stripOr (form : Form) (name default : String) : Text :=
  if form.strip name default = [] then default.toList else form.strip name default

structure Fields where
  dbName : Text
  mastodonUser : Text
  appDir : Text
  repo : Text
  branch : Text
  pgbouncerHost : Text
  pgbouncerPort : Text
  directDbHost : Text
  directDbPort : Text

def Form.fields (form : Form) : Fields where
  dbName := form.stripOr "mastodon_db_name" "mastodon_production"
  mastodonUser := form.stripOr "mastodon_user" "mastodon"
  appDir := form.stripOr "mastodon_app_dir" "/home/mastodon/live"
  repo := form.stripOr "mastodon_repo" "mastodon/mastodon"
  branch := form.strip "mastodon_branch" ""
  pgbouncerHost := form.strip "mastodon_pgbouncer_host" ""
  pgbouncerPort := form.strip "mastodon_pgbouncer_port" ""
  directDbHost := form.strip "mastodon_direct_db_host" ""
  directDbPort := form.strip "mastodon_direct_db_port" "5432"

def checkHost (label : String) (value : Text) : Except Text Unit :=
  if value ≠ [] ∧ shellSafePattern py value = false then
    .error ("Invalid ".toList ++ message label ": only alphanumeric, dots, hyphens, colons, and slashes are allowed.")
  else .ok ()

def checkPort (label : String) (value : Text) : Except Text Unit :=
  if value ≠ [] ∧ py.portPattern value = false then .error ("Invalid ".toList ++ message label ": must be numeric.") else .ok ()

/-- What `save` checks before it looks at the guests. -/
def checkFields (fields : Fields) : Except Text Unit := do
  checkDbName py fields.dbName "Database name"
  checkUsername py fields.mastodonUser "Mastodon user"
  checkAbsPath py fields.appDir "Mastodon app directory"
  checkGitRepo py fields.repo "Mastodon repo"
  if fields.branch ≠ [] then checkGitBranch py fields.branch "Git branch"
  checkHost py "PGBouncer host" fields.pgbouncerHost
  checkHost py "Direct DB host" fields.directDbHost
  checkPort py "PGBouncer port" fields.pgbouncerPort
  checkPort py "Direct DB port" fields.directDbPort

/-! ### Guests -/

/-- `raw.isdigit()`. -/
def isDigits (t : Text) : Bool :=
  !t.isEmpty && t.all fun c => if c.toNat < 128 then c.isDigit else (py.value c).isSome || py.digit c

/-- The value of a decimal digit. -/
def digitValue (c : Char) : Option Nat := if c.toNat < 128 then if c.isDigit then some (c.toNat - 48) else none else py.value c

/-- `int(raw)` of a text of digits; a superscript has no value, and more than 4300 digits are refused. -/
def intOfDigits (t : Text) : Option Nat :=
  if 4300 < t.length then none else t.foldlM (fun n c => (digitValue py c).map fun d => 10 * n + d) 0

/-- `db.session.get(Guest, int(raw))`; `none` if it raises: no number, or one that SQLite cannot bind. -/
def getGuest (guests : List Guest) (raw : Text) : Option (Option Guest) := do
  let id ← intOfDigits py raw
  if id < 2 ^ 63 then some (guests.find? fun guest => guest.id = id) else none

inductive Answer
  | login
  | refused (message : Text)
  | raised
  | saved
deriving DecidableEq

/-- Why a selection is not taken. -/
inductive Failure
  | refused (message : Text)
  | raised

def Failure.answer : Failure → Answer
  | .refused message => .refused message
  | .raised => .raised

/-- `resolve_guest_selection`. -/
def resolveGuestSelection (guests : List Guest) (user : User) (raw : Option Text) (label : String) : Except Failure Text :=
  let raw := strip (raw.getD [])
  if raw = [] ∨ user.isAdmin = true then .ok raw
  else if isDigits py raw = false then .error (.refused (message label ": invalid guest id."))
  else match getGuest py guests raw with
    | none => .error .raised
    | some none => .error (.refused (message label ": guest not found."))
    | some (some guest) =>
      if user.mayAccessGuest guest then .ok raw
      else .error (.refused (message label ": you don't have permission to select that guest."))

/-- Settings with their values; a value may be NULL. -/
abbrev Store := Settings.Request String (Option Text)

/-- `configured_guests_out_of_scope`: the names, `none` if it raises; and the store, which keeps what it has looked up. -/
def configuredGuestsOutOfScope (guests : List Guest) (user : User) : List String → Store → Option (List Text) × Store
  | [], r => (some [], r)
  | key :: keys, r =>
    let (value, r) := r.get key (some [])
    let raw := strip (value.getD [])
    let (blocked, r') := configuredGuestsOutOfScope guests user keys r
    if isDigits py raw = false then (blocked, r')
    else match getGuest py guests raw with
      | none => (none, r)
      | some none => (blocked, r')
      | some (some guest) => (if user.mayAccessGuest guest then blocked else blocked.map (guest.name :: ·), r')

def guestKeys : List String := ["mastodon_guest_id", "mastodon_guest_id_2", "mastodon_db_guest_id"]

/-! ### The route -/

/-- The settings that are written behind the guests. -/
def Form.writes (form : Form) : List (String × Text) :=
  let fields := form.fields
  let protectionType := (form "mastodon_protection_type").getD "snapshot".toList
  let backupMode := (form "mastodon_backup_mode").getD "snapshot".toList
  [("mastodon_db_name", fields.dbName), ("mastodon_user", fields.mastodonUser), ("mastodon_app_dir", fields.appDir),
    ("mastodon_repo", fields.repo), ("mastodon_branch", fields.branch), ("mastodon_pgbouncer_host", fields.pgbouncerHost),
    ("mastodon_pgbouncer_port", fields.pgbouncerPort), ("mastodon_direct_db_host", fields.directDbHost),
    ("mastodon_direct_db_port", fields.directDbPort),
    ("mastodon_auto_upgrade", (if (form "mastodon_auto_upgrade").isSome then "true" else "false").toList),
    ("mastodon_current_version", form.strip "mastodon_current_version" ""),
    ("mastodon_protection_type",
      if protectionType ∈ ["snapshot".toList, "backup".toList] then protectionType else "snapshot".toList),
    ("mastodon_backup_storage", form.strip "mastodon_backup_storage" ""),
    ("mastodon_backup_mode",
      if backupMode ∈ ["snapshot".toList, "suspend".toList, "stop".toList] then backupMode else "snapshot".toList)]

def firstGuest (guests : List Guest) (user : User) (form : Form) : Except Failure Text :=
  resolveGuestSelection py guests user (form "mastodon_guest_id") "Mastodon guest"

def secondGuest (guests : List Guest) (user : User) (form : Form) : Except Failure Text :=
  resolveGuestSelection py guests user (form "mastodon_guest_id_2") "Second Mastodon guest"

def dbGuest (guests : List Guest) (user : User) (form : Form) : Except Failure Text :=
  resolveGuestSelection py guests user (form "mastodon_db_guest_id") "Mastodon database guest"

/-- `save`: every `Setting.set` commits. -/
def save (guests : List Guest) (user : User) (form : Form) (r : Store) : Answer × Store :=
  match checkFields py form.fields with
  | .error message => (.refused message, r)
  | .ok () => match firstGuest py guests user form with
    | .error failure => (failure.answer, r)
    | .ok id =>
      let r := r.set "mastodon_guest_id" (some id)
      match secondGuest py guests user form with
      | .error failure => (failure.answer, r)
      | .ok id2 =>
        let r := r.set "mastodon_guest_id_2" (some id2)
        match dbGuest py guests user form with
        | .error failure => (failure.answer, r)
        | .ok dbId =>
          let r := r.set "mastodon_db_guest_id" (some dbId)
          (.saved, form.writes.foldl (fun r w => r.set w.1 (some w.2)) r)

/-- Who posts: the row of the user, and `can_update` of its role. -/
structure Poster where
  user : User
  canUpdate : Bool

/-- `User.can_update`. -/
def Poster.mayUpdate (poster : Poster) : Bool := poster.user.isSuperAdmin || poster.canUpdate

/-- A POST to `/mastodon/save`, through the hooks of the blueprint. -/
def post (guests : List Guest) (poster : Option Poster) (form : Form) (r : Store) : Answer × Store :=
  match poster with
  | none => (.login, r)
  | some poster =>
    if poster.mayUpdate = false then (.refused "'Apply Updates' permission required.".toList, r)
    else match configuredGuestsOutOfScope py guests poster.user guestKeys r with
      | (none, r) => (.raised, r)
      | (some [], r) => save py guests poster.user form r
      | (some blocked, r) => (.refused ("You don't have permission to act on the configured target guest (".toList ++
          joinText ", ".toList blocked ++ ").".toList), r)

/-! ### What a refusal leaves -/

/-- Answered with an error message, every row of the settings is as before. -/
def KeepsRows (result : Answer × Store) (r : Store) : Prop := ∀ message, result.1 = .refused message → result.2.rows = r.rows

/-- The selection is refused. -/
def Refused (selection : Except Failure Text) : Prop := ∃ message, selection = .error (.refused message)

/-- The guests that are accepted before another one is refused are the ones in the settings. -/
def GuestsSettled (guests : List Guest) (user : User) (form : Form) (r : Store) : Prop :=
  checkFields py form.fields = .ok () → ∀ id, firstGuest py guests user form = .ok id →
    (Refused (secondGuest py guests user form) → r.rows.get? "mastodon_guest_id" = some (some id)) ∧
    ∀ id2, secondGuest py guests user form = .ok id2 → Refused (dbGuest py guests user form) →
      r.rows.get? "mastodon_guest_id" = some (some id) ∧ r.rows.get? "mastodon_guest_id_2" = some (some id2)

/-- The hooks let the request through. -/
def LetThrough (guests : List Guest) (poster : Option Poster) (r : Store) (user : User) : Prop :=
  ∃ canUpdate, poster = some ⟨user, canUpdate⟩ ∧ Poster.mayUpdate ⟨user, canUpdate⟩ = true ∧
    (configuredGuestsOutOfScope py guests user guestKeys r).1 = some []

theorem answer_eq_refused {failure : Failure} {message : Text} :
    failure.answer = .refused message ↔ failure = .refused message := by
  cases failure with
  | refused message' => simp [Failure.answer]
  | raised => simp [Failure.answer]

theorem keepsRows_of_same {answer : Answer} {r r' : Store} (h : r'.rows = r.rows) : KeepsRows (answer, r') r := fun _ _ => h

/-- An error behind some writes keeps the rows if it is no refusal, or the writes change nothing. -/
theorem keepsRows_failure_iff {failure : Failure} {r r' : Store} :
    KeepsRows (failure.answer, r') r ↔ (∃ message, failure = .refused message) → r'.rows = r.rows := by
  constructor
  · rintro h ⟨message, hfailure⟩
    exact h message (answer_eq_refused.2 hfailure)
  · exact fun h message hmessage => h ⟨message, answer_eq_refused.1 hmessage⟩

theorem refused_error_iff {failure : Failure} :
    Refused (.error failure) ↔ ∃ message, failure = .refused message := by simp [Refused]

theorem save_keepsRows_iff (guests : List Guest) (user : User) (form : Form) (r : Store) :
    KeepsRows (save py guests user form r) r ↔ GuestsSettled py guests user form r := by
  unfold save GuestsSettled
  cases checkFields py form.fields with
  | error message => exact iff_of_true (keepsRows_of_same rfl) fun hok => by cases hok
  | ok _ =>
    cases firstGuest py guests user form with
    | error failure => exact iff_of_true (keepsRows_of_same rfl) fun _ _ hok => by cases hok
    | ok id =>
      simp only [Except.ok.injEq, forall_const, forall_eq']
      cases secondGuest py guests user form with
      | error failure =>
        -- one write stands before the second selection
        have hrows : (r.set "mastodon_guest_id" (some id)).rows = r.rows ↔
            r.rows.get? "mastodon_guest_id" = some (some id) := Dict.set_eq_self_iff
        rw [keepsRows_failure_iff, refused_error_iff, hrows]
        exact ⟨fun h => ⟨h, fun _ hok => by cases hok⟩, fun h => h.1⟩
      | ok id2 =>
        simp only [Except.ok.injEq, forall_eq']
        have hfirst : ¬ Refused (.ok id2 : Except Failure Text) := by simp [Refused]
        cases dbGuest py guests user form with
        | error failure =>
          -- two writes stand before the third
          have hrows : ((r.set "mastodon_guest_id" (some id)).set "mastodon_guest_id_2" (some id2)).rows = r.rows ↔
              r.rows.get? "mastodon_guest_id" = some (some id) ∧ r.rows.get? "mastodon_guest_id_2" = some (some id2) :=
            Dict.set_set_eq_self_iff (by decide)
          rw [keepsRows_failure_iff, refused_error_iff, hrows]
          exact ⟨fun h => ⟨fun hrefused => absurd hrefused hfirst, h⟩, fun h => h.2⟩
        | ok dbId =>
          have hthird : ¬ Refused (.ok dbId : Except Failure Text) := by simp [Refused]
          exact iff_of_true (fun _ hok => by cases hok) ⟨fun hrefused => absurd hrefused hfirst, fun hrefused => absurd hrefused hthird⟩

/-- The scope check leaves the rows. -/
theorem configuredGuestsOutOfScope_rows (guests : List Guest) (user : User) (keys : List String) (r : Store) :
    (configuredGuestsOutOfScope py guests user keys r).2.rows = r.rows := by
  induction keys generalizing r with
  | nil => rfl
  | cons key keys ih =>
    have hget := r.get_rows key (some [])
    have hrest := ih (r.get key (some [])).2
    unfold configuredGuestsOutOfScope
    generalize r.get key (some []) = looked at hget hrest ⊢
    obtain ⟨value, r₁⟩ := looked
    have hrows : (configuredGuestsOutOfScope py guests user keys r₁).2.rows = r.rows := hrest.trans hget
    simp only
    split
    · exact hrows
    · split
      · exact hget
      · exact hrows
      · exact hrows

/-- A form that is refused leaves every setting as it was, exactly if the guests it names before the refused one are those of the
settings already. -/
theorem rejected_form_keeps_settings_iff (guests : List Guest) (poster : Option Poster) (form : Form) (r : Store) :
    KeepsRows (post py guests poster form r) r ↔
      ∀ user, LetThrough py guests poster r user → GuestsSettled py guests user form r := by
  unfold post LetThrough
  cases poster with
  | none => exact iff_of_true (keepsRows_of_same rfl) fun _ h => nomatch h
  | some poster =>
    obtain ⟨user, canUpdate⟩ := poster
    simp only [Option.some.injEq, Poster.mk.injEq]
    by_cases hmay : Poster.mayUpdate ⟨user, canUpdate⟩ = false
    · rw [if_pos hmay]
      refine iff_of_true (keepsRows_of_same rfl) fun user' h => ?_
      obtain ⟨canUpdate', ⟨rfl, rfl⟩, htrue, -⟩ := h
      rw [hmay] at htrue
      cases htrue
    · rw [if_neg hmay]
      have hrows := configuredGuestsOutOfScope_rows py guests user guestKeys r
      cases hscope : configuredGuestsOutOfScope py guests user guestKeys r with
      | mk blocked r' =>
        rw [hscope] at hrows
        cases blocked with
        | none =>
          refine iff_of_true (keepsRows_of_same hrows) fun user' h => ?_
          obtain ⟨canUpdate', ⟨rfl, rfl⟩, -, hnone⟩ := h
          rw [hscope] at hnone
          cases hnone
        | some blocked =>
          cases blocked with
          | cons name blocked =>
            refine iff_of_true (keepsRows_of_same hrows) fun user' h => ?_
            obtain ⟨canUpdate', ⟨rfl, rfl⟩, -, hnil⟩ := h
            rw [hscope] at hnil
            cases hnil
          | nil =>
            have hsave := save_keepsRows_iff py guests user form r'
            unfold KeepsRows GuestsSettled at hsave ⊢
            rw [hrows] at hsave
            refine hsave.trans ⟨fun h user' hthrough => ?_, fun h => ?_⟩
            · obtain ⟨canUpdate', ⟨rfl, rfl⟩, -, -⟩ := hthrough
              exact h
            · exact h user ⟨canUpdate, ⟨rfl, rfl⟩, by simpa using hmay, by rw [hscope]⟩

/-! ### A second guest of someone else -/

/-- A user with the tag 1, who may update. -/
def taggedPoster : Poster := ⟨⟨4, "kim".toList, some ⟨"operator".toList, 2⟩, [1], true⟩, true⟩

/-- Two guests: the first one has the tag. -/
def twoGuests : List Guest := [⟨5, "web".toList, "vm".toList, true, [1]⟩, ⟨6, "other".toList, "vm".toList, true, [2]⟩]

def asciiPython : Python := ⟨⟨fun _ => false, fun _ => false⟩, fun _ => none, fun _ => false, id⟩

def twoGuestsForm : Form := fun name =>
  if name = "mastodon_guest_id" then some ['5'] else if name = "mastodon_guest_id_2" then some ['6'] else none

/-- The form is refused for its second guest, and the first one is stored. -/
theorem refused_form_stored : ¬ KeepsRows (post asciiPython twoGuests (some taggedPoster) twoGuestsForm ⟨[], none⟩) ⟨[], none⟩ := by
  intro h
  have hrefused := h "Second Mastodon guest: you don't have permission to select that guest.".toList (by decide +kernel)
  revert hrefused
  decide +kernel

end ProxmoxTool.Mastodon.SaveSettings
