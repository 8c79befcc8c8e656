import Mathlib
import ProxmoxTool.Lib.System
import ProxmoxTool.Lib.Text

/-!
# Password generations

`User.set_password` stamps the user with the time of the change, and access tokens, refresh tokens and remember-me markers
carry the stamp, cut to seconds, under which they were issued (`credential_epoch`).  The clock may stand still or go back
and the database returns the stamp without its time zone; the epoch grows with every change nevertheless
(`credentialEpoch_lt`), since a stamp is a whole number of seconds and is moved a second past the one before it.

A run is about one user: password changes, the round trip of its row through the database, and the issue of credentials.
What the signature checks of PyJWT and itsdangerous answer is left open (`Check`).
-/

namespace ProxmoxTool.Generations

/-! ### Stamps -/

/-- A `datetime`: microseconds since 1970, and whether it carries the time zone UTC. -/
structure Stamp where
  micros : Int
  aware : Bool
deriving DecidableEq

def second : Int := 1000000

/-- `datetime.max`. -/
def maxMicros : Int := 253402300799999999

/-- `value.replace(tzinfo=timezone.utc)`. -/
def Stamp.utc (t : Stamp) : Stamp := { t with aware := true }

/-- A stamp without a time zone is taken as UTC. -/
def Stamp.asUtc (t : Stamp) : Stamp := if t.aware then t else t.utc

/-- `datetime.now(timezone.utc).replace(microsecond=0)`. -/
def nowStamp (now : Int) : Stamp := ⟨now - now % second, true⟩

/-- `previous + timedelta(seconds=1)`; `none` is an `OverflowError`. -/
def Stamp.next (t : Stamp) : Option Stamp :=
  if t.micros + second ≤ maxMicros then some { t with micros := t.micros + second } else none

/-- `int(value.timestamp())`. -/
def Stamp.toSeconds (t : Stamp) : Int := t.micros.tdiv second

/-- A whole number of seconds. -/
def Stamp.Whole (t : Stamp) : Prop := second ∣ t.micros

/-! ### The user -/

structure User where
  id : Nat
  active : Bool
  passwordHash : Text
  tokensValidAfter : Option Stamp
  mustChangePassword : Bool
deriving DecidableEq

/-- The stamp of a change at `now`. -/
def nextStamp (now : Int) : Option Stamp → Option Stamp
  | none => some (nowStamp now)
  | some previous =>
    if (nowStamp now).micros ≤ previous.asUtc.micros then previous.asUtc.next else some (nowStamp now)

/-- `User.set_password`; `none` when it raises. -/
def User.setPassword (hash : Text) (now : Int) (user : User) : Option User :=
  (nextStamp now user.tokensValidAfter).map fun stamp =>
    { user with passwordHash := hash, tokensValidAfter := some stamp, mustChangePassword := false }

/-- The row as the database returns it: the stamp has lost its time zone. -/
def User.reload (user : User) : User :=
  { user with tokensValidAfter := user.tokensValidAfter.map fun t => { t with aware := false } }

/-- `tokens_valid_after`. -/
def tokensValidAfter (user : User) : Option Stamp :=
  user.tokensValidAfter.map Stamp.asUtc

/-- `credential_epoch`: no change comes before every stamp. -/
def credentialEpoch (user : User) : WithBot Int := (tokensValidAfter user).map Stamp.toSeconds

/-- `token_predates_password_change`, for the `pwd` of a payload. -/
def tokenPredatesPasswordChange (user : User) (pwd : WithBot Int) : Bool :=
  match credentialEpoch user with
  | none => false
  | epoch => pwd != epoch

/-! ### Credentials and their validators -/

inductive Kind
  | access | refresh | marker
deriving DecidableEq

/-- What the signed payload says: the account and its epoch. -/
structure Credential where
  kind : Kind
  sub : Nat
  pwd : WithBot Int
deriving DecidableEq

/-- `create_access_token`, `create_refresh_token`, `_set_remember_marker`. -/
def issue (kind : Kind) (user : User) : Credential := ⟨kind, user.id, credentialEpoch user⟩

/-- Why `decode_token` raises. -/
inductive DecodeError
  | expired | invalid
deriving DecidableEq

inductive Refusal
  | undecoded (e : DecodeError)
  | notThisType | revoked | unauthorized | missingMarker | credentialsRotated
deriving DecidableEq

/-- What the outside answers for a credential: what `decode_token` raises, whether its `jti` is in the revocation table,
and whether the marker's signature and age are accepted. -/
structure Check where
  decodeError : Option DecodeError
  revoked : Bool
  loads : Bool

/-- `jwt_required`, from the token on. -/
def jwtRequired (check : Check) (user : Option User) (c : Credential) : Option Refusal :=
  match check.decodeError with
  | some e => some (.undecoded e)
  | none =>
    if c.kind ≠ .access then some .notThisType
    else match user with
      | none => some .unauthorized
      | some user =>
        if !user.active then some .unauthorized
        else if tokenPredatesPasswordChange user c.pwd then some .credentialsRotated
        else none

/-- `refresh`, up to the rotation. -/
def refresh (check : Check) (user : Option User) (c : Credential) : Option Refusal :=
  match check.decodeError with
  | some e => some (.undecoded e)
  | none =>
    if c.kind ≠ .refresh then some .notThisType
    else if check.revoked then some .revoked
    else match user with
      | none => some .unauthorized
      | some user =>
        if !user.active then some .unauthorized
        else if tokenPredatesPasswordChange user c.pwd then some .credentialsRotated
        else none

/-- `remember_restore_refusal`. -/
def rememberRestoreRefusal (check : Check) (user : Option User) (c : Credential) : Option Refusal :=
  match user with
  | none => some .unauthorized
  | some user =>
    if !user.active then some .unauthorized
    else if !check.loads || c.sub != user.id then some .missingMarker
    -- no special case for a user without a change: `None` is compared like any epoch
    else if c.pwd ≠ credentialEpoch user then some .credentialsRotated
    else none

/-- The validator of a credential. -/
def refusal (check : Check) (user : Option User) (c : Credential) : Option Refusal :=
  match c.kind with
  | .access => jwtRequired check user c
  | .refresh => refresh check user c
  | .marker => rememberRestoreRefusal check user c

/-! ### Runs -/

/-- A credential and the generation of the password it was issued under. -/
structure Issue where
  credential : Credential
  generation : Nat

/-- `generation` counts the changes of the run. -/
structure State where
  user : User
  generation : Nat := 0
  issued : List Issue := []

inductive Event
  | setPassword (hash : Text) (now : Int)
  | reload
  | issue (kind : Kind)
  | setActive (active : Bool)

def step (s : State) : Event → Option State
  | .setPassword hash now => match s.user.setPassword hash now with
    | some user => some { s with user := user, generation := s.generation + 1 }
    | none => some s
  | .reload => some { s with user := s.user.reload }
  | .issue kind => some { s with issued := s.issued ++ [⟨Generations.issue kind s.user, s.generation⟩] }
  | .setActive active => some { s with user := { s.user with active := active } }

/-- A user whose stamp, if it has one, was written by `set_password`. -/
def system : System State Event where
  init s := s.generation = 0 ∧ s.issued = [] ∧ ∀ t ∈ s.user.tokensValidAfter, t.Whole
  step := step

/-! ### The epoch grows -/

@[simp] theorem Stamp.asUtc_micros (t : Stamp) : t.asUtc.micros = t.micros := by
  unfold Stamp.asUtc
  split
  · rfl
  · rfl

theorem nowStamp_whole (now : Int) : (nowStamp now).Whole := by
  have h := Int.dvd_self_sub_emod (x := now) (m := second)
  exact h

theorem Stamp.Whole.lt_toSeconds {t t' : Stamp} (h : t.Whole) (h' : t'.Whole) (hlt : t.micros < t'.micros) :
    t.toSeconds < t'.toSeconds := by
  obtain ⟨a, ha⟩ := h
  obtain ⟨b, hb⟩ := h'
  unfold toSeconds
  rw [ha, hb, Int.mul_tdiv_cancel_left a (by decide), Int.mul_tdiv_cancel_left b (by decide)]
  unfold second at ha hb
  omega

/-- A new stamp is a whole number of seconds and lies after the one before it. -/
theorem nextStamp_spec {now : Int} {previous : Option Stamp} {t : Stamp} (hp : ∀ p ∈ previous, p.Whole)
    (h : nextStamp now previous = some t) : t.Whole ∧ ∀ p ∈ previous, p.micros < t.micros := by
  cases previous with
  | none =>
    cases h
    exact ⟨nowStamp_whole now, by simp⟩
  | some p =>
    have hw : p.Whole := hp p rfl
    simp only [nextStamp, Stamp.asUtc_micros] at h
    split at h
    · -- the clock has not passed the previous stamp
      unfold Stamp.next at h
      obtain ⟨-, rfl⟩ := System.of_guard h
      have hpos : (0 : Int) < second := by decide
      rw [Stamp.asUtc_micros]
      refine ⟨Int.dvd_add hw (Int.dvd_refl second), fun q hq => ?_⟩
      cases hq
      dsimp only
      omega
    · rename_i hgt
      cases h
      refine ⟨nowStamp_whole now, fun q hq => ?_⟩
      cases hq
      omega

theorem credentialEpoch_eq (user : User) : credentialEpoch user = user.tokensValidAfter.map Stamp.toSeconds := by
  rw [credentialEpoch, tokensValidAfter, Option.map_map]
  congr 1
  funext t
  rw [Function.comp_apply, Stamp.toSeconds, Stamp.asUtc_micros, Stamp.toSeconds]

@[simp] theorem credentialEpoch_reload (user : User) : credentialEpoch user.reload = credentialEpoch user := by
  rw [credentialEpoch_eq, credentialEpoch_eq, User.reload, Option.map_map]
  rfl

/-- Every change of the password makes the epoch larger, whatever the clock shows. -/
theorem credentialEpoch_lt {user user' : User} {hash : Text} {now : Int} (hw : ∀ t ∈ user.tokensValidAfter, t.Whole)
    (h : user.setPassword hash now = some user') :
    credentialEpoch user < credentialEpoch user' ∧ ∀ t ∈ user'.tokensValidAfter, t.Whole := by
  obtain ⟨t, ht, rfl⟩ := Option.map_eq_some_iff.1 h
  obtain ⟨hwhole, hlt⟩ := nextStamp_spec hw ht
  refine ⟨?_, fun t' ht' => ?_⟩
  · rw [credentialEpoch_eq, credentialEpoch_eq]
    cases hp : user.tokensValidAfter with
    | none => exact WithBot.bot_lt_coe _
    | some p => exact WithBot.coe_lt_coe.2 ((hw p hp).lt_toSeconds hwhole (hlt p hp))
  · cases ht'
    exact hwhole

/-! ### Which credentials are refused -/

theorem tokenPredatesPasswordChange_iff {user : User} {pwd : WithBot Int} (h : pwd ≤ credentialEpoch user) :
    tokenPredatesPasswordChange user pwd = true ↔ pwd < credentialEpoch user := by
  unfold tokenPredatesPasswordChange
  cases he : credentialEpoch user with
  | bot => simp
  | coe epoch =>
    rw [he] at h
    have hne : (pwd != (epoch : WithBot Int)) = true ↔ pwd < epoch := by
      rw [bne_iff_ne]
      exact ⟨fun hne => lt_of_le_of_ne h hne, ne_of_lt⟩
    exact hne

/-- A credential of an earlier epoch is refused, and one of the present epoch is not refused for its epoch. -/
theorem refusal_epoch {check : Check} {user : User} {c : Credential} (h : c.pwd ≤ credentialEpoch user) :
    (c.pwd ≠ credentialEpoch user → (refusal check (some user) c).isSome = true) ∧
      (c.pwd = credentialEpoch user → refusal check (some user) c ≠ some .credentialsRotated) := by
  have hpredates : tokenPredatesPasswordChange user c.pwd = !decide (c.pwd = credentialEpoch user) := by
    rw [Bool.eq_iff_iff, tokenPredatesPasswordChange_iff h, lt_iff_le_and_ne, and_iff_right h, Bool.not_eq_true', decide_eq_false_iff_not]
  unfold refusal
  cases hk : c.kind with
  | access => cases hd : check.decodeError <;> cases ha : user.active <;> simp [jwtRequired, hd, hk, ha, hpredates]
  | refresh =>
    cases hd : check.decodeError <;> cases hr : check.revoked <;> cases ha : user.active <;>
      simp [refresh, hd, hk, hr, ha, hpredates]
  | marker =>
    by_cases hm : (!check.loads || c.sub != user.id) = true <;> cases ha : user.active <;>
      simp +contextual only [rememberRestoreRefusal, hm, ha] <;> simp +contextual

/-! ### The invariant -/

/-- Stamps are whole, and a credential carries the present epoch if no change has come since its issue, else a smaller one. -/
structure Sound (s : State) : Prop where
  whole : ∀ t ∈ s.user.tokensValidAfter, t.Whole
  upTo : ∀ e ∈ s.issued, e.generation ≤ s.generation
  present : ∀ e ∈ s.issued, e.generation = s.generation → e.credential.pwd = credentialEpoch s.user
  earlier : ∀ e ∈ s.issued, e.generation < s.generation → e.credential.pwd < credentialEpoch s.user

theorem Sound.le {s : State} (h : Sound s) {e : Issue} (he : e ∈ s.issued) : e.credential.pwd ≤ credentialEpoch s.user := by
  rcases Nat.lt_or_eq_of_le (h.upTo e he) with hlt | heq
  · exact (h.earlier e he hlt).le
  · exact (h.present e he heq).le

/-- A step that leaves the generation and the epoch alone. -/
theorem Sound.same {s : State} {user : User} (h : Sound s) (hw : ∀ t ∈ user.tokensValidAfter, t.Whole)
    (heq : credentialEpoch user = credentialEpoch s.user) : Sound { s with user := user } :=
  ⟨hw, h.upTo, fun e he hg => (h.present e he hg).trans heq.symm, fun e he hg => heq ▸ h.earlier e he hg⟩

theorem Sound.step {s s' : State} {e : Event} (h : Sound s) (hs : step s e = some s') : Sound s' := by
  cases e with
  | setPassword hash now =>
    simp only [Generations.step] at hs
    split at hs
    · rename_i user huser
      cases hs
      obtain ⟨hlt, hw⟩ := credentialEpoch_lt h.whole huser
      refine ⟨hw, fun e he => ?_, fun e he hg => ?_, fun e he _ => ?_⟩
      · have := h.upTo e he
        dsimp only
        omega
      · have := h.upTo e he
        dsimp only at hg
        omega
      · exact lt_of_le_of_lt (h.le he) hlt
    · cases hs
      exact h
  | reload =>
    cases hs
    refine h.same (fun t ht => ?_) (credentialEpoch_reload s.user)
    obtain ⟨t', ht', rfl⟩ := Option.map_eq_some_iff.1 ht
    exact h.whole t' ht'
  | issue kind =>
    cases hs
    have hnew : ∀ e ∈ s.issued ++ [⟨Generations.issue kind s.user, s.generation⟩],
        e ∈ s.issued ∨ e = ⟨Generations.issue kind s.user, s.generation⟩ := by
      intro e he
      simpa using he
    refine ⟨h.whole, fun e he => ?_, fun e he hg => ?_, fun e he hg => ?_⟩
    · rcases hnew e he with he | rfl
      · exact h.upTo e he
      · exact Nat.le_refl _
    · rcases hnew e he with he | rfl
      · exact h.present e he hg
      · rfl
    · rcases hnew e he with he | rfl
      · exact h.earlier e he hg
      · exact absurd hg (Nat.lt_irrefl _)
  | setActive active =>
    cases hs
    exact h.same h.whole rfl

theorem sound_of_reachable {s : State} (h : system.Reachable s) : Sound s := by
  refine System.Reach.invariant (I := Sound) ?_ (fun s e s' hs _ hstep => hs.step hstep) h
  rintro s ⟨-, hissued, hw⟩
  refine ⟨hw, ?_, ?_, ?_⟩
  · simp [hissued]
  · simp [hissued]
  · simp [hissued]

/-- In every run, whatever the clock shows: a change of the password makes the epoch larger, every credential issued before
the last change is refused, and one issued since is not refused for its epoch. -/
theorem generations_told_apart {s : State} (h : system.Reachable s) :
    (∀ hash now user, s.user.setPassword hash now = some user → credentialEpoch s.user < credentialEpoch user) ∧
    ∀ e ∈ s.issued, e.generation ≤ s.generation ∧
      (e.generation < s.generation → ∀ check, (refusal check (some s.user) e.credential).isSome = true) ∧
      (e.generation = s.generation → ∀ check, refusal check (some s.user) e.credential ≠ some .credentialsRotated) := by
  have hsound := sound_of_reachable h
  refine ⟨fun hash now user huser => (credentialEpoch_lt hsound.whole huser).1, fun e he => ⟨hsound.upTo e he, ?_, ?_⟩⟩
  · exact fun hg check => (refusal_epoch (hsound.earlier e he hg).le).1 (hsound.earlier e he hg).ne
  · exact fun hg check => (refusal_epoch (hsound.present e he hg).le).2 (hsound.present e he hg)

/-- A user that has never changed its password. -/
def newUser : User := ⟨1, true, "first".toList, none, true⟩

/-- A refresh token, a change, the database, a marker, and a second change on a clock that has gone back. -/
def exampleEvents : List Event :=
  [.issue .refresh, .setPassword "second".toList 5700000, .reload, .issue .marker, .setPassword "third".toList 5200000]

def exampleState : State where
  user := ⟨1, true, "third".toList, some ⟨6000000, true⟩, false⟩
  generation := 2
  issued := [⟨⟨.refresh, 1, ⊥⟩, 0⟩, ⟨⟨.marker, 1, (5 : Int)⟩, 1⟩]

theorem example_refused : (refusal ⟨none, false, true⟩ (some exampleState.user) ⟨.refresh, 1, ⊥⟩).isSome = true := by
  have hinit : system.init ⟨newUser, 0, []⟩ := ⟨rfl, rfl, by simp [newUser]⟩
  have hexec : system.exec ⟨newUser, 0, []⟩ exampleEvents = some exampleState := rfl
  have hreach : system.Reachable exampleState := System.reachable_of_exec hinit hexec
  have hissued : (⟨⟨.refresh, 1, ⊥⟩, 0⟩ : Issue) ∈ exampleState.issued := .head _
  have hearlier : (0 : Nat) < exampleState.generation := by decide
  exact ((generations_told_apart hreach).2 _ hissued).2.1 hearlier _

end ProxmoxTool.Generations
