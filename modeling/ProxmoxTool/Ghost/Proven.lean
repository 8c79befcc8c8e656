import ProxmoxTool.Ghost.Upgrade

/-!
# Only proven success is reported

What every transcript of `run_ghost_upgrade` shows, whatever the commands answer: the order of the protection, the update, the service and
the site before the run returns `True` or records a version, and what comes before a rollback.
-/

namespace ProxmoxTool.Ghost

open Script

abbrev Log := History Command Answer

/-! ### What a history shows -/

/-- Once `P` held, the command was issued on the guest and exited with `Q`. -/
def Replied (P : Log → Prop) (site : Site) (Q : Reply → Prop) : Log → Prop :=
  Answered P (.execute site) fun r => ∃ p ∈ r, Q p

/-- The snapshot or backup has reported success, or none was asked for. -/
def Protected (skip : Bool) (h : Log) : Prop := skip = true ∨ ∃ task, ⟨.protect task, some true⟩ ∈ h

/-- After that, `ghost update` exited with 0. -/
def Updated (skip : Bool) : Log → Prop := Replied (Protected skip) .update fun p => p.code = 0

/-- `.ghost-cli` has named the service of the site, and the release that was active, if any. -/
def Named (py : Python) (ghostDir service : Text) (preVersion : Option Text) : Log → Prop :=
  Replied (fun _ => True) .ghostCli fun p => metadata py ghostDir p.out (p.code = 0) = (service, preVersion)

/-- `which` has shown the path of nginx, or there is only the usual one. -/
def Located (nginx : Text) : Log → Prop := Replied (fun _ => True) (.which "nginx".toList) fun p =>
  (if firstLine p.out = [] then "/usr/sbin/nginx".toList else firstLine p.out) = nginx

/-- After that, `systemctl is-active` printed `active` for the service of the site. -/
def Running (py : Python) (ghostDir : Text) (skip : Bool) (h : Log) : Prop :=
  ∃ service preVersion, Named py ghostDir service preVersion h ∧
    Replied (Updated skip) (.isActive service) (fun p => strip p.out = "active".toList) h

/-- The output has a marker with a status 2xx or 3xx. -/
def Reports (py : Python) (p : Reply) : Prop :=
  ∃ front status back, p.out = front ++ "HTTP:".toList ++ status ++ back ∧ status.length = 3 ∧
    (∀ c ∈ status, py.chars.isDecimal c = true) ∧ (status.head? = some '2' ∨ status.head? = some '3')

/-- After that, the address of the site was read, and Ghost answered there. -/
def AnswersAt (py : Python) (ghostDir : Text) (skip : Bool) (target : HttpTarget) : Log → Prop :=
  Replied (Replied (Running py ghostDir skip) .httpTarget fun p => resolveHttpTarget py p.out (p.code = 0) = some target)
    (.direct target.host target.port) (Reports py)

/-- After that, if the host of the site is known and nginx is there, the site was reached through nginx. -/
def Working (py : Python) (ghostDir : Text) (skip : Bool) (h : Log) : Prop :=
  ∃ target, AnswersAt py ghostDir skip target h ∧ ∀ hostname ∈ target.hostname,
    (∃ nginx, Located nginx h ∧ Replied (AnswersAt py ghostDir skip target) (.nginxPresent nginx) (fun p => p.code ≠ 0) h) ∨
      Replied (AnswersAt py ghostDir skip target) (.viaNginx hostname) (Reports py) h

/-- `pre` was recorded as active, then `ghost update` failed, `current` pointed at another release, and the service was not active. -/
def Broken (py : Python) (ghostDir : Text) (h : Log) : Prop :=
  ∃ pre version service, version ≠ pre ∧
    Replied (Replied (Replied (Named py ghostDir service (some pre)) .update fun p => p.code ≠ 0) .readlink
      fun p => linkedVersion py p.out = some version) (.isActive service) (fun p => strip p.out ≠ "active".toList) h

def NoRollback (h : Log) : Prop := ∀ e ∈ h, e.1 ≠ .execute .rollback

/-- What must have happened before a command. -/
structure Allowed (py : Python) (ghostDir : Text) (skip : Bool) (before : Log) (c : Command) : Prop where
  update : c = .execute .update → Protected skip before
  rollback : c = .execute .rollback → Broken py ghostDir before ∧ NoRollback before
  record : ∀ value, c = .setSetting currentVersionKey value → Working py ghostDir skip before

/-! ### Commands that need nothing -/

def plain : Command → Bool
  | .execute .update | .execute .rollback => false
  | .setSetting key _ => key ≠ currentVersionKey
  | _ => true

variable {py : Python} {cfg : Config} {view : View} {skip : Bool} {ghostDir : Text} {h : Log} {α β : Type}

theorem allowed_of_plain {c : Command} (hc : plain c = true) : Allowed py ghostDir skip h c := by
  refine ⟨?_, ?_, ?_⟩
  · rintro rfl
    cases hc
  · rintro rfl
    cases hc
  · rintro value rfl
    have hne : decide (currentVersionKey ≠ currentVersionKey) = true := hc
    exact absurd rfl (of_decide_eq_true hne)

theorem noRollback_cons (hn : NoRollback h) {c : Command} (hc : c ≠ .execute .rollback) (r : Answer c) : NoRollback (⟨c, r⟩ :: h) :=
  List.forall_mem_cons.2 ⟨hc, hn⟩

theorem Protected.cons (hp : Protected skip h) (e : (c : Command) × Answer c) : Protected skip (e :: h) := by
  refine hp.imp_right fun hex => ?_
  obtain ⟨task, hmem⟩ := hex
  exact ⟨task, List.mem_cons_of_mem e hmem⟩

/-- A property of histories that further commands keep. -/
def Stable (P : Log → Prop) : Prop := ∀ h e, P h → P (e :: h)

theorem stable_replied (P : Log → Prop) (site : Site) (Q : Reply → Prop) : Stable (Replied P site Q) := fun _ e ha => ha.cons e

theorem stable_protected : Stable (Protected skip) := fun _ e hp => hp.cons e

theorem stable_running : Stable (Running py ghostDir skip) := by
  rintro h e ⟨service, preVersion, hnamed, hr⟩
  exact ⟨service, preVersion, hnamed.cons e, hr.cons e⟩

theorem stable_working : Stable (Working py ghostDir skip) := by
  rintro h e ⟨target, hanswers, hnginx⟩
  refine ⟨target, hanswers.cons e, fun hostname hmem => ?_⟩
  rcases hnginx hostname hmem with ⟨nginx, hlocated, habsent⟩ | hthrough
  · exact .inl ⟨nginx, hlocated.cons e, habsent.cons e⟩
  · exact .inr (hthrough.cons e)

theorem Stable.and {P Q : Log → Prop} (hP : Stable P) (hQ : Stable Q) : Stable fun h => P h ∧ Q h :=
  fun h e hpq => ⟨hP h e hpq.1, hQ h e hpq.2⟩

/-! ### The marker -/

theorem search_spec {γ : Type} {m : Text → Option γ} {t : Text} {a : γ} (hs : search m t = some a) :
    ∃ front back, t = front ++ back ∧ m back = some a := by
  induction t with
  | nil => exact ⟨[], [], rfl, hs⟩
  | cons c t ih =>
    rw [search, Option.or_eq_some_iff] at hs
    rcases hs with hhere | ⟨-, hlater⟩
    · exact ⟨[], c :: t, rfl, hhere⟩
    · obtain ⟨front, back, rfl, hback⟩ := ih hlater
      exact ⟨c :: front, back, rfl, hback⟩

theorem statusMarker_spec {t status : Text} (hm : statusMarker py t = some status) :
    ∃ back, t = "HTTP:".toList ++ status ++ back ∧ status.length = 3 ∧ ∀ c ∈ status, py.chars.isDecimal c = true := by
  unfold statusMarker at hm
  split at hm
  · rename_i hprefix
    obtain ⟨rest, rfl⟩ := List.isPrefixOf_iff_prefix.1 hprefix
    obtain ⟨⟨hlength, hdecimal⟩, hstatus⟩ := Option.ite_none_right_eq_some.1 hm
    obtain rfl := Option.some.inj hstatus
    have hrest : ("HTTP:".toList ++ rest).drop 5 = rest := rfl
    rw [hrest] at *
    refine ⟨rest.drop 3, ?_, hlength, fun c hc => List.all_eq_true.1 hdecimal c hc⟩
    rw [List.append_assoc, List.take_append_drop]
  · cases hm

theorem reports_of_httpOk {p : Reply} (hok : httpOk py p.out = true) : Reports py p := by
  unfold httpOk at hok
  split at hok
  · rename_i c rest hsearch
    obtain ⟨front, back, hout, hmarker⟩ := search_spec hsearch
    obtain ⟨rest', rfl, hlength, hdecimal⟩ := statusMarker_spec hmarker
    refine ⟨front, c :: rest, rest', ?_, hlength, hdecimal, ?_⟩
    · rw [hout]
      simp only [List.append_assoc]
    · rw [Bool.or_eq_true, decide_eq_true_iff, decide_eq_true_iff] at hok
      rcases hok with rfl | rfl
      · exact .inl rfl
      · exact .inr rfl
  · cases hok

/-! ### One command, and scripts of plain ones -/

section

variable {P : Log → Prop} {Q : Log → α → Prop}

/-- Without a rollback so far, and once `P` holds, the script issues commands only when they are allowed, and ends in `Q`. -/
def Does (py : Python) (ghostDir : Text) (skip : Bool) (P : Log → Prop) (x : Step α) (Q : Log → α → Prop) : Prop :=
  Triple (Allowed py ghostDir skip) (fun h => NoRollback h ∧ P h) x fun h a => NoRollback h ∧ Q h a

theorem Does.pure {a : α} (ha : ∀ h, P h → Q h a) : Does py ghostDir skip P (pure a) Q :=
  Triple.pure fun h hp => ⟨hp.1, ha h hp.2⟩

theorem Does.throw : Does py ghostDir skip P (throw () : Step α) Q := Triple.throw

theorem Does.bind {R : Log → β → Prop} {x : Step α} {f : α → Step β} (hx : Does py ghostDir skip P x Q)
    (hf : ∀ a, Does py ghostDir skip (fun h => Q h a) (f a) R) : Does py ghostDir skip P (x >>= f) R :=
  Triple.bind hx hf

theorem Does.ite {c : Prop} [Decidable c] {x y : Step α} (hx : c → Does py ghostDir skip P x Q)
    (hy : ¬ c → Does py ghostDir skip P y Q) : Does py ghostDir skip P (if c then x else y) Q :=
  Triple.ite hx hy

theorem Does.weaken {P' : Log → Prop} {Q' : Log → α → Prop} {x : Step α} (hx : Does py ghostDir skip P x Q)
    (hP : ∀ h, P' h → P h) (hQ : ∀ h a, Q h a → Q' h a) : Does py ghostDir skip P' x Q' :=
  Triple.weaken hx (fun h hp => ⟨hp.1, hP h hp.2⟩) fun h a hq => ⟨hq.1, hQ h a hq.2⟩

theorem Does.frame {R : Log → Prop} {x : Step α} (hx : Does py ghostDir skip P x Q) (hR : Stable R) :
    Does py ghostDir skip (fun h => P h ∧ R h) x fun h a => Q h a ∧ R h :=
  Triple.weaken (Triple.frame hx fun h c r hr => hR h ⟨c, r⟩ hr) (fun _ hp => ⟨⟨hp.1, hp.2.1⟩, hp.2.2⟩)
    fun _ _ hq => ⟨hq.1.1, hq.1.2, hq.2⟩

theorem Does.quiet (hP : Stable P) {x : Step α} (hx : Script.Only (fun c => plain c = true) x.run) :
    Does py ghostDir skip P x fun h _ => P h := by
  refine Triple.quiet hx (fun h c _ hc => allowed_of_plain hc) fun h c r hp hc => ⟨noRollback_cons hp.1 ?_ r, hP h _ hp.2⟩
  rintro rfl
  cases hc

/-- A command that is allowed, and its answer. -/
theorem Does.issue (hP : Stable P) {c : Command} (hallowed : ∀ h, P h → Allowed py ghostDir skip h c) (hne : c ≠ .execute .rollback) :
    Does py ghostDir skip P (Ghost.issue c) fun h r => P h ∧ Answered P c (· = r) h := by
  refine Triple.lift fun h hp => ⟨hallowed h hp.2, fun r => ?_⟩
  exact ⟨noRollback_cons hp.1 hne r, hP h _ hp.2, Answered.now hp.2 rfl⟩

theorem Does.askWhen (hP : Stable P) {site : Site} (hallowed : ∀ h, P h → Allowed py ghostDir skip h (.execute site))
    (hne : site ≠ .rollback) : Does py ghostDir skip P (ask site) fun h r => P h ∧ Replied P site (· = r) h := by
  refine (Does.issue hP hallowed fun heq => hne (Command.execute.inj heq)).bind fun answer => ?_
  cases answer with
  | none => exact .throw
  | some r => exact .pure fun h hpost => ⟨hpost.1, hpost.2.imp (fun _ hp => hp) fun answer heq => ⟨r, heq, rfl⟩⟩

/-- What holds of the reply that was given. -/
theorem Replied.of_reply {P : Log → Prop} {site : Site} {Q : Reply → Prop} {r : Reply} (hr : Replied P site (· = r) h) (hQ : Q r) :
    Replied P site Q h := by
  refine Answered.imp hr (fun _ hp => hp) fun answer hanswer => ?_
  obtain ⟨p, hmem, rfl⟩ := hanswer
  exact ⟨p, hmem, hQ⟩

theorem Replied.imp {P P' : Log → Prop} {site : Site} {Q Q' : Reply → Prop} (hr : Replied P site Q h) (hP : ∀ h, P h → P' h)
    (hQ : ∀ p, Q p → Q' p) : Replied P' site Q' h := by
  refine Answered.imp hr hP fun answer hanswer => ?_
  obtain ⟨p, hmem, hq⟩ := hanswer
  exact ⟨p, hmem, hQ p hq⟩

theorem Does.ask (hP : Stable P) {site : Site} (hplain : plain (.execute site) = true) :
    Does py ghostDir skip P (ask site) fun h r => P h ∧ Replied P site (· = r) h := by
  refine .askWhen hP (fun h _ => allowed_of_plain hplain) ?_
  rintro rfl
  cases hplain

/-- A command whose answer does not matter. -/
theorem Does.tell (hP : Stable P) {site : Site} (hplain : plain (.execute site) = true) :
    Does py ghostDir skip P (Ghost.ask site) fun h _ => P h :=
  (Does.ask hP hplain).weaken (fun _ hp => hp) fun _ _ hpost => hpost.1

end

/-- The script issues only commands with `p`. -/
def Issues (p : Command → Bool) (x : Step α) : Prop := Script.Only (fun c => p c = true) x.run

variable {p : Command → Bool}

theorem issues_issue {c : Command} (hp : p c = true) : Issues p (issue c) := .lift (.send hp)

theorem issues_ask {site : Site} (hp : p (.execute site) = true) : Issues p (ask site) := by
  refine .andThen (issues_issue hp) fun answer => ?_
  cases answer with
  | none => exact .failed _
  | some r => exact .returned r

theorem Issues.bind {x : Step α} {f : α → Step β} (hx : Issues p x) (hf : ∀ a, Issues p (f a)) : Issues p (x >>= f) :=
  Script.Only.andThen hx hf

theorem Issues.ite {c : Prop} [Decidable c] {x y : Step α} (hx : Issues p x) (hy : Issues p y) : Issues p (if c then x else y) :=
  Script.Only.branch hx hy

theorem Issues.pure (a : α) : Issues p (pure a : Step α) := Script.Only.returned a

theorem Issues.throw : Issues p (throw () : Step α) := Script.Only.failed ()

/-- Commands that neither need anything nor change the runtime of the site. -/
def calm : Command → Bool
  | .execute (.n _) | .execute (.grant _ _) => false
  | c => plain c

theorem plain_of_calm {c : Command} (hc : calm c = true) : plain c = true := by
  unfold calm at hc
  split at hc
  · cases hc
  · cases hc
  · exact hc

theorem Issues.plain {x : Step α} (hx : Issues calm x) : Issues Ghost.plain x := Script.Only.mono hx fun _ hc => plain_of_calm hc

theorem calm_resolveGuestBinary (name default : Text) : Issues calm (resolveGuestBinary name default) :=
  (issues_ask rfl).bind fun _ => .pure _

theorem calm_resolveGhostServiceUser (service : Text) : Issues calm (resolveGhostServiceUser py service) := by
  have hlast : ∀ val : Text, Issues calm (do
      if isUnixUser val then return some val
      let r ← ask .ghostUser
      return if r.code = 0 && isUnixUser (strip r.out) then some (strip r.out) else none) :=
    fun val => .ite (.pure _) ((issues_ask rfl).bind fun _ => .pure _)
  have hval : ∀ val : Text, Issues calm (Pure.pure val : Step Text) := fun val => .pure val
  exact (issues_ask rfl).bind fun r => .ite ((issues_ask rfl).bind fun r => (hval _).bind hlast) ((hval _).bind hlast)

theorem calm_stopStalePermissionSweeps : Issues calm (stopStalePermissionSweeps py) :=
  (issues_ask rfl).bind fun _ => .ite .throw (.pure _)

theorem calm_fixGhostPermissions (sweep : Sweep) (serviceUser : Option Text) : Issues calm (fixGhostPermissions sweep serviceUser) :=
  (issues_ask rfl).bind fun _ => .pure _

theorem calm_ghostDbHost (again : Bool) : Issues calm (ghostDbHost again) := (issues_ask rfl).bind fun _ => .pure _

theorem quiet_ensureGhostDbPrivileges : Issues plain (ensureGhostDbPrivileges py) := by
  refine (issues_ask rfl).bind fun r => ?_
  rcases account py r with _ | _ | ⟨db, user⟩
  · exact .throw
  · exact .pure _
  · refine (calm_ghostDbHost false).plain.bind fun host => .ite (.pure _) ((issues_ask rfl).bind fun grants => ?_)
    exact .ite (.pure _) (.ite (.pure _) ((issues_ask rfl).bind fun _ => .pure _))

theorem calm_checkGhostDbEngine : Issues calm checkGhostDbEngine :=
  (calm_ghostDbHost true).bind fun _ => .ite ((issues_ask rfl).bind fun _ => .pure _) (.pure _)

theorem calm_guestNode (again : Bool) : Issues calm (guestNode again) := (issues_ask rfl).bind fun _ => .pure _

theorem quiet_ensureNodeCompatible (nodeRange : Option Text) : Issues plain (ensureNodeCompatible py nodeRange) := by
  unfold ensureNodeCompatible
  cases nodeRange.filter (· ≠ []) with
  | none => exact .pure _
  | some range =>
    refine (calm_guestNode false).plain.bind fun current => .ite (.pure _) (.ite (.pure _) ((issues_ask rfl).bind fun hasN => ?_))
    cases nodeTargetMajor py range ((parseSemver py current).map Prod.fst) with
    | none => exact .pure _
    | some target =>
      refine .ite (.pure _) ((issues_ask rfl).bind fun r => .ite (.pure _) ?_)
      exact (calm_guestNode true).plain.bind fun _ => .pure _

theorem calm_preflightNginxReload (nginx : Text) : Issues calm (preflightNginxReload nginx) := by
  refine (issues_ask rfl).bind fun present => .ite (.pure _) ((issues_ask rfl).bind fun r => .ite (.pure _) ?_)
  refine (issues_ask rfl).bind fun active => .ite (.pure _) ((issues_ask rfl).bind fun r => .ite (.pure _) ?_)
  exact (issues_ask rfl).bind fun _ => .pure _

theorem quiet_checkRuntime (nginx : Text) : Issues plain (checkRuntime py cfg nginx) := by
  refine quiet_ensureGhostDbPrivileges.bind fun _ => calm_checkGhostDbEngine.plain.bind fun _ => (issues_issue rfl).bind fun range => ?_
  refine (quiet_ensureNodeCompatible range).bind fun _ => .ite (.pure _) ?_
  exact (calm_preflightNginxReload nginx).plain.bind fun _ => .ite (.pure _) (.pure _)

theorem calm_startedAt : Issues calm (startedAt py) := (issues_ask rfl).bind fun _ => .pure _

theorem calm_ghostHttpTarget : Issues calm (ghostHttpTarget py) := by
  refine (issues_ask rfl).bind fun r => ?_
  cases resolveHttpTarget py r.out (r.code = 0) with
  | none => exact .throw
  | some target => exact .pure _

theorem calm_reportGhostState (service : Text) : Issues calm (reportGhostState py service) := by
  refine (issues_ask rfl).bind fun _ => (issues_ask rfl).bind fun _ => calm_ghostHttpTarget.bind fun target => ?_
  exact (issues_ask rfl).bind fun _ => .pure _

/-! ### After a failed update -/

/-- The commands have shown what the update goes by. -/
def Shown (py : Python) (ghostDir : Text) (found : Found) (h : Log) : Prop :=
  Named py ghostDir found.service found.preVersion h ∧ Located found.nginx h

theorem stable_shown (found : Found) : Stable (Shown py ghostDir found) := (stable_replied _ _ _).and (stable_replied _ _ _)

/-- A failed update of a site whose service and release were read. -/
def Failed (py : Python) (ghostDir : Text) (found : Found) : Log → Prop :=
  Replied (Named py ghostDir found.service found.preVersion) .update fun p => p.code ≠ 0

/-- What the report says is what was read. -/
theorem does_reportGhostState (found : Found) (service : Text) :
    Does py ghostDir skip (Failed py ghostDir found) (reportGhostState py service) fun h state =>
      Replied (Replied (Failed py ghostDir found) .readlink fun p => linkedVersion py p.out = state.1) (.isActive service)
        (fun p => decide (strip p.out = "active".toList) = state.2) h := by
  have hfailed : Stable (Failed py ghostDir found) := stable_replied _ _ _
  refine (Does.ask hfailed rfl).bind fun link => ?_
  refine ((Does.ask (stable_replied _ _ _) rfl).weaken (fun h hp => hp.2) fun _ _ hpost => hpost.2).bind fun state => ?_
  have hstable : Stable (Replied (Replied (Failed py ghostDir found) .readlink (· = link)) (.isActive service) (· = state)) :=
    stable_replied _ _ _
  refine (Does.quiet hstable calm_ghostHttpTarget.plain).bind fun target => ?_
  refine (Does.tell hstable rfl).bind fun _ => .pure fun h hreplied => ?_
  have hlinked : ∀ h, Replied (Failed py ghostDir found) .readlink (· = link) h →
      Replied (Failed py ghostDir found) .readlink (fun p => linkedVersion py p.out = linkedVersion py link.out) h :=
    fun h hlink => hlink.of_reply rfl
  have hactive : ∀ p : Reply, p = state → decide (strip p.out = "active".toList) = decide (strip state.out = "active".toList) :=
    fun p hp => hp ▸ rfl
  exact hreplied.imp hlinked hactive

/-- As `Does`, where a rollback may have been issued in the end. -/
def Ends (py : Python) (ghostDir : Text) (skip : Bool) (P : Log → Prop) (x : Step α) (Q : Log → α → Prop) : Prop :=
  Triple (Allowed py ghostDir skip) (fun h => NoRollback h ∧ P h) x Q

theorem Does.ends {P : Log → Prop} {Q : Log → α → Prop} {x : Step α} (hx : Does py ghostDir skip P x Q) : Ends py ghostDir skip P x Q :=
  Triple.weaken hx (fun _ hp => hp) fun _ _ hq => hq.2

theorem Does.andThen {P : Log → Prop} {Q : Log → α → Prop} {R : Log → β → Prop} {x : Step α} {f : α → Step β}
    (hx : Does py ghostDir skip P x Q) (hf : ∀ a, Ends py ghostDir skip (fun h => Q h a) (f a) R) : Ends py ghostDir skip P (x >>= f) R :=
  Triple.bind hx hf

theorem ends_recoverAfterFailedUpdate (found : Found) :
    Ends py ghostDir skip (Failed py ghostDir found) (recoverAfterFailedUpdate py found) fun _ _ => True := by
  refine (does_reportGhostState found found.service).andThen fun state => ?_
  obtain ⟨version, active⟩ := state
  refine Triple.ite (fun _ => Triple.pure fun _ _ => trivial) fun hnot => ?_
  simp only [Bool.or_eq_true, not_or, Bool.not_eq_true, Option.isNone_eq_false_iff, Option.isSome_iff_exists,
    decide_eq_false_iff_not] at hnot
  obtain ⟨⟨⟨rfl, pre, hpre⟩, v, rfl⟩, hne⟩ := hnot
  have hstable := stable_replied (Replied (Failed py ghostDir found) .readlink fun p => linkedVersion py p.out = some v)
    (.isActive found.service) fun p => decide (strip p.out = "active".toList) = false
  refine (Does.quiet hstable (calm_fixGhostPermissions .recovery found.serviceUser).plain).andThen fun _ => ?_
  have hrollback : Triple (Allowed py ghostDir skip) (fun h => NoRollback h ∧ Replied (Replied (Failed py ghostDir found)
      .readlink fun p => linkedVersion py p.out = some v) (.isActive found.service)
        (fun p => decide (strip p.out = "active".toList) = false) h) (issue (.execute .rollback)) fun _ _ => True := by
    refine Triple.lift fun h hp => ⟨⟨nofun, fun _ => ⟨?_, hp.1⟩, nofun⟩, fun _ => trivial⟩
    refine ⟨pre, v, found.service, fun heq => hne (by rw [heq, hpre]), ?_⟩
    have hfailed : ∀ h, Failed py ghostDir found h → Replied (Named py ghostDir found.service (some pre)) .update (fun p => p.code ≠ 0) h :=
      fun h hf => Replied.imp hf (fun h hnamed => by rwa [hpre] at hnamed) fun _ hr => hr
    exact hp.2.imp (fun h hlink => hlink.imp hfailed fun _ hr => hr) fun p hdead => of_decide_eq_false hdead
  have hask : Triple (Allowed py ghostDir skip) (fun h => NoRollback h ∧ Replied (Replied (Failed py ghostDir found)
      .readlink fun p => linkedVersion py p.out = some v) (.isActive found.service)
        (fun p => decide (strip p.out = "active".toList) = false) h) (ask .rollback) fun _ _ => True := by
    refine hrollback.bind fun answer => ?_
    cases answer with
    | none => exact Triple.throw
    | some r => exact Triple.pure fun _ _ => trivial
  have hreport : Issues plain (do let _ ← reportGhostState py found.service) := (calm_reportGhostState found.service).plain.bind fun _ => .pure _
  refine hask.bind fun _ => Triple.quiet hreport (fun h c _ hc => allowed_of_plain hc) fun _ _ _ _ _ => trivial

/-! ### After a successful one -/

theorem does_verifyService (found : Found) : Does py ghostDir skip (fun h => Updated skip h ∧ Shown py ghostDir found h)
    (verifyService found.service) fun h ok => ok = true → Running py ghostDir skip h ∧ Shown py ghostDir found h := by
  have hbefore : Stable fun h => Updated skip h ∧ Shown py ghostDir found h := Stable.and (stable_replied _ _ _) (stable_shown found)
  have hactive : ∀ state : Reply, strip state.out = "active".toList → ∀ h, (Updated skip h ∧ Shown py ghostDir found h) ∧
      Replied (fun h => Updated skip h ∧ Shown py ghostDir found h) (.isActive found.service) (· = state) h →
        Running py ghostDir skip h ∧ Shown py ghostDir found h := by
    intro state hstate h hp
    exact ⟨⟨_, _, hp.1.2.1, (hp.2.imp (fun _ hp => hp.1) fun _ hp => hp).of_reply hstate⟩, hp.1.2⟩
  have hstop : ∀ {P : Log → Prop}, Does py ghostDir skip P (pure false : Step Bool) fun h ok =>
      ok = true → Running py ghostDir skip h ∧ Shown py ghostDir found h :=
    Does.pure fun _ _ hok => nomatch hok
  refine (Does.ask hbefore rfl).bind fun state => .ite (fun hstate => .pure fun h hp _ => hactive state hstate h hp) fun _ => ?_
  refine ((Does.tell hbefore rfl).weaken (fun _ hp => hp.1) fun _ _ hp => hp).bind fun _ => ?_
  refine (Does.ask hbefore rfl).bind fun state => .ite (fun hstate => .pure fun h hp _ => hactive state hstate h hp) fun _ => ?_
  exact ((Does.tell hbefore rfl).weaken (fun _ hp => hp.1) fun _ _ hp => hp).bind fun _ => hstop

theorem does_ghostHttpTarget : Does py ghostDir skip (Running py ghostDir skip) (ghostHttpTarget py) fun h target =>
    Replied (Running py ghostDir skip) .httpTarget (fun p => resolveHttpTarget py p.out (p.code = 0) = some target) h := by
  refine (Does.ask stable_running rfl).bind fun r => ?_
  cases hr : resolveHttpTarget py r.out (r.code = 0) with
  | none => exact .throw
  | some target => exact .pure fun h hp => hp.2.of_reply hr

theorem does_checkGhostHttp (nginx : Text) : Does py ghostDir skip (fun h => Running py ghostDir skip h ∧ Located nginx h)
    (checkGhostHttp py nginx) fun h ok => ok = true → Working py ghostDir skip h := by
  have hlocated : Stable (Located nginx) := stable_replied _ _ _
  have hstop : ∀ {P : Log → Prop}, Does py ghostDir skip P (pure false : Step Bool) fun h ok => ok = true → Working py ghostDir skip h :=
    Does.pure fun _ _ hok => nomatch hok
  refine (does_ghostHttpTarget.frame hlocated).bind fun target => ?_
  refine ((Does.ask (stable_replied _ _ _) rfl).frame hlocated).bind fun r => .ite (fun _ => hstop) fun hok => ?_
  have hreports : Reports py r := reports_of_httpOk (by simpa using hok)
  refine Does.weaken (P := fun h => AnswersAt py ghostDir skip target h ∧ Located nginx h) ?_
    (fun h hp => ⟨hp.1.2.of_reply hreports, hp.2⟩) fun _ _ hq => hq
  have hanswers : Stable (AnswersAt py ghostDir skip target) := stable_replied _ _ _
  cases hname : target.hostname with
  | none => exact .pure fun h hp _ => ⟨target, hp.1, fun hostname hmem => by rw [hname] at hmem; cases hmem⟩
  | some hostname =>
    have hknown : ∀ name ∈ target.hostname, name = hostname := fun name hmem => Option.some.inj (hmem.symm.trans hname)
    refine ((Does.ask hanswers rfl).frame hlocated).bind fun present => .ite (fun habsent => .pure fun h hp _ => ?_) fun _ => ?_
    · exact ⟨target, hp.1.1, fun name _ => .inl ⟨nginx, hp.2, hp.1.2.of_reply habsent⟩⟩
    · refine ((Does.ask hanswers rfl).weaken (fun _ hp => hp.1.1) fun _ _ hp => hp).bind fun r => .ite (fun _ => ?_) fun hok => ?_
      · exact ((Does.tell hanswers rfl).weaken (fun _ hp => hp.1) fun _ _ hp => hp).bind fun _ => hstop
      · have hreports : Reports py r := reports_of_httpOk (by simpa using hok)
        refine .pure fun h hp _ => ⟨target, hp.1, fun name hmem => .inr ?_⟩
        rw [hknown name hmem]
        exact hp.2.of_reply hreports

theorem does_setSetting {key value : Text} :
    Does py ghostDir skip (Working py ghostDir skip) (setSetting key value) fun h _ => Working py ghostDir skip h := by
  have hissue : Does py ghostDir skip (Working py ghostDir skip) (issue (.setSetting key value)) fun h r =>
      Working py ghostDir skip h ∧ Answered (Working py ghostDir skip) (.setSetting key value) (· = r) h :=
    Does.issue stable_working (fun h hp => ⟨nofun, nofun, fun _ _ => hp⟩) nofun
  refine hissue.bind fun stored => ?_
  exact .ite (fun _ => .throw) fun _ => .pure fun h hp => hp.1

theorem does_recordVersion : Does py ghostDir skip (Working py ghostDir skip) recordVersion fun h _ => Working py ghostDir skip h := by
  refine (Does.ask stable_working rfl).bind fun r => ?_
  have hdone : ∀ h, Working py ghostDir skip h ∧ Replied (Working py ghostDir skip) .ghostCli (· = r) h → Working py ghostDir skip h :=
    fun _ hp => hp.1
  refine .ite (fun _ => ?_) fun _ => .pure hdone
  cases entry "active-version".toList r.out with
  | none => exact .pure hdone
  | some version => exact (does_setSetting.bind fun _ => does_setSetting).weaken hdone fun _ _ hp => hp

theorem does_verify (found : Found) : Does py ghostDir skip (fun h => Updated skip h ∧ Shown py ghostDir found h)
    (verify py found) fun h ok => ok = true → Working py ghostDir skip h := by
  have hbefore : Stable fun h => Updated skip h ∧ Shown py ghostDir found h := Stable.and (stable_replied _ _ _) (stable_shown found)
  have hstop : ∀ {P : Log → Prop}, Does py ghostDir skip P (pure false : Step Bool) fun h ok => ok = true → Working py ghostDir skip h :=
    Does.pure fun _ _ hok => nomatch hok
  refine (Does.quiet hbefore (calm_fixGhostPermissions _ _).plain).bind fun _ => (Does.tell hbefore rfl).bind fun _ => ?_
  refine (does_verifyService found).bind fun active => .ite (fun _ => hstop) fun hactive => ?_
  refine ((does_checkGhostHttp found.nginx).weaken (fun h hp => (hp (by simpa using hactive)).imp_right And.right)
    fun _ _ hp => hp).bind fun ok => ?_
  refine .ite (fun _ => hstop) fun hok => ?_
  refine (does_recordVersion.weaken (fun h hp => hp (by simpa using hok)) fun _ _ hp => hp).bind fun _ => ?_
  exact .pure fun _ hworking _ => hworking

/-! ### The run -/

theorem ends_update (found : Found) : Ends py ghostDir skip (fun h => Protected skip h ∧ Shown py ghostDir found h)
    (update py found) fun h ok => ok = true → Working py ghostDir skip h := by
  have hbefore : Stable fun h => Protected skip h ∧ Shown py ghostDir found h :=
    stable_protected.and (stable_shown found)
  have hallowed : ∀ h, Protected skip h ∧ Shown py ghostDir found h → Allowed py ghostDir skip h (.execute .update) :=
    fun h hp => ⟨fun _ => hp.1, nofun, nofun⟩
  refine (Does.quiet hbefore calm_startedAt.plain).andThen fun since => ?_
  refine (Does.askWhen hbefore hallowed nofun).andThen fun r => Triple.ite (fun hcode => ?_) fun hcode => ?_
  · have hfailed : ∀ h, (Protected skip h ∧ Shown py ghostDir found h) ∧ Replied (fun h => Protected skip h ∧
        Shown py ghostDir found h) .update (· = r) h → Failed py ghostDir found h :=
      fun h hp => (hp.2.imp (fun _ hp => hp.2.1) fun _ hp => hp).of_reply hcode
    have hstable : Stable (Failed py ghostDir found) := stable_replied _ _ _
    refine ((Does.tell hstable rfl).weaken hfailed fun _ _ hp => hp).andThen fun _ => ?_
    refine Triple.bind (ends_recoverAfterFailedUpdate found) fun _ => Triple.pure fun _ _ hok => nomatch hok
  · have hupdated : ∀ h, (Protected skip h ∧ Shown py ghostDir found h) ∧ Replied (fun h => Protected skip h ∧
        Shown py ghostDir found h) .update (· = r) h → Updated skip h ∧ Shown py ghostDir found h :=
      fun h hp => ⟨(hp.2.imp (fun _ hp => hp.1) fun _ hp => hp).of_reply (not_not.1 hcode), hp.1.2⟩
    exact ((does_verify found).weaken hupdated fun _ _ hp => hp).ends

theorem does_connectAndPrepare : Does py cfg.ghostDir skip (Protected skip) (connectAndPrepare py cfg) fun h r =>
    ∀ found ∈ r, Protected skip h ∧ Shown py cfg.ghostDir found h := by
  have hconnect : Issues plain connect := (issues_issue rfl).bind fun up => .ite .throw (.pure _)
  refine (Does.quiet stable_protected hconnect).bind fun _ => (Does.ask stable_protected rfl).bind fun raw => ?_
  cases hmeta : metadata py cfg.ghostDir raw.out (raw.code = 0) with
  | mk service preVersion =>
    have hstable : Stable fun h => Protected skip h ∧ Named py cfg.ghostDir service preVersion h :=
      stable_protected.and (stable_replied _ _ _)
    have hnamed : ∀ h, Protected skip h ∧ Replied (Protected skip) .ghostCli (· = raw) h →
        Protected skip h ∧ Named py cfg.ghostDir service preVersion h :=
      fun h hp => ⟨hp.1, (hp.2.imp (fun _ _ => trivial) fun _ hp => hp).of_reply hmeta⟩
    have hbinary : ∀ name default, Does py cfg.ghostDir skip (fun h => Protected skip h ∧ Named py cfg.ghostDir service preVersion h)
        (resolveGuestBinary name default) fun h _ => Protected skip h ∧ Named py cfg.ghostDir service preVersion h :=
      fun name default => Does.quiet hstable (calm_resolveGuestBinary name default).plain
    -- the path of nginx is what its `which` has shown
    have hnginx : Does py cfg.ghostDir skip (fun h => Protected skip h ∧ Named py cfg.ghostDir service preVersion h)
        (resolveGuestBinary "nginx".toList "/usr/sbin/nginx".toList) fun h nginx =>
          Protected skip h ∧ Named py cfg.ghostDir service preVersion h ∧ Located nginx h := by
      refine (Does.ask hstable rfl).bind fun r => .pure fun h hp => ⟨hp.1.1, hp.1.2, ?_⟩
      exact (hp.2.imp (fun _ _ => trivial) fun _ hp => hp).of_reply rfl
    refine ((Does.quiet hstable (calm_resolveGhostServiceUser service).plain).weaken hnamed fun _ _ hp => hp).bind fun serviceUser => ?_
    refine (hbinary _ _).bind fun _ => (hbinary _ _).bind fun _ => (hbinary _ _).bind fun _ => hnginx.bind fun nginx => ?_
    have hafter : Stable fun h => Protected skip h ∧ Named py cfg.ghostDir service preVersion h ∧ Located nginx h :=
      stable_protected.and ((stable_replied _ _ _).and (stable_replied _ _ _))
    refine (Does.tell hafter rfl).bind fun _ => (Does.tell hafter rfl).bind fun _ => ?_
    refine (Does.quiet hafter calm_stopStalePermissionSweeps.plain).bind fun _ => ?_
    refine (Does.quiet hafter (calm_fixGhostPermissions _ _).plain).bind fun ok => .ite (fun _ => .pure fun h _ => nofun) fun _ => ?_
    refine .pure fun h hp found hfound => ?_
    cases hfound
    exact hp

theorem ends_stepTwo : Ends py cfg.ghostDir skip (Protected skip) (stepTwo py cfg) fun h ok => ok = true → Working py cfg.ghostDir skip h := by
  have hstop : ∀ {P : Log → Prop}, Ends py cfg.ghostDir skip P (pure false : Step Bool) fun h ok =>
      ok = true → Working py cfg.ghostDir skip h :=
    Triple.pure fun _ _ hok => nomatch hok
  refine does_connectAndPrepare.andThen fun found => ?_
  cases found with
  | none => exact hstop
  | some found =>
    have hbefore : Stable fun h => Protected skip h ∧ Shown py cfg.ghostDir found h :=
      stable_protected.and (stable_shown found)
    refine ((Does.quiet hbefore (quiet_checkRuntime found.nginx)).weaken (fun h hp => hp found rfl) fun _ _ hp => hp).andThen fun ok => ?_
    exact Triple.ite (fun _ => hstop) fun _ => ends_update found

theorem does_protect : Does py ghostDir skip (fun _ => True) (protect cfg skip) fun h ok => ok = true → Protected skip h := by
  unfold protect
  refine .ite (fun hskip => .pure fun h _ _ => .inl hskip) fun _ => .ite (fun _ => .pure fun h _ hok => nomatch hok) fun _ => ?_
  have hissue : ∀ task, Does py ghostDir skip (fun _ => True) (issue (.protect task)) fun h r =>
      True ∧ Answered (fun _ => True) (.protect task) (· = r) h :=
    fun task => Does.issue (fun _ _ _ => trivial) (fun h _ => allowed_of_plain rfl) nofun
  refine (hissue _).bind fun answer => ?_
  cases answer with
  | none => exact .throw
  | some ok =>
    refine .pure fun h hp hok => .inr ?_
    obtain ⟨r, before, hsuffix, hr, -⟩ := hp.2
    rw [hr, hok] at hsuffix
    exact ⟨_, hsuffix.subset List.mem_cons_self⟩

end ProxmoxTool.Ghost
