import Mathlib
import ProxmoxTool.Moderation.Routes

/-!
# Mutations and the audit log

What the commands of a request leave in the audit log, whatever the instance answers.  A row is written behind the closure of
`_mastodon_json`, so a mutation stays without one if its response cannot be read, and for `action` and the lifts also if the lookup behind
it fails.  `mutations_audited_iff` says that these are the only cases.
-/

namespace ProxmoxTool.Moderation.Admin

open Script

variable (u : TextTable)

/-- The row is about the mutation. -/
def Row.Records (row : Row) : ApiCall → Prop
  | .resolveReport id =>
    row.action = "mastodon_report_resolve".toList ∧ ("report_id".toList, Detail.text (natText id)) ∈ row.details
  | .reopenReport id =>
    row.action = "mastodon_report_reopen".toList ∧ ("report_id".toList, Detail.text (natText id)) ∈ row.details
  | .approveAccount id =>
    row.action = "mastodon_account_approve".toList ∧ ("account_id".toList, Detail.text (natText id)) ∈ row.details
  | .rejectAccount id =>
    row.action = "mastodon_account_reject".toList ∧ ("account_id".toList, Detail.text (natText id)) ∈ row.details
  | .accountAction id type _ _ _ =>
    row.action = "mastodon_account_".toList ++ type.text ∧ ("account_id".toList, Detail.text (natText id)) ∈ row.details
  | .liftAccountAction id lift =>
    row.action = "mastodon_account_".toList ++ lift.text ∧ ("account_id".toList, Detail.text (natText id)) ∈ row.details
  | .deleteAccount id =>
    row.action = "mastodon_account_delete".toList ∧ ("account_id".toList, Detail.text (natText id)) ∈ row.details
  | .createDomainBlock domain _ =>
    row.action = "mastodon_domain_block_create".toList ∧
      ∃ name, row.resourceName = some name ∧ validateDomain u name = .ok domain
  | .deleteDomainBlock id =>
    row.action = "mastodon_domain_block_delete".toList ∧ ("block_id".toList, Detail.text (natText id)) ∈ row.details
  | _ => False

/-- Behind every mutation that the instance has performed there is a row about it. -/
def Audited (h : Script.History Command Answer) : Prop :=
  ∀ after c o before, h = after ++ ⟨.api c, o⟩ :: before → c.mutates = true → o.performed = true →
    ∃ row, ⟨.audit row, ()⟩ ∈ after ∧ row.Records u c

/-- The command changes nothing on the instance. -/
def Quiet (c : Command) : Prop := ∀ call, c = .api call → call.mutates = false

variable {u}

theorem audited_of_quiet {h : Script.History Command Answer} (hh : ∀ e ∈ h, Quiet e.1) : Audited u h := by
  intro after c o before heq hmutates
  have hquiet := hh ⟨.api c, o⟩ (by rw [heq]; exact List.mem_append_right _ List.mem_cons_self) c rfl
  rw [hmutates] at hquiet
  cases hquiet

/-- Quiet commands around the first mutation. -/
theorem audited_append_iff {after before : Script.History Command Answer} {c : ApiCall} {o : Outcome c.Result} (hc : c.mutates = true)
    (hafter : ∀ e ∈ after, Quiet e.1) (hbefore : ∀ e ∈ before, Quiet e.1) :
    Audited u (after ++ ⟨.api c, o⟩ :: before) ↔
      (o.performed = true → ∃ row, ⟨.audit row, ()⟩ ∈ after ∧ row.Records u c) := by
  constructor
  · intro haudited hperformed
    exact haudited after c o before rfl hc hperformed
  · intro hrow after' c' o' before' heq hmutates hperformed
    have hloud : ¬ Quiet (.api c') := fun hquiet => by
      have := hquiet c' rfl
      rw [hmutates] at this
      cases this
    rcases List.append_eq_append_iff.1 heq with ⟨as, hafter', hcons⟩ | ⟨bs, hafter', hcons⟩
    · -- the mutation stands at or behind the given one
      cases as with
      | nil =>
        rw [List.nil_append] at hcons
        obtain ⟨hhead, -⟩ := List.cons.inj hcons
        cases hhead
        rw [List.append_nil] at hafter'
        rw [hafter']
        exact hrow hperformed
      | cons a as =>
        obtain ⟨-, htail⟩ := List.cons.inj hcons
        exact absurd (hbefore ⟨.api c', o'⟩ (by rw [htail]; exact List.mem_append_right _ List.mem_cons_self)) hloud
    · cases bs with
      | nil =>
        obtain ⟨hhead, -⟩ := List.cons.inj hcons
        cases hhead
        rw [List.append_nil] at hafter'
        rw [← hafter']
        exact hrow hperformed
      | cons b bs =>
        obtain ⟨hhead, -⟩ := List.cons.inj hcons
        refine absurd (hafter ⟨.api c', o'⟩ ?_) hloud
        rw [hafter', hhead]
        exact List.mem_append_right _ List.mem_cons_self

/-! ### `_mastodon_json` -/

section

variable {site : Site} {answer : Script.History Command Answer → ∀ c, Answer c} {h : Script.History Command Answer} {row : Row}

theorem mastodonJson_transcript (hclient : getMastodonClient site = .ok ()) (fn : Remote (Except Raised Unit)) :
    ((mastodonJson site fn row).transcript answer h).1 =
      if (fn.transcript answer h).2.isOk then ⟨.audit row, ()⟩ :: (fn.transcript answer h).1 else (fn.transcript answer h).1 := by
  unfold mastodonJson
  rw [hclient]
  dsimp only
  rw [transcript_bind]
  rcases (fn.transcript answer h).2 with (message | message | _) | _ <;> rfl

theorem mastodonJson_transcript_of_error {response : Response} (hclient : getMastodonClient site = .error response)
    (fn : Remote (Except Raised Unit)) : (mastodonJson site fn row).transcript answer h = (h, response) := by
  unfold mastodonJson
  rw [hclient]
  rfl

/-- A closure that makes the mutation and then only quiet calls is audited if and only if it returns. -/
theorem audited_mastodonJson {fn : Remote (Except Raised Unit)} {after : Script.History Command Answer} {c : ApiCall} {o : Outcome c.Result}
    (hh : ∀ e ∈ h, Quiet e.1) (hc : c.mutates = true) (hrow : row.Records u c)
    (hfn : (fn.transcript answer h).1 = after ++ ⟨.api c, o⟩ :: h)
    (hafter : ∀ e ∈ after, Quiet e.1 ∧ ∀ row, e.1 ≠ .audit row) :
    Audited u ((mastodonJson site fn row).transcript answer h).1 ↔
      (getMastodonClient site = .ok () → o.performed = true → (fn.transcript answer h).2.isOk = true) := by
  have hquiet : ∀ e ∈ after, Quiet e.1 := fun e he => (hafter e he).1
  have hno : ¬ ∃ row, (⟨.audit row, ()⟩ : (c : Command) × Answer c) ∈ after ∧ row.Records u c := by
    rintro ⟨row, hmem, -⟩
    exact (hafter _ hmem).2 row rfl
  cases hclient : getMastodonClient site with
  | error response =>
    rw [mastodonJson_transcript_of_error hclient]
    exact iff_of_true (audited_of_quiet hh) nofun
  | ok _ =>
    rw [mastodonJson_transcript hclient, hfn]
    cases hok : (fn.transcript answer h).2.isOk with
    | false =>
      rw [if_neg (by decide), audited_append_iff hc hquiet hh]
      exact ⟨fun himp _ hperformed => absurd (himp hperformed) hno, fun himp hperformed => absurd (himp rfl hperformed) (by decide)⟩
    | true =>
      rw [if_pos rfl, ← List.cons_append, audited_append_iff hc _ hh]
      · exact iff_of_true (fun _ => ⟨row, List.mem_cons_self, hrow⟩) fun _ _ => rfl
      · exact List.forall_mem_cons.2 ⟨nofun, hquiet⟩

theorem isOk_perform (c : ApiCall) : ((perform c).transcript answer h).2.isOk = (answer h (.api c)).isReturned := by
  have heq : ((perform c).transcript answer h).2 = (answer h (.api c)).result.map fun _ => () := rfl
  rw [heq]
  cases answer h (.api c) with
  | refused e => rfl
  | unread e => rfl
  | returned a => rfl

theorem audited_perform {c : ApiCall} (hh : ∀ e ∈ h, Quiet e.1) (hc : c.mutates = true) (hrow : row.Records u c) :
    Audited u ((mastodonJson site (perform c) row).transcript answer h).1 ↔
      (getMastodonClient site = .ok () → (answer h (.api c)).performed = true → (answer h (.api c)).isReturned = true) := by
  rw [audited_mastodonJson hh hc hrow (List.nil_append _).symm (by simp), isOk_perform]

theorem performAndLookUp_transcript (c : ApiCall) (id : Nat) :
    (performAndLookUp c id).transcript answer h =
      Script.transcript answer (⟨.api c, answer h (.api c)⟩ :: h) (match (answer h (.api c)).result with
        | .error e => pure (.error e)
        | .ok _ => perform (.getAdminAccount id)) := rfl

theorem performAndLookUp_of_error {c : ApiCall} {e : Raised} (he : (answer h (.api c)).result = .error e) (id : Nat) :
    (performAndLookUp c id).transcript answer h = (⟨.api c, answer h (.api c)⟩ :: h, .error e) := by
  rw [performAndLookUp_transcript, he]
  rfl

theorem performAndLookUp_of_ok {c : ApiCall} {a : c.Result} (ha : (answer h (.api c)).result = .ok a) (id : Nat) :
    (performAndLookUp c id).transcript answer h =
      (perform (.getAdminAccount id)).transcript answer (⟨.api c, answer h (.api c)⟩ :: h) := by
  rw [performAndLookUp_transcript, ha]

theorem Outcome.isReturned_eq {α : Type} (o : Outcome α) : o.isReturned = o.result.isOk := by
  cases o with
  | refused e => rfl
  | unread e => rfl
  | returned a => rfl

/-- The closures that look the account up behind the mutation. -/
theorem audited_performAndLookUp {c : ApiCall} {id : Nat} (hh : ∀ e ∈ h, Quiet e.1) (hc : c.mutates = true) (hrow : row.Records u c) :
    Audited u ((mastodonJson site (performAndLookUp c id) row).transcript answer h).1 ↔
      (getMastodonClient site = .ok () → (answer h (.api c)).performed = true → (answer h (.api c)).isReturned = true ∧
        (answer (⟨.api c, answer h (.api c)⟩ :: h) (.api (.getAdminAccount id))).isReturned = true) := by
  rw [Outcome.isReturned_eq]
  cases hresult : (answer h (.api c)).result with
  | error e =>
    have htranscript := performAndLookUp_of_error hresult id
    rw [audited_mastodonJson hh hc hrow (by rw [htranscript]; exact (List.nil_append _).symm) (by simp), htranscript]
    exact ⟨fun himp hok hp => absurd (himp hok hp) nofun, fun himp hok hp => absurd (himp hok hp).1 nofun⟩
  | ok a =>
    have htranscript := performAndLookUp_of_ok hresult id
    have hquiet : ∀ e ∈ [(⟨.api (.getAdminAccount id), answer (⟨.api c, answer h (.api c)⟩ :: h) (.api (.getAdminAccount id))⟩ :
        (c : Command) × Answer c)], Quiet e.1 ∧ ∀ row, e.1 ≠ .audit row := by
      intro e he
      rw [List.mem_singleton] at he
      subst he
      exact ⟨fun call hcall => by cases hcall; rfl, nofun⟩
    rw [audited_mastodonJson hh hc hrow (by rw [htranscript]; rfl) hquiet, htranscript, isOk_perform]
    exact ⟨fun himp hok hp => ⟨rfl, himp hok hp⟩, fun himp hok hp => (himp hok hp).2⟩

/-! ### The checks in front -/

theorem quiet_read {c : ApiCall} (hc : c.mutates = false) : Quiet (.api c) := fun call hcall => by
  cases hcall
  exact hc

theorem permits_quiet : Permits Quiet where
  read := fun _ hc => quiet_read hc
  audit := fun _ => nofun
  addWatch := fun _ _ _ _ _ => nofun
  acquire := nofun
  release := nofun

theorem transcript_lookUp {c : ApiCall} (hsite : getMastodonClient site = .ok ()) (next : c.Result → Remote Response) :
    (lookUp site c next).transcript answer h =
      Script.transcript answer (⟨.api c, answer h (.api c)⟩ :: h) (match (answer h (.api c)).result with
        | .error (.api message) => pure (.refused 502 message)
        | .error _ => pure .crashed
        | .ok found => next found) := by
  unfold lookUp
  rw [hsite]
  rfl

theorem audited_lookUp {c : ApiCall} (hc : c.mutates = false) (hh : ∀ e ∈ h, Quiet e.1) (next : c.Result → Remote Response) :
    Audited u ((lookUp site c next).transcript answer h).1 ↔
      (getMastodonClient site = .ok () → ∀ found, answer h (.api c) = .returned found →
        Audited u ((next found).transcript answer (⟨.api c, answer h (.api c)⟩ :: h)).1) := by
  have hlooked : ∀ e ∈ (⟨.api c, answer h (.api c)⟩ :: h : Script.History Command Answer), Quiet e.1 :=
    List.forall_mem_cons.2 ⟨quiet_read hc, hh⟩
  cases hsite : getMastodonClient site with
  | error response =>
    unfold lookUp
    rw [hsite]
    exact iff_of_true (audited_of_quiet hh) fun hclient => by cases hclient
  | ok _ =>
    rw [transcript_lookUp hsite]
    cases houtcome : answer h (.api c) with
    | refused e =>
      rw [houtcome] at hlooked
      refine iff_of_true ?_ fun _ _ hfound => by cases hfound
      cases e <;> exact audited_of_quiet hlooked
    | unread e =>
      rw [houtcome] at hlooked
      refine iff_of_true ?_ fun _ _ hfound => by cases hfound
      cases e <;> exact audited_of_quiet hlooked
    | returned found =>
      constructor
      · intro haudited _ found' heq
        cases heq
        exact haudited
      · intro himp
        exact himp rfl found rfl

theorem audited_unlessStaff {user : User} {target : Account} {resourceName accountId type : Text} {report : List (Text × Detail)}
    (hh : ∀ e ∈ h, Quiet e.1) (next : Remote Response) :
    Audited u ((unlessStaff u user target resourceName accountId type report next).transcript answer h).1 ↔
      ((target.isStaff u && !user.canModerateStaff) = false → Audited u (next.transcript answer h).1) := by
  unfold unlessStaff
  cases target.isStaff u && !user.canModerateStaff with
  | true =>
    refine iff_of_true (audited_of_quiet ?_) nofun
    exact List.forall_mem_cons.2 ⟨nofun, hh⟩
  | false => exact ⟨fun haudited _ => haudited, fun himp => himp rfl⟩

end

/-! ### When a mutation is audited -/

/-- The account that is looked up in front of the mutation. -/
def Request.lookedUp : Request → Option Nat
  | .accountAction id | .accountDelete id => some id
  | _ => none

/-- The account that is looked up behind the mutation. -/
def Request.lookedUpAgain : Request → Option Nat
  | .accountAction id | .accountLift id _ => some id
  | _ => none

/-- How many calls the instance is asked for before the mutation. -/
def Request.turn (request : Request) : Nat := if request.lookedUp.isSome then 1 else 0

section

variable (u) (site : Site) (user : User) (form : Form) (answer : Nat → ∀ c, Answer c)

/-- The mutation that a request asks for with its form. -/
def Request.mutation : Request → Option ApiCall
  | .reportResolve id => some (.resolveReport id)
  | .reportReopen id => some (.reopenReport id)
  | .accountApprove id => some (.approveAccount id)
  | .accountReject id => some (.rejectAccount id)
  | .accountAction id => (ActionType.parse (formText form "type")).map fun type =>
      .accountAction id type (formText form "text") (formReportId u form) (formFlag u form "send_email_notification")
  | .accountDelete id =>
    let acct := formText form "acct"
    if acct = [] ∨ formText form "confirm" ≠ acct then none else some (.deleteAccount id)
  | .accountLift id lift => (parseLift lift).map (.liftAccountAction id)
  | .domainBlockCreate =>
    match validateDomain u (form.get "domain".toList), Severity.parse (orElse (formText form "severity") "silence".toList) with
    | .ok name, some severity =>
      match validateDomain u name with
      | .ok domain => some (.createDomainBlock domain (blockOptions u form severity))
      | .error _ => none
    | _, _ => none
  | .domainBlockDelete id => some (.deleteDomainBlock id)
  | .reportStatusesAction _ | .accountMaintenance _ | .watchAdd => none

/-- The check of the account that was looked up. -/
def Request.admits (request : Request) (target : Account) : Prop :=
  (target.isStaff u && !user.canModerateStaff) = false ∧ ∀ id, request = .accountDelete id → target.suspended = true

/-- The checks in front of the mutation are passed. -/
def Request.ComesToMutation (request : Request) : Prop :=
  requireLogin user request = none ∧ getMastodonClient site = .ok () ∧
    ∀ id, request.lookedUp = some id → ∃ target, answer 0 (.api (.getAdminAccount id)) = .returned target ∧ request.admits u user target

/-- If the instance performs the mutation, its response can be read, and so can that of the lookup behind it. -/
def Request.NothingFailsBehind (request : Request) : Prop :=
  ∀ c, request.mutation u form = some c → request.ComesToMutation u site user answer → (answer request.turn (.api c)).performed = true →
    (answer request.turn (.api c)).isReturned = true ∧
      ∀ id, request.lookedUpAgain = some id → (answer (request.turn + 1) (.api (.getAdminAccount id))).isReturned = true

/-- The answers by the number of commands before them. -/
def byTurn : Script.History Command Answer → ∀ c, Answer c := fun h c => answer h.length c

/-- The commands of a request with the answers, the latest first. -/
def Request.commands (request : Request) : Script.History Command Answer :=
  ((serve u site user form request).transcript (byTurn answer) []).1

end

variable {site : Site} {user : User} {form : Form} {answer : Nat → ∀ c, Answer c}

theorem commands_of_redirect {request : Request} {response : Response} (h : requireLogin user request = some response) :
    request.commands u site user form answer = [] := by
  unfold Request.commands serve
  rw [h]
  rfl

theorem commands_of_allowed {request : Request} (h : requireLogin user request = none) :
    request.commands u site user form answer = ((route u site user form request).transcript (byTurn answer) []).1 := by
  unfold Request.commands serve
  rw [h]

/-- The condition for a request that looks nothing up. -/
theorem nothingFailsBehind_iff {request : Request} {c : ApiCall} (hmutation : request.mutation u form = some c)
    (hlook : request.lookedUp = none) (hallowed : requireLogin user request = none) :
    request.NothingFailsBehind u site user form answer ↔
      (getMastodonClient site = .ok () → (answer 0 (.api c)).performed = true → (answer 0 (.api c)).isReturned = true ∧
        ∀ id, request.lookedUpAgain = some id → (answer 1 (.api (.getAdminAccount id))).isReturned = true) := by
  have hturn : request.turn = 0 := by
    unfold Request.turn
    rw [hlook]
    rfl
  unfold Request.NothingFailsBehind Request.ComesToMutation
  rw [hturn]
  constructor
  · intro h hclient hperformed
    exact h c hmutation ⟨hallowed, hclient, by rw [hlook]; nofun⟩ hperformed
  · intro h c' hc' hcomes hperformed
    rw [hmutation] at hc'
    cases hc'
    exact h hcomes.2.1 hperformed

theorem nothingFailsBehind_of_none {request : Request} (h : request.mutation u form = none) :
    request.NothingFailsBehind u site user form answer := by
  intro c hc
  rw [h] at hc
  cases hc

private theorem nil_quiet : ∀ e ∈ ([] : Script.History Command Answer), Quiet e.1 := nofun

/-- A route that makes one call. -/
theorem audited_single {request : Request} {c : ApiCall} {row : Row} (hmutation : request.mutation u form = some c)
    (hlook : request.lookedUp = none) (hagain : request.lookedUpAgain = none) (hallowed : requireLogin user request = none)
    (hc : c.mutates = true) (hrow : row.Records u c) :
    Audited u ((mastodonJson site (perform c) row).transcript (byTurn answer) []).1 ↔
      request.NothingFailsBehind u site user form answer := by
  rw [audited_perform nil_quiet hc hrow, nothingFailsBehind_iff hmutation hlook hallowed, hagain]
  refine imp_congr_right fun _ => imp_congr_right fun _ => ?_
  exact ⟨fun hreturned => ⟨hreturned, nofun⟩, fun h => h.1⟩

theorem audited_lift {id : Nat} {lift : Text} (hallowed : requireLogin user (.accountLift id lift) = none) :
    Audited u ((mastodonAccountLift site form id lift).transcript (byTurn answer) []).1 ↔
      (Request.accountLift id lift).NothingFailsBehind u site user form answer := by
  unfold mastodonAccountLift
  cases hlift : parseLift lift with
  | none =>
    have hnone : (Request.accountLift id lift).mutation u form = none := by rw [Request.mutation, hlift]; rfl
    exact iff_of_true (audited_of_quiet nil_quiet) (nothingFailsBehind_of_none hnone)
  | some lifted =>
    have hsome : (Request.accountLift id lift).mutation u form = some (.liftAccountAction id lifted) := by
      rw [Request.mutation, hlift]
      rfl
    dsimp only
    rw [nothingFailsBehind_iff hsome rfl hallowed]
    refine Iff.trans (audited_performAndLookUp nil_quiet rfl ⟨rfl, List.mem_cons_self⟩) ?_
    refine imp_congr_right fun _ => imp_congr_right fun _ => and_congr_right fun _ => ?_
    exact ⟨fun hreturned id' hid => by cases hid; exact hreturned, fun h => h id rfl⟩

theorem audited_domainBlockCreate (hallowed : requireLogin user .domainBlockCreate = none) :
    Audited u ((mastodonDomainBlockCreate u site form).transcript (byTurn answer) []).1 ↔
      Request.domainBlockCreate.NothingFailsBehind u site user form answer := by
  have hrefused : Request.domainBlockCreate.mutation u form = none → ∀ x : Remote Response, Only Quiet x →
      (Audited u (x.transcript (byTurn answer) []).1 ↔ Request.domainBlockCreate.NothingFailsBehind u site user form answer) :=
    fun hnone x hx => iff_of_true (audited_of_quiet (hx.transcript (byTurn answer) nil_quiet)) (nothingFailsBehind_of_none hnone)
  unfold mastodonDomainBlockCreate
  cases hname : validateDomain u (form.get "domain".toList) with
  | error message => exact hrefused (by rw [Request.mutation, hname]) _ trivial
  | ok name =>
    dsimp only
    cases hseverity : Severity.parse (orElse (formText form "severity") "silence".toList) with
    | none => exact hrefused (by rw [Request.mutation, hname, hseverity]) _ trivial
    | some severity =>
      dsimp only
      unfold createDomainBlock
      cases hdomain : validateDomain u name with
      | error message =>
        refine hrefused ?_ _ (only_mastodonJson permits_quiet (Only.pure _) _)
        rw [Request.mutation, hname, hseverity]
        dsimp only
        rw [hdomain]
      | ok domain =>
        refine audited_single ?_ rfl rfl hallowed rfl ⟨rfl, name, rfl, hdomain⟩
        rw [Request.mutation, hname, hseverity]
        dsimp only
        rw [hdomain]

/-- The condition for a request that looks an account up first. -/
theorem nothingFailsBehind_lookedUp_iff {request : Request} {c : ApiCall} {id : Nat} (hmutation : request.mutation u form = some c)
    (hlook : request.lookedUp = some id) (hallowed : requireLogin user request = none) :
    request.NothingFailsBehind u site user form answer ↔
      (getMastodonClient site = .ok () → ∀ target, answer 0 (.api (.getAdminAccount id)) = .returned target →
        request.admits u user target → (answer 1 (.api c)).performed = true → (answer 1 (.api c)).isReturned = true ∧
          ∀ id, request.lookedUpAgain = some id → (answer 2 (.api (.getAdminAccount id))).isReturned = true) := by
  have hturn : request.turn = 1 := by
    unfold Request.turn
    rw [hlook]
    rfl
  unfold Request.NothingFailsBehind Request.ComesToMutation
  rw [hturn]
  constructor
  · intro h hclient target htarget hadmits hperformed
    refine h c hmutation ⟨hallowed, hclient, fun id' hid => ?_⟩ hperformed
    rw [hlook] at hid
    cases hid
    exact ⟨target, htarget, hadmits⟩
  · intro h c' hc' hcomes hperformed
    rw [hmutation] at hc'
    cases hc'
    obtain ⟨target, htarget, hadmits⟩ := hcomes.2.2 id hlook
    exact h hcomes.2.1 target htarget hadmits hperformed

theorem audited_action {id : Nat} (hallowed : requireLogin user (.accountAction id) = none) :
    Audited u ((mastodonAccountAction u site user form id).transcript (byTurn answer) []).1 ↔
      (Request.accountAction id).NothingFailsBehind u site user form answer := by
  unfold mastodonAccountAction
  cases htype : ActionType.parse (formText form "type") with
  | none =>
    have hnone : (Request.accountAction id).mutation u form = none := by rw [Request.mutation, htype]; rfl
    exact iff_of_true (audited_of_quiet nil_quiet) (nothingFailsBehind_of_none hnone)
  | some type =>
    dsimp only
    rw [audited_lookUp rfl nil_quiet, nothingFailsBehind_lookedUp_iff (by rw [Request.mutation, htype]; rfl) rfl hallowed]
    refine imp_congr_right fun hclient => forall_congr' fun target => imp_congr_right fun htarget => ?_
    have hlooked : ∀ e ∈ ([⟨.api (.getAdminAccount id), byTurn answer [] (.api (.getAdminAccount id))⟩] : Script.History Command Answer),
        Quiet e.1 := List.forall_mem_cons.2 ⟨quiet_read rfl, nofun⟩
    refine (audited_unlessStaff hlooked _).trans ?_
    refine Iff.trans (imp_congr_right fun _ => audited_performAndLookUp hlooked rfl ⟨rfl, List.mem_cons_self⟩) ?_
    constructor
    · intro h hadmits hperformed
      obtain ⟨hreturned, hagain⟩ := h hadmits.1 hclient hperformed
      exact ⟨hreturned, fun id' hid => by cases hid; exact hagain⟩
    · intro h hstaff _ hperformed
      obtain ⟨hreturned, hagain⟩ := h ⟨hstaff, nofun⟩ hperformed
      exact ⟨hreturned, hagain id rfl⟩

theorem audited_delete {id : Nat} (hallowed : requireLogin user (.accountDelete id) = none) :
    Audited u ((mastodonAccountDelete u site user form id).transcript (byTurn answer) []).1 ↔
      (Request.accountDelete id).NothingFailsBehind u site user form answer := by
  unfold mastodonAccountDelete
  dsimp only
  by_cases hacct : formText form "acct" = []
  · rw [if_pos hacct]
    have hnone : (Request.accountDelete id).mutation u form = none := if_pos (.inl hacct)
    exact iff_of_true (audited_of_quiet nil_quiet) (nothingFailsBehind_of_none hnone)
  rw [if_neg hacct]
  by_cases hconfirm : formText form "confirm" = formText form "acct"
  · rw [if_neg (not_not.2 hconfirm)]
    have hsome : (Request.accountDelete id).mutation u form = some (.deleteAccount id) :=
      if_neg (not_or.2 ⟨hacct, not_not.2 hconfirm⟩)
    rw [audited_lookUp rfl nil_quiet, nothingFailsBehind_lookedUp_iff hsome rfl hallowed]
    refine imp_congr_right fun hclient => forall_congr' fun target => imp_congr_right fun htarget => ?_
    have hlooked : ∀ e ∈ ([⟨.api (.getAdminAccount id), byTurn answer [] (.api (.getAdminAccount id))⟩] : Script.History Command Answer),
        Quiet e.1 := List.forall_mem_cons.2 ⟨quiet_read rfl, nofun⟩
    cases hsuspended : target.suspended with
    | false =>
      refine iff_of_true (audited_of_quiet hlooked) fun hadmits => ?_
      rw [hadmits.2 id rfl] at hsuspended
      cases hsuspended
    | true =>
      rw [Bool.not_true, if_neg (by decide)]
      refine (audited_unlessStaff hlooked _).trans ?_
      refine Iff.trans (imp_congr_right fun _ => audited_perform hlooked rfl ⟨rfl, List.mem_cons_self⟩) ?_
      constructor
      · intro h hadmits hperformed
        exact ⟨h hadmits.1 hclient hperformed, nofun⟩
      · intro h hstaff _ hperformed
        exact (h ⟨hstaff, fun _ _ => hsuspended⟩ hperformed).1
  · rw [if_pos hconfirm]
    have hnone : (Request.accountDelete id).mutation u form = none := if_pos (.inr hconfirm)
    exact iff_of_true (audited_of_quiet nil_quiet) (nothingFailsBehind_of_none hnone)

/-- The routes over SSH and the watches ask the instance for nothing but lookups. -/
theorem quiet_report (id : Nat) : ∀ e ∈ ((mastodonReportStatusesAction u site user form id).transcript (byTurn answer) []).1,
    Quiet e.1 := by
  unfold mastodonReportStatusesAction
  split
  · exact nil_quiet
  · dsimp only
    split
    · exact nil_quiet
    · split
      · exact nil_quiet
      · exact lookUp_forall permits_quiet rfl nil_quiet fun report _ => only_actOnReport permits_quiet fun _ _ _ => nofun

theorem quiet_maintenance (id : Nat) : ∀ e ∈ ((mastodonAccountMaintenance u site user form id).transcript (byTurn answer) []).1,
    Quiet e.1 := by
  unfold mastodonAccountMaintenance
  split
  · exact List.forall_mem_cons.2 ⟨nofun, nil_quiet⟩
  · split
    · exact nil_quiet
    · exact lookUp_forall permits_quiet rfl nil_quiet fun target _ => only_maintainAccount permits_quiet fun _ _ _ _ => nofun

/-- For every request and every sequence of outcomes: whatever the instance has done for it is in the audit log if and only if nothing fails
behind the mutation. -/
theorem mutations_audited_iff (u : TextTable) (site : Site) (user : User) (form : Form) (answer : Nat → ∀ c, Answer c)
    (request : Request) :
    Audited u (request.commands u site user form answer) ↔ request.NothingFailsBehind u site user form answer := by
  cases hlogin : requireLogin user request with
  | some response =>
    rw [commands_of_redirect hlogin]
    refine iff_of_true (audited_of_quiet nil_quiet) fun c _ hcomes => ?_
    rw [hcomes.1] at hlogin
    cases hlogin
  | none =>
    rw [commands_of_allowed hlogin]
    cases request with
    | reportResolve id => exact audited_single rfl rfl rfl hlogin rfl ⟨rfl, List.mem_cons_self⟩
    | reportReopen id => exact audited_single rfl rfl rfl hlogin rfl ⟨rfl, List.mem_cons_self⟩
    | accountApprove id => exact audited_single rfl rfl rfl hlogin rfl ⟨rfl, List.mem_cons_self⟩
    | accountReject id => exact audited_single rfl rfl rfl hlogin rfl ⟨rfl, List.mem_cons_self⟩
    | domainBlockDelete id => exact audited_single rfl rfl rfl hlogin rfl ⟨rfl, List.mem_cons_self⟩
    | accountAction id => exact audited_action hlogin
    | accountDelete id => exact audited_delete hlogin
    | accountLift id lift => exact audited_lift hlogin
    | domainBlockCreate => exact audited_domainBlockCreate hlogin
    | reportStatusesAction id => exact iff_of_true (audited_of_quiet (quiet_report id)) (nothingFailsBehind_of_none rfl)
    | accountMaintenance id => exact iff_of_true (audited_of_quiet (quiet_maintenance id)) (nothingFailsBehind_of_none rfl)
    | watchAdd =>
      exact iff_of_true (audited_of_quiet ((only_mastodonWatchAdd permits_quiet).transcript (byTurn answer) nil_quiet))
        (nothingFailsBehind_of_none rfl)

/-! ### A suspension without a row -/

/-- Python's functions on ASCII text. -/
def asciiTable : TextTable where
  alnum := fun _ => false
  decimal := fun _ => false
  lower := List.map Char.toLower
  isDigits := fun t => !t.isEmpty && t.all Char.isDigit
  int := parseInt

def exampleSite : Site where
  apiUrl := "https://social.example".toList
  apiToken := "gAAAAA".toList
  decrypt := fun _ => some (some "token".toList)
  mastodonUser := "mastodon".toList
  mastodonAppDir := "/home/mastodon/live".toList
  mastodonGuestId := "3".toList
  guest := fun _ => some { ipAddress := some "10.0.0.3".toList, credential := true }
  defaultCredential := false
  tokenAccountId := some "1".toList
  watched := fun _ => false

def moderator : User where
  canModerate := true
  isAdmin := false
  canModerateStaff := false
  canMaintainMastodonAccounts := false

def suspendForm : Form where
  get := fun name => if name = "type".toList then "suspend".toList else []
  getlist := fun _ => []

def member5 : Account where
  id := ['5']
  username := "spammer".toList
  acct := "spammer".toList
  domain := none
  suspended := false
  roleName := []
  role := .null

/-- The instance looks the account up, suspends it, and is overloaded when it is asked for the account again. -/
def overloaded (turn : Nat) : ∀ c, Answer c
  | .api (.getAdminAccount _) =>
    if turn = 0 then .returned member5 else .refused (.api "Mastodon API returned HTTP 503".toList)
  | .api (.getReport _) => .refused .other
  | .api (.latestStatus _) => .refused .other
  | .api (.accountAction _ _ _ _ _) => .returned ()
  | .api (.resolveReport _) | .api (.reopenReport _) | .api (.approveAccount _) | .api (.rejectAccount _)
  | .api (.liftAccountAction _ _) | .api (.deleteAccount _) | .api (.createDomainBlock _ _) | .api (.deleteDomainBlock _) =>
    .refused .other
  | .ssh _ _ _ => .error []
  | .addWatch _ _ _ _ _ => false
  | .acquire => false
  | .audit _ => ()
  | .release => ()

theorem suspension_unaudited :
    ¬ Audited asciiTable ((Request.accountAction 5).commands asciiTable exampleSite moderator suspendForm overloaded) := by
  have hlogin : requireLogin moderator (.accountAction 5) = none := rfl
  have hmutation : (Request.accountAction 5).mutation asciiTable suspendForm = some (.accountAction 5 .suspend [] none false) := rfl
  rw [commands_of_allowed hlogin]
  intro haudited
  have hnothing : (Request.accountAction 5).NothingFailsBehind asciiTable exampleSite moderator suspendForm overloaded :=
    (audited_action hlogin).1 haudited
  have hbehind := (nothingFailsBehind_lookedUp_iff hmutation rfl hlogin).1 hnothing
  have hagain := (hbehind rfl member5 rfl ⟨rfl, nofun⟩ rfl).2 5 rfl
  cases hagain

end ProxmoxTool.Moderation.Admin
