import ProxmoxTool.Moderation.Audited

/-!
# Staff accounts

Which commands a user without `can_moderate_staff` can bring about against an account with a staff role.  The account action, the deletion,
the maintenance and the actions on posts look the target up and refuse a staff account; approvals, rejections and the lifts do not ask.
`staff_spared` is about any sequence of requests: of the commands that change something, only those three are ever issued against a staff
account.  `staff_unsuspended` is a lift.
-/

namespace ProxmoxTool.Moderation.Admin

open Script
open Transport (Lift)

/-- What the instance reports of an account and does not change while it serves a request. -/
structure Identity where
  username : Text
  domain : Option Text
  role : Json

def Account.identity (a : Account) : Identity where
  username := a.username
  domain := a.domain
  role := a.role

/-- The accounts that the instance reports at the time of a request, and the accounts that the reports are about.  No two local accounts
have names that differ only in case. -/
structure Snapshot where
  account : Nat → Option Identity
  reportTarget : Nat → Option Nat
  local_unique : ∀ i j a b, account i = some a → account j = some b → (truthy a.domain).isNone = true → (truthy b.domain).isNone = true →
    a.username.map Char.toLower = b.username.map Char.toLower → i = j

/-- The account that a call is about. -/
def ApiCall.account : ApiCall → Option Nat
  | .approveAccount id | .rejectAccount id | .accountAction id _ _ _ _ | .liftAccountAction id _ | .deleteAccount id |
    .getAdminAccount id => some id
  | _ => none

/-- The command may change the account. -/
def Command.Aims (s : Snapshot) (id : Nat) : Command → Prop
  | .api c => c.mutates = true ∧ c.account = some id
  | .ssh (.username name) _ _ => ∃ a, s.account id = some a ∧ (truthy a.domain).isNone = true ∧
      a.username.map Char.toLower = name.map Char.toLower
  | .ssh (.reportPosts reportId) _ _ => s.reportTarget reportId = some id
  | _ => False

/-- The account has a staff role. -/
def Snapshot.Staff (u : TextTable) (s : Snapshot) (id : Nat) : Prop := ∃ a, s.account id = some a ∧ isStaffRole u a.role = true

/-- The commands that no check of the target stands in front of. -/
def Command.unchecked : Command → Bool
  | .api (.approveAccount _) | .api (.rejectAccount _) | .api (.liftAccountAction _ _) => true
  | _ => false

/-- A request of a user without `can_moderate_staff`.  The instance may answer anything that agrees with what it reports. -/
structure Visit where
  site : Site
  user : User
  form : Form
  request : Request
  reported : Snapshot
  answer : Script.History Command Answer → ∀ c, Answer c
  unprivileged : user.canModerateStaff = false
  account_reported : ∀ h id a, answer h (.api (.getAdminAccount id)) = .returned a → reported.account id = some a.identity
  target_reported : ∀ h id r t, answer h (.api (.getReport id)) = .returned r → reported.reportTarget id = some t →
    reported.account t = some r.target.identity

def Visit.commands (u : TextTable) (v : Visit) : Script.History Command Answer :=
  ((serve u v.site v.user v.form v.request).transcript v.answer []).1

/-- No command of a request is issued against a staff account, those in `except` apart. -/
def SparesStaff (u : TextTable) (except : Command → Bool) (visits : List Visit) : Prop :=
  ∀ v ∈ visits, ∀ e ∈ v.commands u, ∀ id, v.reported.Staff u id → e.1.Aims v.reported id → except e.1 = true

section

variable {u : TextTable} {s : Snapshot}

/-- The command is not issued against a staff account, or it is unchecked. -/
def Spares (u : TextTable) (s : Snapshot) (c : Command) : Prop := ∀ id, s.Staff u id → c.Aims s id → c.unchecked = true

theorem permits_spares : Permits (Spares u s) where
  read := fun c hc id _ haims => by
    have hmutates := haims.1
    rw [hc] at hmutates
    cases hmutates
  audit := fun _ _ _ haims => haims.elim
  addWatch := fun _ _ _ _ _ _ _ haims => haims.elim
  acquire := fun _ _ haims => haims.elim
  release := fun _ _ haims => haims.elim

theorem spares_of_unchecked {c : Command} (hc : c.unchecked = true) : Spares u s c := fun _ _ _ => hc

/-- A mutation that is about no account. -/
theorem spares_of_no_account {c : ApiCall} (hc : c.account = none) : Spares u s (.api c) := by
  intro id _ haims
  have hid := haims.2
  rw [hc] at hid
  cases hid

theorem spares_of_not_staff {c : ApiCall} {id : Nat} (hc : c.account = some id) (hstaff : ¬ s.Staff u id) : Spares u s (.api c) := by
  intro id' hstaff' haims
  have hid := haims.2
  rw [hc] at hid
  cases hid
  exact absurd hstaff' hstaff

/-- The account that was looked up has passed the check. -/
theorem not_staff_of_admitted {user : User} {target : Account} {id : Nat} (huser : user.canModerateStaff = false)
    (htarget : s.account id = some target.identity) (hadmitted : (target.isStaff u && !user.canModerateStaff) = false) :
    ¬ s.Staff u id := by
  rintro ⟨a, ha, hstaff⟩
  rw [htarget] at ha
  cases ha
  rw [huser, Bool.not_false, Bool.and_true] at hadmitted
  exact absurd (hadmitted.symm.trans hstaff) (by decide)

/-- A command for the local account that was looked up. -/
theorem spares_username {target : Account} {id : Nat} (htarget : s.account id = some target.identity) (hlocal : target.isLocal = true)
    (hstaff : ¬ s.Staff u id) (command : Text) (timeout : Nat) : Spares u s (.ssh (.username target.username) command timeout) := by
  rintro id' hstaff' ⟨a, ha, halocal, hname⟩
  obtain rfl := s.local_unique id' id a target.identity ha htarget halocal hlocal hname
  exact absurd hstaff' hstaff

theorem spares_reportPosts {target : Account} {reportId : Nat}
    (htarget : ∀ t, s.reportTarget reportId = some t → s.account t = some target.identity) {user : User}
    (huser : user.canModerateStaff = false) (hadmitted : (target.isStaff u && !user.canModerateStaff) = false) (command : Text)
    (timeout : Nat) : Spares u s (.ssh (.reportPosts reportId) command timeout) := by
  intro id hstaff haims
  exact absurd hstaff (not_staff_of_admitted huser (htarget id haims) hadmitted)

end

/-! ### The routes -/

section

variable {u : TextTable} (v : Visit)

private theorem nil_spares : ∀ e ∈ ([] : Script.History Command Answer), Spares u v.reported e.1 := nofun

theorem action_spares (id : Nat) :
    ∀ e ∈ ((mastodonAccountAction u v.site v.user v.form id).transcript v.answer []).1, Spares u v.reported e.1 := by
  unfold mastodonAccountAction
  split
  · exact nil_spares v
  · refine lookUp_forall permits_spares rfl (nil_spares v) fun target htarget => ?_
    refine only_unlessStaff permits_spares fun hadmitted => ?_
    have hstaff := not_staff_of_admitted v.unprivileged (v.account_reported [] id target htarget) hadmitted
    exact only_mastodonJson permits_spares (only_performAndLookUp permits_spares (spares_of_not_staff rfl hstaff) id) _

theorem delete_spares (id : Nat) :
    ∀ e ∈ ((mastodonAccountDelete u v.site v.user v.form id).transcript v.answer []).1, Spares u v.reported e.1 := by
  unfold mastodonAccountDelete
  dsimp only
  split
  · exact nil_spares v
  · split
    · exact nil_spares v
    · refine lookUp_forall permits_spares rfl (nil_spares v) fun target htarget => ?_
      split
      · trivial
      · refine only_unlessStaff permits_spares fun hadmitted => ?_
        have hstaff := not_staff_of_admitted v.unprivileged (v.account_reported [] id target htarget) hadmitted
        exact only_mastodonJson permits_spares (only_perform (spares_of_not_staff rfl hstaff)) _

theorem maintenance_spares (id : Nat) :
    ∀ e ∈ ((mastodonAccountMaintenance u v.site v.user v.form id).transcript v.answer []).1, Spares u v.reported e.1 := by
  unfold mastodonAccountMaintenance
  split
  · exact List.forall_mem_cons.2 ⟨permits_spares.audit _, nil_spares v⟩
  · split
    · exact nil_spares v
    · refine lookUp_forall permits_spares rfl (nil_spares v) fun target htarget => ?_
      have hreported := v.account_reported [] id target htarget
      exact only_maintainAccount permits_spares fun hlocal hadmitted =>
        spares_username hreported hlocal (not_staff_of_admitted v.unprivileged hreported hadmitted)

theorem posts_spares (id : Nat) :
    ∀ e ∈ ((mastodonReportStatusesAction u v.site v.user v.form id).transcript v.answer []).1, Spares u v.reported e.1 := by
  unfold mastodonReportStatusesAction
  split
  · exact nil_spares v
  · dsimp only
    split
    · exact nil_spares v
    · split
      · exact nil_spares v
      · refine lookUp_forall permits_spares rfl (nil_spares v) fun report hreport => ?_
        exact only_actOnReport permits_spares fun hadmitted =>
          spares_reportPosts (fun t ht => v.target_reported [] id report t hreport ht) v.unprivileged hadmitted

/-- The routes that make one call. -/
theorem single_spares {c : ApiCall} (hc : Spares u v.reported (.api c)) (row : Row) :
    ∀ e ∈ ((mastodonJson v.site (perform c) row).transcript v.answer []).1, Spares u v.reported e.1 :=
  (only_mastodonJson permits_spares (only_perform hc) row).transcript v.answer (nil_spares v)

theorem lift_spares (id : Nat) (lift : Text) :
    ∀ e ∈ ((mastodonAccountLift v.site v.form id lift).transcript v.answer []).1, Spares u v.reported e.1 := by
  unfold mastodonAccountLift
  split
  · exact nil_spares v
  · have hlift : ∀ lift : Lift, Spares u v.reported (.api (.liftAccountAction id lift)) := fun _ => spares_of_unchecked rfl
    exact (only_mastodonJson permits_spares (only_performAndLookUp permits_spares (hlift _) id) _).transcript v.answer (nil_spares v)

theorem domainBlockCreate_spares :
    ∀ e ∈ ((mastodonDomainBlockCreate u v.site v.form).transcript v.answer []).1, Spares u v.reported e.1 := by
  unfold mastodonDomainBlockCreate
  split
  · exact nil_spares v
  · split
    · exact nil_spares v
    · refine (only_mastodonJson permits_spares ?_ _).transcript v.answer (nil_spares v)
      unfold createDomainBlock
      split
      · trivial
      · exact only_perform (spares_of_no_account rfl)

theorem commands_spare : ∀ e ∈ v.commands u, Spares u v.reported e.1 := by
  unfold Visit.commands serve
  cases requireLogin v.user v.request with
  | some response => exact nil_spares v
  | none =>
    dsimp only
    unfold route
    cases v.request with
    | reportResolve | reportReopen => exact single_spares v (spares_of_no_account rfl) _
    | reportStatusesAction id => exact posts_spares v id
    | accountApprove | accountReject => exact single_spares v (spares_of_unchecked rfl) _
    | accountAction id => exact action_spares v id
    | accountDelete id => exact delete_spares v id
    | accountMaintenance id => exact maintenance_spares v id
    | accountLift id lift => exact lift_spares v id lift
    | domainBlockCreate => exact domainBlockCreate_spares v
    | domainBlockDelete id => exact single_spares v (spares_of_no_account rfl) _
    | watchAdd => exact (only_mastodonWatchAdd permits_spares).transcript v.answer (nil_spares v)

end

/-- Whatever a user without `can_moderate_staff` asks for, no command is issued against a staff account but approvals, rejections and
lifts. -/
theorem staff_spared (u : TextTable) (visits : List Visit) : SparesStaff u Command.unchecked visits := by
  intro v _ e he id hstaff haims
  exact commands_spare v e he id hstaff haims

/-! ### A lift -/

def adminRole : Json := .obj [(Str.ofText "name".toList, .str (Str.ofText "Admin".toList)), (Str.ofText "permissions".toList, .str [0x31])]

def admin7 : Account where
  id := ['7']
  username := "admin".toList
  acct := "admin".toList
  domain := none
  suspended := false
  roleName := "Admin".toList
  role := adminRole

/-- Account 7 is the only account. -/
def onlyAdmin : Snapshot where
  account := fun id => if id = 7 then some admin7.identity else none
  reportTarget := fun _ => none
  local_unique := by
    intro i j a b hi hj _ _ _
    split at hi
    · rename_i hi7
      split at hj
      · rename_i hj7
        exact hi7.trans hj7.symm
      · cases hj
    · cases hi

/-- The instance lifts what it is asked to lift, and shows account 7. -/
def lifting (_ : Script.History Command Answer) : ∀ c, Answer c
  | .api (.getAdminAccount id) => if id = 7 then .returned admin7 else .refused .other
  | .api (.getReport _) => .refused .other
  | .api (.latestStatus _) => .refused .other
  | .api (.liftAccountAction _ _) => .returned ()
  | .api (.resolveReport _) | .api (.reopenReport _) | .api (.approveAccount _) | .api (.rejectAccount _)
  | .api (.accountAction _ _ _ _ _) | .api (.deleteAccount _) | .api (.createDomainBlock _ _) | .api (.deleteDomainBlock _) =>
    .refused .other
  | .ssh _ _ _ => .error []
  | .addWatch _ _ _ _ _ => false
  | .acquire => false
  | .audit _ => ()
  | .release => ()

def askAdmin (request : Request) : Visit where
  site := exampleSite
  user := moderator
  form := { get := fun _ => [], getlist := fun _ => [] }
  request := request
  reported := onlyAdmin
  answer := lifting
  unprivileged := rfl
  account_reported := by
    intro h id a ha
    change (if id = 7 then Outcome.returned admin7 else .refused .other) = .returned a at ha
    split at ha
    · rename_i hid
      cases ha
      exact if_pos hid
    · cases ha
  target_reported := fun _ _ _ _ hr _ => by cases hr

theorem admin7_staff : onlyAdmin.Staff asciiTable 7 := ⟨admin7.identity, rfl, by decide +kernel⟩

/-- A visit that issues a command of the API on account 7 does not spare staff, if nothing is set aside. -/
theorem not_spares {request : Request} {e : (c : Command) × Answer c} (hmem : e ∈ (askAdmin request).commands asciiTable)
    (haims : e.1.Aims onlyAdmin 7) : ¬ SparesStaff asciiTable (fun _ => false) [askAdmin request] := by
  intro hspares
  have hfalse := hspares _ List.mem_cons_self _ hmem 7 admin7_staff haims
  cases hfalse

/-- Lifts, approvals and rejections do not look at the target. -/
theorem staff_unsuspended : ¬ SparesStaff asciiTable (fun _ => false) [askAdmin (.accountLift 7 "unsuspend".toList)] ∧
    ¬ SparesStaff asciiTable (fun _ => false) [askAdmin (.accountApprove 7)] ∧
    ¬ SparesStaff asciiTable (fun _ => false) [askAdmin (.accountReject 7)] :=
  ⟨not_spares (e := ⟨.api (.liftAccountAction 7 .unsuspend), .returned ()⟩)
      (List.mem_cons_of_mem _ (List.mem_cons_of_mem _ List.mem_cons_self)) ⟨rfl, rfl⟩,
    not_spares (e := ⟨.api (.approveAccount 7), .refused .other⟩) List.mem_cons_self ⟨rfl, rfl⟩,
    not_spares (e := ⟨.api (.rejectAccount 7), .refused .other⟩) List.mem_cons_self ⟨rfl, rfl⟩⟩

/-- The same moderator asks for a deletion. -/
theorem admin_not_deleted : (⟨.api (.deleteAccount 7), .refused .other⟩ : (c : Command) × Answer c) ∉
    (askAdmin (.accountDelete 7)).commands asciiTable := by
  intro hmem
  have hfalse := staff_spared asciiTable [askAdmin (.accountDelete 7)] _ List.mem_cons_self _ hmem 7 admin7_staff ⟨rfl, rfl⟩
  cases hfalse

end ProxmoxTool.Moderation.Admin
