import ProxmoxTool.Guests.Routes

/-!
# Who may see a guest

The three places that decide it: `User.may_access_guest`, `User.accessible_guests` and `dispatch_push_alerts`.  Only the first of
them counts every role of level 3 or more as an admin; the others know `super_admin` alone.  So they agree on a user and a
guest unless the user is an admin by level only, without a tag of the guest (`access_agrees_iff`).
-/

namespace ProxmoxTool.Guests.Access

/-- What the decisions read of a role. -/
structure Role where
  name : Text
  level : Int

structure User where
  id : Nat
  username : Text
  role : Option Role
  allowedTags : List Nat
  isActiveUser : Bool

/-- A row of `Guest`, with the ids of its tags. -/
structure Guest where
  id : Nat
  name : Text
  guestType : Text
  enabled : Bool
  tags : List Nat

namespace User

variable (user : User)

def roleLevel : Int := user.role.elim 1 Role.level

def isSuperAdmin : Bool := user.role.elim false fun role => decide (role.name = Users.superAdmin)

def isAdmin : Bool := decide (3 ≤ user.roleLevel)

/-- `user_tag_ids & guest_tag_ids` is not empty. -/
def sharesTag (guest : Guest) : Bool := guest.tags.any fun tag => decide (tag ∈ user.allowedTags)

def canAccessGuest (guest : Guest) : Bool :=
  if user.isSuperAdmin then true
  else if guest.tags = [] then false
  else user.sharesTag guest

def mayAccessGuest (guest : Guest) : Bool := user.isAdmin || user.canAccessGuest guest

/-- `Guest.tags.any(Tag.id.in_(…))` on the enabled rows. -/
def accessibleGuests (guests : List Guest) : List Guest :=
  if user.isSuperAdmin then guests.filter Guest.enabled
  else if user.allowedTags = [] then []
  else guests.filter fun guest => guest.enabled && user.sharesTag guest

end User

/-- A row of `PushWebhook`; `events` is what `json.loads` makes of the column, `none` if it raises. -/
structure PushWebhook where
  id : Nat
  user : Option User
  url : Text
  deviceToken : Text
  events : Option (List Text)

def validEvents : List Text :=
  ["security_update".toList, "service_down".toList, "service_failed".toList, "service_recovered".toList,
    "reboot_required".toList, "guest_error".toList]

/-- `_EVENT_ALIASES`. -/
def eventAlias (event : Text) : Option Text := if event = "service_failed".toList then some "service_down".toList else none

def PushWebhook.subscribed (webhook : PushWebhook) (event : Text) : Bool :=
  webhook.events.any fun events => decide (event ∈ events) || (eventAlias event).any fun name => decide (name ∈ events)

/-- The test of `dispatch_push_alerts` on the user of a webhook. -/
def alerted (user : User) (guest : Guest) : Bool :=
  user.isActiveUser && (user.isSuperAdmin || (guest.tags ≠ [] && user.sharesTag guest))

/-- The webhooks that `dispatch_push_alerts` posts to; `validUrl` is `validate_webhook_url`. -/
def delivered (validUrl : Text → Bool) (webhooks : List PushWebhook) (guest : Guest) (event : Text) : List PushWebhook :=
  if event ∈ validEvents then
    webhooks.filter fun webhook => webhook.subscribed event && webhook.user.any (fun user => alerted user guest) && validUrl webhook.url
  else []

/-! ### The three decisions -/

variable {user : User} {guest : Guest}

theorem not_sharesTag_of_nil (h : guest.tags = []) : user.sharesTag guest = false := by
  unfold User.sharesTag
  rw [h]
  rfl

/-- `can_access_guest`, without its test for guests that have no tags. -/
theorem canAccessGuest_eq : user.canAccessGuest guest = (user.isSuperAdmin || user.sharesTag guest) := by
  unfold User.canAccessGuest
  cases user.isSuperAdmin with
  | true => rfl
  | false =>
    by_cases hnil : guest.tags = []
    · simp [hnil, not_sharesTag_of_nil hnil]
    · simp [hnil]

theorem mem_accessibleGuests {guests : List Guest} (hguest : guest ∈ guests) (henabled : guest.enabled = true) :
    guest ∈ user.accessibleGuests guests ↔ user.canAccessGuest guest = true := by
  rw [canAccessGuest_eq]
  unfold User.accessibleGuests
  cases user.isSuperAdmin with
  | true =>
    rw [if_pos rfl, List.mem_filter]
    exact iff_of_true ⟨hguest, henabled⟩ rfl
  | false =>
    rw [if_neg Bool.false_ne_true, Bool.false_or]
    by_cases hnone : user.allowedTags = []
    · have hshares : user.sharesTag guest = false := by
        unfold User.sharesTag
        rw [hnone, List.any_eq_false]
        exact fun tag _ hmem => absurd (of_decide_eq_true hmem) List.not_mem_nil
      rw [if_pos hnone, hshares]
      exact iff_of_false List.not_mem_nil Bool.false_ne_true
    · rw [if_neg hnone, List.mem_filter, henabled, Bool.true_and]
      exact and_iff_right hguest

theorem alerted_eq (hactive : user.isActiveUser = true) : alerted user guest = user.canAccessGuest guest := by
  rw [canAccessGuest_eq, alerted, hactive, Bool.true_and]
  by_cases hnil : guest.tags = []
  · simp [hnil, not_sharesTag_of_nil hnil]
  · simp [hnil]

/-- A webhook that an alert about the guest could go to: its user is active, it is subscribed to the event, and its URL is valid. -/
structure PushWebhook.Listens (webhook : PushWebhook) (validUrl : Text → Bool) (user : User) (event : Text) : Prop where
  user_eq : webhook.user = some user
  active : user.isActiveUser = true
  event_valid : event ∈ validEvents
  subscribed : webhook.subscribed event = true
  url_valid : validUrl webhook.url = true

theorem mem_delivered {validUrl : Text → Bool} {webhooks : List PushWebhook} {webhook : PushWebhook} {event : Text}
    (hwebhook : webhook ∈ webhooks) (h : webhook.Listens validUrl user event) :
    webhook ∈ delivered validUrl webhooks guest event ↔ user.canAccessGuest guest = true := by
  unfold delivered
  rw [if_pos h.event_valid, List.mem_filter, h.subscribed, h.user_eq, h.url_valid, Option.any_some, alerted_eq h.active,
    Bool.true_and, Bool.and_true]
  exact and_iff_right hwebhook

/-- The three decisions agree on an enabled guest exactly if the user is no admin by level only, or has a tag of the guest. -/
theorem access_agrees_iff (validUrl : Text → Bool) (guests : List Guest) (webhooks : List PushWebhook) (user : User) {guest : Guest}
    (hguest : guest ∈ guests) (henabled : guest.enabled = true) :
    ((user.mayAccessGuest guest = true ↔ guest ∈ user.accessibleGuests guests) ∧
      ∀ webhook ∈ webhooks, ∀ event, webhook.Listens validUrl user event →
        (user.mayAccessGuest guest = true ↔ webhook ∈ delivered validUrl webhooks guest event)) ↔
      (user.roleLevel < 3 ∨ user.isSuperAdmin = true ∨ ∃ tag ∈ guest.tags, tag ∈ user.allowedTags) := by
  have hcan : user.canAccessGuest guest = true ↔ user.isSuperAdmin = true ∨ ∃ tag ∈ guest.tags, tag ∈ user.allowedTags := by
    rw [canAccessGuest_eq, Bool.or_eq_true, User.sharesTag, List.any_eq_true]
    simp only [decide_eq_true_eq]
  have hmay : (user.mayAccessGuest guest = true ↔ user.canAccessGuest guest = true) ↔
      (user.roleLevel < 3 ∨ user.canAccessGuest guest = true) := by
    unfold User.mayAccessGuest
    rw [Bool.or_eq_true]
    have hadmin : user.isAdmin = true ↔ ¬ user.roleLevel < 3 := by
      unfold User.isAdmin
      rw [decide_eq_true_eq, not_lt]
    rw [hadmin]
    tauto
  rw [mem_accessibleGuests hguest henabled, ← hcan]
  constructor
  · rintro ⟨hlist, -⟩
    exact hmay.1 hlist
  · intro h
    refine ⟨hmay.2 h, fun webhook hwebhook event hlistens => ?_⟩
    rw [mem_delivered hwebhook hlistens]
    exact hmay.2 h

/-! ### An admin without tags -/

/-- A user with the built-in role `admin` and no tags. -/
def plainAdmin : User := ⟨2, "ops".toList, some ⟨"admin".toList, 3⟩, [], true⟩

def untagged : Guest := ⟨1, "db".toList, "vm".toList, true, []⟩

def adminWebhook : PushWebhook :=
  ⟨1, some plainAdmin, "https://push.example/hook".toList, ['t'], some ["service_down".toList]⟩

/-- The admin may act on the guest, but it is not in the list, and its alerts are not sent. -/
theorem admin_disagrees :
    ¬ ((plainAdmin.mayAccessGuest untagged = true ↔ untagged ∈ plainAdmin.accessibleGuests [untagged]) ∧
      ∀ webhook ∈ [adminWebhook], ∀ event, webhook.Listens (fun _ => true) plainAdmin event →
        (plainAdmin.mayAccessGuest untagged = true ↔ webhook ∈ delivered (fun _ => true) [adminWebhook] untagged event)) := by
  rintro ⟨hlist, -⟩
  exact List.not_mem_nil (hlist.1 (by decide))

def viewer : User := ⟨3, "vic".toList, some ⟨"viewer".toList, 1⟩, [4], true⟩

def tagged : Guest := ⟨1, "db".toList, "vm".toList, true, [4]⟩

def viewerWebhook : PushWebhook := { adminWebhook with user := some viewer }

theorem viewer_agrees : (viewer.mayAccessGuest tagged = true ↔ tagged ∈ viewer.accessibleGuests [tagged]) ∧
    ∀ webhook ∈ [viewerWebhook], ∀ event, webhook.Listens (fun _ => true) viewer event →
      (viewer.mayAccessGuest tagged = true ↔ webhook ∈ delivered (fun _ => true) [viewerWebhook] tagged event) :=
  (access_agrees_iff (fun _ => true) [tagged] [viewerWebhook] viewer (List.mem_singleton_self _) rfl).2 (Or.inl (by decide))

end ProxmoxTool.Guests.Access
