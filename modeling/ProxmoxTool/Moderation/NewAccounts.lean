import ProxmoxTool.Moderation.Overlap
import ProxmoxTool.Moderation.Signups

/-!
# New accounts

Every local account that becomes visible after the first completed discovery gets exactly one alert by the next completed one
(`new_accounts_alerted_once`).  This holds in runs that meet `SignupsAnswered`: the first discovery finds an account, an account
that becomes visible later was registered after the cursor, every later discovery finds at most as many new accounts as two
pages hold, pruning keeps the alerts ahead of the cursor, and between a discovery's request and its answer no other poll has got
further.

Without it an account is lost: the cursor is the registration date of the newest account listed, so an account that is
registered at that very date, or that is approved after a younger one was seen, is behind it from the start; more new
accounts than two pages hold are cut off; an instance without accounts is looked at for the first time again; and of two
polls that look for the first time at once the later one passes over what the earlier one left to be alerted on.
-/

namespace ProxmoxTool.Moderation

/-- The condition on completed discoveries, registrations and approvals. -/
def SignupsSeen (w : World) : Event → Prop
  | .newAccounts now clock t _ =>
    t.error = none → (discoverNewAccounts now clock (w.inst.client t) w.settings w.db).aborted = false →
    match w.discovered with
    | none => w.inst.listed ≠ []
    | some _ => ∀ c, w.db.newAccountCursor = some c →
        (w.inst.listed.filter (AdminAccount.kept (some c))).length ≤ pageSize * 2
  | .register m => w.discovered ≠ none → m.active = true → ¬ Reached w.db.newAccountCursor m.created
  | .approve id => w.discovered ≠ none → ∀ m ∈ w.inst.members, m.id = id → m.active = false →
      ¬ Reached w.db.newAccountCursor m.created
  | _ => True

def SignupsOk (w : World) (e : Event) : Prop := SignupsKept w e ∧ SignupsSeen w e

/-- What has become of the members: before the first discovery there is no cursor; after it, the visible members up to the
cursor are those listed at the latest one, and each of them that was not listed at the first has its alert. -/
structure Discovered (v : SignupView) (discovered : Option (List AccountId × List AccountId)) : Prop where
  before : discovered = none → v.cursor = none
  after : ∀ first latest, discovered = some (first, latest) → ∃ c, v.cursor = some c ∧
    (∀ x ∈ latest, ∃ m ∈ v.members, m.id = x ∧ m.active = true ∧ m.created ≤ c) ∧
    (∀ m ∈ v.members, m.active = true → m.created ≤ c → m.id ∈ latest) ∧
    first ⊆ latest ∧ ∀ x ∈ latest, x ∉ first → v.marks.raised.count (.signup x) = 1

variable {v : SignupView} {discovered : Option (List AccountId × List AccountId)}

theorem Discovered.marks (h : Discovered v discovered) {marks : Marks Subject}
    (hcount : ∀ a, marks.raised.count (.signup a) = v.marks.raised.count (.signup a)) :
    Discovered { v with marks := marks } discovered := by
  refine ⟨h.before, fun first latest hd => ?_⟩
  obtain ⟨c, hc, hin, hall, hsub, hone⟩ := h.after first latest hd
  exact ⟨c, hc, hin, hall, hsub, fun x hx hnot => (hcount x).trans (hone x hx hnot)⟩

theorem Discovered.register (h : Discovered v discovered) {m : Member}
    (hok : discovered ≠ none → m.active = true → ¬ Reached v.cursor m.created) :
    Discovered { v with members := m :: v.members } discovered := by
  refine ⟨h.before, fun first latest hd => ?_⟩
  obtain ⟨c, hc, hin, hall, hsub, hone⟩ := h.after first latest hd
  refine ⟨c, hc, fun x hx => ?_, fun x hx hact hle => ?_, hsub, hone⟩
  · obtain ⟨n, hn, hrest⟩ := hin x hx
    exact ⟨n, List.mem_cons_of_mem _ hn, hrest⟩
  · rcases List.mem_cons.1 hx with rfl | hx
    · exact absurd ⟨c, hc, hle⟩ (hok (by rw [hd]; simp) hact)
    · exact hall x hx hact hle

/-- Changes to members that make no one visible that the cursor has reached. -/
theorem Discovered.change (h : Discovered v discovered) {f : Member → Member} (hid : ∀ m, (f m).id = m.id)
    (hcreated : ∀ m, (f m).created = m.created) (hstay : ∀ m, m.active = true → (f m).active = true)
    (hok : discovered ≠ none → ∀ m ∈ v.members, m.active = false → (f m).active = true → ¬ Reached v.cursor m.created) :
    Discovered { v with members := v.members.map f } discovered := by
  refine ⟨h.before, fun first latest hd => ?_⟩
  obtain ⟨c, hc, hin, hall, hsub, hone⟩ := h.after first latest hd
  refine ⟨c, hc, fun x hx => ?_, fun x hx hact hle => ?_, hsub, hone⟩
  · obtain ⟨n, hn, rfl, hact, hle⟩ := hin x hx
    exact ⟨f n, List.mem_map_of_mem hn, hid n, hstay n hact, (hcreated n).symm ▸ hle⟩
  · obtain ⟨n, hn, rfl⟩ := List.mem_map.1 hx
    rw [hcreated] at hle
    rw [hid]
    cases hn' : n.active with
    | true => exact hall n hn hn' hle
    | false => exact absurd ⟨c, hc, hle⟩ (hok (by rw [hd]; simp) n hn hn' hact)

/-- An interrupted discovery raises members ahead of the cursor only. -/
theorem Discovered.interrupted (hsound : v.Sound) (h : Discovered v discovered) {accounts : List AdminAccount}
    (hnew : ∀ a ∈ accounts, ∃ m ∈ v.members, m.id = a.id ∧ ¬ Reached v.cursor m.created) :
    Discovered { v with marks := v.marks.raiseAll (signups accounts) } discovered := by
  refine ⟨h.before, fun first latest hd => ?_⟩
  obtain ⟨c, hc, hin, hall, hsub, hone⟩ := h.after first latest hd
  refine ⟨c, hc, hin, hall, hsub, fun x hx hnot => ?_⟩
  rw [← hone x hx hnot]
  show (v.marks.raiseAll (signups accounts)).raised.count (.signup x) = _
  rw [Marks.count_raiseAll, if_neg, Nat.add_zero]
  rintro ⟨hmem, -⟩
  obtain ⟨a, ha, heq⟩ := List.mem_map.1 hmem
  injection heq with _ hid _
  obtain ⟨m, hm, hma, hahead⟩ := hnew a ha
  obtain ⟨n, hn, rfl, -, hle⟩ := hin x hx
  obtain rfl := hsound.eq_of_id hm hn (hma.trans hid)
  exact hahead ⟨c, hc, hle⟩

/-! ### Completed discoveries -/

theorem mem_listed_ids {inst : Instance} {x : AccountId} :
    x ∈ inst.listed.map AdminAccount.id ↔ ∃ m ∈ inst.members, m.id = x ∧ m.active = true := by
  rw [List.mem_map]
  constructor
  · rintro ⟨a, ha, rfl⟩
    obtain ⟨m, hm, hact, rfl⟩ := mem_listed.1 ha
    exact ⟨m, hm, rfl, hact⟩
  · rintro ⟨m, hm, rfl, hact⟩
    exact ⟨m.toAdmin, mem_listed.2 ⟨m, hm, hact, rfl⟩, rfl⟩

/-- The first discovery: the cursor is the date of the newest account listed. -/
theorem discovered_first {inst : Instance} {marks : Marks Subject}
    (hsorted : inst.members.Pairwise fun x y => y.created ≤ x.created) (hne : inst.listed ≠ []) :
    Discovered ⟨inst.members, inst.listed.head?.bind AdminAccount.createdAt, marks⟩
      (some (inst.listed.map AdminAccount.id, inst.listed.map AdminAccount.id)) := by
  refine ⟨fun h => (Option.some_ne_none _ h).elim, fun first latest hd => ?_⟩
  obtain ⟨rfl, rfl⟩ := Prod.mk.inj (Option.some.inj hd)
  obtain ⟨newest, older, heq⟩ := List.exists_cons_of_ne_nil hne
  obtain ⟨n, hn, -, rfl⟩ := mem_listed.1 (show newest ∈ inst.listed by rw [heq]; exact List.mem_cons_self)
  have hle : ∀ m ∈ inst.members, m.active = true → m.created ≤ n.created := fun m hm hact =>
    created_le_newest hsorted heq hm hact
  refine ⟨n.created, ?_, fun x hx => ?_, fun m hm hact _ => mem_listed_ids.2 ⟨m, hm, rfl, hact⟩, List.Subset.refl _,
    fun x hx hnot => absurd hx hnot⟩
  · show inst.listed.head?.bind AdminAccount.createdAt = some n.created
    rw [heq]
    rfl
  · obtain ⟨m, hm, rfl, hact⟩ := mem_listed_ids.1 hx
    exact ⟨m, hm, rfl, hact, hle m hm hact⟩

/-- A later completed discovery that gets all new accounts. -/
theorem Discovered.completed {inst : Instance} {c : Time} {marks : Marks Subject} {first latest : List AccountId}
    (hsound : SignupView.Sound ⟨inst.members, some c, marks⟩)
    (h : Discovered ⟨inst.members, some c, marks⟩ (some (first, latest)))
    (hfit : (inst.listed.filter (AdminAccount.kept (some c))).length ≤ pageSize * 2) :
    Discovered ⟨inst.members, some (cursorAfterNews c (inst.news c)), marks.raiseAll (signups (inst.news c).reverse)⟩
      (some (first, inst.listed.map AdminAccount.id)) := by
  have hlisting := listing_listed hsound.sorted
  have hnews : inst.news c = inst.listed.filter (AdminAccount.kept (some c)) := by
    refine filter_take (hlisting.sorted.imp_of_mem fun ha hb hab hk => ?_) hfit
    obtain ⟨m, -, -, rfl⟩ := mem_listed.1 ha
    obtain ⟨n, -, -, rfl⟩ := mem_listed.1 hb
    rw [kept_toAdmin] at hk ⊢
    exact Int.lt_of_lt_of_le hk (hab _ _ rfl rfl)
  have hmem : ∀ m ∈ inst.members, m.active = true → c < m.created → m.toAdmin ∈ inst.news c := by
    intro m hm hact hlt
    rw [hnews]
    exact List.mem_filter.2 ⟨mem_listed.2 ⟨m, hm, hact, rfl⟩, kept_toAdmin.2 hlt⟩
  obtain ⟨hcle, hle⟩ := le_cursorAfterNews hsound.sorted c
  obtain ⟨c', hc', hin, hall, hsub, hone⟩ := h.after first latest rfl
  obtain rfl : c = c' := Option.some.inj hc'
  refine ⟨fun hnone => (Option.some_ne_none _ hnone).elim, fun first' latest' hd => ?_⟩
  obtain ⟨rfl, rfl⟩ := Prod.mk.inj (Option.some.inj hd)
  refine ⟨_, rfl, fun x hx => ?_, fun m hm hact _ => mem_listed_ids.2 ⟨m, hm, rfl, hact⟩, fun x hx => ?_, fun x hx hnot => ?_⟩
  · obtain ⟨m, hm, rfl, hact⟩ := mem_listed_ids.1 hx
    refine ⟨m, hm, rfl, hact, ?_⟩
    rcases Int.lt_or_le c m.created with hlt | hge
    · exact hle m hm (hmem m hm hact hlt)
    · exact Int.le_trans hge hcle
  · obtain ⟨m, hm, rfl, hact, -⟩ := hin x (hsub hx)
    exact mem_listed_ids.2 ⟨m, hm, rfl, hact⟩
  · obtain ⟨m, hm, rfl, hact⟩ := mem_listed_ids.1 hx
    rcases Int.lt_or_le c m.created with hlt | hge
    · -- ahead of the cursor: among the news
      refine (hsound.once m hm).count_eq_one ?_ (hsound.marked m.id) ?_
      · exact List.mem_map.2 ⟨m.toAdmin, List.mem_reverse.2 (hmem m hm hact hlt), rfl⟩
      · rintro ⟨c', hc', hle'⟩
        obtain rfl : c = c' := Option.some.inj hc'
        exact Int.not_lt.2 hle' hlt
    · -- behind the cursor: listed at the latest discovery, and not among the news
      rw [← hone m.id (hall m hm hact hge) hnot]
      show (marks.raiseAll (signups (inst.news c).reverse)).raised.count (.signup m.id) = _
      rw [Marks.count_raiseAll, if_neg, Nat.add_zero]
      rintro ⟨hsig, -⟩
      obtain ⟨a, ha, heq⟩ := List.mem_map.1 hsig
      injection heq with _ hid _
      obtain ⟨n, hn, -, rfl, hlt⟩ := mem_news (List.mem_reverse.1 ha)
      obtain rfl := hsound.eq_of_id hn hm hid
      exact Int.not_lt.2 hge hlt

/-! ### Runs -/

/-- One step that meets the condition keeps the record of the discoveries true. -/
theorem discovered_step {w w' : World} {e : Event} (hsound : w.signupView.Sound) (h : Discovered w.signupView w.discovered)
    (hok : SignupsSeen w e) (hstep : step w e = some w') : Discovered w'.signupView w'.discovered := by
  cases step_members hstep with
  | register m hnew => exact h.register hok
  | approve id =>
    have hf := preserves_at preserves_approve id
    refine h.change hf.id hf.created hf.active fun hd m hm hact hnow => ?_
    by_cases hid : m.id = id
    · exact hok hd m hm hid hact
    · rw [if_neg hid, hact] at hnow
      cases hnow
  | activity id lastLoginAt statusesCount =>
    have hf := preserves_at (preserves_activity lastLoginAt statusesCount) id
    refine h.change hf.id hf.created hf.active fun hd m hm hact hnow => ?_
    split at hnow
    · exact absurd (hact.symm.trans hnow) (by simp)
    · exact absurd (hact.symm.trans hnow) (by simp)
  | prune now => exact h.marks fun a => rfl
  | newAccounts now clock t bot =>
    obtain ⟨hview, hdisc⟩ := signupView_newAccounts hstep
    rw [hview, hdisc]
    rcases discoverNewAccounts_cases now clock t w.settings w.db hsound.sorted with ⟨herr, hd, -⟩ |
      ⟨herr, hnone, hab, -, hd⟩ | ⟨c, herr, hc, ⟨hab, -, handled, hd⟩ | ⟨hab, -, hd, -⟩⟩
    · obtain ⟨x, hx⟩ := Option.ne_none_iff_exists'.1 herr
      rw [hd, hx]
      exact h
    · rw [hab, herr, hd]
      have hbefore : w.discovered = none := by
        cases hdis : w.discovered with
        | none => rfl
        | some seen =>
          obtain ⟨c, hc, -⟩ := h.after seen.1 seen.2 hdis
          exact absurd (hnone.symm.trans hc) (by simp)
      rw [hbefore]
      have hne := hok herr hab
      rw [hbefore] at hne
      exact discovered_first hsound.sorted hne
    · rw [hab, herr, hd, discoverAccounts_marks, discoverAccounts_cursor]
      refine h.interrupted hsound fun a ha => ?_
      obtain ⟨m, hm, -, rfl, hlt⟩ := mem_news (List.mem_reverse.1 (List.mem_of_mem_take ha))
      refine ⟨m, hm, rfl, ?_⟩
      rintro ⟨c', hc', hle⟩
      obtain rfl : c = c' := Option.some.inj (hc.symm.trans hc')
      exact Int.not_lt.2 hle hlt
    · have hfit := hok herr hab
      cases hdis : w.discovered with
      | none => exact absurd (hc.symm.trans (h.before hdis)) (by simp)
      | some seen =>
        obtain ⟨first, latest⟩ := seen
        rw [hdis] at hfit
        rw [hab, herr, hd]
        have hview : w.signupView = ⟨w.inst.members, some c, w.db.marks⟩ := by
          unfold World.signupView
          rw [hc]
        rw [hview] at hsound h
        rw [hdis] at h
        have hdone := h.completed hsound (hfit c hc)
        rwa [← discoverAccounts_marks now clock w.settings] at hdone
  | aside haside =>
    obtain ⟨xs, hm, hxs⟩ := haside.raises
    unfold World.signupView
    rw [haside.members, haside.cursor, hm, haside.discovered]
    refine h.marks fun a => ?_
    show (w.db.marks.raiseAll xs).raised.count _ = w.db.marks.raised.count _
    rw [Marks.count_raiseAll, if_neg fun hmem => hxs a hmem.1, Nat.add_zero]

/-! ### Polls that overlap -/

/-- Members stay, and visible ones stay visible. -/
def Stay (members later : List Member) : Prop :=
  ∀ m ∈ members, ∃ n ∈ later, n.id = m.id ∧ n.created = m.created ∧ (m.active = true → n.active = true)

theorem stay_refl (members : List Member) : Stay members members := fun m hm => ⟨m, hm, rfl, rfl, fun hact => hact⟩

/-- What a discovery was shown is an earlier moment of the members. -/
structure Earlier (members now : List Member) : Prop where
  ids : (members.map Member.id).Nodup
  sorted : members.Pairwise fun x y => y.created ≤ x.created
  stays : Stay members now

theorem Earlier.trans {members now later : List Member} (h : Earlier members now) (hstay : Stay now later) : Earlier members later := by
  refine ⟨h.ids, h.sorted, fun m hm => ?_⟩
  obtain ⟨n, hn, hid, hcreated, hact⟩ := h.stays m hm
  obtain ⟨x, hx, hid', hcreated', hact'⟩ := hstay n hn
  exact ⟨x, hx, hid'.trans hid, hcreated'.trans hcreated, fun hm => hact' (hact hm)⟩

theorem step_stays {w w' : World} {e : Event} (hstep : step w e = some w') : Stay w.inst.members w'.inst.members := by
  have hchange : ∀ {f : Member → Member}, Preserves f → ∀ id, Stay w.inst.members (w.inst.changeMember id f).members := by
    intro f hf id m hm
    have hat := preserves_at hf id
    exact ⟨_, List.mem_map_of_mem hm, hat.id m, hat.created m, hat.active m⟩
  have hsame : w'.inst.members = w.inst.members → Stay w.inst.members w'.inst.members := by
    intro heq
    rw [heq]
    exact stay_refl _
  cases step_members hstep with
  | register n _ => exact fun m hm => ⟨m, List.mem_cons_of_mem _ hm, rfl, rfl, fun hact => hact⟩
  | approve id => exact hchange preserves_approve id
  | activity id lastLoginAt statusesCount => exact hchange (preserves_activity lastLoginAt statusesCount) id
  | prune now => exact hsame rfl
  | newAccounts now clock t bot => exact hsame (congrArg SignupView.members (signupView_newAccounts hstep).1)
  | aside haside => exact hsame haside.members

/-- No other poll has got further with the discovery, all alerts on accounts are on those the request has seen, and the accounts that have become
visible since are younger than the cursor and than those it has listed. -/
def Current (w : World) (cursor : Option Time) (members : List Member) : Prop :=
  w.db.newAccountCursor = cursor ∧ (∀ a, .signup a ∈ w.db.marks.raised → a ∈ members.map Member.id) ∧
    ∀ m ∈ w.inst.members, m.active = true → (∃ n ∈ members, n.id = m.id ∧ n.active = true) ∨
      ¬ Reached cursor m.created ∧ ∀ n ∈ members, n.active = true → n.created < m.created

def SignupsAnswered (s : Polls) : Move → Prop
  | .act e => SignupsOk s.world e
  | .ask _ _ => True
  | .answer poll now clock t bot => ∀ cursor members, s.held poll = some (.discovery cursor members) →
    Current s.world cursor members ∧ SignupsOk ((Held.discovery cursor members).view s.world) (.newAccounts now clock t bot)

/-- A discovery leaves the cursor or moves it to the date of a visible member. -/
theorem cursor_newAccounts {w w' : World} (hsorted : w.inst.members.Pairwise fun x y => y.created ≤ x.created) {now clock : Time} {t : Trouble}
    {bot : Option Bot} (hstep : step w (.newAccounts now clock t bot) = some w') : w'.db.newAccountCursor = w.db.newAccountCursor ∨
      ∃ m ∈ w.inst.members, m.active = true ∧ w'.db.newAccountCursor = some m.created := by
  have hcursor := congrArg SignupView.cursor (signupView_newAccounts hstep).1
  rw [show w'.db.newAccountCursor = _ from hcursor]
  dsimp only
  rcases discoverNewAccounts_cases now clock t w.settings w.db hsorted with ⟨-, hd, -⟩ | ⟨-, hnone, -, -, hd⟩ |
    ⟨c, -, hc, ⟨-, -, handled, hd⟩ | ⟨-, -, hd, -⟩⟩
  · rw [hd]
    exact .inl rfl
  · rw [hd]
    cases hlisted : w.inst.listed with
    | nil => exact .inl hnone.symm
    | cons newest older =>
      obtain ⟨m, hm, hact, rfl⟩ := mem_listed.1 (show newest ∈ w.inst.listed by rw [hlisted]; exact List.mem_cons_self)
      exact .inr ⟨m, hm, hact, rfl⟩
  · rw [hd, discoverAccounts_cursor]
    exact .inl rfl
  · rw [hd]
    cases hnews : w.inst.news c with
    | nil => exact .inl hc.symm
    | cons newest older =>
      obtain ⟨m, hm, hact, rfl, -⟩ := mem_news (show newest ∈ w.inst.news c by rw [hnews]; exact List.mem_cons_self)
      exact .inr ⟨m, hm, hact, rfl⟩

section

variable {members : List Member}

theorem SignupView.Sound.earlier (h : v.Sound) (hearlier : Earlier members v.members)
    (hknown : ∀ a, .signup a ∈ v.marks.raised → a ∈ members.map Member.id) : Sound { v with members := members } := by
  refine ⟨hearlier.ids, hearlier.sorted, hknown, h.marked, fun m hm => ?_⟩
  obtain ⟨n, hn, hid, hcreated, -⟩ := hearlier.stays m hm
  exact hid ▸ hcreated ▸ h.once n hn

/-- The member of the earlier moment with the same id has the same date. -/
theorem Earlier.created_eq (h : v.Sound) (hearlier : Earlier members v.members) {m n : Member} (hm : m ∈ v.members) (hn : n ∈ members)
    (hid : n.id = m.id) : n.created = m.created := by
  obtain ⟨x, hx, hid', hcreated, -⟩ := hearlier.stays n hn
  rw [← hcreated, h.eq_of_id hx hm (hid'.trans hid)]

/-- Back from the earlier moment, with the marks and the cursor of a later one. -/
theorem SignupView.Sound.later (h : v.Sound) (hearlier : Earlier members v.members) {cursor : Option Time} {marks : Marks Subject}
    (hlater : Sound ⟨members, cursor, marks⟩) : Sound ⟨v.members, cursor, marks⟩ := by
  refine ⟨h.ids, h.sorted, fun a ha => ?_, hlater.marked, fun m hm => ?_⟩
  · obtain ⟨n, hn, rfl⟩ := List.mem_map.1 (hlater.known a ha)
    obtain ⟨x, hx, hid, -⟩ := hearlier.stays n hn
    exact hid ▸ List.mem_map_of_mem hx
  · by_cases hmem : m.id ∈ members.map Member.id
    · obtain ⟨n, hn, hid⟩ := List.mem_map.1 hmem
      have honce := hlater.once n hn
      rwa [hid, hearlier.created_eq h hm hn hid] at honce
    · have hraised : Subject.signup m.id ∉ marks.raised := fun hr => hmem (hlater.known m.id hr)
      exact ⟨by rw [List.count_eq_zero_of_not_mem hraised]; exact Nat.zero_le _, fun hr => absurd hr hraised⟩

/-- Between two moments that have the same visible members up to the cursor. -/
theorem Discovered.transfer {ms ns : List Member} {cursor : Option Time} {marks : Marks Subject} (h : Discovered ⟨ms, cursor, marks⟩ discovered)
    (hto : ∀ m ∈ ms, m.active = true → Reached cursor m.created → ∃ n ∈ ns, n.id = m.id ∧ n.created = m.created ∧ n.active = true)
    (hfrom : ∀ n ∈ ns, n.active = true → Reached cursor n.created → ∃ m ∈ ms, m.id = n.id ∧ m.created = n.created ∧ m.active = true) :
    Discovered ⟨ns, cursor, marks⟩ discovered := by
  refine ⟨h.before, fun first latest hd => ?_⟩
  obtain ⟨c, hc, hin, hall, hrest⟩ := h.after first latest hd
  refine ⟨c, hc, fun x hx => ?_, fun n hn hact hle => ?_, hrest⟩
  · obtain ⟨m, hm, rfl, hact, hle⟩ := hin x hx
    obtain ⟨n, hn, hid, hcreated, hvisible⟩ := hto m hm hact ⟨c, hc, hle⟩
    exact ⟨n, hn, hid, hvisible, hcreated.symm ▸ hle⟩
  · obtain ⟨m, hm, hid, hcreated, hvisible⟩ := hfrom n hn hact ⟨c, hc, hle⟩
    exact hid ▸ hall m hm hvisible (hcreated.symm ▸ hle)

end

/-- A discovery goes on with an answer that is current: as if it had been asked and answered at the request, and the accounts had become visible
afterwards. -/
theorem discovered_answer {w w' : World} (hsound : w.signupView.Sound) (h : Discovered w.signupView w.discovered) {cursor : Option Time}
    {members : List Member} (hearlier : Earlier members w.inst.members) (hcurrent : Current w cursor members) {now clock : Time} {t : Trouble}
    {bot : Option Bot} (hok : SignupsOk ((Held.discovery cursor members).view w) (.newAccounts now clock t bot))
    (hstep : step ((Held.discovery cursor members).view w) (.newAccounts now clock t bot) = some w') :
    ((Held.discovery cursor members).leave w w').signupView.Sound ∧
      Discovered ((Held.discovery cursor members).leave w w').signupView ((Held.discovery cursor members).leave w w').discovered := by
  obtain ⟨rfl, hknown, hnew⟩ := hcurrent
  rw [Held.leave_discovery rfl]
  have hvsound : ((Held.discovery w.db.newAccountCursor members).view w).signupView.Sound := hsound.earlier hearlier hknown
  have hstays : ∀ {c}, ∀ n ∈ members, n.active = true → Reached c n.created →
      ∃ m ∈ w.inst.members, m.id = n.id ∧ m.created = n.created ∧ m.active = true := by
    intro c n hn hact _
    obtain ⟨m, hm, hid, hcreated, hvisible⟩ := hearlier.stays n hn
    exact ⟨m, hm, hid, hcreated, hvisible hact⟩
  -- a member that the cursor has reached was visible at the request
  have hback : ∀ {c}, (∀ m ∈ w.inst.members, m.active = true → (∃ n ∈ members, n.id = m.id ∧ n.active = true) ∨ ¬ Reached c m.created) →
      ∀ m ∈ w.inst.members, m.active = true → Reached c m.created → ∃ n ∈ members, n.id = m.id ∧ n.created = m.created ∧ n.active = true := by
    intro c hahead m hm hact hreached
    obtain ⟨n, hn, hid, hvisible⟩ := (hahead m hm hact).resolve_right fun hnot => hnot hreached
    exact ⟨n, hn, hid, hearlier.created_eq hsound hm hn hid, hvisible⟩
  have hvdisc : Discovered ((Held.discovery w.db.newAccountCursor members).view w).signupView w.discovered :=
    h.transfer (hback fun m hm hact => (hnew m hm hact).imp_right And.left) hstays
  have hsound' := signups_step hvsound hok.1 hstep
  have hdisc' := discovered_step hvsound hvdisc hok.2 hstep
  have hmembers : w'.inst.members = members := congrArg SignupView.members (signupView_newAccounts hstep).1
  have hahead : ∀ m ∈ w.inst.members, m.active = true →
      (∃ n ∈ members, n.id = m.id ∧ n.active = true) ∨ ¬ Reached w'.db.newAccountCursor m.created := by
    intro m hm hact
    refine (hnew m hm hact).imp_right ?_
    rintro ⟨hold, hlisted⟩
    rcases cursor_newAccounts hvsound.sorted hstep with hcursor | ⟨n, hn, hvisible, hcursor⟩
    · rwa [hcursor]
    · rw [hcursor]
      rintro ⟨c, hc, hle⟩
      obtain rfl := Option.some.inj hc
      exact Int.not_lt.2 hle (hlisted n hn hvisible)
  have hview : w'.signupView = ⟨members, w'.db.newAccountCursor, w'.db.marks⟩ := by
    unfold World.signupView
    rw [hmembers]
  rw [hview] at hsound' hdisc'
  exact ⟨hsound.later hearlier hsound', hdisc'.transfer hstays (hback hahead)⟩

/-- What a discovery was shown was there. -/
def Seen (w : World) : Held → Prop
  | .check _ _ => True
  | .discovery _ members => Earlier members w.inst.members

/-- One step of polls that overlap. -/
theorem discovered_move {s s' : Polls} {m : Move} (hsound : s.world.signupView.Sound) (h : Discovered s.world.signupView s.world.discovered)
    (hseen : s.Holds Seen) (hok : SignupsAnswered s m) (hstep : polls.step s m = some s') :
    s'.world.signupView.Sound ∧ Discovered s'.world.signupView s'.world.discovered ∧ s'.Holds Seen := by
  have hheld : Stay s.world.inst.members s'.world.inst.members → s'.Holds Seen := by
    intro hstay
    refine hseen.step hstep (fun _ _ => trivial) ⟨hsound.ids, hsound.sorted, stay_refl _⟩ fun x hx => ?_
    cases x with
    | check p timeline => trivial
    | discovery cursor members => exact Earlier.trans hx hstay
  rcases Polls.step_cases hstep with ⟨e, rfl, hw⟩ | ⟨poll, watch, rfl, hw⟩ | ⟨poll, now, clock, t, bot, x, w', rfl, hx, hw', hw⟩
  · exact ⟨signups_step hsound hok.1 hw, discovered_step hsound h hok.2 hw, hheld (step_stays hw)⟩
  · rw [hw] at hheld ⊢
    exact ⟨hsound, h, hheld (stay_refl _)⟩
  · have hinst : (x.leave s.world w').inst = s.world.inst := by
      cases x with
      | check p timeline => rfl
      | discovery cursor members => rfl
    rw [hw] at hheld ⊢
    rw [hinst] at hheld
    refine and_assoc.1 ⟨?_, hheld (stay_refl _)⟩
    cases x with
    | check p timeline =>
      -- the watch and the timeline do not matter to the members
      have hvsound : ((Held.check p timeline).view s.world).signupView.Sound := hsound
      have hmembers : w'.inst.members = s.world.inst.members := by
        obtain ⟨watch, -, rfl⟩ := Option.map_eq_some_iff.1 hw'
        dsimp only
        split
        · rfl
        · rfl
      have hview : ((Held.check p timeline).leave s.world w').signupView = w'.signupView := by
        unfold World.signupView
        rw [hmembers]
        rfl
      rw [hview]
      exact ⟨signups_step (e := .check p.id now clock t) hvsound trivial hw',
        discovered_step (e := .check p.id now clock t) hvsound h trivial hw'⟩
    | discovery cursor members =>
      obtain ⟨hcurrent, hsignups⟩ := hok cursor members hx
      exact discovered_answer hsound h (hseen poll _ hx) hcurrent hsignups hw'

/-- In every run that meets `SignupsAnswered`, of polls that may overlap: every account that was listed at the latest completed
discovery and not at the first one has got exactly one alert. -/
theorem new_accounts_alerted_once {s : Polls} (h : polls.Reach SignupsAnswered s) {first latest : List AccountId}
    (hd : s.world.discovered = some (first, latest)) :
    ∀ x ∈ latest, x ∉ first → s.world.db.marks.raised.count (.signup x) = 1 := by
  have hinv : s.world.signupView.Sound ∧ Discovered s.world.signupView s.world.discovered ∧ s.Holds Seen := by
    refine h.invariant (I := fun s => s.world.signupView.Sound ∧ Discovered s.world.signupView s.world.discovered ∧ s.Holds Seen)
      (fun s hs => ?_) fun s m s' hi hok hst => discovered_move hi.1 hi.2.1 hi.2.2 hok hst
    obtain ⟨hinit, hnone⟩ := hs
    have hdb : s.world.db = {} := hinit.1
    refine ⟨signups_init hinit, ⟨fun _ => ?_, fun first latest hd => absurd (hinit.2.2.2.symm.trans hd) (by simp)⟩, fun poll x hheld => ?_⟩
    · show s.world.db.newAccountCursor = none
      rw [hdb]
    · rw [hnone poll] at hheld
      cases hheld
  obtain ⟨-, -, -, -, -, hone⟩ := hinv.2.1.after first latest hd
  exact hone

/-- An account that was listed at the latest completed discovery and not at the first one, and got no alert. -/
def World.Lost (w : World) (x : AccountId) : Prop :=
  (w.discovered.any fun seen => x ∈ seen.2 ∧ x ∉ seen.1) = true ∧ w.db.marks.raised.count (.signup x) = 0

instance (w : World) (x : AccountId) : Decidable (w.Lost x) := inferInstanceAs (Decidable (_ ∧ _))

def member (id : AccountId) (created : Time) : Member := { id := id, acct := [], created := created, active := true }

def discovery : Event := .newAccounts 0 0 {} none

/-- The first account of an instance that was empty at the first discovery. -/
def emptyRun : List Event := [discovery, .register (member 1 1), discovery]

/-- Two accounts of the same date. -/
def tieRun : List Event := [.register (member 1 1), discovery, .register (member 2 1), discovery]

/-- An account approved after a younger one was seen. -/
def lateRun : List Event :=
  [.register { member 1 1 with active := false }, .register (member 2 2), discovery, .approve 1, discovery]

/-- Two polls look for the first time, one of them after a second registration. -/
def bootstrapRun : List Move :=
  [.act (.register (member 1 1)), .ask 0 none, .act (.register (member 2 2)), .ask 1 none, .answer 0 0 0 {} none, .answer 1 0 0 {} none]

/-- The run loses the account. -/
def Loses (moves : List Move) (x : AccountId) : Prop :=
  ∃ s, polls.Reachable s ∧ polls.exec {} moves = some s ∧ s.world.Lost x

theorem loses_of_exec {moves : List Move} {x : AccountId}
    (h : (polls.exec {} moves).map (fun s => decide (s.world.Lost x)) = some true) : Loses moves x := by
  obtain ⟨s, hs, hlost⟩ := Option.map_eq_some_iff.1 h
  exact ⟨s, System.reachable_of_exec polls_init hs, hs, of_decide_eq_true hlost⟩

/-- Three ways in which an account is behind the cursor from the start, and one in which a second poll passes over it. -/
theorem accounts_lost : Loses (emptyRun.map .act) 1 ∧ Loses (tieRun.map .act) 2 ∧ Loses (lateRun.map .act) 1 ∧ Loses bootstrapRun 2 := by
  refine ⟨loses_of_exec ?_, loses_of_exec ?_, loses_of_exec ?_, loses_of_exec ?_⟩
  · decide +kernel
  · decide +kernel
  · decide +kernel
  · decide +kernel

/-- One account before the first discovery, one after it, and one while the second discovery is under way. -/
theorem new_account_alerted : ∃ s, polls.Reach SignupsAnswered s ∧ s.world.db.marks.raised.count (.signup 2) = 1 := by
  have r0 : polls.Reach SignupsAnswered {} := .init polls_init
  have r1 := r0.next (.act (.register (member 1 1))) ⟨trivial, fun hd => absurd rfl hd⟩ rfl
  have r2 := r1.next (.act discovery) ⟨trivial, fun _ _ => List.cons_ne_nil _ _⟩ rfl
  have hnew : ∀ created : Time, 1 < created → ¬ Reached (some 1) created := by
    rintro created hlt ⟨c, hc, hle⟩
    obtain rfl := Option.some.inj hc
    exact Int.not_lt.2 hle hlt
  have r3 := (r2.next (.act (.register (member 2 2))) ⟨trivial, fun _ _ => hnew 2 (by decide)⟩ rfl).next (.ask 0 none) trivial rfl
  have r4 := r3.next (.act (.register (member 3 3))) ⟨trivial, fun _ _ => hnew 3 (by decide)⟩ rfl
  have r5 := r4.next (.answer 0 0 0 {} none) (fun cursor members hheld => by
    obtain ⟨rfl, rfl⟩ := Held.discovery.inj (Option.some.inj hheld)
    refine ⟨⟨rfl, fun a ha => absurd ha List.not_mem_nil, fun m hm hact => ?_⟩, trivial, fun _ _ c hc => ?_⟩
    · rcases List.mem_cons.1 hm with rfl | hm
      · refine .inr ⟨hnew 3 (by decide), fun n hn _ => ?_⟩
        revert n
        decide
      · exact .inl ⟨m, hm, rfl, hact⟩
    · obtain rfl : (1 : Int) = c := Option.some.inj hc
      decide) rfl
  exact ⟨_, r5, @new_accounts_alerted_once _ r5 [1] [2, 1] rfl 2 (by decide) (by decide)⟩

end ProxmoxTool.Moderation
