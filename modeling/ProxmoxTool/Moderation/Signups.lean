import ProxmoxTool.Moderation.World

/-!
# Alerts on new accounts are raised once

`SignupView` is what matters for the alerts on new accounts: the members of the instance, the cursor of the discovery and the
marks.  The cursor is a date, and a member is behind once the cursor has reached the date of its registration.
`SignupView.Sound` says that an alert that was raised stands or is about a member behind; it is kept by everything the steps
do, as long as no alert on a member ahead of the cursor is pruned (`SignupView.Forgets`).
-/

namespace ProxmoxTool.Moderation

structure SignupView where
  members : List Member
  cursor : Option Time
  marks : Marks Subject

def World.signupView (w : World) : SignupView := ⟨w.inst.members, w.db.newAccountCursor, w.db.marks⟩

/-- The cursor has reached the date. -/
def Reached (cursor : Option Time) (created : Time) : Prop := ∃ c, cursor = some c ∧ created ≤ c

namespace SignupView

structure Sound (v : SignupView) : Prop where
  ids : (v.members.map Member.id).Nodup
  sorted : v.members.Pairwise fun x y => y.created ≤ x.created
  known : ∀ a, .signup a ∈ v.marks.raised → a ∈ v.members.map Member.id
  marked : ∀ a, .signup a ∈ v.marks.standing → .signup a ∈ v.marks.raised
  once : ∀ m ∈ v.members, Marks.Once (Reached v.cursor m.created) v.marks (.signup m.id)

/-- No alert on a member ahead of the cursor loses its mark. -/
def Forgets (v : SignupView) (standing : List Subject) : Prop :=
  ∀ m ∈ v.members, .signup m.id ∈ v.marks.standing → .signup m.id ∉ standing → Reached v.cursor m.created

variable {v : SignupView}

theorem Sound.eq_of_id (h : v.Sound) {m n : Member} (hm : m ∈ v.members) (hn : n ∈ v.members) (hid : m.id = n.id) : m = n :=
  eq_of_id_eq Member.id h.ids hm hn hid

/-! ### What keeps it -/

theorem Sound.register (h : v.Sound) {m : Member} (hid : ∀ x ∈ v.members, x.id ≠ m.id)
    (hnew : ∀ x ∈ v.members, x.created ≤ m.created) : Sound { v with members := m :: v.members } := by
  have hnot : m.id ∉ v.members.map Member.id := by
    intro hmem
    obtain ⟨x, hx, heq⟩ := List.mem_map.1 hmem
    exact hid x hx heq
  refine ⟨List.nodup_cons.2 ⟨hnot, h.ids⟩, List.pairwise_cons.2 ⟨hnew, h.sorted⟩,
    fun a ha => List.mem_cons_of_mem _ (h.known a ha), h.marked, fun x hx => ?_⟩
  rcases List.mem_cons.1 hx with rfl | hx
  · have hraised : Subject.signup x.id ∉ v.marks.raised := fun hr => hnot (h.known x.id hr)
    exact ⟨by rw [List.count_eq_zero_of_not_mem hraised]; exact Nat.zero_le _, fun hr => absurd hr hraised⟩
  · exact h.once x hx

/-- Changes to members that keep their ids and dates. -/
theorem Sound.change (h : v.Sound) {f : Member → Member} (hid : ∀ m, (f m).id = m.id)
    (hcreated : ∀ m, (f m).created = m.created) : Sound { v with members := v.members.map f } := by
  have hids : (v.members.map f).map Member.id = v.members.map Member.id := by
    rw [List.map_map]
    exact List.map_congr_left fun m _ => hid m
  refine ⟨hids.symm ▸ h.ids, ?_, fun a ha => hids.symm ▸ h.known a ha, h.marked, fun m hm => ?_⟩
  · refine List.pairwise_map.2 (h.sorted.imp fun hle => ?_)
    rwa [hcreated, hcreated]
  · obtain ⟨x, hx, rfl⟩ := List.mem_map.1 hm
    rw [hid, hcreated]
    exact h.once x hx

theorem Sound.forget (h : v.Sound) {standing : List Subject} (hs : standing ⊆ v.marks.standing) (hf : v.Forgets standing) :
    Sound { v with marks := ⟨standing, v.marks.raised⟩ } := by
  refine ⟨h.ids, h.sorted, h.known, fun a hm => h.marked a (hs hm), fun m hm => (h.once m hm).forget fun hst => ?_⟩
  by_cases hstay : Subject.signup m.id ∈ standing
  · exact Or.inl hstay
  · exact Or.inr (hf m hm hst hstay)

/-- Raising alerts of another kind. -/
theorem Sound.raiseOther (h : v.Sound) {xs : List Subject} (hxs : ∀ a, .signup a ∉ xs) :
    Sound { v with marks := v.marks.raiseAll xs } := by
  refine ⟨h.ids, h.sorted, fun a hm => ?_, fun a hm => ?_, fun m hm => (h.once m hm).raiseAll fun hx => absurd hx (hxs _)⟩
  · exact h.known a ((Marks.mem_raised_raiseAll.1 hm).resolve_right fun hx => hxs a hx.1)
  · exact Marks.mem_raised_raiseAll.2
      (Or.inl (h.marked a ((Marks.mem_standing_raiseAll.1 hm).resolve_right (hxs a))))

/-- Raising members ahead of the cursor. -/
theorem Sound.raise (h : v.Sound) {accounts : List AdminAccount}
    (hnew : ∀ a ∈ accounts, ∃ m ∈ v.members, m.id = a.id ∧ ¬ Reached v.cursor m.created) :
    Sound { v with marks := v.marks.raiseAll (signups accounts) } := by
  have hmem : ∀ {i}, Subject.signup i ∈ signups accounts → ∃ a ∈ accounts, a.id = i := by
    intro i hi
    obtain ⟨a, ha, heq⟩ := List.mem_map.1 hi
    injection heq with _ hid _
    exact ⟨a, ha, hid⟩
  refine ⟨h.ids, h.sorted, fun i hi => ?_, fun i hi => ?_, fun m hm => (h.once m hm).raiseAll fun hi => ?_⟩
  · rcases Marks.mem_raised_raiseAll.1 hi with hi | hi
    · exact h.known i hi
    · obtain ⟨a, ha, rfl⟩ := hmem hi.1
      obtain ⟨m, hm, hid, -⟩ := hnew a ha
      exact hid ▸ List.mem_map_of_mem hm
  · rw [Marks.mem_raised_raiseAll]
    by_cases hstands : Subject.signup i ∈ v.marks.standing
    · exact Or.inl (h.marked i hstands)
    · exact Or.inr ⟨(Marks.mem_standing_raiseAll.1 hi).resolve_left hstands, hstands⟩
  · obtain ⟨a, ha, hid⟩ := hmem hi
    obtain ⟨n, hn, hna, hahead⟩ := hnew a ha
    rwa [h.eq_of_id hm hn (hid.symm.trans hna.symm)]

/-- The cursor moves forward. -/
theorem Sound.advance (h : v.Sound) {cursor : Option Time}
    (hle : ∀ t, Reached v.cursor t → Reached cursor t) : Sound { v with cursor := cursor } :=
  ⟨h.ids, h.sorted, h.known, h.marked, fun m hm => (h.once m hm).mono (hle m.created)⟩

end SignupView

/-! ### What the discovery gets -/

theorem mem_listed {inst : Instance} {a : AdminAccount} :
    a ∈ inst.listed ↔ ∃ m ∈ inst.members, m.active = true ∧ m.toAdmin = a := by
  simp [Instance.listed, and_assoc]

theorem listing_listed {inst : Instance} (hsorted : inst.members.Pairwise fun x y => y.created ≤ x.created) :
    Listing inst.listed := by
  refine ⟨fun a ha => ?_, fun a ha => ?_, ?_⟩
  · obtain ⟨m, -, -, rfl⟩ := mem_listed.1 ha
    rfl
  · obtain ⟨m, -, -, rfl⟩ := mem_listed.1 ha
    exact ⟨m.created, rfl⟩
  · refine List.pairwise_map.2 ((hsorted.filter _).imp fun hle s t hs ht => ?_)
    rw [← Option.some.inj hs, ← Option.some.inj ht]
    exact hle

theorem localAccounts_eq {inst : Instance} (hsorted : inst.members.Pairwise fun x y => y.created ≤ x.created)
    (newerThan : Option Time) (maxPages : Nat) : inst.localAccounts newerThan maxPages =
      .ok ((inst.listed.take (pageSize * maxPages)).filter (AdminAccount.kept newerThan)) := by
  unfold Instance.localAccounts
  rw [(listing_listed hsorted).listLocalAccounts_eq]
  rfl

/-- The accounts a discovery with cursor `c` gets, newest first. -/
def Instance.news (inst : Instance) (c : Time) : List AdminAccount :=
  (inst.listed.take (pageSize * 2)).filter (AdminAccount.kept (some c))

theorem kept_toAdmin {m : Member} {c : Time} : m.toAdmin.kept (some c) = true ↔ c < m.created :=
  kept_some_iff rfl rfl

theorem mem_news {inst : Instance} {c : Time} {a : AdminAccount} (h : a ∈ inst.news c) :
    ∃ m ∈ inst.members, m.active = true ∧ m.toAdmin = a ∧ c < m.created := by
  obtain ⟨ha, hk⟩ := List.mem_filter.1 h
  obtain ⟨m, hm, hact, rfl⟩ := mem_listed.1 (List.mem_of_mem_take ha)
  exact ⟨m, hm, hact, rfl, kept_toAdmin.1 hk⟩

/-- The cursor after a completed discovery that got the given accounts. -/
def cursorAfterNews (c : Time) (news : List AdminAccount) : Time :=
  match news with
  | [] => c
  | newest :: _ => newest.createdAt.getD c

theorem discoverNewAccounts_first (now clock : Time) (t : Trouble) (settings : WatchSettings) {db : Db} (inst : Instance)
    (hc : db.newAccountCursor = none) :
    discoverNewAccounts now clock (inst.client t) settings db = bootstrap (t.answer (inst.localAccounts none 1)) db := by
  unfold discoverNewAccounts
  rw [hc]
  rfl

theorem discoverNewAccounts_since (now clock : Time) (t : Trouble) (settings : WatchSettings) {db : Db} (inst : Instance)
    {c : Time} (hc : db.newAccountCursor = some c) : discoverNewAccounts now clock (inst.client t) settings db =
      discoverSince now clock settings c (t.answer (inst.localAccounts (some c) 2)) t.interrupt db := by
  unfold discoverNewAccounts
  rw [hc]
  rfl

/-- A discovery fails, sets the cursor for the first time, is interrupted, or completes. -/
theorem discoverNewAccounts_cases (now clock : Time) (t : Trouble) (settings : WatchSettings) (db : Db) {inst : Instance}
    (hsorted : inst.members.Pairwise fun x y => y.created ≤ x.created) :
    let d := discoverNewAccounts now clock (inst.client t) settings db
    (t.error ≠ none ∧ d.db = db ∧ d.newAccounts = []) ∨
    (t.error = none ∧ db.newAccountCursor = none ∧ d.aborted = false ∧ d.newAccounts = [] ∧
      d.db = { db with newAccountCursor := inst.listed.head?.bind AdminAccount.createdAt }) ∨
    ∃ c, t.error = none ∧ db.newAccountCursor = some c ∧
      ((d.aborted = true ∧ d.newAccounts = [] ∧ ∃ handled,
          d.db = ((inst.news c).reverse.take handled).foldl (discoverAccount now clock settings) db) ∨
        (d.aborted = false ∧ d.newAccounts = (inst.news c).reverse ∧
          d.db = { (inst.news c).reverse.foldl (discoverAccount now clock settings) db with
            newAccountCursor := some (cursorAfterNews c (inst.news c)) } ∧
          (t.interrupt = none ∨ inst.news c = []))) := by
  intro d
  obtain ⟨error, interrupt⟩ := t
  cases error with
  | some e =>
    refine Or.inl ⟨by simp, ?_⟩
    cases hc : db.newAccountCursor with
    | none =>
      rw [show d = _ from discoverNewAccounts_first now clock _ settings inst hc]
      exact ⟨rfl, rfl⟩
    | some c =>
      rw [show d = _ from discoverNewAccounts_since now clock _ settings inst hc]
      exact ⟨rfl, rfl⟩
  | none =>
    refine Or.inr ?_
    cases hc : db.newAccountCursor with
    | none =>
      have hall : (inst.listed.take (pageSize * 1)).filter (AdminAccount.kept none) = inst.listed.take (pageSize * 1) :=
        List.filter_eq_self.2 fun a ha => kept_none ((listing_listed hsorted).isLocal a (List.mem_of_mem_take ha))
      have hhead : (inst.listed.take (pageSize * 1)).head? = inst.listed.head? := by
        rw [List.head?_take]
        exact if_neg (by decide)
      have hd : d = bootstrap (.ok (inst.listed.take (pageSize * 1))) db := by
        rw [← hall, ← localAccounts_eq hsorted]
        exact discoverNewAccounts_first now clock _ settings inst hc
      rw [hd]
      refine Or.inl ⟨rfl, rfl, rfl, rfl, ?_⟩
      unfold bootstrap
      dsimp only
      rw [hhead]
      cases inst.listed.head?.bind AdminAccount.createdAt with
      | none =>
        show db = { db with newAccountCursor := none }
        rw [← hc]
      | some newest => rfl
    | some c =>
      refine Or.inr ⟨c, rfl, rfl, ?_⟩
      have hd : d = discoverSince now clock settings c (.ok (inst.news c)) interrupt db := by
        rw [Instance.news, ← localAccounts_eq hsorted]
        exact discoverNewAccounts_since now clock _ settings inst hc
      rw [hd]
      unfold discoverSince
      cases inst.news c with
      | nil =>
        refine Or.inr ⟨rfl, rfl, ?_, Or.inr rfl⟩
        show db = { db with newAccountCursor := some c }
        rw [← hc]
      | cons newest older => cases interrupt with
        | some handled => exact Or.inl ⟨rfl, rfl, handled, rfl⟩
        | none => exact Or.inr ⟨rfl, rfl, rfl, Or.inl rfl⟩

/-! ### The steps of the system -/

/-- The condition under which alerts on new accounts are raised once: pruning leaves the alerts on members ahead of the
cursor.  Such alerts are left by polls that were interrupted before the cursor was written. -/
def SignupsKept (w : World) : Event → Prop
  | .prune now => w.signupView.Forgets (prune now w.settings w.db).marks.standing
  | _ => True

theorem signup_not_mem_posts {account : AccountId} {statuses : List Status} (a : AccountId) :
    Subject.signup a ∉ posts account statuses := by
  intro h
  obtain ⟨x, -, hx⟩ := List.mem_map.1 h
  cases hx

theorem signup_not_mem_silents {accounts : List AdminAccount} (a : AccountId) : Subject.signup a ∉ silents accounts := by
  intro h
  obtain ⟨x, -, hx⟩ := List.mem_map.1 h
  cases hx

/-- The cursor after a completed discovery is at or after each date it got, and at or after the old one. -/
theorem le_cursorAfterNews {inst : Instance} (hsorted : inst.members.Pairwise fun x y => y.created ≤ x.created) (c : Time) :
    c ≤ cursorAfterNews c (inst.news c) ∧
      ∀ m ∈ inst.members, m.toAdmin ∈ inst.news c → m.created ≤ cursorAfterNews c (inst.news c) := by
  have hpair : (inst.news c).Pairwise fun a b => ∀ s t, a.createdAt = some s → b.createdAt = some t → t ≤ s :=
    ((listing_listed hsorted).sorted.sublist (List.take_sublist _ _)).filter _
  have hmem : ∀ a ∈ inst.news c, ∃ m ∈ inst.members, m.active = true ∧ m.toAdmin = a ∧ c < m.created := fun a => mem_news
  generalize inst.news c = news at *
  cases news with
  | nil => exact ⟨Int.le_refl _, fun m _ hm => absurd hm List.not_mem_nil⟩
  | cons newest older =>
    obtain ⟨n, -, -, rfl, hn⟩ := hmem newest List.mem_cons_self
    refine ⟨Int.le_of_lt hn, fun m _ hm => ?_⟩
    rcases List.mem_cons.1 hm with heq | hm
    · exact Int.le_of_eq (Option.some.inj (congrArg AdminAccount.createdAt heq))
    · exact (List.pairwise_cons.1 hpair).1 _ hm n.created m.created rfl rfl

theorem created_le_newest {inst : Instance} (hsorted : inst.members.Pairwise fun x y => y.created ≤ x.created) {n : Member}
    {older : List AdminAccount} (heq : inst.listed = n.toAdmin :: older) {m : Member} (hm : m ∈ inst.members)
    (hact : m.active = true) : m.created ≤ n.created := by
  have hmem := mem_listed.2 ⟨m, hm, hact, rfl⟩
  have hs := (listing_listed hsorted).sorted
  rw [heq] at hmem hs
  rcases List.mem_cons.1 hmem with h | h
  · exact Int.le_of_eq (Option.some.inj (congrArg AdminAccount.createdAt h))
  · exact (List.pairwise_cons.1 hs).1 _ h n.created m.created rfl rfl

/-- A completed discovery moves the cursor past all visible members, those it did not get included. -/
theorem created_le_cursorAfterNews {inst : Instance} (hsorted : inst.members.Pairwise fun x y => y.created ≤ x.created)
    (c : Time) {m : Member} (hm : m ∈ inst.members) (hact : m.active = true) :
    m.created ≤ cursorAfterNews c (inst.news c) := by
  have hmem := mem_listed.2 ⟨m, hm, hact, rfl⟩
  obtain ⟨newest, older, heq⟩ := List.exists_cons_of_ne_nil (List.ne_nil_of_mem hmem)
  obtain ⟨n, hn, -, rfl⟩ := mem_listed.1 (show newest ∈ inst.listed by rw [heq]; exact List.mem_cons_self)
  obtain ⟨hle, hnews⟩ := le_cursorAfterNews hsorted c
  refine Int.le_trans (created_le_newest hsorted heq hm hact) ?_
  by_cases hlt : c < n.created
  · refine hnews n hn (List.mem_filter.2 ⟨?_, kept_toAdmin.2 hlt⟩)
    rw [heq, show pageSize * 2 = 199 + 1 from rfl, List.take_succ_cons]
    exact List.mem_cons_self
  · exact Int.le_trans (Int.not_lt.1 hlt) hle

/-- The loop over the news, or a part of it. -/
theorem SignupView.Sound.news {inst : Instance} {db : Db} (h : SignupView.Sound ⟨inst.members, db.newAccountCursor, db.marks⟩)
    {c : Time} (hc : db.newAccountCursor = some c) {accounts : List AdminAccount} (hsub : ∀ a ∈ accounts, a ∈ inst.news c) :
    SignupView.Sound ⟨inst.members, db.newAccountCursor, db.marks.raiseAll (signups accounts)⟩ := by
  refine h.raise fun a ha => ?_
  obtain ⟨m, hm, -, rfl, hlt⟩ := mem_news (hsub a ha)
  refine ⟨m, hm, rfl, ?_⟩
  rintro ⟨c', hc', hle⟩
  obtain rfl : c = c' := Option.some.inj (hc.symm.trans hc')
  exact Int.not_lt.2 hle hlt

theorem discoverAccounts_cursor (now clock : Time) (settings : WatchSettings) (accounts : List AdminAccount) (db : Db) :
    (accounts.foldl (discoverAccount now clock settings) db).newAccountCursor = db.newAccountCursor := by
  induction accounts generalizing db with
  | nil => rfl
  | cons a accounts ih =>
    rw [List.foldl_cons, ih]
    have hrec := recordAlert_newAccountCursor true clock .newAccount ⟨a.id, a.acct, none⟩ none db
    unfold discoverAccount
    generalize (recordAlert true clock .newAccount ⟨a.id, a.acct, none⟩ none db).1 = d at hrec
    rw [← hrec]
    unfold autoWatch
    split <;> rfl

theorem SignupView.Sound.discover {inst : Instance} {db : Db}
    (h : SignupView.Sound ⟨inst.members, db.newAccountCursor, db.marks⟩) (now clock : Time) (t : Trouble)
    (settings : WatchSettings) :
    let d := (discoverNewAccounts now clock (inst.client t) settings db).db
    SignupView.Sound ⟨inst.members, d.newAccountCursor, d.marks⟩ := by
  intro d
  rcases discoverNewAccounts_cases now clock t settings db h.sorted with ⟨-, hd, -⟩ | ⟨-, hnone, -, -, hd⟩ |
    ⟨c, -, hc, ⟨-, -, handled, hd⟩ | ⟨-, -, hd, -⟩⟩
  · rw [show d = db from hd]
    exact h
  · rw [show d = _ from hd]
    refine h.advance fun t ht => ?_
    obtain ⟨c, hc, -⟩ := ht
    exact absurd (hnone.symm.trans hc) (by simp)
  · rw [show d = _ from hd, discoverAccounts_marks, discoverAccounts_cursor]
    exact h.news hc fun a ha => List.mem_reverse.1 (List.mem_of_mem_take ha)
  · rw [show d = _ from hd]
    have hraised : SignupView.Sound ⟨inst.members, db.newAccountCursor, db.marks.raiseAll (signups (inst.news c).reverse)⟩ :=
      h.news hc fun a ha => List.mem_reverse.1 ha
    rw [← discoverAccounts_marks now clock settings] at hraised
    refine hraised.advance fun t ht => ?_
    obtain ⟨c', hc', hle⟩ := ht
    obtain rfl : c = c' := Option.some.inj (hc.symm.trans hc')
    exact ⟨_, rfl, Int.le_trans hle (le_cursorAfterNews h.sorted c).1⟩

/-- What a change of the members keeps. -/
structure Preserves (f : Member → Member) : Prop where
  id : ∀ m, (f m).id = m.id
  created : ∀ m, (f m).created = m.created
  active : ∀ m, m.active = true → (f m).active = true

theorem preserves_at {f : Member → Member} (hf : Preserves f) (id : AccountId) :
    Preserves fun m => if m.id = id then f m else m := by
  refine ⟨fun m => ?_, fun m => ?_, fun m hact => ?_⟩
  · split
    · exact hf.id m
    · rfl
  · split
    · exact hf.created m
    · rfl
  · split
    · exact hf.active m hact
    · exact hact

theorem preserves_approve : Preserves fun m => { m with active := true } :=
  ⟨fun _ => rfl, fun _ => rfl, fun _ _ => rfl⟩

theorem preserves_activity (lastLoginAt : Option Time) (statusesCount : Nat) :
    Preserves fun m => { m with lastLoginAt := lastLoginAt, statusesCount := statusesCount } :=
  ⟨fun _ => rfl, fun _ => rfl, fun _ hact => hact⟩

/-- A step that is not about the members: it raises no alert on a new account and deletes none. -/
structure Aside (w w' : World) : Prop where
  members : w'.inst.members = w.inst.members
  discovered : w'.discovered = w.discovered
  cursor : w'.db.newAccountCursor = w.db.newAccountCursor
  sent : w'.db.sent = w.db.sent
  raises : ∃ xs, w'.db.marks = w.db.marks.raiseAll xs ∧ ∀ a, .signup a ∉ xs

theorem Aside.of_marks {w w' : World} (members : w'.inst.members = w.inst.members) (discovered : w'.discovered = w.discovered)
    (cursor : w'.db.newAccountCursor = w.db.newAccountCursor) (sent : w'.db.sent = w.db.sent)
    (marks : w'.db.marks = w.db.marks) : Aside w w' :=
  ⟨members, discovered, cursor, sent, [], marks, fun _ => List.not_mem_nil⟩

/-- What a step does to the members and their alerts. -/
inductive MemberStep (w : World) : Event → World → Prop
  | register (m : Member) : (∀ x ∈ w.inst.members, x.id ≠ m.id ∧ x.created ≤ m.created) →
      MemberStep w (.register m) { w with inst := { w.inst with members := m :: w.inst.members } }
  | approve (id : AccountId) :
      MemberStep w (.approve id) { w with inst := w.inst.changeMember id fun m => { m with active := true } }
  | activity (id : AccountId) (lastLoginAt : Option Time) (statusesCount : Nat) :
      MemberStep w (.activity id lastLoginAt statusesCount) { w with inst := w.inst.changeMember id fun m =>
        { m with lastLoginAt := lastLoginAt, statusesCount := statusesCount } }
  | prune (now : Time) : MemberStep w (.prune now) (w.update (prune now w.settings w.db))
  | newAccounts (now clock : Time) (t : Trouble) (bot : Option Bot) (w' : World) :
      MemberStep w (.newAccounts now clock t bot) w'
  | aside {e : Event} {w' : World} : Aside w w' → MemberStep w e w'

theorem step_members {w w' : World} {e : Event} (hstep : step w e = some w') : MemberStep w e w' := by
  cases e with
  | register m =>
    obtain ⟨hnew, rfl⟩ := System.of_guard hstep
    exact .register m fun x hx => by simpa using List.all_eq_true.1 hnew x hx
  | approve id =>
    obtain rfl := Option.some.inj hstep
    exact .approve id
  | activity id lastLoginAt statusesCount =>
    obtain rfl := Option.some.inj hstep
    exact .activity id lastLoginAt statusesCount
  | prune now =>
    obtain rfl := Option.some.inj hstep
    exact .prune now
  | newAccounts now clock t bot => exact .newAccounts now clock t bot w'
  | post account s =>
    obtain ⟨-, rfl⟩ := System.of_guard hstep
    exact .aside (.of_marks rfl rfl rfl rfl rfl)
  | addWatch account acct expiresAt =>
    simp only [step, Option.ite_none_left_eq_some, Option.some.injEq] at hstep
    obtain ⟨-, rfl⟩ := hstep
    exact .aside (.of_marks rfl rfl rfl rfl rfl)
  | removeWatch | configure =>
    obtain rfl := Option.some.inj hstep
    exact .aside (.of_marks rfl rfl rfl rfl rfl)
  | acknowledge which time =>
    obtain rfl := Option.some.inj hstep
    exact .aside (.of_marks rfl rfl rfl rfl (marks_acknowledge which time w.db))
  | check id now clock t =>
    obtain ⟨watch, -, rfl⟩ := Option.map_eq_some_iff.1 hstep
    dsimp only
    generalize (w.inst.client t).accountStatuses watch.account watch.request.1 watch.request.2 = reply
    obtain ⟨statuses, hm, hc⟩ := checkWatch_raises now clock reply t.interrupt watch w.db
    have hsent := (kept_sent w.db.sent).checkWatch rfl now clock reply t.interrupt watch
    refine .aside ?_
    split
    · exact ⟨rfl, rfl, hc, hsent, _, hm, signup_not_mem_posts⟩
    · exact ⟨rfl, rfl, hc, hsent, _, hm, signup_not_mem_posts⟩
  | scan now clock t =>
    obtain rfl := Option.some.inj hstep
    obtain ⟨accounts, hm, -, hc⟩ := scanSilentLogins_raises now clock (w.inst.client t) w.settings w.db
    have hsent := (kept_sent w.db.sent).scanSilentLogins rfl now clock (w.inst.client t) w.settings
    exact .aside ⟨rfl, rfl, hc, hsent, _, hm, signup_not_mem_silents⟩

theorem signupView_newAccounts {w w' : World} {now clock : Time} {t : Trouble} {bot : Option Bot}
    (hstep : step w (.newAccounts now clock t bot) = some w') :
    let d := discoverNewAccounts now clock (w.inst.client t) w.settings w.db
    w'.signupView = ⟨w.inst.members, d.db.newAccountCursor, d.db.marks⟩ ∧
      w'.discovered = if t.error.isNone && !d.aborted then some (match w.discovered with
        | none => (w.inst.listed.map AdminAccount.id, w.inst.listed.map AdminAccount.id)
        | some (first, _) => (first, w.inst.listed.map AdminAccount.id)) else w.discovered := by
  intro d
  obtain ⟨-, ha, hl, -, hc, -⟩ := newAccountsStep_frame now clock (w.inst.client t) bot w.settings w.db
  have hdb : w'.db = (newAccountsStep now clock (w.inst.client t) bot w.settings w.db).1 ∧ w'.inst = w.inst := by
    rw [← Option.some.inj hstep]
    split
    · exact ⟨rfl, rfl⟩
    · exact ⟨rfl, rfl⟩
  constructor
  · unfold World.signupView Db.marks
    rw [hdb.1, hdb.2, ha, hl, hc]
  · rw [← Option.some.inj hstep]
    split
    · show (match w.discovered with
        | none => some (_, _)
        | some (first, _) => some (first, _)) = some _
      cases w.discovered with
      | none => rfl
      | some seen => rfl
    · rfl

/-- One step keeps the alerts on new accounts sound, if pruning does. -/
theorem signups_step {w w' : World} {e : Event} (h : w.signupView.Sound) (hok : SignupsKept w e) (hstep : step w e = some w') :
    w'.signupView.Sound := by
  cases step_members hstep with
  | register m hnew => exact h.register (fun x hx => (hnew x hx).1) fun x hx => (hnew x hx).2
  | approve id =>
    have hf := preserves_at preserves_approve id
    exact h.change hf.id hf.created
  | activity id lastLoginAt statusesCount =>
    have hf := preserves_at (preserves_activity lastLoginAt statusesCount) id
    exact h.change hf.id hf.created
  | prune now => exact h.forget (standing_prune_subset now w.settings w.db) hok
  | newAccounts now clock t bot =>
    rw [(signupView_newAccounts hstep).1]
    exact h.discover now clock t w.settings
  | aside haside =>
    obtain ⟨xs, hm, hxs⟩ := haside.raises
    unfold World.signupView
    rw [haside.members, haside.cursor, hm]
    exact h.raiseOther hxs

theorem signups_init {w : World} (h : system.init w) : w.signupView.Sound := by
  obtain ⟨hdb, hmem, -, -⟩ := h
  unfold World.signupView
  rw [hdb, hmem]
  exact ⟨List.nodup_nil, List.Pairwise.nil, fun _ hm => absurd hm List.not_mem_nil,
    fun _ hm => absurd hm List.not_mem_nil, fun _ hm => absurd hm List.not_mem_nil⟩

end ProxmoxTool.Moderation
