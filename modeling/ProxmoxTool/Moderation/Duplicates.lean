import ProxmoxTool.Moderation.Posts
import ProxmoxTool.Moderation.Signups

/-!
# No alert is raised twice

Over a run at most one alert is inserted, and at most one notification sent, for each dedupe key (`alerts_raised_once`).  A
row of the table keeps its key from being inserted again, but pruning deletes rows.  Alerts on posts and on new accounts stay
unique because their cursors are past them; the scan for silent logins has no cursor, so a silent account is alerted on
again once its old alert is gone (`silent_login_alerted_twice`).  `UniqueOk` is the condition that excludes this, and the
pruning of alerts that an interrupted step left ahead of its cursor.
-/

namespace ProxmoxTool.Moderation

/-! ### Notifications -/

/-- What was notified on was inserted, and one insertion has at most one notification. -/
def Db.Notified (db : Db) : Prop := db.outbox.Sublist db.marks.raised

theorem Db.Notified.of_eq {db db' : Db} (h : db.Notified) (hout : db'.outbox = db.outbox) (hlog : db'.log = db.log) :
    db'.Notified := by
  unfold Notified Db.marks
  rw [hout, hlog]
  exact h

theorem kept_notified : Kept Db.Notified where
  record notify clock kind account status h := outbox_recordAlert notify clock kind account status _ h
  watches _ h := h
  newAccountCursor _ h := h
  silentLastScanAt _ h := h

theorem Db.Notified.newAccountsStep {db : Db} (h : db.Notified) (now clock : Time) (client : Client) (bot : Option Bot)
    (settings : WatchSettings) : (newAccountsStep now clock client bot settings db).1.Notified := by
  obtain ⟨-, -, hlog, hout, -⟩ := newAccountsStep_frame now clock client bot settings db
  exact Db.Notified.of_eq (kept_notified.discoverNewAccounts h now clock client settings) hout hlog

theorem notified_step {w w' : World} {e : Event} (h : w.db.Notified) (hstep : step w e = some w') : w'.db.Notified := by
  cases e with
  | post | register =>
    obtain ⟨-, rfl⟩ := System.of_guard hstep
    exact h
  | addWatch account acct expiresAt =>
    simp only [step, Option.ite_none_left_eq_some, Option.some.injEq] at hstep
    obtain ⟨-, rfl⟩ := hstep
    exact h
  | check id now clock t =>
    obtain ⟨watch, -, rfl⟩ := Option.map_eq_some_iff.1 hstep
    have hcheck := kept_notified.checkWatch h now clock ((w.inst.client t).accountStatuses watch.account watch.request.1
      watch.request.2) t.interrupt watch
    dsimp only
    split
    · exact hcheck
    · exact hcheck
  | newAccounts now clock t bot =>
    obtain rfl := Option.some.inj hstep
    have hnew := h.newAccountsStep now clock (w.inst.client t) bot w.settings
    split
    · exact hnew
    · exact hnew
  | scan now clock t =>
    obtain rfl := Option.some.inj hstep
    exact kept_notified.scanSilentLogins h now clock (w.inst.client t) w.settings
  | approve | activity | removeWatch | acknowledge | configure | prune =>
    obtain rfl := Option.some.inj hstep
    exact h

/-! ### What is raised -/

/-- A scan raises silent accounts of the listing it gets. -/
theorem scan_raises (now clock : Time) (t : Trouble) (settings : WatchSettings) (db : Db) (inst : Instance) :
    ∃ accounts, (scanSilentLogins now clock (inst.client t) settings db).marks = db.marks.raiseAll (silents accounts) ∧
      ∀ a ∈ accounts, db.scannedLately now = false ∧ t.error = none ∧ a.silent now settings = true ∧
        ∃ reply, inst.localAccounts (some (now - days settings.silentScanWindowDays)) 10 = .ok reply ∧ a ∈ reply := by
  unfold scanSilentLogins
  split
  · exact ⟨[], rfl, fun a ha => absurd ha List.not_mem_nil⟩
  · rename_i hgoes
    have hdue : db.scannedLately now = false := by simpa [Instance.client] using hgoes
    obtain ⟨error, interrupt⟩ := t
    cases error with
    | some e => exact ⟨[], rfl, fun a ha => absurd ha List.not_mem_nil⟩
    | none =>
      show ∃ accounts, (scanAccounts now clock settings (inst.localAccounts _ 10) interrupt db).marks = _ ∧ _
      cases hreply : inst.localAccounts (some (now - days settings.silentScanWindowDays)) 10 with
      | error e => exact ⟨[], rfl, fun a ha => absurd ha List.not_mem_nil⟩
      | ok reply =>
        have hsilent : ∀ a ∈ reply.filter (AdminAccount.silent now settings), db.scannedLately now = false ∧
            (none : Option ApiError) = none ∧ a.silent now settings = true ∧
            ∃ reply', Except.ok (ε := ApiError) reply = .ok reply' ∧ a ∈ reply' := fun a ha =>
          ⟨hdue, rfl, (List.mem_filter.1 ha).2, reply, rfl, (List.mem_filter.1 ha).1⟩
        cases interrupt with
        | some handled => exact ⟨_, (recordSilents_eq clock _ db).1, fun a ha => hsilent a (List.mem_of_mem_take ha)⟩
        | none => exact ⟨_, (recordSilents_eq clock _ db).1, hsilent⟩

/-- A step raises the posts of a watch, new accounts, or silent logins, or it raises nothing and may only delete alerts. -/
theorem step_raises {w w' : World} {e : Event} (hstep : step w e = some w') :
    (∃ standing, standing ⊆ w.db.marks.standing ∧ w'.db.marks = ⟨standing, w.db.marks.raised⟩) ∨
    (∃ account statuses, w'.db.marks = w.db.marks.raiseAll (posts account statuses)) ∨
    (∃ accounts, w'.db.marks = w.db.marks.raiseAll (signups accounts)) ∨
    ∃ now clock t accounts, e = .scan now clock t ∧ w'.db.marks = w.db.marks.raiseAll (silents accounts) ∧
      ∀ a ∈ accounts, w.db.scannedLately now = false ∧ t.error = none ∧ a.silent now w.settings = true ∧
        ∃ reply, w.inst.localAccounts (some (now - days w.settings.silentScanWindowDays)) 10 = .ok reply ∧ a ∈ reply := by
  cases e with
  | post | register =>
    obtain ⟨-, rfl⟩ := System.of_guard hstep
    exact Or.inl ⟨_, List.Subset.refl _, rfl⟩
  | addWatch account acct expiresAt =>
    simp only [step, Option.ite_none_left_eq_some, Option.some.injEq] at hstep
    obtain ⟨-, rfl⟩ := hstep
    exact Or.inl ⟨_, List.Subset.refl _, rfl⟩
  | acknowledge which time =>
    obtain rfl := Option.some.inj hstep
    exact Or.inl ⟨_, List.Subset.refl _, marks_acknowledge which time w.db⟩
  | prune now =>
    obtain rfl := Option.some.inj hstep
    exact Or.inl ⟨_, standing_prune_subset now w.settings w.db, rfl⟩
  | check id now clock t =>
    obtain ⟨watch, -, rfl⟩ := Option.map_eq_some_iff.1 hstep
    obtain ⟨statuses, hm, -⟩ := checkWatch_raises now clock ((w.inst.client t).accountStatuses watch.account
      watch.request.1 watch.request.2) t.interrupt watch w.db
    refine Or.inr (Or.inl ⟨watch.account, statuses, ?_⟩)
    dsimp only
    split
    · exact hm
    · exact hm
  | newAccounts now clock t bot =>
    obtain ⟨accounts, hm, -⟩ := newAccountsStep_raises now clock (w.inst.client t) bot w.settings w.db
    obtain rfl := Option.some.inj hstep
    refine Or.inr (Or.inr (Or.inl ⟨accounts, ?_⟩))
    split
    · exact hm
    · exact hm
  | scan now clock t =>
    obtain rfl := Option.some.inj hstep
    obtain ⟨accounts, hm, hfrom⟩ := scan_raises now clock t w.settings w.db w.inst
    exact Or.inr (Or.inr (Or.inr ⟨now, clock, t, accounts, rfl, hm, hfrom⟩))
  | approve | activity | removeWatch | configure =>
    obtain rfl := Option.some.inj hstep
    exact Or.inl ⟨_, List.Subset.refl _, rfl⟩

/-- The condition under which alerts on silent logins are raised once: a scan meets no silent account whose alert was deleted. -/
def SilentsKept (w : World) : Event → Prop
  | .scan now _ t => w.db.scannedLately now = false → t.error = none →
      ∀ reply, w.inst.localAccounts (some (now - days w.settings.silentScanWindowDays)) 10 = .ok reply →
        ∀ a ∈ reply, a.silent now w.settings = true → .silent a.id ∈ w.db.marks.raised → .silent a.id ∈ w.db.marks.standing
  | _ => True

def UniqueOk (w : World) (e : Event) : Prop := PostsKept w e ∧ SignupsKept w e ∧ SilentsKept w e

/-- Every alert is on a post, a new account or a silent login, and those on silent logins were raised once. -/
structure SilentsOnce (m : Marks Subject) : Prop where
  kinds : ∀ s ∈ m.raised, (∃ a i, s = .post a i) ∨ (∃ a, s = .signup a) ∨ ∃ a, s = .silent a
  once : ∀ a, m.raised.count (.silent a) ≤ 1
  marked : ∀ a, .silent a ∈ m.standing → .silent a ∈ m.raised

namespace SilentsOnce

variable {m : Marks Subject}

theorem forget (h : SilentsOnce m) {standing : List Subject} (hs : standing ⊆ m.standing) :
    SilentsOnce ⟨standing, m.raised⟩ :=
  ⟨h.kinds, h.once, fun a ha => h.marked a (hs ha)⟩

theorem raiseOther (h : SilentsOnce m) {xs : List Subject} (hxs : ∀ a, .silent a ∉ xs)
    (hkinds : ∀ s ∈ xs, (∃ a i, s = .post a i) ∨ ∃ a, s = .signup a) : SilentsOnce (m.raiseAll xs) := by
  refine ⟨fun s hs => ?_, fun a => ?_, fun a ha => ?_⟩
  · rcases Marks.mem_raised_raiseAll.1 hs with hs | hs
    · exact h.kinds s hs
    · exact (hkinds s hs.1).imp_right Or.inl
  · rw [Marks.count_raiseAll, if_neg fun hmem => hxs a hmem.1]
    exact h.once a
  · rcases Marks.mem_standing_raiseAll.1 ha with ha | ha
    · exact Marks.mem_raised_raiseAll.2 (Or.inl (h.marked a ha))
    · exact absurd ha (hxs a)

/-- Raising silent logins whose earlier alerts stand. -/
theorem raise (h : SilentsOnce m) {accounts : List AdminAccount}
    (hkept : ∀ a ∈ accounts, .silent a.id ∈ m.raised → .silent a.id ∈ m.standing) :
    SilentsOnce (m.raiseAll (silents accounts)) := by
  refine ⟨fun s hs => ?_, fun a => ?_, fun a ha => ?_⟩
  · rcases Marks.mem_raised_raiseAll.1 hs with hs | hs
    · exact h.kinds s hs
    · obtain ⟨x, -, rfl⟩ := List.mem_map.1 hs.1
      exact Or.inr (Or.inr ⟨x.id, rfl⟩)
  · rw [Marks.count_raiseAll]
    split
    · rename_i hnew
      obtain ⟨x, hx, heq⟩ := List.mem_map.1 hnew.1
      have hzero : m.raised.count (.silent a) = 0 := by
        refine List.count_eq_zero_of_not_mem fun hr => hnew.2 ?_
        rw [← heq] at hr ⊢
        exact hkept x hx hr
      omega
    · exact h.once a
  · rw [Marks.mem_raised_raiseAll]
    by_cases hstands : Subject.silent a ∈ m.standing
    · exact Or.inl (h.marked a hstands)
    · exact Or.inr ⟨(Marks.mem_standing_raiseAll.1 ha).resolve_left hstands, hstands⟩

end SilentsOnce

theorem silentsOnce_step {w w' : World} {e : Event} (h : SilentsOnce w.db.marks) (hok : SilentsKept w e)
    (hstep : step w e = some w') : SilentsOnce w'.db.marks := by
  rcases step_raises hstep with ⟨standing, hsub, hm⟩ | ⟨account, statuses, hm⟩ | ⟨accounts, hm⟩ |
    ⟨now, clock, t, accounts, rfl, hm, hfrom⟩
  · rw [hm]
    exact h.forget hsub
  · rw [hm]
    refine h.raiseOther (fun a ha => ?_) fun s hs => ?_
    · obtain ⟨x, -, hx⟩ := List.mem_map.1 ha
      cases hx
    · obtain ⟨x, -, rfl⟩ := List.mem_map.1 hs
      exact Or.inl ⟨account, x.id, rfl⟩
  · rw [hm]
    refine h.raiseOther (fun a ha => ?_) fun s hs => ?_
    · obtain ⟨x, -, hx⟩ := List.mem_map.1 ha
      cases hx
    · obtain ⟨x, -, rfl⟩ := List.mem_map.1 hs
      exact Or.inr ⟨x.id, rfl⟩
  · rw [hm]
    refine h.raise fun a ha => ?_
    obtain ⟨hdue, herr, hsilent, reply, hreply, hmem⟩ := hfrom a ha
    exact hok hdue herr reply hreply a hmem hsilent

/-! ### Runs -/

/-- In every run that meets `UniqueOk`, the alerts inserted and the notifications sent have distinct keys. -/
theorem alerts_raised_once {w : World} (h : system.Reach UniqueOk w) :
    (w.db.log.map Alert.dedupeKey).Nodup ∧ (w.db.outbox.map makeDedupeKey).Nodup := by
  have hinv : (w.postView.Sound ∧ w.signupView.Sound) ∧ SilentsOnce w.db.marks ∧ w.db.Notified := by
    refine h.invariant (I := fun w => (w.postView.Sound ∧ w.signupView.Sound) ∧ SilentsOnce w.db.marks ∧ w.db.Notified)
      (fun s hs => ⟨⟨sound_init hs, signups_init hs⟩, ?_⟩)
      fun s e s' hi hok hst => ⟨⟨sound_step hi.1.1 hok.1 hst, signups_step hi.1.2 hok.2.1 hst⟩,
        silentsOnce_step hi.2.1 hok.2.2 hst, notified_step hi.2.2 hst⟩
    rw [show s.db = {} from hs.1]
    exact ⟨⟨fun _ hm => absurd hm List.not_mem_nil, fun _ => Nat.zero_le _, fun _ hm => absurd hm List.not_mem_nil⟩,
      List.Sublist.refl _⟩
  obtain ⟨⟨hposts, hsignups⟩, hsilents, hnotified⟩ := hinv
  have hraised : w.db.marks.raised.Nodup := by
    refine List.nodup_iff_count_le_one.2 fun s => ?_
    by_cases hs : s ∈ w.db.marks.raised
    · rcases hsilents.kinds s hs with ⟨a, i, rfl⟩ | ⟨a, rfl⟩ | ⟨a, rfl⟩
      · exact (hposts.once a i).count_le
      · obtain ⟨m, hm, rfl⟩ := List.mem_map.1 (hsignups.known a hs)
        exact (hsignups.once m hm).count_le
      · exact hsilents.once a
    · rw [List.count_eq_zero_of_not_mem hs]
      exact Nat.zero_le 1
  have hkeys : w.db.log.map Alert.dedupeKey = w.db.marks.raised.map makeDedupeKey := by
    simp [Db.marks, Alert.dedupeKey, Function.comp_def]
  rw [hkeys]
  exact ⟨hraised.map makeDedupeKey_injective, (hraised.sublist hnotified).map makeDedupeKey_injective⟩

/-- The shortest retention of alerts. -/
def shortRetention : WatchSettings := getWatchSettings fun key =>
  match key with
  | .logRetentionDays => some ['3', '0']
  | _ => none

/-- An account without posts that logs in again and again, and two polls forty days apart. -/
def dormantRun : List Event :=
  [.configure shortRetention, .register { id := 1, acct := [], created := 0, active := true, lastLoginAt := some (days 19) },
    .prune (days 20), .newAccounts (days 20) (days 20) {} none, .scan (days 20) (days 20) {},
    .activity 1 (some (days 55)) 0,
    .prune (days 60), .newAccounts (days 60) (days 60) {} none, .scan (days 60) (days 60) {}]

/-- The first poll alerts on the account, the second one deletes the alert and alerts again. -/
theorem silent_login_alerted_twice : ∃ w, system.Reachable w ∧ ¬ (w.db.log.map Alert.dedupeKey).Nodup := by
  have hrun : (system.exec {} dormantRun).map (fun w => decide (w.db.log.map Alert.dedupeKey).Nodup) = some false := by
    decide +kernel
  obtain ⟨w, hw, htwice⟩ := Option.map_eq_some_iff.1 hrun
  exact ⟨w, System.reachable_of_exec ⟨rfl, rfl, fun _ => rfl, rfl⟩ hw, of_decide_eq_false htwice⟩

/-- Two polls: the first alerts on a silent account, the second on another one, and not on the first again. -/
theorem silent_login_alerted : ∃ w, system.Reach UniqueOk w ∧ w.db.log.length = 2 ∧
    (w.db.log.map Alert.dedupeKey).Nodup := by
  have r0 : system.Reach UniqueOk {} := .init ⟨rfl, rfl, fun _ => rfl, rfl⟩
  have r1 := r0.next (.register { id := 1, acct := [], created := 0, active := true, lastLoginAt := some (days 19) })
    ⟨trivial, trivial, trivial⟩ rfl
  have r2 := r1.next (.scan (days 20) (days 20) {}) ⟨trivial, trivial, fun _ _ _ _ _ _ _ hr => absurd hr List.not_mem_nil⟩ rfl
  have r3 := r2.next (.register { id := 2, acct := [], created := 0, active := true, lastLoginAt := some (days 20) })
    ⟨trivial, trivial, trivial⟩ rfl
  have r4 := r3.next (.scan (days 21) (days 21) {}) ⟨trivial, trivial, fun _ _ _ _ _ _ _ hr => hr⟩ rfl
  exact ⟨_, r4, by decide +kernel, (alerts_raised_once r4).1⟩

end ProxmoxTool.Moderation
