import ProxmoxTool.Moderation.Signups

/-!
# Welcomes

The welcome step of a poll works on the accounts that its discovery found, and the discovery moves its cursor past all of
them.  So an account is offered once: it is never welcomed twice (`WelcomeView.Sound`), and if it is passed over then, by the
cap on the welcomes of one poll, by the rate budget or by an error, it is never welcomed at all (`forsaken_of_passed`).

`WelcomesOk` is the condition under which every account with an alert gets its welcome (`alerted_accounts_welcomed`).
-/

namespace ProxmoxTool.Moderation

/-! ### The loop -/

/-- The accounts the loop does not skip as the bot's own. -/
def Bot.due (bot : Bot) (accounts : List AdminAccount) : List AdminAccount :=
  accounts.filter fun a => bot.verify ≠ some a.id

/-- Only accounts of the list are welcomed, each at most once. -/
theorem welcomeLoop_adds (bot : Bot) (accounts : List AdminAccount) (n : Nat) (db : Db) :
    ∃ xs ys, (welcomeLoop bot accounts n db).1.sent = (db.welcomes ++ xs, db.welcomed ++ ys) ∧
      xs.Sublist (accounts.map AdminAccount.id) ∧ ys.Sublist (accounts.map AdminAccount.id) := by
  have hnone : ∀ (d : Db) (l : List AdminAccount), ∃ xs ys, d.sent = (d.welcomes ++ xs, d.welcomed ++ ys) ∧
      xs.Sublist (l.map AdminAccount.id) ∧ ys.Sublist (l.map AdminAccount.id) := fun d l =>
    ⟨[], [], by simp [Db.sent], List.nil_sublist _, List.nil_sublist _⟩
  induction accounts generalizing n db with
  | nil => exact hnone db []
  | cons a accounts ih =>
    have hskip : ∀ m (d : Db), ∃ xs ys, (welcomeLoop bot accounts m d).1.sent = (d.welcomes ++ xs, d.welcomed ++ ys) ∧
        xs.Sublist ((a :: accounts).map AdminAccount.id) ∧ ys.Sublist ((a :: accounts).map AdminAccount.id) := by
      intro m d
      obtain ⟨xs, ys, heq, hxs, hys⟩ := ih m d
      exact ⟨xs, ys, heq, hxs.cons _, hys.cons _⟩
    unfold welcomeLoop
    split
    · exact hnone db _
    · split
      · exact hskip n db
      · split
        · exact hskip n db
        · cases bot.sending a.id with
          | noBudget => exact hnone db _
          | failed => exact hskip n db
          | sent =>
            obtain ⟨xs, ys, heq, hxs, hys⟩ :=
              ih (n + 1) { db with welcomes := db.welcomes ++ [a.id], welcomed := db.welcomed ++ [a.id] }
            exact ⟨a.id :: xs, a.id :: ys, by simpa using heq, hxs.cons_cons _, hys.cons_cons _⟩
          | interrupted posted => cases posted with
            | true => exact ⟨[], [a.id], by simp [Db.sent], List.nil_sublist _, (List.nil_sublist _).cons_cons _⟩
            | false => exact hnone db _

/-- All due accounts are welcomed if the cap leaves room for them and nothing goes wrong. -/
theorem welcomeLoop_sends {bot : Bot} {accounts : List AdminAccount} {n : Nat} {db : Db}
    (hids : (accounts.map AdminAccount.id).Nodup) (hnew : ∀ a ∈ accounts, a.id ∉ db.welcomes)
    (hsent : ∀ a ∈ bot.due accounts, bot.sending a.id = .sent) (hcap : n + (bot.due accounts).length ≤ maxWelcomesPerRun) :
    (welcomeLoop bot accounts n db).1.welcomed = db.welcomed ++ (bot.due accounts).map AdminAccount.id := by
  induction accounts generalizing n db with
  | nil => simp [welcomeLoop, Bot.due]
  | cons a accounts ih =>
    obtain ⟨hnot, hids⟩ := List.nodup_cons.1 hids
    have hrest : ∀ b ∈ accounts, b.id ∉ db.welcomes := fun b hb => hnew b (List.mem_cons_of_mem _ hb)
    unfold welcomeLoop
    by_cases hbot : bot.verify = some a.id
    · have hdue : bot.due (a :: accounts) = bot.due accounts := List.filter_cons_of_neg (by simpa using hbot)
      rw [hdue] at hsent hcap ⊢
      rw [if_pos hbot]
      split
      · rename_i hfull
        have hnil : bot.due accounts = [] := List.length_eq_zero_iff.1 (by omega)
        simp [hnil]
      · exact ih hids hrest hsent hcap
    · have hdue : bot.due (a :: accounts) = a :: bot.due accounts := List.filter_cons_of_pos (by simpa using hbot)
      rw [hdue] at hsent hcap ⊢
      rw [List.length_cons] at hcap
      rw [if_neg (by omega), if_neg hbot, if_neg (hnew a List.mem_cons_self), hsent a List.mem_cons_self]
      dsimp only
      rw [ih hids (fun b hb => ?_) (fun b hb => hsent b (List.mem_cons_of_mem _ hb)) (by omega)]
      · simp
      · rw [List.mem_append, List.mem_singleton]
        rintro (hb' | hb')
        · exact hrest b hb hb'
        · exact hnot (hb' ▸ List.mem_map_of_mem hb)

/-! ### What the steps send -/

/-- Welcomes go to accounts of a completed discovery only. -/
theorem newAccountsStep_adds (now clock : Time) (client : Client) (bot : Option Bot) (settings : WatchSettings) (db : Db) :
    let d := discoverNewAccounts now clock client settings db
    ∃ xs ys, (newAccountsStep now clock client bot settings db).1.sent = (db.welcomes ++ xs, db.welcomed ++ ys) ∧
      xs.Subset (d.newAccounts.map AdminAccount.id) ∧ ys.Subset (d.newAccounts.map AdminAccount.id) ∧
      ((d.newAccounts.map AdminAccount.id).Nodup → ys.Nodup) := by
  intro d
  have hsent : d.db.sent = db.sent := (kept_sent db.sent).discoverNewAccounts rfl now clock client settings
  have hnone : d.db.sent = (db.welcomes ++ [], db.welcomed ++ []) := by
    rw [hsent, List.append_nil, List.append_nil]
    rfl
  have hidle : ∃ xs ys, d.db.sent = (db.welcomes ++ xs, db.welcomed ++ ys) ∧ xs.Subset (d.newAccounts.map AdminAccount.id) ∧
      ys.Subset (d.newAccounts.map AdminAccount.id) ∧ ((d.newAccounts.map AdminAccount.id).Nodup → ys.Nodup) :=
    ⟨[], [], hnone, List.nil_subset _, List.nil_subset _, fun _ => List.nodup_nil⟩
  unfold newAccountsStep
  dsimp only
  split
  · exact hidle
  · cases bot with
    | none => exact hidle
    | some bot =>
      show ∃ xs ys, (sendWelcomes bot d).1.sent = _ ∧ _
      unfold sendWelcomes
      split
      · exact hidle
      · obtain ⟨xs, ys, heq, hxs, hys⟩ := welcomeLoop_adds bot (d.newAccounts.insertionSort fun a b => a.older b) 0
          d.db
        have hperm := (List.perm_insertionSort (fun a b => a.older b) d.newAccounts).map AdminAccount.id
        obtain ⟨hw, hm⟩ := Prod.mk.inj hsent
        refine ⟨xs, ys, by rw [heq, hw, hm], fun x hx => hperm.subset (hxs.subset hx),
          fun x hx => hperm.subset (hys.subset hx), fun hnodup => ?_⟩
        exact (hperm.nodup_iff.2 hnodup).sublist hys

/-- A completed discovery whose accounts can all be welcomed: they are. -/
theorem newAccountsStep_sends {now clock : Time} {client : Client} {bot : Bot} {settings : WatchSettings} {db : Db}
    {d : Discovery} (hd : discoverNewAccounts now clock client settings db = d) (hgoes : d.aborted = false)
    (hboot : d.bootstrapped = false)
    (hids : (d.newAccounts.map AdminAccount.id).Nodup) (hnew : ∀ a ∈ d.newAccounts, a.id ∉ db.welcomes)
    (hsent : ∀ a ∈ bot.due d.newAccounts, bot.sending a.id = .sent)
    (hcap : (bot.due d.newAccounts).length ≤ maxWelcomesPerRun) :
    ∀ a ∈ bot.due d.newAccounts, a.id ∈ (newAccountsStep now clock client (some bot) settings db).1.welcomed := by
  have hsame : d.db.sent = db.sent := hd ▸ (kept_sent db.sent).discoverNewAccounts rfl now clock client settings
  have hperm := List.perm_insertionSort (fun a b => a.older b) d.newAccounts
  have hdue : (bot.due (d.newAccounts.insertionSort fun a b => a.older b)).Perm (bot.due d.newAccounts) :=
    hperm.filter _
  intro a ha
  unfold newAccountsStep
  dsimp only
  rw [hd, hgoes, if_neg Bool.false_ne_true]
  show a.id ∈ (sendWelcomes bot d).1.welcomed
  unfold sendWelcomes
  have hsome : d.newAccounts.isEmpty = false := by
    cases hnil : d.newAccounts with
    | nil => simp [hnil, Bot.due] at ha
    | cons b bs => rfl
  rw [hboot, hsome, Bool.false_or, if_neg Bool.false_ne_true, welcomeLoop_sends]
  · exact List.mem_append_right _ (List.mem_map_of_mem (hdue.mem_iff.2 ha))
  · exact (hperm.map AdminAccount.id).nodup_iff.2 hids
  · intro b hb
    rw [show d.db.welcomes = db.welcomes from (Prod.mk.inj hsame).1]
    exact hnew b (hperm.mem_iff.1 hb)
  · exact fun b hb => hsent b (hdue.mem_iff.1 hb)
  · rw [hdue.length_eq, Nat.zero_add]
    exact hcap

/-! ### What matters for the welcomes -/

/-- The members, how far the discovery has come, the accounts with an alert, those with a welcome, and those listed at the
latest completed discovery. -/
structure WelcomeView where
  members : List Member
  cursor : Option Time
  alerted : AccountId → Prop
  records : List AccountId
  welcomed : List AccountId
  latest : List AccountId

def World.welcomeView (w : World) : WelcomeView where
  members := w.inst.members
  cursor := w.db.newAccountCursor
  alerted x := .signup x ∈ w.db.marks.raised
  records := w.db.welcomes
  welcomed := w.db.welcomed
  latest := (w.discovered.map Prod.snd).getD []

namespace WelcomeView

/-- The account is a member that the cursor has reached. -/
def Passed (v : WelcomeView) (x : AccountId) : Prop := ∃ m ∈ v.members, m.id = x ∧ Reached v.cursor m.created

/-- Only accounts that the cursor has reached are welcomed, each at most once. -/
structure Sound (v : WelcomeView) : Prop where
  ids : (v.members.map Member.id).Nodup
  sorted : v.members.Pairwise fun x y => y.created ≤ x.created
  alerted : ∀ x, v.alerted x → ∃ m ∈ v.members, m.id = x ∧ m.active = true
  fresh : v.cursor = none → ∀ x, ¬ v.alerted x
  records : ∀ x ∈ v.records, v.Passed x
  welcomed : ∀ x ∈ v.welcomed, v.Passed x
  once : v.welcomed.Nodup
  latest : ∀ x ∈ v.latest, v.Passed x

/-- Every account with an alert that the cursor has reached is welcomed, the bot's own excepted. -/
def Served (self : AccountId) (v : WelcomeView) : Prop := ∀ x, v.alerted x → x ≠ self → v.Passed x → x ∈ v.welcomed

variable {v : WelcomeView}

/-- A member ahead of the cursor is not passed. -/
theorem Sound.not_passed (h : v.Sound) {m : Member} (hm : m ∈ v.members) {c : Time} (hc : v.cursor = some c)
    (hlt : c < m.created) : ¬ v.Passed m.id := by
  rintro ⟨n, hn, hid, c', hc', hle⟩
  obtain rfl := eq_of_id_eq Member.id h.ids hn hm hid
  obtain rfl : c = c' := Option.some.inj (hc.symm.trans hc')
  exact Int.not_lt.2 hle hlt

/-! ### Registrations and changes -/

theorem Sound.register (h : v.Sound) {m : Member} (hnew : ∀ x ∈ v.members, x.id ≠ m.id ∧ x.created ≤ m.created) :
    Sound { v with members := m :: v.members } := by
  have hpassed : ∀ x, v.Passed x → Passed { v with members := m :: v.members } x := by
    rintro x ⟨n, hn, hrest⟩
    exact ⟨n, List.mem_cons_of_mem _ hn, hrest⟩
  have hnot : m.id ∉ v.members.map Member.id := by
    intro hmem
    obtain ⟨x, hx, heq⟩ := List.mem_map.1 hmem
    exact (hnew x hx).1 heq
  refine ⟨List.nodup_cons.2 ⟨hnot, h.ids⟩, List.pairwise_cons.2 ⟨fun x hx => (hnew x hx).2, h.sorted⟩, fun x hx => ?_,
    h.fresh, fun x hx => hpassed x (h.records x hx), fun x hx => hpassed x (h.welcomed x hx), h.once,
    fun x hx => hpassed x (h.latest x hx)⟩
  obtain ⟨n, hn, hrest⟩ := h.alerted x hx
  exact ⟨n, List.mem_cons_of_mem _ hn, hrest⟩

theorem Served.register {self : AccountId} (hs : v.Served self) (h : v.Sound) {m : Member}
    (hnew : ∀ x ∈ v.members, x.id ≠ m.id ∧ x.created ≤ m.created) : Served self { v with members := m :: v.members } := by
  rintro x hx hne ⟨n, hn, rfl, hreached⟩
  rcases List.mem_cons.1 hn with rfl | hn
  · -- a member that is new has no alert yet
    obtain ⟨k, hk, hid, -⟩ := h.alerted n.id hx
    exact absurd hid (hnew k hk).1
  · exact hs n.id hx hne ⟨n, hn, rfl, hreached⟩

theorem passed_change {f : Member → Member} (hf : Preserves f) (x : AccountId) :
    Passed { v with members := v.members.map f } x ↔ v.Passed x := by
  constructor
  · rintro ⟨m, hm, hid, hreached⟩
    obtain ⟨n, hn, rfl⟩ := List.mem_map.1 hm
    rw [hf.created] at hreached
    exact ⟨n, hn, (hf.id n).symm.trans hid, hreached⟩
  · rintro ⟨n, hn, hid, hreached⟩
    exact ⟨f n, List.mem_map_of_mem hn, (hf.id n).trans hid, (hf.created n).symm ▸ hreached⟩

theorem Sound.change (h : v.Sound) {f : Member → Member} (hf : Preserves f) :
    Sound { v with members := v.members.map f } := by
  have hids : (v.members.map f).map Member.id = v.members.map Member.id := by
    rw [List.map_map]
    exact List.map_congr_left fun m _ => hf.id m
  refine ⟨hids.symm ▸ h.ids, ?_, fun x hx => ?_, h.fresh, fun x hx => (passed_change hf x).2 (h.records x hx),
    fun x hx => (passed_change hf x).2 (h.welcomed x hx), h.once, fun x hx => (passed_change hf x).2 (h.latest x hx)⟩
  · refine List.pairwise_map.2 (h.sorted.imp fun hle => ?_)
    rwa [hf.created, hf.created]
  · obtain ⟨m, hm, hid, hact⟩ := h.alerted x hx
    exact ⟨f m, List.mem_map_of_mem hm, (hf.id m).trans hid, hf.active m hact⟩

theorem Served.change {self : AccountId} (hs : v.Served self) {f : Member → Member} (hf : Preserves f) :
    Served self { v with members := v.members.map f } :=
  fun x hx hne hp => hs x hx hne ((passed_change hf x).1 hp)

/-! ### Discoveries -/

/-- The first discovery: no one has an alert yet. -/
theorem Sound.bootstrap (h : v.Sound) {inst : Instance} (hmembers : v.members = inst.members) (hc : v.cursor = none) :
    Sound { v with cursor := inst.listed.head?.bind AdminAccount.createdAt, latest := inst.listed.map AdminAccount.id } := by
  have hnone : ∀ x, ¬ v.Passed x := by
    rintro x ⟨m, -, -, c, hc', -⟩
    exact absurd (hc.symm.trans hc') (by simp)
  refine ⟨h.ids, h.sorted, h.alerted, fun _ => h.fresh hc, fun x hx => absurd (h.records x hx) (hnone x),
    fun x hx => absurd (h.welcomed x hx) (hnone x), h.once, fun x hx => ?_⟩
  obtain ⟨a, ha, rfl⟩ := List.mem_map.1 hx
  obtain ⟨newest, older, heq⟩ := List.exists_cons_of_ne_nil (List.ne_nil_of_mem ha)
  obtain ⟨m, hm, hact, rfl⟩ := mem_listed.1 ha
  obtain ⟨n, -, -, rfl⟩ := mem_listed.1 (show newest ∈ inst.listed by rw [heq]; exact List.mem_cons_self)
  refine ⟨m, hmembers ▸ hm, rfl, n.created, ?_, created_le_newest (hmembers ▸ h.sorted) heq hm hact⟩
  show inst.listed.head?.bind AdminAccount.createdAt = some n.created
  rw [heq]
  rfl

theorem Served.bootstrap {self : AccountId} (h : v.Sound) (hc : v.cursor = none) {cursor : Option Time}
    {latest : List AccountId} : Served self { v with cursor := cursor, latest := latest } :=
  fun x hx => absurd hx (h.fresh hc x)

/-- What a discovery gets is ahead of its cursor. -/
theorem Sound.ahead_of_news (h : v.Sound) {inst : Instance} (hmembers : v.members = inst.members) {c : Time}
    (hc : v.cursor = some c) {x : AccountId} (hx : x ∈ (inst.news c).map AdminAccount.id) : ¬ v.Passed x := by
  obtain ⟨a, ha, rfl⟩ := List.mem_map.1 hx
  obtain ⟨m, hm, -, rfl, hlt⟩ := mem_news ha
  exact h.not_passed (hmembers ▸ hm) hc hlt

theorem active_of_news {inst : Instance} {c : Time} {x : AccountId} (hx : x ∈ (inst.news c).map AdminAccount.id) :
    ∃ m ∈ inst.members, m.id = x ∧ m.active = true := by
  obtain ⟨a, ha, rfl⟩ := List.mem_map.1 hx
  obtain ⟨m, hm, hact, rfl, -⟩ := mem_news ha
  exact ⟨m, hm, rfl, hact⟩

/-- A discovery alerts on accounts it got. -/
theorem Sound.alert (h : v.Sound) {inst : Instance} (hmembers : v.members = inst.members) {c : Time} (hc : v.cursor = some c)
    {alerted : AccountId → Prop} (hnew : ∀ x, alerted x → v.alerted x ∨ x ∈ (inst.news c).map AdminAccount.id) :
    Sound { v with alerted := alerted } := by
  refine ⟨h.ids, h.sorted, fun x hx => ?_, fun hnone => absurd (hnone.symm.trans hc) (by simp), h.records, h.welcomed,
    h.once, h.latest⟩
  rcases hnew x hx with hx | hx
  · exact h.alerted x hx
  · exact hmembers ▸ active_of_news hx

theorem Served.alert {self : AccountId} (hs : v.Served self) (h : v.Sound) {inst : Instance}
    (hmembers : v.members = inst.members) {c : Time} (hc : v.cursor = some c) {alerted : AccountId → Prop}
    (hnew : ∀ x, alerted x → v.alerted x ∨ x ∈ (inst.news c).map AdminAccount.id) :
    Served self { v with alerted := alerted } := by
  intro x hx hne hp
  rcases hnew x hx with hx | hx
  · exact hs x hx hne hp
  · exact absurd hp (h.ahead_of_news hmembers hc hx)

/-- A completed discovery with its welcomes. -/
theorem Sound.complete (h : v.Sound) {inst : Instance} (hmembers : v.members = inst.members) {c : Time}
    (hc : v.cursor = some c) {records welcomed : List AccountId}
    (hrecords : records ⊆ (inst.news c).map AdminAccount.id) (hwelcomed : welcomed ⊆ (inst.news c).map AdminAccount.id)
    (hnodup : welcomed.Nodup) :
    Sound { v with
      cursor := some (cursorAfterNews c (inst.news c))
      records := v.records ++ records
      welcomed := v.welcomed ++ welcomed
      latest := inst.listed.map AdminAccount.id } := by
  obtain ⟨hle, hnews⟩ := le_cursorAfterNews (hmembers ▸ h.sorted) c
  have hstay : ∀ x, v.Passed x → ∃ m ∈ v.members, m.id = x ∧ Reached (some (cursorAfterNews c (inst.news c))) m.created := by
    rintro x ⟨m, hm, hid, c', hc', hreached⟩
    obtain rfl : c = c' := Option.some.inj (hc.symm.trans hc')
    exact ⟨m, hm, hid, _, rfl, Int.le_trans hreached hle⟩
  have hnew : ∀ x ∈ (inst.news c).map AdminAccount.id,
      ∃ m ∈ v.members, m.id = x ∧ Reached (some (cursorAfterNews c (inst.news c))) m.created := by
    intro x hx
    obtain ⟨a, ha, rfl⟩ := List.mem_map.1 hx
    obtain ⟨m, hm, -, rfl, -⟩ := mem_news ha
    exact ⟨m, hmembers ▸ hm, rfl, _, rfl, hnews m hm ha⟩
  refine ⟨h.ids, h.sorted, h.alerted, fun hnone => (Option.some_ne_none _ hnone).elim, fun x hx => ?_, fun x hx => ?_, ?_,
    fun x hx => ?_⟩
  · exact (List.mem_append.1 hx).elim (fun hx => hstay x (h.records x hx)) fun hx => hnew x (hrecords hx)
  · exact (List.mem_append.1 hx).elim (fun hx => hstay x (h.welcomed x hx)) fun hx => hnew x (hwelcomed hx)
  · refine List.nodup_append.2 ⟨h.once, hnodup, fun x hx y hy heq => ?_⟩
    exact h.ahead_of_news hmembers hc (hwelcomed hy) (heq ▸ h.welcomed x hx)
  · obtain ⟨a, ha, rfl⟩ := List.mem_map.1 hx
    obtain ⟨m, hm, hact, rfl⟩ := mem_listed.1 ha
    exact ⟨m, hmembers ▸ hm, rfl, _, rfl, created_le_cursorAfterNews (hmembers ▸ h.sorted) c hm hact⟩

/-- It serves everyone if it gets all that an earlier one alerted on and welcomes whom it gets. -/
theorem Served.complete {self : AccountId} (hs : v.Served self) {inst : Instance} {c : Time} (hc : v.cursor = some c)
    {alerted : AccountId → Prop} (hnew : ∀ x, alerted x → v.alerted x ∨ x ∈ (inst.news c).map AdminAccount.id)
    (hwait : ∀ m ∈ v.members, v.alerted m.id → c < m.created → m.id ∈ (inst.news c).map AdminAccount.id)
    {welcomed : List AccountId} (hsent : ∀ x ∈ (inst.news c).map AdminAccount.id, x ≠ self → x ∈ welcomed)
    {cursor : Option Time} {records latest : List AccountId} :
    Served self ⟨v.members, cursor, alerted, records, v.welcomed ++ welcomed, latest⟩ := by
  rintro x hx hne ⟨m, hm, rfl, -⟩
  rcases hnew _ hx with hx | hx
  · rcases Int.lt_or_le c m.created with hlt | hle
    · exact List.mem_append_right _ (hsent _ (hwait m hm hx hlt) hne)
    · exact List.mem_append_left _ (hs _ hx hne ⟨m, hm, rfl, c, hc, hle⟩)
  · exact List.mem_append_right _ (hsent _ hx hne)

end WelcomeView

/-! ### The steps of the system -/

theorem bootstrapped_eq_false {now clock : Time} {client : Client} {settings : WatchSettings} {db : Db} {c : Time}
    (hc : db.newAccountCursor = some c) : (discoverNewAccounts now clock client settings db).bootstrapped = false := by
  unfold discoverNewAccounts
  rw [hc]
  split
  · rfl
  · dsimp only
    unfold discoverSince
    split
    · rfl
    · rfl
    · dsimp only
      split <;> rfl

theorem news_ids_nodup {inst : Instance} (hids : (inst.members.map Member.id).Nodup) (c : Time) :
    ((inst.news c).map AdminAccount.id).Nodup := by
  have hlisted : inst.listed.map AdminAccount.id = (inst.members.filter Member.active).map Member.id := by
    simp [Instance.listed, Member.toAdmin, Function.comp_def]
  have hsub : (inst.news c).Sublist inst.listed := List.filter_sublist.trans (List.take_sublist _ _)
  refine List.Nodup.sublist (hsub.map AdminAccount.id) ?_
  rw [hlisted]
  exact hids.sublist (List.filter_sublist.map Member.id)

theorem alerted_of_raised {m : Marks Subject} {accounts : List AdminAccount} {x : AccountId}
    (hx : .signup x ∈ (m.raiseAll (signups accounts)).raised) : .signup x ∈ m.raised ∨ x ∈ accounts.map AdminAccount.id := by
  refine (Marks.mem_raised_raiseAll.1 hx).imp_right fun hnew => ?_
  obtain ⟨a, ha, heq⟩ := List.mem_map.1 hnew.1
  injection heq with _ hid _
  exact hid ▸ List.mem_map_of_mem ha

/-- The two steps about new accounts do nothing, set the first cursor, alert on accounts without moving the cursor, or
complete. -/
theorem welcomeView_newAccounts {w w' : World} (h : w.welcomeView.Sound) {now clock : Time} {t : Trouble} {bot : Option Bot}
    (hstep : step w (.newAccounts now clock t bot) = some w') :
    w'.welcomeView = w.welcomeView ∨
    (w.db.newAccountCursor = none ∧ w'.welcomeView = { w.welcomeView with
      cursor := w.inst.listed.head?.bind AdminAccount.createdAt, latest := w.inst.listed.map AdminAccount.id }) ∨
    ∃ c alerted, w.db.newAccountCursor = some c ∧
      (∀ x, alerted x → w.welcomeView.alerted x ∨ x ∈ (w.inst.news c).map AdminAccount.id) ∧
      (w'.welcomeView = { w.welcomeView with alerted := alerted } ∨
        t.error = none ∧ (t.interrupt = none ∨ w.inst.news c = []) ∧ ∃ records welcomed,
          w'.welcomeView = ⟨w.inst.members, some (cursorAfterNews c (w.inst.news c)), alerted, w.db.welcomes ++ records,
            w.db.welcomed ++ welcomed, w.inst.listed.map AdminAccount.id⟩ ∧
          records ⊆ (w.inst.news c).map AdminAccount.id ∧ welcomed ⊆ (w.inst.news c).map AdminAccount.id ∧
          welcomed.Nodup ∧
          ∀ b, bot = some b → (∀ a ∈ b.due (w.inst.news c), b.sending a.id = .sent) →
            (b.due (w.inst.news c)).length ≤ maxWelcomesPerRun → ∀ a ∈ b.due (w.inst.news c), a.id ∈ welcomed) := by
  obtain ⟨hsignup, hdiscovered⟩ := signupView_newAccounts hstep
  obtain ⟨xs, ys, hsent, hxs, hys, hnodup⟩ := newAccountsStep_adds now clock (w.inst.client t) bot w.settings w.db
  generalize hd : discoverNewAccounts now clock (w.inst.client t) w.settings w.db = d at hsignup hdiscovered hxs hys hnodup
  have hdb : w'.db.sent = (w.db.welcomes ++ xs, w.db.welcomed ++ ys) := by
    rw [← hsent, ← Option.some.inj hstep]
    split
    · rfl
    · rfl
  have hlatest : w'.welcomeView.latest =
      if t.error.isNone && !d.aborted then w.inst.listed.map AdminAccount.id else w.welcomeView.latest := by
    unfold World.welcomeView
    dsimp only
    rw [hdiscovered]
    cases t.error.isNone && !d.aborted with
    | true => cases w.discovered with
      | none => rfl
      | some seen => rfl
    | false => rfl
  -- the view after the step, from its parts
  have hview : w'.welcomeView = ⟨w.inst.members, d.db.newAccountCursor, fun x => .signup x ∈ d.db.marks.raised,
      w.db.welcomes ++ xs, w.db.welcomed ++ ys,
      if t.error.isNone && !d.aborted then w.inst.listed.map AdminAccount.id else w.welcomeView.latest⟩ := by
    rw [← hlatest]
    have hmembers : w'.inst.members = w.inst.members := congrArg SignupView.members hsignup
    have hcursor : w'.db.newAccountCursor = d.db.newAccountCursor := congrArg SignupView.cursor hsignup
    have hmarks : w'.db.marks = d.db.marks := congrArg SignupView.marks hsignup
    obtain ⟨hrecords, hwelcomed⟩ := Prod.mk.inj hdb
    unfold World.welcomeView
    rw [hmembers, hcursor, hmarks, hrecords, hwelcomed]
  have hempty : d.newAccounts = [] → xs = [] ∧ ys = [] := by
    intro hnil
    rw [hnil] at hxs hys
    exact ⟨List.eq_nil_of_subset_nil hxs, List.eq_nil_of_subset_nil hys⟩
  have hperm : ∀ c, ((w.inst.news c).reverse.map AdminAccount.id).Perm ((w.inst.news c).map AdminAccount.id) := fun c =>
    (List.reverse_perm _).map AdminAccount.id
  have hids : ∀ c, ((w.inst.news c).reverse.map AdminAccount.id).Nodup := fun c =>
    (hperm c).nodup_iff.2 (news_ids_nodup h.ids c)
  rcases hd ▸ discoverNewAccounts_cases now clock t w.settings w.db h.sorted with ⟨herr, hdb', hnil⟩ |
    ⟨herr, hnone, hab, hnil, hdb'⟩ | ⟨c, herr, hc, ⟨hab, hnil, handled, hdb'⟩ | ⟨hab, hnews, hdb', hends⟩⟩
  · obtain ⟨rfl, rfl⟩ := hempty hnil
    obtain ⟨e, he⟩ := Option.ne_none_iff_exists'.1 herr
    left
    rw [hview, hdb', he]
    simp [World.welcomeView]
  · obtain ⟨rfl, rfl⟩ := hempty hnil
    refine Or.inr (Or.inl ⟨hnone, ?_⟩)
    rw [hview, hdb', herr, hab]
    simp [World.welcomeView, Db.marks]
  · obtain ⟨rfl, rfl⟩ := hempty hnil
    refine Or.inr (Or.inr ⟨c, fun x => .signup x ∈ d.db.marks.raised, hc, fun x hx => ?_, Or.inl ?_⟩)
    · rw [hdb', discoverAccounts_marks] at hx
      refine (alerted_of_raised hx).imp_right fun hmem => (hperm c).subset ?_
      exact ((List.take_sublist handled _).map AdminAccount.id).subset hmem
    · rw [hview, herr, hab, hdb', discoverAccounts_cursor]
      simp [World.welcomeView]
  · refine Or.inr (Or.inr ⟨c, fun x => .signup x ∈ d.db.marks.raised, hc, fun x hx => ?_, Or.inr ⟨herr, hends, xs, ys, ?_⟩⟩)
    · have hx : .signup x ∈ (w.db.marks.raiseAll (signups (w.inst.news c).reverse)).raised := by
        rw [← discoverAccounts_marks now clock w.settings]
        rw [hdb'] at hx
        exact hx
      exact (alerted_of_raised hx).imp_right fun hmem => (hperm c).subset hmem
    · rw [hnews] at hxs hys hnodup
      refine ⟨?_, fun x hx => (hperm c).subset (hxs hx), fun x hx => (hperm c).subset (hys hx),
        hnodup (hids c), fun b hb hall hcap a ha => ?_⟩
      · rw [hview, herr, hab, hdb']
        rfl
      · subst hb
        have hdue : (b.due (w.inst.news c).reverse).Perm (b.due (w.inst.news c)) := (List.reverse_perm _).filter _
        have hnot : ∀ {l : List AccountId}, (∀ x ∈ l, w.welcomeView.Passed x) → ∀ a ∈ (w.inst.news c).reverse, a.id ∉ l :=
          fun hl a ha hmem => h.ahead_of_news rfl hc (List.mem_map_of_mem (List.mem_reverse.1 ha)) (hl a.id hmem)
        have hin := newAccountsStep_sends hd hab (hd ▸ bootstrapped_eq_false hc) (hnews ▸ hids c)
          (hnews ▸ hnot h.records) (hnews ▸ fun a ha => hall a (hdue.mem_iff.1 ha)) (hnews ▸ hdue.length_eq ▸ hcap) a
          (hnews ▸ hdue.mem_iff.2 ha)
        rw [show _ = w.db.welcomed ++ ys from (Prod.mk.inj hsent).2] at hin
        exact (List.mem_append.1 hin).resolve_left (hnot h.welcomed a (List.mem_reverse.2 (List.mem_filter.1 ha).1))

theorem alerted_raiseOther {m : Marks Subject} {xs : List Subject} (hxs : ∀ a, .signup a ∉ xs) :
    (fun x => .signup x ∈ (m.raiseAll xs).raised) = fun x => .signup x ∈ m.raised :=
  funext fun x => propext
    ⟨fun hx => (Marks.mem_raised_raiseAll.1 hx).resolve_right fun hnew => hxs x hnew.1,
      fun hx => Marks.mem_raised_raiseAll.2 (Or.inl hx)⟩

/-- Any other step registers a member, changes members, or leaves everything. -/
theorem welcomeView_step {w w' : World} {e : Event} (hstep : step w e = some w') :
    (∃ now clock t bot, e = .newAccounts now clock t bot) ∨
    (∃ m, (∀ x ∈ w.inst.members, x.id ≠ m.id ∧ x.created ≤ m.created) ∧
      w'.welcomeView = { w.welcomeView with members := m :: w.inst.members }) ∨
    (∃ f, Preserves f ∧ w'.welcomeView = { w.welcomeView with members := w.inst.members.map f }) ∨
    w'.welcomeView = w.welcomeView := by
  cases step_members hstep with
  | register m hnew => exact Or.inr (Or.inl ⟨m, hnew, rfl⟩)
  | approve id => exact Or.inr (Or.inr (Or.inl ⟨_, preserves_at preserves_approve id, rfl⟩))
  | activity id lastLoginAt statusesCount =>
    exact Or.inr (Or.inr (Or.inl ⟨_, preserves_at (preserves_activity lastLoginAt statusesCount) id, rfl⟩))
  | prune now => exact Or.inr (Or.inr (Or.inr rfl))
  | newAccounts now clock t bot => exact Or.inl ⟨now, clock, t, bot, rfl⟩
  | aside haside =>
    obtain ⟨xs, hm, hxs⟩ := haside.raises
    obtain ⟨hrecords, hwelcomed⟩ := Prod.mk.inj haside.sent
    refine Or.inr (Or.inr (Or.inr ?_))
    unfold World.welcomeView
    rw [haside.members, haside.cursor, haside.discovered, hm, alerted_raiseOther hxs, hrecords, hwelcomed]

theorem welcomes_sound_step {w w' : World} {e : Event} (h : w.welcomeView.Sound) (hstep : step w e = some w') :
    w'.welcomeView.Sound := by
  rcases welcomeView_step hstep with ⟨now, clock, t, bot, rfl⟩ | ⟨m, hnew, hview⟩ | ⟨f, hf, hview⟩ | hview
  · rcases welcomeView_newAccounts h hstep with hview | ⟨hnone, hview⟩ |
      ⟨c, alerted, hc, hnew, hview | ⟨-, -, records, welcomed, hview, hr, hw, hnodup, -⟩⟩
    · rw [hview]
      exact h
    · rw [hview]
      exact h.bootstrap rfl hnone
    · rw [hview]
      exact h.alert rfl hc hnew
    · rw [hview]
      exact (h.alert rfl hc hnew).complete rfl hc hr hw hnodup
  · rw [hview]
    exact h.register hnew
  · rw [hview]
    exact h.change hf
  · rw [hview]
    exact h

theorem welcomes_sound_init {w : World} (h : system.init w) : w.welcomeView.Sound := by
  obtain ⟨hdb, hmembers, -, hd⟩ := h
  unfold World.welcomeView
  rw [hdb, hmembers, hd]
  exact ⟨List.nodup_nil, List.Pairwise.nil, fun _ hx => absurd hx List.not_mem_nil, fun _ _ hx => absurd hx List.not_mem_nil,
    fun _ hx => absurd hx List.not_mem_nil, fun _ hx => absurd hx List.not_mem_nil, List.nodup_nil,
    fun _ hx => absurd hx List.not_mem_nil⟩

/-! ### Runs -/

/-- The condition on completed discoveries, for a bot with the given account: the discovery gets every account ahead of its
cursor that an interrupted one alerted on; if it gets accounts, then welcomes are on, those that are due fit under the cap,
and the sending to each of them succeeds. -/
def WelcomesOk (self : AccountId) (w : World) : Event → Prop
  | .newAccounts _ _ t bot => t.completes = true → ∀ c, w.db.newAccountCursor = some c →
      (∀ m ∈ w.inst.members, .signup m.id ∈ w.db.marks.raised → c < m.created →
        m.id ∈ (w.inst.news c).map AdminAccount.id) ∧
      (w.inst.news c ≠ [] → ∃ b, bot = some b ∧ (∀ x, b.verify = some x → x = self) ∧
        (b.due (w.inst.news c)).length ≤ maxWelcomesPerRun ∧ ∀ a ∈ b.due (w.inst.news c), b.sending a.id = .sent)
  | _ => True

theorem served_step {self : AccountId} {w w' : World} {e : Event} (h : w.welcomeView.Sound)
    (hs : w.welcomeView.Served self) (hok : WelcomesOk self w e) (hstep : step w e = some w') :
    w'.welcomeView.Served self := by
  rcases welcomeView_step hstep with ⟨now, clock, t, bot, rfl⟩ | ⟨m, hnew, hview⟩ | ⟨f, hf, hview⟩ | hview
  · rcases welcomeView_newAccounts h hstep with hview | ⟨hnone, hview⟩ |
      ⟨c, alerted, hc, hnew, hview | ⟨herr, hends, records, welcomed, hview, -, -, -, hsends⟩⟩
    · rw [hview]
      exact hs
    · rw [hview]
      exact WelcomeView.Served.bootstrap h hnone
    · rw [hview]
      exact hs.alert h rfl hc hnew
    · rw [hview]
      by_cases hnil : w.inst.news c = []
      · -- nothing new: every visible member is behind the cursor, so nobody waits
        refine hs.complete hc hnew (fun m hm hal hlt => ?_) fun x hx => ?_
        · obtain ⟨n, hn, hid, hact⟩ := h.alerted m.id hal
          obtain rfl := eq_of_id_eq Member.id h.ids hn hm hid
          have hle := created_le_cursorAfterNews h.sorted c hm hact
          rw [hnil] at hle
          exact absurd hle (Int.not_le.2 hlt)
        · rw [hnil] at hx
          exact absurd hx List.not_mem_nil
      · have hdone : t.completes = true := by
          unfold Trouble.completes
          rw [herr, hends.resolve_right hnil]
          rfl
        obtain ⟨hwait, hbot⟩ := hok hdone c hc
        obtain ⟨b, rfl, hself, hcap, hall⟩ := hbot hnil
        refine hs.complete hc hnew hwait fun x hx hne => ?_
        obtain ⟨a, ha, rfl⟩ := List.mem_map.1 hx
        refine hsends b rfl hall hcap a (List.mem_filter.2 ⟨ha, ?_⟩)
        exact decide_eq_true fun hv => hne (hself _ hv)
  · rw [hview]
    exact hs.register h hnew
  · rw [hview]
    exact hs.change hf
  · rw [hview]
    exact hs

/-- In every run that meets `WelcomesOk`: every account with an alert that was listed at the latest completed discovery has
got exactly one welcome, the bot's own account excepted; and every account with an alert is listed, so that the next
completed discovery has it. -/
theorem alerted_accounts_welcomed {self : AccountId} {w : World} (h : system.Reach (WelcomesOk self) w)
    {first latest : List AccountId} (hd : w.discovered = some (first, latest)) :
    (∀ x ∈ latest, .signup x ∈ w.db.marks.raised → x ≠ self → w.db.welcomed.count x = 1) ∧
      ∀ x, .signup x ∈ w.db.marks.raised → x ∈ w.inst.listed.map AdminAccount.id := by
  obtain ⟨hsound, hserved⟩ : w.welcomeView.Sound ∧ w.welcomeView.Served self := by
    refine h.invariant (I := fun w => w.welcomeView.Sound ∧ w.welcomeView.Served self)
      (fun s hs => ⟨welcomes_sound_init hs, fun x hx => absurd hx ((welcomes_sound_init hs).fresh ?_ x)⟩)
      fun s e s' hi hok hst => ⟨welcomes_sound_step hi.1 hst, served_step hi.1 hi.2 hok hst⟩
    show s.db.newAccountCursor = none
    rw [show s.db = {} from hs.1]
  constructor
  · intro x hx hal hne
    have hlatest : x ∈ w.welcomeView.latest := by
      unfold World.welcomeView
      rw [hd]
      exact hx
    exact List.count_eq_one_of_mem hsound.once (hserved x hal hne (hsound.latest x hlatest))
  · intro x hal
    obtain ⟨m, hm, rfl, hact⟩ := hsound.alerted x hal
    exact List.mem_map.2 ⟨m.toAdmin, mem_listed.2 ⟨m, hm, hact, rfl⟩, rfl⟩

/-! ### Accounts passed over -/

/-- An account that the cursor has reached without a welcome stays so. -/
theorem passed_step {w w' : World} {e : Event} (h : w.welcomeView.Sound) {x : AccountId} (hp : w.welcomeView.Passed x)
    (hnot : x ∉ w.db.welcomed) (hstep : step w e = some w') : w'.welcomeView.Passed x ∧ x ∉ w'.db.welcomed := by
  have hof : ∀ {v : WelcomeView}, w'.welcomeView = v → v.Passed x → x ∉ v.welcomed →
      w'.welcomeView.Passed x ∧ x ∉ w'.db.welcomed := by
    rintro _ rfl hp hnot
    exact ⟨hp, hnot⟩
  obtain ⟨m, hm, hid, c', hc', hle⟩ := hp
  rcases welcomeView_step hstep with ⟨now, clock, t, bot, rfl⟩ | ⟨n, -, hview⟩ | ⟨f, hf, hview⟩ | hview
  · rcases welcomeView_newAccounts h hstep with hview | ⟨hnone, -⟩ |
      ⟨c, alerted, hc, -, hview | ⟨-, -, records, welcomed, hview, -, hw, -⟩⟩
    · exact hof hview ⟨m, hm, hid, c', hc', hle⟩ hnot
    · exact absurd (hnone.symm.trans hc') (by simp)
    · exact hof hview ⟨m, hm, hid, c', hc', hle⟩ hnot
    · obtain rfl : c = c' := Option.some.inj (hc.symm.trans hc')
      refine hof hview ⟨m, hm, hid, _, rfl, Int.le_trans hle (le_cursorAfterNews h.sorted c).1⟩ fun hmem => ?_
      exact (List.mem_append.1 hmem).elim hnot fun hx =>
        h.ahead_of_news rfl hc (hw hx) ⟨m, hm, hid, c, hc', hle⟩
  · exact hof hview ⟨m, List.mem_cons_of_mem _ hm, hid, c', hc', hle⟩ hnot
  · exact hof hview ((WelcomeView.passed_change hf x).2 ⟨m, hm, hid, c', hc', hle⟩) hnot
  · exact hof hview ⟨m, hm, hid, c', hc', hle⟩ hnot

/-- The account has an alert, and no run from here on welcomes it. -/
def World.Forsaken (w : World) (x : AccountId) : Prop :=
  .signup x ∈ w.db.marks.raised ∧ ∀ events w', system.exec w events = some w' → x ∉ w'.db.welcomed

/-- An account with an alert that the cursor has reached without a welcome is never welcomed. -/
theorem forsaken_of_passed {w : World} (h : w.welcomeView.Sound) {x : AccountId} (hal : .signup x ∈ w.db.marks.raised)
    (hp : w.welcomeView.Passed x) (hnot : x ∉ w.db.welcomed) : w.Forsaken x := by
  refine ⟨hal, fun events => ?_⟩
  clear hal
  induction events generalizing w with
  | nil =>
    rintro w' he
    obtain rfl := Option.some.inj he
    exact hnot
  | cons e events ih =>
    intro w' he
    rw [System.exec, Option.bind_eq_some_iff] at he
    obtain ⟨w₁, hstep, he⟩ := he
    obtain ⟨hp, hnot⟩ := passed_step h hp hnot hstep
    exact ih (welcomes_sound_step h hstep) hp hnot w' he

def newcomer (id : AccountId) (created : Time) : Event :=
  .register { id := id, acct := [], created := created, active := true }

/-- A poll with a bot whose sendings all end in the given way. -/
def welcoming (sending : Sending) : Event := .newAccounts 0 0 {} (some { verify := some 100, sending := fun _ => sending })

/-- The bot's account, a first discovery, the given number of new accounts, and a poll that alerts on them. -/
def welcomeRun (newcomers : Nat) (sending : Sending) : List Event :=
  [newcomer 100 0, welcoming sending] ++ (List.range newcomers).map (fun i => newcomer (i + 1) (i + 1)) ++
    [welcoming sending]

/-- The run leaves the account with an alert and without a welcome, for good. -/
def Forsakes (events : List Event) (x : AccountId) : Prop :=
  ∃ w, system.Reachable w ∧ system.exec {} events = some w ∧ w.Forsaken x

theorem forsakes_of_exec {events : List Event} {x : AccountId} (h : (system.exec {} events).map (fun w =>
    (decide (.signup x ∈ w.db.marks.raised), decide (x ∈ w.db.welcomed),
      w.db.newAccountCursor.any fun c => w.inst.members.any fun m => m.id = x && decide (m.created ≤ c))) =
    some (true, false, true)) : Forsakes events x := by
  obtain ⟨w, hw, hcheck⟩ := Option.map_eq_some_iff.1 h
  simp only [Prod.mk.injEq] at hcheck
  obtain ⟨hal, hnot, hp⟩ := hcheck
  have hreach : system.Reachable w := System.reachable_of_exec ⟨rfl, rfl, fun _ => rfl, rfl⟩ hw
  have hsound : w.welcomeView.Sound := hreach.invariant (fun _ => welcomes_sound_init) fun _ _ _ hi _ => welcomes_sound_step hi
  refine ⟨w, hreach, hw, forsaken_of_passed hsound (of_decide_eq_true hal) ?_ (of_decide_eq_false hnot)⟩
  obtain ⟨c, hc, hany⟩ := (Option.any_eq_true _ _).1 hp
  obtain ⟨m, hm, hboth⟩ := List.any_eq_true.1 hany
  obtain ⟨hid, hle⟩ := Bool.and_eq_true_iff.1 hboth
  exact ⟨m, hm, of_decide_eq_true hid, c, hc, of_decide_eq_true hle⟩

/-- The twenty-first account of a poll, one that the rate budget stops at, and one whose message fails. -/
theorem accounts_forsaken :
    Forsakes (welcomeRun 21 .sent) 21 ∧ Forsakes (welcomeRun 1 .noBudget) 1 ∧ Forsakes (welcomeRun 1 .failed) 1 := by
  refine ⟨forsakes_of_exec ?_, forsakes_of_exec ?_, forsakes_of_exec ?_⟩
  · decide +kernel
  · decide +kernel
  · decide +kernel

/-- One new account, and a bot that reaches it. -/
theorem new_account_welcomed : ∃ w, system.Reach (WelcomesOk 100) w ∧ w.db.welcomed.count 1 = 1 := by
  have r0 : system.Reach (WelcomesOk 100) {} := .init ⟨rfl, rfl, fun _ => rfl, rfl⟩
  have r1 := r0.next (newcomer 100 0) trivial rfl
  have r2 := r1.next (welcoming .sent) (fun _ c hc => by cases hc) rfl
  have r3 := r2.next (newcomer 1 1) trivial rfl
  have r4 := r3.next (welcoming .sent) (fun _ c hc => by
    obtain rfl : (0 : Int) = c := Option.some.inj hc
    refine ⟨fun _ _ hr => absurd hr List.not_mem_nil, fun _ => ⟨_, rfl, fun x hx => (Option.some.inj hx).symm, ?_, ?_⟩⟩
    · decide
    · exact fun _ _ => rfl) rfl
  exact ⟨_, r4, (@alerted_accounts_welcomed 100 _ r4 [100] [1, 100] rfl).1 1 (by decide) (by decide +kernel) (by decide)⟩

end ProxmoxTool.Moderation
