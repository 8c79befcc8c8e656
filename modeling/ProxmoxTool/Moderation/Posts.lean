import ProxmoxTool.Moderation.World

/-!
# Alerts on posts are raised once

`PostView` is what matters for the alerts on posts: the statuses of the accounts, the places of the watches and the marks.  A
post is behind if every watch on its account has read past it.  `PostView.Sound` says that an alert that was raised stands or
is about a post behind; it is kept by everything the steps of a poll do, as long as no alert on a post is pruned that some
watch has not read past (`PostView.Forgets`).
-/

namespace ProxmoxTool.Moderation

structure PostView where
  timeline : AccountId → List Status
  places : List Place
  marks : Marks Subject

def World.postView (w : World) : PostView := ⟨w.inst.timeline, w.db.places, w.db.marks⟩

/-- Every watch on the account has read past the status. -/
def Behind (places : List Place) (account : AccountId) (s : StatusId) : Prop :=
  ∀ p ∈ places, p.account = account → ∀ c, p.cursor = some c → s ≤ c

namespace PostView

structure Sound (v : PostView) : Prop where
  ids : (v.places.map Place.id).Nodup
  accounts : (v.places.map Place.account).Nodup
  sorted : ∀ a, (v.timeline a).Pairwise fun x y => y.id < x.id
  known : ∀ a s, .post a s ∈ v.marks.raised → ∃ x ∈ v.timeline a, x.id = s
  marked : ∀ a s, .post a s ∈ v.marks.standing → .post a s ∈ v.marks.raised
  read : ∀ p ∈ v.places, ∀ c, p.cursor = some c → ∃ x ∈ v.timeline p.account, x.id = c
  once : ∀ a s, Marks.Once (Behind v.places a s) v.marks (.post a s)

/-- No alert on a post that some watch has not read past loses its mark. -/
def Forgets (v : PostView) (places : List Place) (standing : List Subject) : Prop :=
  ∀ a s, .post a s ∈ v.marks.standing → .post a s ∉ standing → Behind places a s

variable {v : PostView}

theorem Sound.eq_of_id (h : v.Sound) {p q : Place} (hp : p ∈ v.places) (hq : q ∈ v.places) (hid : p.id = q.id) : p = q :=
  eq_of_id_eq Place.id h.ids hp hq hid

theorem Sound.eq_of_account (h : v.Sound) {p q : Place} (hp : p ∈ v.places) (hq : q ∈ v.places)
    (ha : p.account = q.account) : p = q :=
  eq_of_id_eq Place.account h.accounts hp hq ha

/-- The newest status has the largest id. -/
theorem Sound.le_newest (h : v.Sound) {a : AccountId} {newest : Status} {older : List Status}
    (ht : v.timeline a = newest :: older) {x : Status} (hx : x ∈ v.timeline a) : x.id ≤ newest.id := by
  have hsorted := h.sorted a
  rw [ht] at hx hsorted
  rcases List.mem_cons.1 hx with rfl | hx
  · exact Nat.le_refl _
  · exact Nat.le_of_lt ((List.pairwise_cons.1 hsorted).1 x hx)

/-! ### What keeps it -/

/-- A new status. -/
theorem Sound.post (h : v.Sound) {account : AccountId} {s : Status} (hs : ∀ x ∈ v.timeline account, x.id < s.id) :
    Sound { v with timeline := fun a => if a = account then s :: v.timeline a else v.timeline a } := by
  have hgrows : ∀ a, ∀ x ∈ v.timeline a, x ∈ if a = account then s :: v.timeline a else v.timeline a := by
    intro a x hx
    split
    · exact List.mem_cons_of_mem _ hx
    · exact hx
  refine ⟨h.ids, h.accounts, fun a => ?_, fun a x hx => ?_, h.marked, fun p hp c hc => ?_, h.once⟩
  · dsimp only
    split
    · rename_i ha
      subst ha
      exact List.pairwise_cons.2 ⟨hs, h.sorted a⟩
    · exact h.sorted a
  · obtain ⟨y, hy, hid⟩ := h.known a x hx
    exact ⟨y, hgrows a y hy, hid⟩
  · obtain ⟨y, hy, hid⟩ := h.read p hp c hc
    exact ⟨y, hgrows _ y hy, hid⟩

/-- Watches that go, and alerts that are forgotten. -/
theorem Sound.forget (h : v.Sound) {places : List Place} {standing : List Subject} (hp : places.Sublist v.places)
    (hs : standing ⊆ v.marks.standing) (hf : v.Forgets places standing) :
    Sound { v with places := places, marks := ⟨standing, v.marks.raised⟩ } := by
  have hbehind : ∀ {a s}, Behind v.places a s → Behind places a s := fun hb p hp' => hb p (hp.subset hp')
  refine ⟨h.ids.sublist (hp.map _), h.accounts.sublist (hp.map _), h.sorted, h.known, fun a s hm => h.marked a s (hs hm),
    fun p hp' => h.read p (hp.subset hp'), fun a s => ?_⟩
  refine ((h.once a s).mono hbehind).forget fun hm => ?_
  by_cases hstay : Subject.post a s ∈ standing
  · exact Or.inl hstay
  · exact Or.inr (hf a s hm hstay)

theorem Sound.remove (h : v.Sound) {places : List Place} (hp : places.Sublist v.places) :
    Sound { v with places := places } :=
  h.forget hp (List.Subset.refl _) fun _ _ hm hnot => absurd hm hnot

/-- Raising alerts of another kind. -/
theorem Sound.raiseOther (h : v.Sound) {xs : List Subject} (hxs : ∀ a s, .post a s ∉ xs) :
    Sound { v with marks := v.marks.raiseAll xs } := by
  refine ⟨h.ids, h.accounts, h.sorted, fun a s hm => ?_, fun a s hm => ?_, h.read, fun a s => ?_⟩
  · rcases Marks.mem_raised_raiseAll.1 hm with hm | hm
    · exact h.known a s hm
    · exact absurd hm.1 (hxs a s)
  · rcases Marks.mem_standing_raiseAll.1 hm with hm | hm
    · exact Marks.mem_raised_raiseAll.2 (Or.inl (h.marked a s hm))
    · exact absurd hm (hxs a s)
  · exact (h.once a s).raiseAll fun hx => absurd hx (hxs a s)

/-- A new watch that has no cursor or starts at the newest status. -/
theorem Sound.add (h : v.Sound) {p : Place} (hid : p.id ∉ v.places.map Place.id)
    (hacc : p.account ∉ v.places.map Place.account)
    (hcur : ∀ c, p.cursor = some c → ∃ newest older, v.timeline p.account = newest :: older ∧ newest.id = c) :
    Sound { v with places := v.places ++ [p] } := by
  refine ⟨nodup_append_of_not_mem Place.id h.ids hid, nodup_append_of_not_mem Place.account h.accounts hacc, h.sorted,
    h.known, h.marked, fun q hq c hc => ?_, fun a s => ?_⟩
  · rcases List.mem_append.1 hq with hq | hq
    · exact h.read q hq c hc
    · rw [List.mem_singleton.1 hq] at hc ⊢
      obtain ⟨newest, older, ht, hid⟩ := hcur c hc
      exact ⟨newest, by rw [ht]; exact List.mem_cons_self, hid⟩
  · refine ⟨(h.once a s).count_le, fun hraised => ((h.once a s).kept hraised).imp_right fun hb q hq hqa c hc => ?_⟩
    rcases List.mem_append.1 hq with hq | hq
    · exact hb q hq hqa c hc
    · rw [List.mem_singleton.1 hq] at hqa hc
      obtain ⟨newest, older, ht, hid⟩ := hcur c hc
      obtain ⟨x, hx, rfl⟩ := h.known a s hraised
      rw [← hqa] at hx
      exact hid ▸ h.le_newest ht hx

/-- A watch raises statuses it has not read past. -/
theorem Sound.raise (h : v.Sound) {p : Place} (hp : p ∈ v.places) {statuses : List Status}
    (hnew : ∀ x ∈ statuses, x ∈ v.timeline p.account ∧ ∃ c, p.cursor = some c ∧ c < x.id) :
    Sound { v with marks := v.marks.raiseAll (posts p.account statuses) } := by
  have hmem : ∀ {a s}, Subject.post a s ∈ posts p.account statuses → a = p.account ∧ ∃ x ∈ statuses, x.id = s := by
    intro a s hm
    obtain ⟨x, hx, heq⟩ := List.mem_map.1 hm
    injection heq with _ ha hs
    exact ⟨ha.symm, x, hx, Option.some.inj hs⟩
  refine ⟨h.ids, h.accounts, h.sorted, fun a s hm => ?_, fun a s hm => ?_, h.read, fun a s => ?_⟩
  · rcases Marks.mem_raised_raiseAll.1 hm with hm | hm
    · exact h.known a s hm
    · obtain ⟨rfl, x, hx, rfl⟩ := hmem hm.1
      exact ⟨x, (hnew x hx).1, rfl⟩
  · rw [Marks.mem_raised_raiseAll]
    by_cases hstands : Subject.post a s ∈ v.marks.standing
    · exact Or.inl (h.marked a s hstands)
    · exact Or.inr ⟨(Marks.mem_standing_raiseAll.1 hm).resolve_left hstands, hstands⟩
  · refine (h.once a s).raiseAll fun hm hb => ?_
    obtain ⟨rfl, x, hx, rfl⟩ := hmem hm
    obtain ⟨-, c, hc, hlt⟩ := hnew x hx
    exact Nat.not_lt.2 (hb p hp rfl c hc) hlt

/-- A watch moves its cursor to the newest status. -/
theorem Sound.advance (h : v.Sound) {p : Place} (hp : p ∈ v.places) {newest : Status} {older : List Status}
    (ht : v.timeline p.account = newest :: older) :
    Sound { v with places := setPlace { p with cursor := some newest.id } v.places } := by
  have hmem : ∀ {q}, q ∈ setPlace { p with cursor := some newest.id } v.places →
      q = { p with cursor := some newest.id } ∨ (q ∈ v.places ∧ q.id ≠ p.id) := by
    intro q hq
    exact (mem_setPlace (p := { p with cursor := some newest.id }) ⟨p, hp, rfl⟩).1 hq
  have haccounts : (setPlace { p with cursor := some newest.id } v.places).map Place.account = v.places.map Place.account := by
    unfold setPlace
    rw [List.map_map]
    refine List.map_congr_left fun q hq => ?_
    by_cases hid : q.id = p.id
    · rw [h.eq_of_id hq hp hid]
      simp
    · simp [hid]
  refine ⟨(map_id_setPlace _ _).symm ▸ h.ids, haccounts.symm ▸ h.accounts, h.sorted, h.known, h.marked, fun q hq c hc => ?_,
    fun a s => ⟨(h.once a s).count_le, fun hraised => ((h.once a s).kept hraised).imp_right fun hb q hq hqa c hc => ?_⟩⟩
  · rcases hmem hq with rfl | ⟨hq, -⟩
    · exact ⟨newest, by rw [ht]; exact List.mem_cons_self, Option.some.inj hc⟩
    · exact h.read q hq c hc
  · rcases hmem hq with rfl | ⟨hq, -⟩
    · obtain ⟨x, hx, rfl⟩ := h.known a s hraised
      rw [← hqa] at hx
      exact Option.some.inj hc ▸ h.le_newest ht hx
    · exact hb q hq hqa c hc

end PostView

/-! ### The answers to a check -/

theorem mem_accountStatuses {inst : Instance} {account : AccountId} {since : Option StatusId} {limit : Nat} {s : Status}
    (h : s ∈ inst.accountStatuses account since limit) :
    s ∈ inst.timeline account ∧ ∀ c, since = some c → c < s.id := by
  obtain ⟨hs, hc⟩ := List.mem_filter.1 (List.mem_of_mem_take h)
  refine ⟨hs, fun c hsince => ?_⟩
  subst hsince
  exact of_decide_eq_true hc

/-- The first status of an answer is the newest one of the account. -/
theorem head_accountStatuses {inst : Instance} {account : AccountId}
    (hsorted : (inst.timeline account).Pairwise fun x y => y.id < x.id) {since : Option StatusId} {limit : Nat}
    {newest : Status} {older : List Status} (h : inst.accountStatuses account since limit = newest :: older) :
    ∃ older', inst.timeline account = newest :: older' := by
  unfold Instance.accountStatuses at h
  cases ht : inst.timeline account with
  | nil =>
    rw [ht] at h
    simp at h
  | cons s rest =>
    rw [ht] at h hsorted
    by_cases hs : (since.all fun c => c < s.id) = true
    · rw [List.filter_cons_of_pos (p := fun x : Status => since.all fun c => c < x.id) hs] at h
      cases limit with
      | zero => simp at h
      | succ n =>
        rw [List.take_succ_cons] at h
        exact ⟨rest, by rw [(List.cons.inj h).1]⟩
    · -- the newest status is not after the cursor, so none is
      have hnone : (s :: rest).filter (fun x => since.all fun c => c < x.id) = [] := by
        rw [List.filter_eq_nil_iff]
        intro x hx hpass
        cases since with
        | none => exact hs rfl
        | some c =>
          have hxs : x.id ≤ s.id := by
            rcases List.mem_cons.1 hx with rfl | hx
            · exact Nat.le_refl _
            · exact Nat.le_of_lt ((List.pairwise_cons.1 hsorted).1 x hx)
          exact hs (decide_eq_true (Nat.lt_of_lt_of_le (of_decide_eq_true hpass) hxs))
      rw [hnone] at h
      simp at h

/-! ### The steps of the system -/

/-- The statuses a check of the watch gets. -/
def World.statusesFor (w : World) (watch : Watch) : List Status :=
  w.inst.accountStatuses watch.account watch.request.1 watch.request.2

theorem mem_statusesFor {w : World} {watch : Watch} {s : Status} (h : s ∈ w.statusesFor watch) :
    s ∈ w.inst.timeline watch.account ∧ ∀ c, watch.lastStatusId = some c → c < s.id := by
  obtain ⟨hs, hc⟩ := mem_accountStatuses h
  refine ⟨hs, fun c hlast => hc c ?_⟩
  simp [Watch.request, hlast]

/-- What a check raises. -/
def World.raisedBy (w : World) (watch : Watch) : List Subject :=
  if watch.lastStatusId.isSome then posts watch.account (w.statusesFor watch).reverse else []

/-- A check fails, is interrupted, or completes. -/
theorem step_check {w w' : World} {id : WatchId} {now clock : Time} {t : Trouble} (hids : (w.db.places.map Place.id).Nodup)
    (h : step w (.check id now clock t) = some w') :
    ∃ watch ∈ w.db.watches, watch.id = id ∧ w'.inst = w.inst ∧ w'.settings = w.settings ∧
      ((t.completes = false ∧ w'.history = (w.update w'.db).history ∧
          ((w'.db.marks = w.db.marks ∧
            (w'.db.places = w.db.places ∨ w'.db.places = w.db.places.filter fun p => p.id ≠ id)) ∨
          ∃ handled, w'.db.marks = w.db.marks.raiseAll ((w.raisedBy watch).take handled) ∧ w'.db.places = w.db.places)) ∨
        (t.completes = true ∧ w'.history = ((w.update w'.db).look id (w.inst.timeline watch.account)).history ∧
          w'.db.marks = w.db.marks.raiseAll (w.raisedBy watch) ∧
          w'.db.places =
            setPlace { watch.place with cursor := cursorAfter watch.lastStatusId (w.statusesFor watch) } w.db.places)) := by
  obtain ⟨watch, hfind, rfl⟩ := Option.map_eq_some_iff.1 h
  have hw : watch ∈ w.db.watches := List.mem_of_find?_eq_some hfind
  have hid : watch.id = id := by simpa using List.find?_some hfind
  have hplace : watch.place ∈ w.db.places := List.mem_map_of_mem hw
  obtain ⟨error, interrupt⟩ := t
  refine ⟨watch, hw, hid, ?_⟩
  cases error with
  | some e =>
    obtain ⟨hm, hp⟩ := checkWatch_error now clock e interrupt hids hplace
    rw [hid] at hp
    exact ⟨rfl, rfl, Or.inl ⟨rfl, rfl, Or.inl ⟨hm, hp⟩⟩⟩
  | none => cases interrupt with
    | some handled =>
      obtain ⟨hm, hp⟩ := checkWatch_interrupted now clock (w.statusesFor watch) handled hids hplace
      refine ⟨rfl, rfl, Or.inl ⟨rfl, rfl, Or.inr ⟨handled, hm.trans (congrArg w.db.marks.raiseAll ?_), hp⟩⟩⟩
      unfold World.raisedBy posts
      split
      · rw [List.map_take]
      · simp
    | none =>
      obtain ⟨hm, hp⟩ := checkWatch_ok now clock (w.statusesFor watch) hids hplace
      exact ⟨rfl, rfl, Or.inr ⟨rfl, rfl, hm, hp⟩⟩

/-- The condition under which alerts on posts are raised once: pruning leaves the alerts on posts that a watch has not read
past.  Such alerts are left by polls that were interrupted before the cursor was written. -/
def PostsKept (w : World) : Event → Prop
  | .prune now => w.postView.Forgets (prune now w.settings w.db).places (prune now w.settings w.db).marks.standing
  | _ => True

theorem post_not_mem_signups {accounts : List AdminAccount} (a : AccountId) (s : StatusId) :
    Subject.post a s ∉ signups accounts := by
  intro h
  obtain ⟨x, -, hx⟩ := List.mem_map.1 h
  cases hx

theorem post_not_mem_silents {accounts : List AdminAccount} (a : AccountId) (s : StatusId) :
    Subject.post a s ∉ silents accounts := by
  intro h
  obtain ⟨x, -, hx⟩ := List.mem_map.1 h
  cases hx

theorem PostView.Sound.adds {v : PostView} (h : v.Sound) {places : List Place} (hadds : AddsPlaces v.places places) :
    Sound { v with places := places } := by
  induction hadds with
  | refl => exact h
  | add _ hcur hid hacc ih =>
    refine Sound.add ih hid hacc fun c hc => ?_
    rw [hcur] at hc
    cases hc

theorem places_addWatch (inst : Instance) (account : AccountId) (acct : Text) (expiresAt : Option Time) (db : Db) :
    (addWatch inst account acct expiresAt db).places =
      db.places ++ [⟨freshId Watch.id db.watches, account, (inst.accountStatuses account none 1).head?.map Status.id⟩] := by
  simp [addWatch, Db.places, Watch.place]

/-- A check of a watch keeps the alerts on posts sound. -/
theorem sound_check {w w' : World} (h : w.postView.Sound) {id : WatchId} {now clock : Time} {t : Trouble}
    (hstep : step w (.check id now clock t) = some w') : w'.postView.Sound := by
  obtain ⟨watch, hw, rfl, hinst, -, hcase⟩ := step_check h.ids hstep
  have hplace : watch.place ∈ w.db.places := List.mem_map_of_mem hw
  have hview : ∀ {marks places}, w'.db.marks = marks → w'.db.places = places →
      w'.postView = ⟨w.inst.timeline, places, marks⟩ := by
    rintro _ _ rfl rfl
    simp only [World.postView, hinst]
  -- a watch only raises statuses after its cursor
  have hraise : ∀ statuses : List Status, (∀ s ∈ statuses, s ∈ w.statusesFor watch) → watch.lastStatusId.isSome →
      PostView.Sound ⟨w.inst.timeline, w.db.places, w.db.marks.raiseAll (posts watch.account statuses)⟩ := by
    intro statuses hsub hsome
    refine h.raise hplace fun s hs => ?_
    obtain ⟨c, hc⟩ := Option.isSome_iff_exists.1 hsome
    obtain ⟨hmem, hafter⟩ := mem_statusesFor (hsub s hs)
    exact ⟨hmem, c, hc, hafter c hc⟩
  rcases hcase with ⟨-, -, ⟨hm, hp | hp⟩ | ⟨handled, hm, hp⟩⟩ | ⟨-, -, hm, hp⟩
  · rw [hview hm hp]
    exact h
  · rw [hview hm hp]
    exact h.remove List.filter_sublist
  · rw [hview hm hp]
    unfold World.raisedBy
    by_cases hsome : watch.lastStatusId.isSome
    · rw [if_pos hsome, posts, ← List.map_take]
      exact hraise _ (fun s hs => List.mem_reverse.1 (List.mem_of_mem_take hs)) hsome
    · rw [if_neg hsome, List.take_nil]
      exact h
  · rw [hview hm hp]
    have hraised : PostView.Sound ⟨w.inst.timeline, w.db.places, w.db.marks.raiseAll (w.raisedBy watch)⟩ := by
      unfold World.raisedBy
      by_cases hsome : watch.lastStatusId.isSome
      · rw [if_pos hsome]
        exact hraise _ (fun s hs => List.mem_reverse.1 hs) hsome
      · rw [if_neg hsome]
        exact h
    cases hst : w.statusesFor watch with
    | nil =>
      have hset : setPlace watch.place w.db.places = w.db.places := setPlace_of_mem h.ids hplace
      show PostView.Sound ⟨_, setPlace watch.place w.db.places, _⟩
      rw [hset]
      exact hraised
    | cons newest older =>
      obtain ⟨older', ht⟩ := head_accountStatuses (h.sorted watch.account) hst
      exact hraised.advance hplace ht

/-- One step keeps the alerts on posts sound, if pruning does. -/
theorem sound_step {w w' : World} {e : Event} (h : w.postView.Sound) (hok : PostsKept w e) (hstep : step w e = some w') :
    w'.postView.Sound := by
  cases e with
  | post account s =>
    obtain ⟨hnew, rfl⟩ := System.of_guard hstep
    exact h.post fun x hx => of_decide_eq_true (List.all_eq_true.1 hnew x hx)
  | register m =>
    obtain ⟨-, rfl⟩ := System.of_guard hstep
    exact h
  | approve | activity =>
    obtain rfl := Option.some.inj hstep
    exact h
  | addWatch account acct expiresAt =>
    simp only [step, Option.ite_none_left_eq_some, Option.some.injEq] at hstep
    obtain ⟨hnew, rfl⟩ := hstep
    show PostView.Sound ⟨_, (addWatch w.inst account acct expiresAt w.db).places, w.db.marks⟩
    rw [places_addWatch]
    refine h.add ?_ ?_ fun c hc => ?_
    · show _ ∉ w.db.places.map Place.id
      rw [map_id_places]
      exact freshId_not_mem Watch.id w.db.watches
    · show _ ∉ w.db.places.map Place.account
      rw [map_account_places]
      exact hnew
    · cases hst : w.inst.accountStatuses account none 1 with
      | nil =>
        rw [hst] at hc
        cases hc
      | cons newest older =>
        rw [hst] at hc
        obtain ⟨older', ht⟩ := head_accountStatuses (h.sorted account) hst
        exact ⟨newest, older', ht, Option.some.inj hc⟩
  | removeWatch id =>
    obtain rfl := Option.some.inj hstep
    show PostView.Sound ⟨_, (w.db.removeWatch id).places, _⟩
    rw [places_removeWatch]
    exact h.remove List.filter_sublist
  | acknowledge which time =>
    obtain rfl := Option.some.inj hstep
    show PostView.Sound ⟨_, w.db.places, (acknowledge which time w.db).marks⟩
    rw [marks_acknowledge]
    exact h
  | configure settings =>
    obtain rfl := Option.some.inj hstep
    exact h
  | prune now =>
    obtain rfl := Option.some.inj hstep
    exact h.forget (places_prune_sublist now w.settings w.db) (standing_prune_subset now w.settings w.db) hok
  | check id now clock t =>
    exact sound_check h hstep
  | newAccounts now clock t bot =>
    obtain ⟨accounts, hm, hp⟩ := newAccountsStep_raises now clock (w.inst.client t) bot w.settings w.db
    have hview : w'.postView = ⟨w.inst.timeline, (newAccountsStep now clock (w.inst.client t) bot w.settings w.db).1.places,
        w.db.marks.raiseAll (signups accounts)⟩ := by
      rw [← hm, ← Option.some.inj hstep]
      split
      · rfl
      · rfl
    rw [hview]
    exact (h.raiseOther post_not_mem_signups).adds hp
  | scan now clock t =>
    obtain rfl := Option.some.inj hstep
    obtain ⟨accounts, hm, hp, -⟩ := scanSilentLogins_raises now clock (w.inst.client t) w.settings w.db
    show PostView.Sound ⟨_, (scanSilentLogins now clock (w.inst.client t) w.settings w.db).places,
      (scanSilentLogins now clock (w.inst.client t) w.settings w.db).marks⟩
    rw [hm, hp]
    exact h.raiseOther post_not_mem_silents

theorem sound_init {w : World} (h : system.init w) : w.postView.Sound := by
  obtain ⟨hdb, -, ht, -⟩ := h
  unfold World.postView
  rw [hdb]
  refine ⟨List.nodup_nil, List.nodup_nil, fun a => ?_, fun _ _ hm => absurd hm List.not_mem_nil,
    fun _ _ hm => absurd hm List.not_mem_nil, fun _ hp => absurd hp List.not_mem_nil,
    fun _ _ => ⟨Nat.zero_le _, fun hm => absurd hm List.not_mem_nil⟩⟩
  dsimp only
  rw [ht a]
  exact List.Pairwise.nil

end ProxmoxTool.Moderation
