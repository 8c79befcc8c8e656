import ProxmoxTool.Lib.KeyedLog
import ProxmoxTool.Lib.System
import ProxmoxTool.Lib.Text

/-!
# Direct messages

Welcomes and report notices by several moderators and the poll at once.  A call looks for its row, posts, and stores the row: three steps,
between which any other call can take its own, and behind each of which it can fail.  The instance knows every `Idempotency-Key` it has
seen, and answers one that comes again with the earlier status.

`directs_sent_once`: in a run in which new messages go out one at a time, and in which no forced call comes with a key that has been used,
every message is sent once and the row is that of the last one.
-/

namespace ProxmoxTool.Moderation.Directs

/-- An account, as far as the messages go. -/
structure Account where
  id : Option Text
  username : Text
  acct : Text

inductive Direct
  | welcome (account : Account)
  | notice (reportId : Nat) (reporter : Account) (text : Option Text)

/-- A call of `send_welcome` or `send_report_notice`. -/
structure Call where
  direct : Direct
  sentByUserId : Option Nat
  force : Bool

/-- `ModerationWelcome.mastodon_account_id` or `ModerationReportNotice.report_id`, which are unique. -/
inductive Target
  | welcome (accountId : Text)
  | notice (reportId : Nat)
  deriving DecidableEq

/-- A row of one of the two tables; a welcome has no reporter. -/
structure Row where
  acct : Text
  reporterAccountId : Option Text
  sentAt : Nat
  sentByUserId : Option Nat
  statusId : Nat

def Call.target (c : Call) : Target :=
  match c.direct with
  | .welcome account => .welcome (account.id.getD "None".toList)
  | .notice reportId _ _ => .notice reportId

def Target.key : Target → Text
  | .welcome accountId => "welcome-".toList ++ accountId
  | .notice reportId => "report-notice-".toList ++ natText reportId

/-- The `Idempotency-Key` of a call that posts at the second `now`. -/
def Call.key (c : Call) (now : Nat) : Text :=
  match c.direct with
  | .welcome _ => c.target.key
  | .notice _ _ _ => if c.force then c.target.key ++ "-r".toList ++ natText now else c.target.key

/-! ### The text -/

/-- `WELCOME_RENDER_ERROR`. -/
def welcomeRenderError : Text := "Welcome message template is invalid or too long; fix it under Welcome message settings".toList

/-- `REPORT_NOTICE_RENDER_ERROR`. -/
def reportNoticeRenderError : Text := "Report notice template is invalid or too long; fix it under Reporter notice settings".toList

/-- `compose_direct`; `none` for a `ValueError`. -/
def composeDirect (mention : Text) (limit : Nat) (body : Text) : Option Text :=
  let text := '@' :: mention ++ ' ' :: body
  if limit < text.length then none else some text

/-- The text to post, or the error that the call returns; `body` is the rendered template, `none` if it cannot be rendered. -/
def Call.text (c : Call) (limit : Nat) (body : Option Text) : Except Text Text :=
  match c.direct with
  | .welcome account => (body.bind (composeDirect account.username limit)).elim (.error welcomeRenderError) .ok
  | .notice _ reporter none => (body.bind (composeDirect reporter.acct limit)).elim (.error reportNoticeRenderError) .ok
  | .notice _ reporter (some edited) =>
    let full := '@' :: reporter.acct ++ ' ' :: strip edited
    if limit < full.length then
      .error ("Message would be ".toList ++ natText full.length ++ " characters; this instance allows ".toList ++ natText limit)
    else .ok full

/-! ### The steps of a call -/

/-- Where a call is. -/
inductive Phase
  | idle
  /-- It has looked for its row. -/
  | checked (c : Call) (existing : Option Row) (text : Text)
  /-- It has posted and has the id of the status. -/
  | posted (c : Call) (existing : Option Row) (statusId : Nat)
  | returned (c : Call) (result : Except Text Row)
  /-- It has raised, or its process has stopped. -/
  | raised (c : Call)

/-- A message, as the instance has delivered it. -/
structure Message where
  target : Target
  caller : Nat
  force : Bool
  text : Text

structure State where
  log : KeyedLog Text Message := .empty
  rows : Target → Option Row := fun _ => none
  calls : Nat → Phase := fun _ => .idle

/-- What the call sees of its post: an error without or in spite of the post, or the status. -/
inductive Answer
  | refused (message : Text)
  | lost (message : Text)
  | answered

inductive Label
  | begin (n : Nat) (c : Call) (limit : Nat) (body : Option Text)
  | post (n : Nat) (now : Nat) (answer : Answer)
  /-- The commit, which may fail. -/
  | commit (n : Nat) (now : Nat) (fails : Bool)
  | stop (n : Nat)

def State.goTo (s : State) (n : Nat) (x : Phase) : State := { s with calls := Function.update s.calls n x }

def Call.refusal (c : Call) : Text :=
  match c.direct with
  | .welcome _ => "already welcomed".toList
  | .notice _ _ _ => "already notified".toList

/-- The call up to its post. -/
def Call.begin (c : Call) (existing : Option Row) (limit : Nat) (body : Option Text) : Phase :=
  if existing.isSome && !c.force then .returned c (.error c.refusal)
  else match c.text limit body with
    | .error message => .returned c (.error message)
    | .ok text => .checked c existing text

/-- The row that the call stores. -/
def Call.row (c : Call) (now statusId : Nat) : Row :=
  match c.direct with
  | .welcome account => ⟨account.acct, none, now, c.sentByUserId, statusId⟩
  | .notice _ reporter _ => ⟨reporter.acct, reporter.id, now, c.sentByUserId, statusId⟩

/-- A column of an `UPDATE`: it is left out if the value is the one that the call has loaded. -/
def column {α : Type} [DecidableEq α] (loaded new current : α) : α := if new = loaded then current else new

def Row.update (loaded new current : Row) : Row where
  acct := column loaded.acct new.acct current.acct
  reporterAccountId := column loaded.reporterAccountId new.reporterAccountId current.reporterAccountId
  sentAt := column loaded.sentAt new.sentAt current.sentAt
  sentByUserId := column loaded.sentByUserId new.sentByUserId current.sentByUserId
  statusId := column loaded.statusId new.statusId current.statusId

/-- The row behind the commit; `none` if the commit raises, as an `INSERT` does for a row that is there by now. -/
def stored (existing : Option Row) (new : Row) (current : Option Row) : Option Row :=
  match existing, current with
  | none, none => some new
  | some loaded, some current => some (loaded.update new current)
  | _, _ => none

/-- The post of call `n`. -/
def State.post (s : State) (n : Nat) (c : Call) (now : Nat) (text : Text) : State × Nat :=
  let (log, e) := s.log.put (c.key now) ⟨c.target, n, c.force, text⟩
  ({ s with log := log }, e.id)

def State.commit (s : State) (n : Nat) (c : Call) (existing : Option Row) (new : Row) : State :=
  match stored existing new (s.rows c.target) with
  | none => s.goTo n (.raised c)
  | some row => { s with rows := Function.update s.rows c.target (some row) }.goTo n (.returned c (.ok row))

def State.answer (s : State) (n : Nat) (c : Call) (existing : Option Row) (now : Nat) (text : Text) : Answer → State
  | .refused message => s.goTo n (.returned c (.error message))
  | .lost message => (s.post n c now text).1.goTo n (.returned c (.error message))
  | .answered => (s.post n c now text).1.goTo n (.posted c existing (s.post n c now text).2)

def directs : System State Label where
  init s := s = {}
  step s
    | .begin n c limit body => match s.calls n with
      | .idle => some (s.goTo n (c.begin (s.rows c.target) limit body))
      | _ => none
    | .post n now answer => match s.calls n with
      | .checked c existing text => some (s.answer n c existing now text answer)
      | _ => none
    | .commit n now fails => match s.calls n with
      | .posted c existing statusId =>
        some (if fails then s.goTo n (.raised c) else s.commit n c existing (c.row now statusId))
      | _ => none
    | .stop n => match s.calls n with
      | .checked c _ _ => some (s.goTo n (.raised c))
      | .posted c _ _ => some (s.goTo n (.raised c))
      | _ => none

/-! ### What is delivered -/

/-- The last message to an account or for a report. -/
def State.last (s : State) (t : Target) : Option (Keyed Text Message) := s.log.entries.find? fun m => m.value.target = t

/-- The messages of the calls without `force`. -/
def State.unforced (s : State) (t : Target) : List (Keyed Text Message) :=
  s.log.entries.filter fun m => decide (m.value.target = t) && !m.value.force

/-- The messages of call `n`. -/
def State.sent (s : State) (n : Nat) : List (Keyed Text Message) := s.log.entries.filter fun m => m.value.caller = n

/-- The row is that of the last message. -/
def State.Recorded (s : State) (t : Target) : Prop := ∃ row m, s.rows t = some row ∧ s.last t = some m ∧ row.statusId = m.id

/-- The call ends with success in this step. -/
def Succeeds (n : Nat) (c : Call) (s s' : State) : Prop :=
  ∃ now row, directs.step s (.commit n now false) = some s' ∧ s'.calls n = .returned c (.ok row)

structure SentOnce (s : State) : Prop where
  unforced : ∀ t, (s.unforced t).length ≤ 1
  forced : ∀ n c row, s.calls n = .returned c (.ok row) → c.force = true → (s.sent n).length = 1
  recorded : ∀ n c s', Succeeds n c s s' → s'.Recorded c.target

/-- A new message goes out only while no other call for the same account or report is between its post and its commit; and a call whose key
has been used is not forced, and has nothing behind the message of this key. -/
def Careful (s : State) : Label → Prop
  | .post _ _ (.refused _) => True
  | .post n now answer => ∀ c existing text, s.calls n = .checked c existing text →
    match s.log.find (c.key now) with
    | none => ∀ k d loaded id, s.calls k = .posted d loaded id → d.target ≠ c.target
    | some m => answer = .answered → c.force = false ∧ s.last c.target = some m
  | _ => True

theorem key_of_not_force {c : Call} (h : c.force = false) (now : Nat) : c.key now = c.target.key := by
  unfold Call.key
  split
  · rfl
  · rw [h, if_neg Bool.false_ne_true]

/-! ### What a run keeps -/

/-- The row that a call has loaded and works with. -/
def Phase.loaded : Phase → Option (Target × Row)
  | .checked c (some row) _ => some (c.target, row)
  | .posted c (some row) _ => some (c.target, row)
  | _ => none

/-- A call that can have posted. -/
def Phase.past : Phase → Prop
  | .idle => False
  | .checked _ _ _ => False
  | _ => True

/-- A forced call that has its status. -/
def Phase.delivered : Phase → Prop
  | .posted c _ _ => c.force = true
  | .returned c (.ok _) => c.force = true
  | _ => False

structure Inv (s : State) : Prop where
  callers : ∀ m ∈ s.log.entries, (s.calls m.value.caller).past
  posted : ∀ n c existing id, s.calls n = .posted c existing id → ∃ m, s.last c.target = some m ∧ m.id = id
  forced : ∀ n, (s.calls n).delivered → (s.sent n).length = 1
  rows : ∀ t row, s.rows t = some row → row.statusId < s.log.entries.length
  loaded : ∀ n t row, (s.calls n).loaded = some (t, row) → row.statusId < s.log.entries.length ∧
    ∃ current, s.rows t = some current ∧ ∀ m, s.last t = some m → m.id = row.statusId → m.id = current.statusId

theorem inv_init : Inv {} where
  callers m hm := absurd hm List.not_mem_nil
  posted n c existing id h := by cases h
  forced n h := by cases h
  rows t row h := by cases h
  loaded n t row h := by cases h

@[simp] theorem goTo_self (s : State) (n : Nat) (x : Phase) : (s.goTo n x).calls n = x := Function.update_self ..

theorem goTo_of_ne (s : State) {n k : Nat} (x : Phase) (h : k ≠ n) : (s.goTo n x).calls k = s.calls k := Function.update_of_ne h ..

/-- A call goes on, and neither the instance nor the tables change. -/
theorem Inv.goTo {s : State} (h : Inv s) {n : Nat} {x : Phase} (hpast : (s.calls n).past → x.past)
    (hposted : ∀ c existing id, x = .posted c existing id → ∃ m, s.last c.target = some m ∧ m.id = id)
    (hforced : x.delivered → (s.sent n).length = 1)
    (hloaded : ∀ t row, x.loaded = some (t, row) → row.statusId < s.log.entries.length ∧
      ∃ current, s.rows t = some current ∧ ∀ m, s.last t = some m → m.id = row.statusId → m.id = current.statusId) :
    Inv (s.goTo n x) where
  callers m hm := by
    by_cases hn : m.value.caller = n
    · rw [hn, goTo_self]
      exact hpast (hn ▸ h.callers m hm)
    · rw [goTo_of_ne s x hn]
      exact h.callers m hm
  posted k c existing id hk := by
    by_cases hn : k = n
    · rw [hn, goTo_self] at hk
      exact hposted c existing id hk
    · rw [goTo_of_ne s x hn] at hk
      exact h.posted k c existing id hk
  forced k hk := by
    by_cases hn : k = n
    · rw [hn, goTo_self] at hk
      rw [hn]
      exact hforced hk
    · rw [goTo_of_ne s x hn] at hk
      exact h.forced k hk
  rows := h.rows
  loaded k t row hk := by
    by_cases hn : k = n
    · rw [hn, goTo_self] at hk
      exact hloaded t row hk
    · rw [goTo_of_ne s x hn] at hk
      exact h.loaded k t row hk

/-- A call ends without success. -/
theorem Inv.quit {s : State} (h : Inv s) {n : Nat} {x : Phase}
    (hx : (∃ c message, x = .returned c (.error message)) ∨ ∃ c, x = .raised c) : Inv (s.goTo n x) := by
  rcases hx with ⟨c, message, rfl⟩ | ⟨c, rfl⟩
  · exact h.goTo (fun _ => trivial) (fun _ _ _ hp => by cases hp) (fun hd => absurd hd id) (fun _ _ hl => by cases hl)
  · exact h.goTo (fun _ => trivial) (fun _ _ _ hp => by cases hp) (fun hd => absurd hd id) (fun _ _ hl => by cases hl)

theorem Inv.begin {s : State} (h : Inv s) {n : Nat} (hidle : s.calls n = .idle) (c : Call) (limit : Nat) (body : Option Text) :
    Inv (s.goTo n (c.begin (s.rows c.target) limit body)) := by
  unfold Call.begin
  split
  · exact h.quit (.inl ⟨_, _, rfl⟩)
  · split
    · exact h.quit (.inl ⟨_, _, rfl⟩)
    · refine h.goTo (fun hp => ?_) (fun _ _ _ hp => by cases hp) (fun hd => absurd hd id) (fun t row hl => ?_)
      · rw [hidle] at hp
        exact absurd hp id
      · cases hrow : s.rows c.target with
        | none => rw [hrow] at hl; cases hl
        | some current =>
          rw [hrow] at hl
          cases hl
          exact ⟨h.rows _ _ hrow, _, hrow, fun _ _ hid => hid⟩

/-- A new message of call `n`, before the call goes on. -/
def State.deliver (s : State) (n : Nat) (c : Call) (now : Nat) (text : Text) (hnew : s.log.find (c.key now) = none) : State :=
  { s with log := s.log.add (c.key now) ⟨c.target, n, c.force, text⟩ hnew }

theorem post_new {s : State} {n : Nat} {c : Call} {now : Nat} {text : Text} (hnew : s.log.find (c.key now) = none) :
    s.post n c now text = (s.deliver n c now text hnew, s.log.entries.length) := by
  rw [State.post, KeyedLog.put_new hnew]
  rfl

theorem post_known {s : State} {n : Nat} {c : Call} {now : Nat} {text : Text} {m : Keyed Text Message}
    (hknown : s.log.find (c.key now) = some m) : s.post n c now text = (s, m.id) := by
  rw [State.post, KeyedLog.put_known hknown]

section

variable {s : State} {n : Nat} {c : Call} {now : Nat} {text : Text} (hnew : s.log.find (c.key now) = none)

theorem deliver_entries : (s.deliver n c now text hnew).log.entries =
    s.log.next (c.key now) ⟨c.target, n, c.force, text⟩ :: s.log.entries := rfl

theorem last_deliver : (s.deliver n c now text hnew).last c.target = some (s.log.next (c.key now) ⟨c.target, n, c.force, text⟩) := by
  rw [State.last, deliver_entries, List.find?_cons_of_pos (by simp [KeyedLog.next])]

theorem last_deliver_of_ne {t : Target} (ht : t ≠ c.target) : (s.deliver n c now text hnew).last t = s.last t := by
  rw [State.last, deliver_entries, List.find?_cons_of_neg (by simp [KeyedLog.next, ht.symm])]
  rfl

theorem sent_deliver_of_ne {k : Nat} (hk : k ≠ n) : (s.deliver n c now text hnew).sent k = s.sent k := by
  rw [State.sent, deliver_entries, List.filter_cons_of_neg (by simp [KeyedLog.next, hk.symm])]
  rfl

end

/-- A call that has not posted has sent nothing. -/
theorem Inv.sent_nil {s : State} (h : Inv s) {n : Nat} (hn : ¬ (s.calls n).past) : s.sent n = [] := by
  rw [State.sent, List.filter_eq_nil_iff]
  intro m hm
  rw [decide_eq_true_eq]
  rintro rfl
  exact hn (h.callers m hm)

/-- A new message, while no other call for its target is between its post and its commit. -/
theorem Inv.deliver {s : State} (h : Inv s) {n : Nat} {c : Call} {existing : Option Row} {now : Nat} {text : Text} {x : Phase}
    (hcall : s.calls n = .checked c existing text) (hnew : s.log.find (c.key now) = none)
    (halone : ∀ k d loaded id, s.calls k = .posted d loaded id → d.target ≠ c.target)
    (hx : x = .posted c existing s.log.entries.length ∨ ∃ message, x = .returned c (.error message)) :
    Inv ((s.deliver n c now text hnew).goTo n x) := by
  have hloadedX : ∀ t row, x.loaded = some (t, row) → (s.calls n).loaded = some (t, row) := by
    intro t row hl
    rcases hx with rfl | ⟨message, rfl⟩
    · rw [hcall]
      cases existing <;> exact hl
    · cases hl
  have hloaded : ∀ k t row, (s.calls k).loaded = some (t, row) →
      row.statusId < (s.deliver n c now text hnew).log.entries.length ∧
        ∃ current, s.rows t = some current ∧
          ∀ m, (s.deliver n c now text hnew).last t = some m → m.id = row.statusId → m.id = current.statusId := by
    intro k t row hl
    obtain ⟨hlt, current, hcurrent, hsame⟩ := h.loaded k t row hl
    refine ⟨Nat.lt_succ_of_lt hlt, current, hcurrent, fun m hm hid => ?_⟩
    by_cases ht : t = c.target
    · -- the new message has a number of its own
      rw [ht, last_deliver] at hm
      cases hm
      exact absurd hid (Nat.ne_of_gt hlt)
    · rw [last_deliver_of_ne hnew ht] at hm
      exact hsame m hm hid
  refine ⟨?_, ?_, ?_, ?_, ?_⟩
  · intro m hm
    by_cases hk : m.value.caller = n
    · rw [hk, goTo_self]
      rcases hx with rfl | ⟨message, rfl⟩
      · trivial
      · trivial
    · rw [goTo_of_ne _ _ hk]
      rcases List.mem_cons.1 hm with rfl | hm
      · exact absurd rfl hk
      · exact h.callers m hm
  · intro k d loaded id hk
    by_cases hkn : k = n
    · rw [hkn, goTo_self] at hk
      rcases hx with rfl | ⟨message, rfl⟩
      · cases hk
        exact ⟨_, last_deliver hnew, rfl⟩
      · cases hk
    · rw [goTo_of_ne _ _ hkn] at hk
      obtain ⟨m, hm, hid⟩ := h.posted k d loaded id hk
      have hne : d.target ≠ c.target := halone k d loaded id hk
      exact ⟨m, (last_deliver_of_ne hnew hne).trans hm, hid⟩
  · intro k hk
    by_cases hkn : k = n
    · have hnil : s.sent n = [] := h.sent_nil (by rw [hcall]; exact id)
      have hsent : (s.deliver n c now text hnew).sent n = s.log.next (c.key now) ⟨c.target, n, c.force, text⟩ :: s.sent n := by
        rw [State.sent, deliver_entries, List.filter_cons_of_pos (by simp [KeyedLog.next])]
        rfl
      show ((s.deliver n c now text hnew).sent k).length = 1
      rw [hkn, hsent, hnil, List.length_singleton]
    · rw [goTo_of_ne _ _ hkn] at hk
      show ((s.deliver n c now text hnew).sent k).length = 1
      rw [sent_deliver_of_ne hnew hkn]
      exact h.forced k hk
  · exact fun t row hrow => Nat.lt_succ_of_lt (h.rows t row hrow)
  · intro k t row hk
    by_cases hkn : k = n
    · rw [hkn, goTo_self] at hk
      exact hloaded n t row (hloadedX t row hk)
    · rw [goTo_of_ne _ _ hkn] at hk
      exact hloaded k t row hk

/-- The row that a commit leaves is that of the call's message. -/
theorem Inv.stored_statusId {s : State} (h : Inv s) {n : Nat} {c : Call} {existing : Option Row} {id now : Nat} {row : Row}
    (hcall : s.calls n = .posted c existing id) (hrow : stored existing (c.row now id) (s.rows c.target) = some row) :
    row.statusId = id := by
  have hnew : (c.row now id).statusId = id := by
    unfold Call.row
    split <;> rfl
  unfold stored at hrow
  split at hrow
  · cases hrow
    exact hnew
  · rename_i loaded current hcurrent
    cases hrow
    obtain ⟨m, hm, hid⟩ := h.posted n c _ id hcall
    obtain ⟨-, current', hcurrent', hsame⟩ := h.loaded n c.target loaded (by rw [hcall]; rfl)
    rw [hcurrent] at hcurrent'
    cases hcurrent'
    show column loaded.statusId (c.row now id).statusId current.statusId = id
    rw [hnew, column]
    split
    · rename_i hloaded
      exact (hsame m hm (hid.trans hloaded)).symm.trans hid
    · rfl
  · cases hrow

theorem Inv.commit {s : State} (h : Inv s) {n : Nat} {c : Call} {existing : Option Row} {id : Nat} (now : Nat)
    (hcall : s.calls n = .posted c existing id) : Inv (s.commit n c existing (c.row now id)) := by
  unfold State.commit
  split
  · exact h.quit (.inr ⟨_, rfl⟩)
  · rename_i row hrow
    have hid : row.statusId = id := h.stored_statusId hcall hrow
    obtain ⟨m, hm, hmid⟩ := h.posted n c existing id hcall
    have hlt : row.statusId < s.log.entries.length := by
      rw [hid, ← hmid]
      exact s.log.numbered m (List.mem_of_find?_eq_some hm)
    have hrows : Inv { s with rows := Function.update s.rows c.target (some row) } := by
      refine ⟨h.callers, h.posted, h.forced, ?_, ?_⟩
      · intro t row' hrow'
        by_cases ht : t = c.target
        · rw [ht] at hrow'
          have hsame : some row = some row' := (Function.update_self c.target (some row) s.rows).symm.trans hrow'
          rw [← Option.some.inj hsame]
          exact hlt
        · exact h.rows t row' ((Function.update_of_ne ht (some row) s.rows).symm.trans hrow')
      · intro k t row' hk
        obtain ⟨hlt', current, hcurrent, hsame⟩ := h.loaded k t row' hk
        refine ⟨hlt', ?_⟩
        by_cases ht : t = c.target
        · refine ⟨row, by rw [ht]; exact Function.update_self .., fun m' hm' _ => ?_⟩
          rw [ht] at hm'
          have hlast : s.last c.target = some m' := hm'
          rw [hm] at hlast
          cases hlast
          exact hmid.trans hid.symm
        · exact ⟨current, (Function.update_of_ne ht ..).trans hcurrent, hsame⟩
    refine hrows.goTo (fun _ => trivial) (fun _ _ _ hp => by cases hp) (fun hforce => ?_) (fun _ _ hl => by cases hl)
    refine h.forced n ?_
    rw [hcall]
    exact hforce

/-- What a step can do. -/
theorem step_cases {s s' : State} {e : Label} (h : directs.step s e = some s') :
    (∃ n c limit body, e = .begin n c limit body ∧ s.calls n = .idle ∧ s' = s.goTo n (c.begin (s.rows c.target) limit body)) ∨
    (∃ n now answer c existing text, e = .post n now answer ∧ s.calls n = .checked c existing text ∧
      s' = s.answer n c existing now text answer) ∨
    (∃ n now fails c existing id, e = .commit n now fails ∧ s.calls n = .posted c existing id ∧
      s' = if fails = true then s.goTo n (.raised c) else s.commit n c existing (c.row now id)) ∨
    ∃ n c, e = .stop n ∧ s' = s.goTo n (.raised c) := by
  cases e with
  | begin n c limit body =>
    simp only [directs] at h
    split at h
    · rename_i hcall
      cases h
      exact .inl ⟨n, c, limit, body, rfl, hcall, rfl⟩
    · cases h
  | post n now answer =>
    simp only [directs] at h
    split at h
    · rename_i c existing text hcall
      cases h
      exact .inr (.inl ⟨n, now, answer, c, existing, text, rfl, hcall, rfl⟩)
    · cases h
  | commit n now fails =>
    simp only [directs] at h
    split at h
    · rename_i c existing id hcall
      cases h
      exact .inr (.inr (.inl ⟨n, now, fails, c, existing, id, rfl, hcall, rfl⟩))
    · cases h
  | stop n =>
    simp only [directs] at h
    split at h
    · cases h
      exact .inr (.inr (.inr ⟨n, _, rfl, rfl⟩))
    · cases h
      exact .inr (.inr (.inr ⟨n, _, rfl, rfl⟩))
    · cases h

/-- The key of a message without `force` is that of its target. -/
def KeysByTarget (s : State) : Prop := ∀ m ∈ s.log.entries, m.value.force = false → m.key = m.value.target.key

theorem KeysByTarget.post {s : State} (h : KeysByTarget s) (n : Nat) (c : Call) (now : Nat) (text : Text) :
    KeysByTarget (s.post n c now text).1 := by
  cases hkey : s.log.find (c.key now) with
  | some m =>
    rw [post_known hkey]
    exact h
  | none =>
    rw [post_new hkey]
    intro m hm hforce
    rcases List.mem_cons.1 hm with rfl | hm
    · exact key_of_not_force hforce now
    · exact h m hm hforce

theorem KeysByTarget.step {s s' : State} {e : Label} (h : KeysByTarget s) (hstep : directs.step s e = some s') : KeysByTarget s' := by
  rcases step_cases hstep with ⟨n, c, limit, body, rfl, -, rfl⟩ | ⟨n, now, answer, c, existing, text, rfl, -, rfl⟩ |
    ⟨n, now, fails, c, existing, id, rfl, -, rfl⟩ | ⟨n, c, rfl, rfl⟩
  · exact h
  · cases answer with
    | refused message => exact h
    | lost message => exact h.post n c now text
    | answered => exact h.post n c now text
  · cases fails with
    | true => exact h
    | false =>
      rw [if_neg Bool.false_ne_true, State.commit]
      split
      · exact h
      · exact h
  · exact h

/-- Whatever the calls do, those without `force` deliver one message at most. -/
theorem unforced_at_most_once {ok : State → Label → Prop} {s : State} (h : directs.Reach ok s) (t : Target) :
    (s.unforced t).length ≤ 1 := by
  have hkeys : KeysByTarget s :=
    h.invariant (fun s hinit => by cases hinit; exact fun m hm => absurd hm List.not_mem_nil) fun _ _ _ hk _ hstep => hk.step hstep
  refine s.log.length_filter_le_one t.key fun m hm hmt => ?_
  rw [Bool.and_eq_true, decide_eq_true_eq, Bool.not_eq_true'] at hmt
  rw [hkeys m hm hmt.2, hmt.1]

theorem Inv.answer {s : State} (h : Inv s) {n : Nat} {now : Nat} {answer : Answer} {c : Call} {existing : Option Row} {text : Text}
    (hcall : s.calls n = .checked c existing text) (hcareful : Careful s (.post n now answer)) :
    Inv (s.answer n c existing now text answer) := by
  cases hkey : s.log.find (c.key now) with
  | none =>
    cases answer with
    | refused message => exact h.quit (.inl ⟨_, _, rfl⟩)
    | lost message =>
      have halone := hcareful c existing text hcall
      rw [hkey] at halone
      rw [State.answer, post_new hkey]
      exact h.deliver hcall hkey halone (.inr ⟨message, rfl⟩)
    | answered =>
      have halone := hcareful c existing text hcall
      rw [hkey] at halone
      rw [State.answer, post_new hkey]
      exact h.deliver hcall hkey halone (.inl rfl)
  | some m =>
    cases answer with
    | refused message => exact h.quit (.inl ⟨_, _, rfl⟩)
    | lost message =>
      rw [State.answer, post_known hkey]
      exact h.quit (.inl ⟨_, _, rfl⟩)
    | answered =>
      have hrepeat := hcareful c existing text hcall
      rw [hkey] at hrepeat
      obtain ⟨hforce, hlast⟩ := hrepeat rfl
      rw [State.answer, post_known hkey]
      refine h.goTo (fun _ => trivial) (fun d loaded id hp => ?_) (fun hd => ?_) (fun t row hl => ?_)
      · cases hp
        exact ⟨m, hlast, rfl⟩
      · rw [show c.force = true from hd] at hforce
        cases hforce
      · refine h.loaded n t row ?_
        rw [hcall]
        cases existing <;> exact hl

theorem Inv.step {s s' : State} {e : Label} (h : Inv s) (hcareful : Careful s e) (hstep : directs.step s e = some s') : Inv s' := by
  rcases step_cases hstep with ⟨n, c, limit, body, rfl, hidle, rfl⟩ | ⟨n, now, answer, c, existing, text, rfl, hcall, rfl⟩ |
    ⟨n, now, fails, c, existing, id, rfl, hcall, rfl⟩ | ⟨n, c, rfl, rfl⟩
  · exact h.begin hidle c limit body
  · exact h.answer hcall hcareful
  · cases fails with
    | true => exact h.quit (.inr ⟨_, rfl⟩)
    | false => exact h.commit now hcall
  · exact h.quit (.inr ⟨_, rfl⟩)

theorem inv_reach {s : State} (h : directs.Reach Careful s) : Inv s :=
  h.invariant (fun s hinit => by cases hinit; exact inv_init) fun _ _ _ hinv hcareful hstep => hinv.step hcareful hstep

/-- A call that ends with success has left the row of the last message. -/
theorem Inv.recorded {s s' : State} (h : Inv s) {n : Nat} {c : Call} (hsucceeds : Succeeds n c s s') : s'.Recorded c.target := by
  obtain ⟨now, row, hstep, hreturned⟩ := hsucceeds
  rcases step_cases hstep with ⟨_, _, _, _, he, -⟩ | ⟨_, _, _, _, _, _, he, -⟩ | ⟨_, _, _, d, existing, id, he, hcall, rfl⟩ |
    ⟨_, _, he, -⟩
  · cases he
  · cases he
  · cases he
    rw [if_neg Bool.false_ne_true, State.commit] at hreturned ⊢
    cases hrow : stored existing (d.row now id) (s.rows d.target) with
    | none =>
      simp only [hrow, goTo_self] at hreturned
      cases hreturned
    | some row' =>
      simp only [hrow, goTo_self] at hreturned ⊢
      cases hreturned
      obtain ⟨m, hm, hid⟩ := h.posted n c existing id hcall
      exact ⟨row, m, Function.update_self .., hm, (h.stored_statusId hcall hrow).trans hid.symm⟩
  · cases he

theorem directs_sent_once {s : State} (h : directs.Reach Careful s) : SentOnce s := by
  have hinv := inv_reach h
  refine ⟨unforced_at_most_once h, fun n c row hreturned hforce => ?_, fun n c s' hsucceeds => hinv.recorded hsucceeds⟩
  refine hinv.forced n ?_
  rw [hreturned]
  exact hforce

private def reporter : Account := ⟨some "5".toList, "bob".toList, "bob@remote.example".toList⟩

private def thanks (force : Bool) : Call := ⟨.notice 7 reporter (some "Thank you".toList), some 1, force⟩

/-- A notice, and a forced one later: two messages, and the row is that of the second. -/
theorem notice_sent_twice : ∃ s, SentOnce s ∧ (s.unforced (.notice 7)).length = 1 ∧ (s.sent 1).length = 1 ∧
    (s.rows (.notice 7)).map Row.statusId = some 1 := by
  have hinit : directs.Reach Careful {} := .init rfl
  have hbegin := hinit.next (.begin 0 (thanks false) 500 none) trivial rfl
  have hpost := hbegin.next (.post 0 0 .answered) (by
    intro c existing text hcall
    cases hcall
    intro k d loaded id hk
    match k, hk with
    | 0, hk => cases hk
    | k + 1, hk => cases hk) rfl
  have hcommit := (hpost.next (.commit 0 0 false) trivial rfl).next (.begin 1 (thanks true) 500 none) trivial rfl
  have hforced := hcommit.next (.post 1 60 .answered) (by
    intro c existing text hcall
    cases hcall
    intro k d loaded id hk
    match k, hk with
    | 0, hk => cases hk
    | 1, hk => cases hk
    | k + 2, hk => cases hk) rfl
  exact ⟨_, directs_sent_once (hforced.next (.commit 1 60 false) trivial rfl), by decide +kernel, by decide +kernel, by decide +kernel⟩

private def newcomer : Account := ⟨some "55".toList, "alice".toList, "alice".toList⟩

private def hello (force : Bool) : Call := ⟨.welcome newcomer, some 1, force⟩

/-- A forced welcome behind the first one comes with the same key: it succeeds, and nothing is delivered. -/
theorem forced_welcome_undelivered : ∃ s, directs.Reachable s ∧ ¬ SentOnce s := by
  have hinit : directs.Reachable {} := .init rfl
  have hbegin := (((hinit.next (.begin 0 (hello false) 500 (some "Hi".toList)) trivial rfl).next (.post 0 0 .answered) trivial rfl).next
    (.commit 0 0 false) trivial rfl).next (.begin 1 (hello true) 500 (some "Hi".toList)) trivial rfl
  refine ⟨_, (hbegin.next (.post 1 60 .answered) trivial rfl).next (.commit 1 60 false) trivial rfl, fun h => ?_⟩
  have hforced := h.forced 1 (hello true) _ rfl rfl
  exact absurd hforced (by decide +kernel)

end ProxmoxTool.Moderation.Directs
