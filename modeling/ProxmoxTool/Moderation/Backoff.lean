import Mathlib.Tactic.Linarith
import ProxmoxTool.Moderation.Requests

/-!
# Backing off

Runs of watch polls, scheduled and manual.  A scheduled poll is skipped until the stored back-off is over, and stores the one
of its own result; a manual poll neither reads nor stores it.  `_note_error` counts the wait from the time at which the poll began, so the
stored back-off is over before the instance has said, by as long as the poll has run.

`rate_limits_kept`: a run in which no 429 is lost on the way to the back-off, and in which no scheduled poll begins within these last
seconds, respects every 429.
-/

namespace ProxmoxTool.Moderation.Requests

open Script

/-- A poll that is due: when the scheduler looks at the back-off, when the poll begins and when it is over, what it finds, and what the
instance answers in between. -/
structure Event where
  scheduled : Bool
  checkedAt : Time
  now : Time
  finish : Time
  /-- `moderation_watch_alerts_enabled`. -/
  enabled : Bool
  /-- `build_admin_client` succeeds. -/
  client : Bool
  /-- Welcomes are enabled and `build_bot_client` succeeds. -/
  bot : Bool
  books : Books
  answer : Script.History Ask Reply → ∀ q, Reply q
  begins : checkedAt ≤ now
  in_time : ∀ h q, now ≤ (answer h q).issuedAt ∧ (answer h q).issuedAt ≤ (answer h q).answeredAt ∧ (answer h q).answeredAt ≤ finish

/-- `run_watch_poll` with the answers; a manual poll has no bot. -/
def Event.poll (e : Event) : Script.History Ask Reply × Except Raised Result :=
  let (h, result, _) := (runWatchPoll e.now e.books (e.scheduled && e.bot) {}).transcript e.answer []
  (h, result)

/-- The poll does not come to `run_watch_poll`. -/
def Event.skipped (backoff : Option Time) (e : Event) : Bool :=
  e.scheduled && (!e.enabled || backoff.any fun t => e.checkedAt < t) || !e.client

/-- `moderation_watch_backoff_until` after the poll. -/
def Event.backoffAfter (backoff : Option Time) (e : Event) : Option Time :=
  if e.skipped backoff || !e.scheduled then backoff
  else match e.poll.2 with
    | .ok result => result.backoffUntil
    | .error _ => backoff

/-- The requests of the poll. -/
def Event.requests (backoff : Option Time) (e : Event) : Script.History Ask Reply := if e.skipped backoff then [] else e.poll.1

/-- The polls of a run, each with its requests. -/
def pollsFrom : Option Time → List Event → List (Event × Script.History Ask Reply)
  | _, [] => []
  | backoff, e :: events => (e, e.requests backoff) :: pollsFrom (e.backoffAfter backoff) events

/-- Scheduled polls do not overlap: the job has one instance at most. -/
structure Run where
  events : List Event
  sequential : events.Pairwise fun a b => a.scheduled = true → b.scheduled = true → a.finish ≤ b.checkedAt

def Run.polls (run : Run) (backoff : Option Time) : List (Event × Script.History Ask Reply) := pollsFrom backoff run.events

/-! ### The discipline -/

/-- No request behind a 429. -/
def Quits (h : Script.History Ask Reply) : Prop := ∀ after e before r, h = after ++ e :: before → TooMany e r → after = []

/-- No request of the second poll between a 429 of the first and the end of its wait. -/
def Waits (first second : Script.History Ask Reply) : Prop :=
  ∀ e ∈ first, ∀ r, TooMany e r → ∀ f ∈ second, ¬ (e.2.answeredAt < f.2.issuedAt ∧ f.2.issuedAt < e.2.answeredAt + wait r)

/-- After a 429 its own poll sends nothing more, and no scheduled poll anything before the wait is over. -/
def Disciplined (polls : List (Event × Script.History Ask Reply)) : Prop :=
  (∀ p ∈ polls, Quits p.2) ∧
    polls.Pairwise fun p q => (q.1.scheduled = true → Waits p.2 q.2) ∧ (p.1.scheduled = true → Waits q.2 p.2)

/-- Every 429 answers a scheduled poll in a step that passes it on, with a wait that can be stored. -/
def Recorded (p : Event × Script.History Ask Reply) : Prop :=
  ∀ e ∈ p.2, ∀ r, TooMany e r → e.1.raises = true ∧ p.1.scheduled = true ∧ p.1.now + wait r ≤ maxDatetime

/-- The second poll does not begin between the end of the back-off that the first one stores and the end of the wait. -/
def Apart (p q : Event × Script.History Ask Reply) : Prop :=
  q.1.scheduled = true → ∀ e ∈ p.2, ∀ r, TooMany e r → q.1.checkedAt < p.1.now + wait r ∨ e.2.answeredAt + wait r ≤ q.1.checkedAt

/-! ### One poll -/

theorem requests_in_time {backoff : Option Time} {e : Event} :
    ∀ f ∈ e.requests backoff, e.now ≤ f.2.issuedAt ∧ f.2.issuedAt ≤ f.2.answeredAt ∧ f.2.answeredAt ≤ e.finish := by
  unfold Event.requests
  split
  · intro f hf
    cases hf
  · exact transcript_forall (P := fun f => e.now ≤ f.2.issuedAt ∧ f.2.issuedAt ≤ f.2.answeredAt ∧ f.2.answeredAt ≤ e.finish)
      e.in_time (fun _ hf => absurd hf List.not_mem_nil) (runWatchPoll e.now e.books (e.scheduled && e.bot) {})

theorem begins_before_finish (e : Event) : e.checkedAt ≤ e.finish := by
  have hstart := e.begins
  obtain ⟨hissued, hanswered, hfinish⟩ := e.in_time [] .verifyBot
  exact hstart.trans (hissued.trans (hanswered.trans hfinish))

theorem poll_settled (e : Event) : Settled e.now e.poll.1 e.poll.2 :=
  (Checks.transcript (runWatchPoll_settles e.books (e.scheduled && e.bot) {} [] fun _ => nofun) e.answer).1

theorem quits_of_settled {now : Time} {h : Script.History Ask Reply} {result : Except Raised Result} (hsettled : Settled now h result)
    (hheard : Heard h) : Quits h := by
  intro after e before r heq htoo
  rcases hsettled hheard with hcalm | ⟨r', ⟨e', before', heq', -, hcalm⟩, -⟩
  · exact absurd htoo (hcalm e (by rw [heq]; exact List.mem_append_right _ List.mem_cons_self) r)
  · cases after with
    | nil => rfl
    | cons f after =>
      rw [heq'] at heq
      obtain ⟨-, htail⟩ := List.cons.inj heq
      exact absurd htoo (hcalm e (by rw [htail]; exact List.mem_append_right _ List.mem_cons_self) r)

theorem requests_quit {backoff : Option Time} {e : Event} (h : Recorded (e, e.requests backoff)) : Quits (e.requests backoff) := by
  have hheard : Heard (e.requests backoff) := fun f hf r hr => (h f hf r hr).1
  unfold Event.requests at hheard ⊢
  split
  · intro after f before r heq _
    simp at heq
  · rename_i hskipped
    rw [if_neg hskipped] at hheard
    exact quits_of_settled (poll_settled e) hheard

/-- The back-off that a recorded 429 leaves. -/
theorem backoffAfter_of_tooMany {backoff : Option Time} {e : Event} (h : Recorded (e, e.requests backoff)) {f : (q : Ask) × Reply q}
    (hf : f ∈ e.requests backoff) {r : Option Nat} (hr : TooMany f r) : e.backoffAfter backoff = some (e.now + wait r) := by
  obtain ⟨-, hscheduled, hstored⟩ := h f hf r hr
  have hheard : Heard (e.requests backoff) := fun f hf r hr => (h f hf r hr).1
  unfold Event.requests at hf hheard
  split at hf
  · cases hf
  · rename_i hskipped
    rw [if_neg hskipped] at hheard
    rcases poll_settled e hheard with hcalm | ⟨r', ⟨f', before, heq, hr', hcalm⟩, hresult⟩
    · exact absurd hr (hcalm f hf r)
    · rw [heq] at hf
      have hsame : r = r' := by
        rcases List.mem_cons.1 hf with rfl | hbefore
        · have := hr.symm.trans hr'
          cases this
          rfl
        · exact absurd hr (hcalm f hbefore r)
      obtain ⟨deferred, hok⟩ := hresult (hsame ▸ hstored)
      unfold Event.backoffAfter
      rw [Bool.eq_false_of_not_eq_true hskipped, hscheduled, hok, hsame]
      rfl

/-! ### Runs -/

theorem map_fst_pollsFrom (backoff : Option Time) (events : List Event) : (pollsFrom backoff events).map Prod.fst = events := by
  induction events generalizing backoff with
  | nil => rfl
  | cons e events ih => rw [pollsFrom, List.map_cons, ih]

theorem mem_events_of_mem_polls {backoff : Option Time} {events : List Event} {p : Event × Script.History Ask Reply}
    (hp : p ∈ pollsFrom backoff events) : p.1 ∈ events := by
  rw [← map_fst_pollsFrom backoff events]
  exact List.mem_map_of_mem hp

theorem requests_of_mem_polls {backoff : Option Time} {events : List Event} {p : Event × Script.History Ask Reply}
    (hp : p ∈ pollsFrom backoff events) : ∃ backoff, p = (p.1, p.1.requests backoff) := by
  induction events generalizing backoff with
  | nil => cases hp
  | cons e events ih =>
    rw [pollsFrom] at hp
    rcases List.mem_cons.1 hp with rfl | hp
    · exact ⟨backoff, rfl⟩
    · exact ih hp

/-- While a back-off is stored, the next scheduled poll that asks anything begins after it. -/
theorem le_checkedAt_of_backoff {until_ : Time} {events : List Event}
    (hseq : events.Pairwise fun a b => a.scheduled = true → b.scheduled = true → a.finish ≤ b.checkedAt) :
    ∀ p ∈ pollsFrom (some until_) events, p.1.scheduled = true → p.2 ≠ [] → until_ ≤ p.1.checkedAt := by
  induction events with
  | nil =>
    intro p hp
    cases hp
  | cons e events ih =>
    obtain ⟨hfirst, hrest⟩ := List.pairwise_cons.1 hseq
    have hhead : e.skipped (some until_) = false → e.scheduled = true → until_ ≤ e.checkedAt := by
      intro hskipped hscheduled
      unfold Event.skipped at hskipped
      rw [hscheduled] at hskipped
      simp only [Bool.true_and, Bool.or_eq_false_iff, Option.any_some, decide_eq_false_iff_not] at hskipped
      exact not_lt.1 hskipped.1.2
    intro p hp hscheduled hasks
    rw [pollsFrom] at hp
    rcases List.mem_cons.1 hp with rfl | hp
    · refine hhead ?_ hscheduled
      by_contra hskipped
      exact hasks (if_pos (Bool.eq_true_of_not_eq_false hskipped))
    · by_cases hsame : e.backoffAfter (some until_) = some until_
      · rw [hsame] at hp
        exact ih hrest p hp hscheduled hasks
      · -- the head was a scheduled poll that ran, and the others come after it
        have hran : (e.skipped (some until_) || !e.scheduled) = false := by
          by_contra hnot
          exact hsame (if_pos (Bool.eq_true_of_not_eq_false hnot))
        rw [Bool.or_eq_false_iff, Bool.not_eq_false'] at hran
        have hstart := hhead hran.1 hran.2
        have hafter := hfirst p.1 (mem_events_of_mem_polls hp) hran.2 hscheduled
        exact hstart.trans ((begins_before_finish e).trans hafter)

/-- The first poll of a run and a later one. -/
theorem waits_of_cons {backoff : Option Time} {e : Event} {events : List Event}
    (hseq : (e :: events).Pairwise fun a b => a.scheduled = true → b.scheduled = true → a.finish ≤ b.checkedAt)
    (hrecorded : Recorded (e, e.requests backoff)) {p : Event × Script.History Ask Reply}
    (hp : p ∈ pollsFrom (e.backoffAfter backoff) events)
    (hapart : Apart (e, e.requests backoff) p) (hscheduled : p.1.scheduled = true) : Waits (e.requests backoff) p.2 := by
  intro f hf r hr g hg hwindow
  obtain ⟨backoff', hrequests⟩ := requests_of_mem_polls hp
  rw [hrequests] at hg
  have hissued := (requests_in_time g hg).1
  have hbegins := p.1.begins
  have hover : e.now + wait r ≤ p.1.checkedAt := by
    rw [backoffAfter_of_tooMany hrecorded hf hr] at hp
    refine le_checkedAt_of_backoff (List.pairwise_cons.1 hseq).2 p hp hscheduled ?_
    rw [hrequests]
    exact List.ne_nil_of_mem hg
  rcases hapart hscheduled f hf r hr with hearly | hlate
  · exact absurd hover (not_le.2 hearly)
  · linarith [hwindow.2]

/-- An earlier scheduled poll is over when a later one is answered 429. -/
theorem waits_before {e : Event} {backoff : Option Time} {events : List Event} {backoff' : Option Time}
    (hseq : (e :: events).Pairwise fun a b => a.scheduled = true → b.scheduled = true → a.finish ≤ b.checkedAt)
    {p : Event × Script.History Ask Reply} (hp : p ∈ pollsFrom backoff' events) (hrecorded : Recorded p) (hscheduled : e.scheduled = true) :
    Waits p.2 (e.requests backoff) := by
  intro f hf r hr g hg hwindow
  obtain ⟨backoff'', hrequests⟩ := requests_of_mem_polls hp
  have hafter := (List.pairwise_cons.1 hseq).1 p.1 (mem_events_of_mem_polls hp) hscheduled (hrecorded f hf r hr).2.1
  have hg' := requests_in_time g hg
  rw [hrequests] at hf
  have hf' := requests_in_time f hf
  have hbegins := p.1.begins
  linarith [hwindow.1]

/-- In every run of scheduled and manual polls in which no 429 is lost and no scheduled poll begins just before a wait is over, every 429
is respected. -/
theorem rate_limits_kept (run : Run) (backoff : Option Time) (hrecorded : ∀ p ∈ run.polls backoff, Recorded p)
    (hapart : (run.polls backoff).Pairwise Apart) : Disciplined (run.polls backoff) := by
  obtain ⟨events, hseq⟩ := run
  unfold Run.polls at hrecorded hapart ⊢
  dsimp only at hrecorded hapart ⊢
  induction events generalizing backoff with
  | nil => exact ⟨fun p hp => absurd hp List.not_mem_nil, List.Pairwise.nil⟩
  | cons e events ih =>
    rw [pollsFrom] at hrecorded hapart ⊢
    obtain ⟨hhead, hrest⟩ := List.forall_mem_cons.1 hrecorded
    obtain ⟨happarthead, hapartrest⟩ := List.pairwise_cons.1 hapart
    obtain ⟨hquits, hwaits⟩ := ih _ (List.pairwise_cons.1 hseq).2 hrest hapartrest
    refine ⟨List.forall_mem_cons.2 ⟨requests_quit hhead, hquits⟩, List.pairwise_cons.2 ⟨fun p hp => ⟨?_, ?_⟩, hwaits⟩⟩
    · exact waits_of_cons hseq hhead hp (happarthead p hp)
    · exact waits_before hseq hp (hrest p hp)

/-! ### A run that backs off, and a poll that goes on -/

/-- An answer to everything, in the second after the poll has begun. -/
def replyAt (t : Time) (result : ∀ q : Ask, Except Raised q.Payload) (_ : Script.History Ask Reply) (q : Ask) : Reply q where
  issuedAt := t
  answeredAt := t + 1
  remaining := none
  result := result q

def limited (q : Ask) : Except Raised q.Payload := .error (.tooMany (some 120))

def fine : ∀ q : Ask, Except Raised q.Payload
  | .instanceV2 | .instanceV1 => .ok none
  | .statuses _ | .postDirect _ => .ok ()
  | .accounts _ _ => .ok { accounts := [], next := false }
  | .verifyBot => .ok none

/-- A poll of one watch, with or without a refresh of the status limit. -/
def pollAt (t : Time) (limitStale : Bool) (result : ∀ q : Ask, Except Raised q.Payload) : Event where
  scheduled := true
  checkedAt := t
  now := t
  finish := t + 1
  enabled := true
  client := true
  bot := false
  books :=
    { limitStale
      queue := [17]
      cursor := some (some 0)
      welcomeEnabled := false
      welcomed := fun _ => false
      renders := fun _ => true
      silentScanDue := false
      silentScanSince := 0 }
  answer := replyAt t result
  begins := le_rfl
  in_time := fun _ _ => ⟨le_rfl, (lt_add_one t).le, le_rfl⟩

/-- The first poll is answered 429, the second is skipped, the third comes after the wait. -/
def backingOff : Run where
  events := [pollAt 0 false limited, pollAt 60 false fine, pollAt 300 false fine]
  sequential := by
    refine .cons (fun b hb _ _ => ?_) (.cons (fun b hb _ _ => ?_) (.cons (fun _ hb => absurd hb List.not_mem_nil) .nil))
    · simp only [List.mem_cons, List.not_mem_nil, or_false] at hb
      rcases hb with rfl | rfl
      · decide
      · decide
    · rw [List.mem_singleton] at hb
      subst hb
      decide

theorem backingOff_polls : backingOff.polls none =
    [(pollAt 0 false limited, [⟨.statuses 17, replyAt 0 limited [] _⟩]), (pollAt 60 false fine, []),
      (pollAt 300 false fine, [⟨.accounts .discovery 0, replyAt 300 fine [] _⟩, ⟨.statuses 17, replyAt 300 fine [] _⟩])] := rfl

private theorem not_tooMany_fine {q : Ask} {t : Time} {r : Option Nat} : ¬ TooMany ⟨q, replyAt t fine [] q⟩ r := by
  intro h
  cases q <;> cases h

theorem backingOff_disciplined :
    (∃ p ∈ backingOff.polls none, ∃ e ∈ p.2, TooMany e (some 120)) ∧ Disciplined (backingOff.polls none) := by
  refine ⟨?_, rate_limits_kept backingOff none ?_ ?_⟩
  · rw [backingOff_polls]
    exact ⟨_, List.mem_cons_self, _, List.mem_cons_self, rfl⟩
  · rw [backingOff_polls]
    intro p hp e he r hr
    simp only [List.mem_cons, List.not_mem_nil, or_false] at hp
    rcases hp with rfl | rfl | rfl
    · rw [List.mem_singleton] at he
      subst he
      cases hr
      exact ⟨rfl, rfl, by decide⟩
    · cases he
    · simp only [List.mem_cons, List.not_mem_nil, or_false] at he
      rcases he with rfl | rfl
      · exact absurd hr not_tooMany_fine
      · exact absurd hr not_tooMany_fine
  · rw [backingOff_polls]
    refine .cons (fun q hq _ e he r hr => ?_) (.cons (fun q hq _ e he => absurd he List.not_mem_nil)
      (.cons (fun _ hb => absurd hb List.not_mem_nil) .nil))
    rw [List.mem_singleton] at he
    subst he
    cases hr
    simp only [List.mem_cons, List.not_mem_nil, or_false] at hq
    rcases hq with rfl | rfl
    · exact .inl (by decide)
    · exact .inr (by decide)

/-- The refresh of the status limit is answered 429, and the poll goes on with two more requests. -/
theorem limit_ignored :
    ¬ Disciplined (pollsFrom none [pollAt 0 true limited]) := by
  have hpolls : pollsFrom none [pollAt 0 true limited] =
      [(pollAt 0 true limited, [⟨.statuses 17, replyAt 0 limited [] _⟩, ⟨.instanceV1, replyAt 0 limited [] _⟩] ++
        ⟨.instanceV2, replyAt 0 limited [] _⟩ :: [])] := rfl
  intro hdisciplined
  rw [hpolls] at hdisciplined
  have hquits := hdisciplined.1 _ List.mem_cons_self
  have hnil := hquits _ _ _ (some 120) rfl rfl
  cases hnil

end ProxmoxTool.Moderation.Requests
