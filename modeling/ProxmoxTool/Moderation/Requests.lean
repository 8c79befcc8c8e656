import Mathlib.Data.List.Sort
import ProxmoxTool.Lib.Script
import ProxmoxTool.Moderation.Poll

/-!
# The requests of a watch poll

`run_watch_poll` once more, as a script of what it asks the instance, page by page, whatever is answered.  `Moderation/Poll` says what
comes of the answers in the tables; here a step keeps only what decides about further requests: the exceptions, the budget that
the latest response of each client has left, and the result that the caller reads.

Six kinds of requests may be answered 429.  The watch list, the discovery and the scan for silent logins raise it as far as
`run_watch_poll`, which stops; the refresh of the status limit and the welcome bot turn it into a cached value or an error text and go
on.  `runWatchPoll_settles` is the rule for the whole poll: as long as only the former are answered 429, the first 429 is the last
answer, and the back-off is set from it.
-/

namespace ProxmoxTool.Moderation.Requests

open Script

/-! ### What is asked and answered -/

/-- The steps that read the listing of the local accounts. -/
inductive Listing
  | discovery
  | silentLogins
  deriving DecidableEq

inductive Ask
  | instanceV2
  | instanceV1
  | statuses (account : AccountId)
  | accounts (step : Listing) (page : Nat)
  | verifyBot
  | postDirect (account : AccountId)
  deriving DecidableEq

/-- A 429 in this place reaches `run_watch_poll`. -/
def Ask.raises : Ask → Bool
  | .statuses _ | .accounts _ _ => true
  | _ => false

/-- The request is the bot's. -/
def Ask.byBot : Ask → Bool
  | .verifyBot | .postDirect _ => true
  | _ => false

/-- The limit that an instance names, if it does; a page; the id of the bot's account. -/
@[reducible]
def Ask.Payload : Ask → Type
  | .instanceV2 | .instanceV1 => Option Int
  | .statuses _ | .postDirect _ => Unit
  | .accounts _ _ => Page
  | .verifyBot => Option AccountId

/-- A `MastodonAPIError` with the status 429 and the seconds to wait, one with another status or none, or another exception. -/
inductive Raised
  | tooMany (retryAfter : Option Nat)
  | api (httpStatus : Option Nat)
  | other
  deriving DecidableEq

/-- When the request is sent and answered, what the answer says of the remaining budget (`none` if it leaves `rate_limit` as it was), and
what the method makes of it. -/
structure Reply (q : Ask) where
  issuedAt : Time
  answeredAt : Time
  remaining : Option (Option Int)
  result : Except Raised q.Payload

/-- `rate_limit.remaining` of the two clients. -/
structure Rates where
  admin : Option Int := none
  bot : Option Int := none

def Rates.note (rates : Rates) (byBot : Bool) : Option (Option Int) → Rates
  | none => rates
  | some remaining => if byBot then { rates with bot := remaining } else { rates with admin := remaining }

/-- A step of the poll: what it returns or raises, and the budgets. -/
def Step (α : Type) := Rates → Script Ask Reply (Except Raised α × Rates)

instance : Monad Step where
  pure a := fun rates => .done (.ok a, rates)
  bind x f := fun rates => x rates >>= fun
    | (.error e, rates) => .done (.error e, rates)
    | (.ok a, rates) => f a rates

variable {α β : Type}

/-- A result without a request. -/
def give (result : Except Raised α) : Step α := fun rates => .done (result, rates)

def raise (e : Raised) : Step α := give (.error e)

/-- `try`. -/
def attempt (x : Step α) : Step (Except Raised α) := fun rates => x rates >>= fun (result, rates) => .done (.ok result, rates)

def ask (q : Ask) : Step q.Payload := fun rates =>
  send q >>= fun reply => .done (reply.result, rates.note q.byBot reply.remaining)

/-- `budget_ok`. -/
def budgetOk (byBot : Bool) (reserve : Int) : Step Bool := fun rates =>
  .done (.ok (match if byBot then rates.bot else rates.admin with
    | none => true
    | some remaining => reserve ≤ remaining), rates)

def rateReserve : Int := 60

/-! ### The steps -/

/-- What the poll finds in the tables and settings. -/
structure Books where
  /-- The status limit is older than a day. -/
  limitStale : Bool
  queue : List AccountId
  /-- The cursor of the discovery, and what `parse_iso` makes of it. -/
  cursor : Option (Option Time)
  welcomeEnabled : Bool
  welcomed : AccountId → Bool
  /-- The message for the account can be rendered. -/
  renders : AccountId → Bool
  silentScanDue : Bool
  silentScanSince : Time

/-- `max_status_chars` without a number: the second error is raised if both requests fail with something else than 404. -/
def noStatusChars : Except Raised (Option Int) → Except Raised (Option Int) → Except Raised Int
  | .error (.api (some 404)), _ => .ok 500
  | _, .error (.api (some 404)) => .ok 500
  | .error _, .error e => .error e
  | _, _ => .ok 500

/-- `max_status_chars`: version 1 is asked unless version 2 names a number. -/
def maxStatusChars : Step Int := do
  let clampLimit := fun value : Int => max 100 (min 25000 value)
  match ← attempt (ask .instanceV2) with
  | .error .other => raise .other
  | .ok (some value) => pure (clampLimit value)
  | v2 =>
    match ← attempt (ask .instanceV1) with
    | .error .other => raise .other
    | .ok (some value) => pure (clampLimit value)
    | v1 => give (noStatusChars v2 v1)

/-- `_maybe_refresh_status_limit`, which swallows every exception; `none` if no new limit is known. -/
def maybeRefreshStatusLimit (books : Books) : Step (Option Int) := do
  if books.limitStale then
    match ← budgetOk false rateReserve with
    | true =>
      match ← attempt maxStatusChars with
      | .ok value => pure (some value)
      | .error _ => pure none
    | false => pure none
  else pure none

/-- The loop of `_check_watched`; what it returns is `result["deferred"]`. -/
def checkWatched : List AccountId → Step Bool
  | [] => pure false
  | account :: accounts => do
    match ← budgetOk false rateReserve with
    | false => pure true
    | true =>
      match ← attempt (ask (.statuses account)) with
      | .error (.tooMany retryAfter) => raise (.tooMany retryAfter)
      | .error .other => raise .other
      | .error (.api _) => checkWatched accounts
      | .ok () => checkWatched accounts

/-- `list_local_accounts`, from page `i` on. -/
def listLocalAccounts (step : Listing) (newerThan : Option Time) : (maxPages i : Nat) → Step (List AdminAccount)
  | 0, _ => pure []
  | n + 1, i => do
    let page ← ask (.accounts step i)
    let kept := page.accounts.filter (AdminAccount.kept newerThan)
    if page.reaches newerThan || !page.next || page.accounts.isEmpty then pure kept
    else do
      let rest ← listLocalAccounts step newerThan n (i + 1)
      pure (kept ++ rest)

structure Discovery where
  deferred : Bool := false
  bootstrapped : Bool := false
  newAccounts : List AdminAccount := []

/-- `_discover_new_accounts`. -/
def discoverNewAccounts (books : Books) : Step Discovery := do
  match ← budgetOk false rateReserve with
  | false => pure { deferred := true }
  | true =>
    match books.cursor with
    | none => do
      let _ ← listLocalAccounts .discovery none 1 0
      pure { bootstrapped := true }
    | some since => do
      let accounts ← listLocalAccounts .discovery since 2 0
      pure { newAccounts := accounts.reverse }

/-- The loop of `_send_welcomes` after `welcomed` messages, to `sent`. -/
def welcomeLoop (books : Books) (bot : Option AccountId) : List AdminAccount → (welcomed : Nat) → (sent : List AccountId) → Step Bool
  | [], _, _ => pure false
  | a :: accounts, welcomed, sent =>
    if maxWelcomesPerRun ≤ welcomed then pure false
    else if bot = some a.id ∨ books.welcomed a.id = true ∨ a.id ∈ sent then welcomeLoop books bot accounts welcomed sent
    else do
      match ← budgetOk true rateReserve with
      | false => pure true
      | true =>
        if books.renders a.id then do
          match ← attempt (ask (.postDirect a.id)) with
          | .error .other => raise .other
          | .error _ => welcomeLoop books bot accounts welcomed sent
          | .ok () => welcomeLoop books bot accounts (welcomed + 1) (a.id :: sent)
        else welcomeLoop books bot accounts welcomed sent

/-- `_send_welcomes`. -/
def sendWelcomes (books : Books) (d : Discovery) : Step Bool := do
  if d.bootstrapped || d.newAccounts.isEmpty then pure false
  else
    let accounts := d.newAccounts.insertionSort fun a b => a.older b
    match ← attempt (ask .verifyBot) with
    | .error .other => raise .other
    | .error _ => welcomeLoop books none accounts 0 []
    | .ok bot => welcomeLoop books bot accounts 0 []

/-- `_scan_silent_logins`. -/
def scanSilentLogins (books : Books) : Step Bool := do
  if books.silentScanDue then
    match ← budgetOk false (rateReserve + 10) with
    | false => pure true
    | true => do
      let _ ← listLocalAccounts .silentLogins (some books.silentScanSince) 10 0
      pure false
  else pure false

/-! ### The poll -/

/-- What the scheduler reads of the result. -/
structure Result where
  deferred : Bool
  backoffUntil : Option Time
  deriving DecidableEq

/-- The last second of the year 9999: adding more to a `datetime` raises. -/
def maxDatetime : Time := 253402300799

def wait (retryAfter : Option Nat) : Time := (retryAfter.getD 60 : Nat)

section

variable (now : Time)

/-- `_note_error`, and how the poll goes on behind it. -/
def noteError (e : Raised) (deferred : Bool) (next : Step Result) : Step Result :=
  match e with
  | .tooMany retryAfter =>
    if now + wait retryAfter ≤ maxDatetime then pure { deferred, backoffUntil := some (now + wait retryAfter) } else raise .other
  | .api _ => next
  | .other => raise .other

/-- The poll from its last step on. -/
def fromSilentLogins (books : Books) (deferred : Bool) : Step Result := do
  match ← attempt (scanSilentLogins books) with
  | .error e => noteError now e deferred (pure { deferred, backoffUntil := none })
  | .ok late => pure { deferred := deferred || late, backoffUntil := none }

/-- The poll from the welcomes on. -/
def fromWelcomes (books : Books) (bot deferred : Bool) (d : Discovery) : Step Result := do
  if bot && !d.newAccounts.isEmpty && books.welcomeEnabled then
    match ← attempt (sendWelcomes books d) with
    | .error e => noteError now e deferred (fromSilentLogins now books deferred)
    | .ok late => fromSilentLogins now books (deferred || late)
  else fromSilentLogins now books deferred

/-- The poll from the discovery on. -/
def fromDiscovery (books : Books) (bot deferred : Bool) : Step Result := do
  match ← attempt (discoverNewAccounts books) with
  | .error e => noteError now e deferred (fromWelcomes now books bot deferred {})
  | .ok d => fromWelcomes now books bot (deferred || d.deferred) d

/-- `run_watch_poll`, with or without a bot. -/
def runWatchPoll (books : Books) (bot : Bool) : Step Result := do
  let _ ← attempt (maybeRefreshStatusLimit books)
  match ← attempt (checkWatched books.queue) with
  | .error e => noteError now e false (fromDiscovery now books bot false)
  | .ok deferred => fromDiscovery now books bot deferred

end

/-! ### The rule for a step -/

/-- The request is answered 429. -/
def TooMany (e : (q : Ask) × Reply q) (retryAfter : Option Nat) : Prop := e.2.result = .error (.tooMany retryAfter)

/-- Nothing has been answered 429. -/
def Calm (h : Script.History Ask Reply) : Prop := ∀ e ∈ h, ∀ r, ¬ TooMany e r

/-- The latest answer is the only 429. -/
def Stopped (h : Script.History Ask Reply) (retryAfter : Option Nat) : Prop :=
  ∃ e before, h = e :: before ∧ TooMany e retryAfter ∧ Calm before

/-- Only requests whose 429 reaches `run_watch_poll` are answered so. -/
def Heard (h : Script.History Ask Reply) : Prop := ∀ e ∈ h, ∀ r, TooMany e r → e.1.raises = true

/-- A request is not sent after a 429. -/
def Allowed (h : Script.History Ask Reply) (_ : Ask) : Prop := Heard h → Calm h

/-- The step sends nothing behind a 429, and ends calm. -/
def Quiet (x : Step α) : Prop :=
  ∀ rates h, (Heard h → Calm h) → Checks Allowed (fun h _ => Heard h → Calm h) h (x rates)

/-- A step ends calm, or raises the 429 that it was answered. -/
def Ended (h : Script.History Ask Reply) (result : Except Raised α) : Prop :=
  Heard h → ((∀ r, result ≠ .error (.tooMany r)) ∧ Calm h) ∨ ∃ r, result = .error (.tooMany r) ∧ Stopped h r

/-- The step sends nothing behind a 429, and passes it on. -/
def Keeps (x : Step α) : Prop :=
  ∀ rates h, (Heard h → Calm h) → Checks Allowed (fun h result => Ended h result.1) h (x rates)

theorem heard_of_cons {e : (q : Ask) × Reply q} {h : Script.History Ask Reply} (hheard : Heard (e :: h)) : Heard h :=
  fun e' he' => hheard e' (List.mem_cons_of_mem _ he')

theorem ended_of_calm {h : Script.History Ask Reply} {result : Except Raised α} (hcalm : Heard h → Calm h)
    (hresult : ∀ r, result ≠ .error (.tooMany r)) : Ended h result :=
  fun hheard => .inl ⟨hresult, hcalm hheard⟩

/-! ### Quiet steps -/

theorem Quiet.pure (a : α) : Quiet (pure a : Step α) := fun _ _ hcalm => hcalm

theorem Quiet.give (result : Except Raised α) : Quiet (give result) := fun _ _ hcalm => hcalm

theorem Quiet.budgetOk (byBot : Bool) (reserve : Int) : Quiet (budgetOk byBot reserve) := fun _ _ hcalm => hcalm

theorem Quiet.ask {q : Ask} (hq : q.raises = false) : Quiet (ask q) := by
  intro rates h hcalm
  refine Checks.send_bind hcalm fun reply hheard => List.forall_mem_cons.2 ⟨fun r hr => ?_, hcalm (heard_of_cons hheard)⟩
  have hraises := hheard ⟨q, reply⟩ List.mem_cons_self r hr
  rw [hq] at hraises
  cases hraises

theorem Quiet.attempt {x : Step α} (hx : Quiet x) : Quiet (attempt x) :=
  fun rates h hcalm => Checks.bind (hx rates h hcalm) fun _ _ hcalm' => hcalm'

theorem Quiet.bind {x : Step α} {f : α → Step β} (hx : Quiet x) (hf : ∀ a, Quiet (f a)) : Quiet (x >>= f) := by
  intro rates h hcalm
  refine Checks.bind (hx rates h hcalm) fun h' result hcalm' => ?_
  rcases result with ⟨e | a, rates'⟩
  · exact hcalm'
  · exact hf a rates' h' hcalm'

theorem quiet_maxStatusChars : Quiet maxStatusChars := by
  have hv1 : Quiet (attempt (ask .instanceV1)) := (Quiet.ask rfl).attempt
  refine (Quiet.ask rfl).attempt.bind fun v2 => ?_
  split
  · exact Quiet.give _
  · exact Quiet.pure _
  · refine hv1.bind fun v1 => ?_
    split
    · exact Quiet.give _
    · exact Quiet.pure _
    · exact Quiet.give _

theorem quiet_maybeRefreshStatusLimit (books : Books) : Quiet (maybeRefreshStatusLimit books) := by
  unfold maybeRefreshStatusLimit
  split
  · refine (Quiet.budgetOk _ _).bind fun ok => ?_
    cases ok with
    | true =>
      refine quiet_maxStatusChars.attempt.bind fun result => ?_
      cases result with
      | error e => exact Quiet.pure _
      | ok value => exact Quiet.pure _
    | false => exact Quiet.pure _
  · exact Quiet.pure _

theorem quiet_welcomeLoop (books : Books) (bot : Option AccountId) (accounts : List AdminAccount) (welcomed : Nat) (sent : List AccountId) :
    Quiet (welcomeLoop books bot accounts welcomed sent) := by
  induction accounts generalizing welcomed sent with
  | nil => exact Quiet.pure _
  | cons a accounts ih =>
    unfold welcomeLoop
    split
    · exact Quiet.pure _
    · split
      · exact ih _ _
      · refine (Quiet.budgetOk _ _).bind fun ok => ?_
        cases ok with
        | false => exact Quiet.pure _
        | true =>
          dsimp only
          split
          · refine (Quiet.ask rfl).attempt.bind fun result => ?_
            split
            · exact Quiet.give _
            · exact ih _ _
            · exact ih _ _
          · exact ih _ _

theorem quiet_sendWelcomes (books : Books) (d : Discovery) : Quiet (sendWelcomes books d) := by
  unfold sendWelcomes
  split
  · exact Quiet.pure _
  · refine (Quiet.ask rfl).attempt.bind fun result => ?_
    split
    · exact Quiet.give _
    · exact quiet_welcomeLoop _ _ _ _ _
    · exact quiet_welcomeLoop _ _ _ _ _

/-! ### Steps that pass a 429 on -/

theorem Keeps.pure (a : α) : Keeps (pure a : Step α) := fun _ _ hcalm => ended_of_calm hcalm nofun

theorem Keeps.raise_other : Keeps (raise .other : Step α) := fun _ _ hcalm => ended_of_calm hcalm nofun

theorem Keeps.budgetOk (byBot : Bool) (reserve : Int) : Keeps (budgetOk byBot reserve) :=
  fun _ _ hcalm => ended_of_calm hcalm nofun

theorem Keeps.ask (q : Ask) : Keeps (ask q) := by
  intro rates h hcalm
  refine Checks.send_bind hcalm fun reply hheard => ?_
  have hbefore : Calm h := hcalm (heard_of_cons hheard)
  by_cases htoo : ∃ r, reply.result = .error (.tooMany r)
  · obtain ⟨r, hr⟩ := htoo
    exact .inr ⟨r, hr, ⟨q, reply⟩, h, rfl, hr, hbefore⟩
  · exact .inl ⟨fun r hr => htoo ⟨r, hr⟩, List.forall_mem_cons.2 ⟨fun r hr => htoo ⟨r, hr⟩, hbefore⟩⟩

theorem Keeps.bind {x : Step α} {f : α → Step β} (hx : Keeps x) (hf : ∀ a, Keeps (f a)) : Keeps (x >>= f) := by
  intro rates h hcalm
  refine Checks.bind (hx rates h hcalm) fun h' result hended => ?_
  rcases result with ⟨e | a, rates'⟩
  · intro hheard
    rcases hended hheard with ⟨hnot, hcalm'⟩ | ⟨r, hr, hstopped⟩
    · exact .inl ⟨fun r hr => hnot r (congrArg _ (Except.error.inj hr)), hcalm'⟩
    · exact .inr ⟨r, congrArg _ (Except.error.inj hr), hstopped⟩
  · refine hf a rates' h' fun hheard => ?_
    rcases hended hheard with ⟨-, hcalm'⟩ | ⟨r, hr, -⟩
    · exact hcalm'
    · cases hr

theorem attempt_bind_apply (x : Step α) (f : Except Raised α → Step β) (rates : Rates) :
    (attempt x >>= f) rates = x rates >>= fun p => f p.1 p.2 :=
  bind_assoc (x rates) _ _

/-- A step under `try`, with a handler that raises a 429 again. -/
theorem Keeps.attempt_bind {x : Step α} {f : Except Raised α → Step β} (hx : Keeps x)
    (hagain : ∀ r, f (.error (.tooMany r)) = raise (.tooMany r)) (hf : ∀ result, (∀ r, result ≠ .error (.tooMany r)) → Keeps (f result)) :
    Keeps (attempt x >>= f) := by
  intro rates h hcalm
  rw [attempt_bind_apply]
  refine Checks.bind (hx rates h hcalm) fun h' result hended => ?_
  by_cases htoo : ∃ r, result.1 = .error (.tooMany r)
  · obtain ⟨r, hr⟩ := htoo
    rw [hr, hagain r]
    intro hheard
    rcases hended hheard with ⟨hnot, -⟩ | ⟨r', hr', hstopped⟩
    · exact absurd hr (hnot r)
    · rw [hr] at hr'
      cases hr'
      exact .inr ⟨r, rfl, hstopped⟩
  · refine hf result.1 (fun r hr => htoo ⟨r, hr⟩) result.2 h' fun hheard => ?_
    rcases hended hheard with ⟨-, hcalm'⟩ | ⟨r, hr, -⟩
    · exact hcalm'
    · exact absurd ⟨r, hr⟩ htoo

theorem keeps_checkWatched (accounts : List AccountId) : Keeps (checkWatched accounts) := by
  induction accounts with
  | nil => exact Keeps.pure _
  | cons account accounts ih =>
    refine (Keeps.budgetOk _ _).bind fun ok => ?_
    cases ok with
    | false => exact Keeps.pure _
    | true =>
      refine (Keeps.ask _).attempt_bind (fun r => rfl) fun result hresult => ?_
      rcases result with (r | status | _) | _
      · exact absurd rfl (hresult r)
      · exact ih
      · exact Keeps.raise_other
      · exact ih

theorem keeps_listLocalAccounts (step : Listing) (newerThan : Option Time) (maxPages i : Nat) :
    Keeps (listLocalAccounts step newerThan maxPages i) := by
  induction maxPages generalizing i with
  | zero => exact Keeps.pure _
  | succ n ih =>
    refine (Keeps.ask _).bind fun page => ?_
    dsimp only
    split
    · exact Keeps.pure _
    · exact (ih (i + 1)).bind fun rest => Keeps.pure _

theorem keeps_discoverNewAccounts (books : Books) : Keeps (discoverNewAccounts books) := by
  refine (Keeps.budgetOk _ _).bind fun ok => ?_
  cases ok with
  | false => exact Keeps.pure _
  | true =>
    dsimp only
    split
    · exact (keeps_listLocalAccounts _ _ _ _).bind fun _ => Keeps.pure _
    · exact (keeps_listLocalAccounts _ _ _ _).bind fun _ => Keeps.pure _

theorem keeps_scanSilentLogins (books : Books) : Keeps (scanSilentLogins books) := by
  unfold scanSilentLogins
  split
  · refine (Keeps.budgetOk _ _).bind fun ok => ?_
    cases ok with
    | false => exact Keeps.pure _
    | true => exact (keeps_listLocalAccounts _ _ _ _).bind fun _ => Keeps.pure _
  · exact Keeps.pure _

/-! ### The rule for the poll -/

/-- The poll ends calm, or the latest answer is the only 429 and the back-off is set from it, if it can be. -/
def Settled (now : Time) (h : Script.History Ask Reply) (result : Except Raised Result) : Prop :=
  Heard h → Calm h ∨ ∃ r, Stopped h r ∧
    (now + wait r ≤ maxDatetime → ∃ deferred, result = .ok { deferred, backoffUntil := some (now + wait r) })

def Settles (now : Time) (x : Step Result) : Prop :=
  ∀ rates h, (Heard h → Calm h) → Checks Allowed (fun h result => Settled now h result.1) h (x rates)

section

variable {now : Time}

theorem settles_give (result : Except Raised Result) : Settles now (give result) := fun _ _ hcalm hheard => .inl (hcalm hheard)

theorem settles_noteError (e : Raised) (deferred : Bool) {next : Step Result} (hnext : Settles now next) :
    Settles now (noteError now e deferred next) := by
  cases e with
  | tooMany r =>
    unfold noteError
    dsimp only
    split
    · exact settles_give _
    · exact settles_give _
  | api status => exact hnext
  | other => exact settles_give _

/-- A step that passes a 429 on, under `try` with `_note_error`. -/
theorem settles_attempt {x : Step α} {f : Except Raised α → Step Result} (hx : Keeps x) (deferred : Bool)
    (hnote : ∀ r, ∃ next, f (.error (.tooMany r)) = noteError now (.tooMany r) deferred next)
    (hf : ∀ result, Settles now (f result)) : Settles now (attempt x >>= f) := by
  intro rates h hcalm
  rw [attempt_bind_apply]
  refine Checks.bind (hx rates h hcalm) fun h' result hended => ?_
  by_cases htoo : ∃ r, result.1 = .error (.tooMany r)
  · obtain ⟨r, hr⟩ := htoo
    obtain ⟨next, heq⟩ := hnote r
    rw [hr, heq]
    have hstopped : Heard h' → Stopped h' r := by
      intro hheard
      rcases hended hheard with ⟨hnot, -⟩ | ⟨r', hr', hstopped⟩
      · exact absurd hr (hnot r)
      · rw [hr] at hr'
        cases hr'
        exact hstopped
    unfold noteError
    dsimp only
    split
    · exact fun hheard => .inr ⟨r, hstopped hheard, fun _ => ⟨deferred, rfl⟩⟩
    · rename_i hlate
      exact fun hheard => .inr ⟨r, hstopped hheard, fun hle => absurd hle hlate⟩
  · refine hf result.1 result.2 h' fun hheard => ?_
    rcases hended hheard with ⟨-, hcalm'⟩ | ⟨r, hr, -⟩
    · exact hcalm'
    · exact absurd ⟨r, hr⟩ htoo

theorem settles_quiet_bind {x : Step α} {f : α → Step Result} (hx : Quiet x) (hf : ∀ a, Settles now (f a)) : Settles now (x >>= f) := by
  intro rates h hcalm
  refine Checks.bind (hx rates h hcalm) fun h' result hcalm' => ?_
  rcases result with ⟨e | a, rates'⟩
  · exact fun hheard => .inl (hcalm' hheard)
  · exact hf a rates' h' hcalm'

theorem settles_fromSilentLogins (books : Books) (deferred : Bool) : Settles now (fromSilentLogins now books deferred) := by
  refine settles_attempt (keeps_scanSilentLogins books) deferred (fun r => ⟨_, rfl⟩) fun result => ?_
  cases result with
  | error e => exact settles_noteError e deferred (settles_give _)
  | ok late => exact settles_give _

theorem settles_fromWelcomes (books : Books) (bot deferred : Bool) (d : Discovery) :
    Settles now (fromWelcomes now books bot deferred d) := by
  unfold fromWelcomes
  split
  · refine settles_quiet_bind (quiet_sendWelcomes books d).attempt fun result => ?_
    cases result with
    | error e => exact settles_noteError e deferred (settles_fromSilentLogins books deferred)
    | ok late => exact settles_fromSilentLogins books _
  · exact settles_fromSilentLogins books deferred

theorem settles_fromDiscovery (books : Books) (bot deferred : Bool) : Settles now (fromDiscovery now books bot deferred) := by
  refine settles_attempt (keeps_discoverNewAccounts books) deferred (fun r => ⟨_, rfl⟩) fun result => ?_
  cases result with
  | error e => exact settles_noteError e deferred (settles_fromWelcomes books bot deferred {})
  | ok d => exact settles_fromWelcomes books bot _ d

theorem runWatchPoll_settles (books : Books) (bot : Bool) : Settles now (runWatchPoll now books bot) := by
  refine settles_quiet_bind (quiet_maybeRefreshStatusLimit books).attempt fun _ => ?_
  refine settles_attempt (keeps_checkWatched books.queue) false (fun r => ⟨_, rfl⟩) fun result => ?_
  cases result with
  | error e => exact settles_noteError e false (settles_fromDiscovery books bot false)
  | ok deferred => exact settles_fromDiscovery books bot deferred

end

end ProxmoxTool.Moderation.Requests
