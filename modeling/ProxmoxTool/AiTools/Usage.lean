import ProxmoxTool.AiTools.Chat
import ProxmoxTool.Lib.System

/-!
# The daily limit of the assistant

The model of `chat` in `routes/ai_chat.py`, as far as the daily limit goes: the check, the streaming generator with its exits, and the
usage row that is written after the last chunk.  A stream that ends in an error event or an exception, a client that is gone before the
end, and a commit that fails leave no row; a request that is still streaming has none yet.

`limit_kept` is the limit under the condition that every request of the user is accounted for when the next one is let in.  Then the
last request of a window has counted all the others.
-/

namespace ProxmoxTool.AiTools

/-! ### The generator -/

/-- What `generate` yields. -/
inductive Chunk
  | separator
  | text (s : String)
  | toolCall (call : Option Call)
  | toolResult
  | error
  | done

/-- How the loop goes on after a round; a round that is followed by another hands on the text so far. -/
inductive RoundExit
  | ended
  | refused
  | again (full : String)
  | finished

/-- One round: what it yields and how it ends.  A new round after a tool call is separated from the text before it. -/
def streamRound : List Event → (full round : String) → (anyTool refused : Bool) → List Chunk × RoundExit
  | [], full, round, anyTool, refused =>
    ([], if refused then .refused else if anyTool then .again (full ++ round) else .finished)
  | .text s :: es, full, round, anyTool, refused =>
    if round = "" ∧ full ≠ "" ∧ full.endsWith "\n" = false then
      let (chunks, exit) := streamRound es (full ++ "\n\n") (round ++ s) anyTool refused
      (.separator :: .text s :: chunks, exit)
    else
      let (chunks, exit) := streamRound es full (round ++ s) anyTool refused
      (.text s :: chunks, exit)
  | .toolUse c :: es, full, round, _, refused =>
    let (chunks, exit) := streamRound es full round true refused
    (.toolCall (some c) :: .toolResult :: chunks, exit)
  | .readTool _ :: es, full, round, _, refused =>
    let (chunks, exit) := streamRound es full round true refused
    (.toolCall none :: .toolResult :: chunks, exit)
  | .refusal :: es, full, round, anyTool, _ => streamRound es full round anyTool true
  | .done :: es, full, round, anyTool, refused => streamRound es full round anyTool refused
  | .error :: _, _, _, _, _ => ([.error, .done], .ended)
  | .raise :: _, _, _, _, _ => ([.error, .done], .ended)

/-- The chunks of a request, and whether the generator gets to the usage row after the last of them. -/
def streamChunks : Nat → List (List Event) → String → List Chunk × Bool
  | 0, _, _ => ([.done], true)
  | n + 1, rounds, full => match streamRound (rounds.headD []) full "" false false with
    | (chunks, .ended) => (chunks, false)
    | (chunks, .refused) => (chunks ++ [.error, .done], true)
    | (chunks, .finished) => (chunks ++ [.done], true)
    | (chunks, .again full) =>
      let (rest, completes) := streamChunks n rounds.tail full
      (chunks ++ rest, completes)

/-- A stream: the rounds of the model, after which chunk the client is gone, and whether the commit succeeds. -/
structure ChatStream where
  rounds : List (List Event)
  gone : Option Nat := none
  commits : Bool := true

/-- The usage row is written. -/
def ChatStream.persists (stream : ChatStream) : Bool :=
  let (chunks, completes) := streamChunks maxIterations stream.rounds ""
  completes && stream.commits && stream.gone.all fun taken => decide (chunks.length < taken)

/-! ### Requests -/

/-- A request that has been let in: when it was checked, when it reached the API, whether it is over, and its usage row. -/
structure Entry where
  user : Nat
  checkedAt : Int
  reachedAt : Option Int := none
  ended : Bool := false
  row : Option Int := none

/-- The usage rows (user and time) and the requests, in the order in which they were let in. -/
structure Usage where
  now : Int
  rows : List (Nat × Int)
  log : List Entry := []

inductive Label
  | chat (user : Nat) (now : Int) (hasMessage : Bool)
  | start (i : Nat) (now : Int)
  | abandon (i : Nat) (now : Int)
  | finish (i : Nat) (now : Int) (stream : ChatStream)

/-- Twenty-four hours, in microseconds. -/
def day : Int := 24 * 60 * 60 * 1000000

section

-- `int(Setting.get("ai_daily_request_limit"))`
variable (limit : Int)

/-- `_check_rate_limit`. -/
def checkRateLimit (rows : List (Nat × Int)) (user : Nat) (now : Int) : Bool :=
  decide (limit ≤ rows.countP fun row => decide (row.1 = user ∧ now - day ≤ row.2))

def chat (s : Usage) (user : Nat) (now : Int) (hasMessage : Bool) : Usage :=
  if hasMessage = false ∨ checkRateLimit limit s.rows user now = true then { s with now := now }
  else { s with now := now, log := s.log ++ [{ user := user, checkedAt := now }] }

/-- The next request, the first chunk of one, a request that is over before its first chunk, or the end of a stream. -/
def usageStep (s : Usage) : Label → Option Usage
  | .chat user now hasMessage => if s.now ≤ now then some (chat limit s user now hasMessage) else none
  | .start i now => (s.log[i]?).bind fun q =>
    if s.now ≤ now ∧ q.reachedAt = none ∧ q.ended = false then
      some { s with now := now, log := s.log.set i { q with reachedAt := some now } }
    else none
  | .abandon i now => (s.log[i]?).bind fun q =>
    if s.now ≤ now ∧ q.reachedAt = none ∧ q.ended = false then
      some { s with now := now, log := s.log.set i { q with ended := true } }
    else none
  | .finish i now stream => (s.log[i]?).bind fun q =>
    if s.now ≤ now ∧ q.reachedAt ≠ none ∧ q.ended = false then
      if stream.persists then
        some { s with
          now := now, rows := s.rows ++ [(q.user, now)], log := s.log.set i { q with ended := true, row := some now } }
      else some { s with now := now, log := s.log.set i { q with ended := true } }
    else none

def usageSystem : System Usage Label where
  init s := s.log = []
  step := usageStep limit

/-- At a time, the request has its usage row, has reached the API more than a day ago, or is over without having reached it. -/
def Entry.accounted (now : Int) (q : Entry) : Prop :=
  match q.reachedAt with
  | none => q.ended = true
  | some reached => reached < now - day ∨ q.row ≠ none

instance (now : Int) (q : Entry) : Decidable (q.accounted now) :=
  match h : q.reachedAt with
  | none => decidable_of_iff (q.ended = true) (by rw [Entry.accounted, h])
  | some reached => decidable_of_iff (reached < now - day ∨ q.row ≠ none) (by rw [Entry.accounted, h])

/-- When a request is let in, the others of its user are accounted for. -/
def accountedFor (s : Usage) : Label → Prop
  | .chat user now hasMessage => hasMessage = true → checkRateLimit limit s.rows user now = false →
      ∀ q ∈ s.log, q.user = user → q.accounted now
  | _ => True

instance (s : Usage) (e : Label) : Decidable (accountedFor limit s e) :=
  match e with
  | .chat user now hasMessage => inferInstanceAs (Decidable (hasMessage = true → checkRateLimit limit s.rows user now = false →
      ∀ q ∈ s.log, q.user = user → q.accounted now))
  | .start _ _ | .abandon _ _ | .finish _ _ _ => inferInstanceAs (Decidable True)

/-- The request is of the user and has reached the API since a time. -/
def Entry.since (user : Nat) (start : Int) (q : Entry) : Bool :=
  decide (q.user = user) && q.reachedAt.any fun reached => decide (start ≤ reached)

/-- The request is of the user and has reached the API in the day from a time. -/
def Entry.within (user : Nat) (start : Int) (q : Entry) : Bool :=
  decide (q.user = user) && q.reachedAt.any fun reached => decide (start ≤ reached ∧ reached ≤ start + day)

/-- In no day have more requests of a user reached the API than the limit. -/
def LimitKept (s : Usage) : Prop := ∀ user start, s.log.countP (Entry.within user start) ≤ limit.toNat

end

/-! ### The last request of a day -/

/-- What a step may make of a request: one that is over stays over, and only one that is still open may reach the API. -/
structure Advanced (q q' : Entry) : Prop where
  user : q'.user = q.user
  checkedAt : q'.checkedAt = q.checkedAt
  ended : q.ended = true → q'.ended = true
  reached : q'.reachedAt = q.reachedAt ∨ (q.reachedAt = none ∧ q.ended = false)

theorem Advanced.refl (q : Entry) : Advanced q q := ⟨rfl, rfl, id, .inl rfl⟩

/-- What the check of a request has left of those before it: those of its user that have not reached the API are over, and fewer than
the limit had reached it in the day before. -/
structure LetIn (limit : Int) (before : List Entry) (q : Entry) : Prop where
  closed : ∀ p ∈ before, p.user = q.user → p.reachedAt = none → p.ended = true
  count : (before.countP (Entry.since q.user (q.checkedAt - day)) : Int) < limit

/-- Every request of a log was let in after those before it. -/
def Ordered (limit : Int) (log : List Entry) : Prop := ∀ before q after, log = before ++ q :: after → LetIn limit before q

/-- When it was checked, when it reached the API, when its row was written. -/
structure Times (now : Int) (q : Entry) : Prop where
  checked : q.checkedAt ≤ now
  reached : ∀ t, q.reachedAt = some t → q.checkedAt ≤ t ∧ t ≤ now
  row : ∀ t, q.row = some t → q.ended = true ∧ ∃ t', q.reachedAt = some t' ∧ t' ≤ t

/-- The request has a usage row since a time. -/
def Entry.rowSince (user : Nat) (start : Int) (q : Entry) : Bool :=
  decide (q.user = user) && q.row.any fun row => decide (start ≤ row)

structure UsageInv (limit : Int) (s : Usage) : Prop where
  times : ∀ q ∈ s.log, Times s.now q
  rows : ∀ user start, s.log.countP (Entry.rowSince user start) ≤
    s.rows.countP fun row => decide (row.1 = user ∧ start ≤ row.2)
  ordered : Ordered limit s.log

section

variable {limit : Int} {s s' : Usage}

theorem Times.later {now now' : Int} {q : Entry} (h : Times now q) (hle : now ≤ now') : Times now' q :=
  ⟨Int.le_trans h.checked hle, fun t ht => ⟨(h.reached t ht).1, Int.le_trans (h.reached t ht).2 hle⟩, h.row⟩

/-- A request that is over without a new row. -/
theorem Advanced.over (q : Entry) : Advanced q { q with ended := true } := ⟨rfl, rfl, fun _ => rfl, .inl rfl⟩

theorem Times.over {now : Int} {q : Entry} (h : Times now q) : Times now { q with ended := true } :=
  ⟨h.checked, h.reached, fun t ht => ⟨rfl, (h.row t ht).2⟩⟩

theorem forall₂_split {R : Entry → Entry → Prop} {l before after : List Entry} {q' : Entry}
    (h : List.Forall₂ R l (before ++ q' :: after)) :
    ∃ before₀ q after₀, l = before₀ ++ q :: after₀ ∧ List.Forall₂ R before₀ before ∧ R q q' := by
  induction before generalizing l with
  | nil =>
    cases h with
    | cons hq hrest => exact ⟨[], _, _, rfl, .nil, hq⟩
  | cons b before ih =>
    cases h with
    | cons hb hrest =>
      obtain ⟨before₀, q, after₀, rfl, hbefore, hq⟩ := ih hrest
      exact ⟨_ :: before₀, q, after₀, rfl, .cons hb hbefore, hq⟩

/-- Advancing the requests before one keeps what its check has left. -/
theorem LetIn.advance {before before' : List Entry} {q q' : Entry} (h : LetIn limit before q) (hq : Advanced q q')
    (hbefore : List.Forall₂ Advanced before before') : LetIn limit before' q' := by
  have hcount : before'.countP (Entry.since q'.user (q'.checkedAt - day)) ≤
      before.countP (Entry.since q.user (q.checkedAt - day)) ∧
      ∀ p ∈ before', p.user = q'.user → p.reachedAt = none → p.ended = true := by
    obtain ⟨hover, -⟩ := h
    rw [hq.user, hq.checkedAt]
    induction hbefore with
    | nil => exact ⟨le_rfl, fun p hp => by cases hp⟩
    | @cons p p' before before' hp _ ih =>
      obtain ⟨hle, hall⟩ := ih fun r hr => hover r (List.mem_cons_of_mem _ hr)
      have hpover := hover p List.mem_cons_self
      have hsame : p.user = q.user → p'.reachedAt = p.reachedAt := by
        intro huser
        rcases hp.reached with hreached | ⟨hnone, hopen⟩
        · exact hreached
        · rw [hpover huser hnone] at hopen
          cases hopen
      have hsince : Entry.since q.user (q.checkedAt - day) p' = Entry.since q.user (q.checkedAt - day) p := by
        unfold Entry.since
        rw [hp.user]
        by_cases huser : p.user = q.user
        · rw [hsame huser]
        · rw [decide_eq_false huser, Bool.false_and, Bool.false_and]
      refine ⟨?_, fun r hr huser hnone => ?_⟩
      · rw [List.countP_cons, List.countP_cons, hsince]
        omega
      · rcases List.mem_cons.1 hr with rfl | hr
        · rw [hp.user] at huser
          exact hp.ended (hpover huser (hsame huser ▸ hnone))
        · exact hall r hr huser hnone
  have hlt := h.count
  refine ⟨hcount.2, ?_⟩
  omega

theorem Ordered.advance {log log' : List Entry} (h : Ordered limit log) (hadvance : List.Forall₂ Advanced log log') :
    Ordered limit log' := by
  rintro before q' after rfl
  obtain ⟨before₀, q, after₀, rfl, hbefore, hq⟩ := forall₂_split hadvance
  exact (h before₀ q after₀ rfl).advance hq hbefore

theorem Ordered.append {log : List Entry} {q : Entry} (h : Ordered limit log) (hq : LetIn limit log q) :
    Ordered limit (log ++ [q]) := by
  intro before p after heq
  rcases List.eq_nil_or_concat after with rfl | ⟨after', last, rfl⟩
  · obtain ⟨rfl, hlast⟩ := List.append_inj' heq rfl
    obtain rfl := List.head_eq_of_cons_eq hlast
    exact hq
  · rw [List.concat_eq_append, ← List.cons_append, ← List.append_assoc] at heq
    exact h before p after' (List.append_inj' heq rfl).1

/-- At most the limit: the last request of the day has counted the others. -/
theorem Ordered.limitKept {now : Int} {log : List Entry} (h : Ordered limit log) (htimes : ∀ q ∈ log, Times now q)
    (user : Nat) (start : Int) : log.countP (Entry.within user start) ≤ limit.toNat := by
  induction log using List.reverseRecOn with
  | nil => exact Nat.zero_le _
  | append_singleton log q ih =>
    have hinit : Ordered limit log := by
      intro before p after heq
      exact h before p (after ++ [q]) (by rw [heq, List.append_assoc, List.cons_append])
    have hle := ih hinit fun p hp => htimes p (List.mem_append_left _ hp)
    rw [List.countP_append, List.countP_singleton]
    split
    · rename_i hwithin
      have hletin := (h log q [] rfl).count
      unfold Entry.within at hwithin
      rw [Bool.and_eq_true, decide_eq_true_eq, Option.any_eq_true] at hwithin
      obtain ⟨huser, reached, hreached, hday⟩ := hwithin
      rw [decide_eq_true_eq] at hday
      have hchecked := ((htimes q (by simp)).reached reached hreached).1
      -- the others of the day are since a day before the check
      have hmono : log.countP (Entry.within user start) ≤ log.countP (Entry.since q.user (q.checkedAt - day)) := by
        refine List.countP_mono_left fun p hp hin => ?_
        unfold Entry.within at hin
        unfold Entry.since
        rw [Bool.and_eq_true, decide_eq_true_eq, Option.any_eq_true] at hin ⊢
        obtain ⟨hpuser, t, ht, hin⟩ := hin
        rw [decide_eq_true_eq] at hin
        refine ⟨hpuser.trans huser.symm, t, ht, ?_⟩
        rw [decide_eq_true_eq]
        omega
      omega
    · omega

/-! ### Runs -/

theorem split_at {log : List Entry} {i : Nat} {q : Entry} (h : log[i]? = some q) :
    ∃ before after, log = before ++ q :: after ∧ ∀ q', log.set i q' = before ++ q' :: after := by
  induction log generalizing i with
  | nil => cases h
  | cons p log ih =>
    cases i with
    | zero =>
      cases h
      exact ⟨[], log, rfl, fun q' => rfl⟩
    | succ i =>
      obtain ⟨before, after, rfl, hset⟩ := ih h
      exact ⟨p :: before, after, rfl, fun q' => by rw [List.set_cons_succ, hset, List.cons_append]⟩

theorem forall₂_refl (log : List Entry) : List.Forall₂ Advanced log log := by
  induction log with
  | nil => exact .nil
  | cons q log ih => exact .cons (Advanced.refl q) ih

theorem advance_set (before after : List Entry) {q q' : Entry} (h : Advanced q q') :
    List.Forall₂ Advanced (before ++ q :: after) (before ++ q' :: after) := by
  induction before with
  | nil => exact .cons h (forall₂_refl after)
  | cons p before ih => exact .cons (Advanced.refl p) ih

/-- One request advances, and gets a row if one is written for it. -/
theorem UsageInv.set (h : UsageInv limit s) {i : Nat} {q q' : Entry} (hq : s.log[i]? = some q) (hadvance : Advanced q q')
    (hnow : s.now ≤ s'.now) (htimes : Times s'.now q') (hlog : s'.log = s.log.set i q')
    (hrows : (q'.row = q.row ∧ s'.rows = s.rows) ∨ ∃ t, q.row = none ∧ q'.row = some t ∧ s'.rows = s.rows ++ [(q.user, t)]) :
    UsageInv limit s' := by
  obtain ⟨before, after, hsplit, hset⟩ := split_at hq
  rw [hset] at hlog
  have hold : ∀ p ∈ s.log, Times s'.now p := fun p hp => (h.times p hp).later hnow
  refine ⟨fun p hp => ?_, fun user start => ?_, ?_⟩
  · rw [hlog] at hp
    rcases List.mem_append.1 hp with hp | hp
    · exact hold p (hsplit ▸ List.mem_append_left _ hp)
    · rcases List.mem_cons.1 hp with rfl | hp
      · exact htimes
      · exact hold p (hsplit ▸ List.mem_append_right _ (List.mem_cons_of_mem _ hp))
  · have hbefore := h.rows user start
    rw [hsplit, List.countP_append, List.countP_cons] at hbefore
    rw [hlog, List.countP_append, List.countP_cons]
    rcases hrows with ⟨hrow, hsame⟩ | ⟨t, hnone, hrow, happend⟩
    · have hone : Entry.rowSince user start q' = Entry.rowSince user start q := by
        unfold Entry.rowSince
        rw [hrow, hadvance.user]
      rw [hone, hsame]
      exact hbefore
    · have hone : Entry.rowSince user start q' = decide (q.user = user ∧ start ≤ t) := by
        unfold Entry.rowSince
        rw [hrow, hadvance.user, Option.any_some, Bool.decide_and]
      rw [happend, List.countP_append, List.countP_singleton, hone]
      dsimp only
      omega
  · rw [hlog]
    exact (hsplit ▸ h.ordered).advance (advance_set before after hadvance)

/-- A request that is let in with the others accounted for has counted them. -/
theorem letIn_of_accounted (h : UsageInv limit s) {user : Nat} {now : Int} (hcheck : checkRateLimit limit s.rows user now = false)
    (haccounted : ∀ q ∈ s.log, q.user = user → q.accounted now) : LetIn limit s.log { user := user, checkedAt := now } := by
  refine ⟨fun p hp huser hnone => ?_, ?_⟩
  · have hdone := haccounted p hp huser
    unfold Entry.accounted at hdone
    rw [hnone] at hdone
    exact hdone
  · have hmono : s.log.countP (Entry.since user (now - day)) ≤ s.log.countP (Entry.rowSince user (now - day)) := by
      refine List.countP_mono_left fun p hp hsince => ?_
      unfold Entry.since at hsince
      unfold Entry.rowSince
      rw [Bool.and_eq_true, decide_eq_true_eq, Option.any_eq_true] at hsince ⊢
      obtain ⟨huser, t, ht, hle⟩ := hsince
      rw [decide_eq_true_eq] at hle
      have hdone := haccounted p hp huser
      unfold Entry.accounted at hdone
      rw [ht] at hdone
      dsimp only at hdone
      have hrow : p.row ≠ none := hdone.resolve_left (by omega)
      obtain ⟨row, hrow⟩ := Option.ne_none_iff_exists'.1 hrow
      obtain ⟨-, t', ht', hle'⟩ := (h.times p hp).row row hrow
      rw [ht, Option.some_inj] at ht'
      refine ⟨huser, row, hrow, ?_⟩
      rw [decide_eq_true_eq]
      omega
    have hrows := h.rows user (now - day)
    unfold checkRateLimit at hcheck
    rw [decide_eq_false_iff_not, Int.not_le] at hcheck
    dsimp only
    omega

theorem UsageInv.step (h : UsageInv limit s) {e : Label} (hok : accountedFor limit s e) (hs : usageStep limit s e = some s') :
    UsageInv limit s' := by
  cases e with
  | chat user now hasMessage =>
    obtain ⟨hnow, hchat⟩ := Option.ite_none_right_eq_some.1 hs
    obtain rfl := Option.some.inj hchat
    unfold chat
    split
    · exact ⟨fun q hq => (h.times q hq).later hnow, h.rows, h.ordered⟩
    · rename_i hadmitted
      rw [not_or] at hadmitted
      have hmessage : hasMessage = true := by simpa using hadmitted.1
      have hcheck : checkRateLimit limit s.rows user now = false := by simpa using hadmitted.2
      refine ⟨fun q hq => ?_, fun user' start => ?_, h.ordered.append (letIn_of_accounted h hcheck (hok hmessage hcheck))⟩
      · rcases List.mem_append.1 hq with hq | hq
        · exact (h.times q hq).later hnow
        · obtain rfl := List.mem_singleton.1 hq
          exact ⟨Int.le_refl _, fun t ht => (by cases ht), fun t ht => (by cases ht)⟩
      · have hrows := h.rows user' start
        have hnew : Entry.rowSince user' start { user := user, checkedAt := now } = false := by
          unfold Entry.rowSince
          exact Bool.and_false _
        rw [List.countP_append, List.countP_singleton, hnew]
        exact hrows
  | start i now =>
    obtain ⟨q, hq, hstep⟩ := Option.bind_eq_some_iff.1 hs
    obtain ⟨⟨hnow, hnone, hopen⟩, hstep⟩ := Option.ite_none_right_eq_some.1 hstep
    obtain rfl := Option.some.inj hstep
    have hold := h.times q (List.mem_of_getElem? hq)
    have hadvance : Advanced q { q with reachedAt := some now } := ⟨rfl, rfl, id, .inr ⟨hnone, hopen⟩⟩
    refine h.set hq hadvance hnow ⟨Int.le_trans hold.checked hnow, fun t ht => ?_, fun t ht => ?_⟩ rfl (.inl ⟨rfl, rfl⟩)
    · cases ht
      exact ⟨Int.le_trans hold.checked hnow, Int.le_refl _⟩
    · obtain ⟨-, t', ht', -⟩ := hold.row t ht
      rw [hnone] at ht'
      cases ht'
  | abandon i now =>
    obtain ⟨q, hq, hstep⟩ := Option.bind_eq_some_iff.1 hs
    obtain ⟨⟨hnow, -, -⟩, hstep⟩ := Option.ite_none_right_eq_some.1 hstep
    obtain rfl := Option.some.inj hstep
    have hold := (h.times q (List.mem_of_getElem? hq)).later hnow
    exact h.set hq (Advanced.over q) hnow hold.over rfl (.inl ⟨rfl, rfl⟩)
  | finish i now stream =>
    obtain ⟨q, hq, hstep⟩ := Option.bind_eq_some_iff.1 hs
    obtain ⟨⟨hnow, hreached, hopen⟩, hstep⟩ := Option.ite_none_right_eq_some.1 hstep
    have hold := (h.times q (List.mem_of_getElem? hq)).later hnow
    split at hstep
    · obtain rfl := Option.some.inj hstep
      have hrow : q.row = none := by
        by_contra hsome
        obtain ⟨t, ht⟩ := Option.ne_none_iff_exists'.1 hsome
        rw [(hold.row t ht).1] at hopen
        cases hopen
      obtain ⟨t, ht⟩ := Option.ne_none_iff_exists'.1 hreached
      have hadvance : Advanced q { q with ended := true, row := some now } := ⟨rfl, rfl, fun _ => rfl, .inl rfl⟩
      refine h.set hq hadvance hnow ⟨hold.checked, hold.reached, fun t' ht' => ?_⟩ rfl (.inr ⟨now, hrow, rfl, rfl⟩)
      have hnow' : now = t' := Option.some.inj ht'
      exact ⟨rfl, t, ht, hnow' ▸ (hold.reached t ht).2⟩
    · obtain rfl := Option.some.inj hstep
      exact h.set hq (Advanced.over q) hnow hold.over rfl (.inl ⟨rfl, rfl⟩)

/-- In every run in which every request of a user is accounted for when the next one is let in, no more requests of a user reach the API
in a day than the limit. -/
theorem limit_kept (h : (usageSystem limit).Reach (accountedFor limit) s) : LimitKept limit s := by
  have hinv : UsageInv limit s := by
    refine System.Reach.invariant (I := UsageInv limit) ?_ (fun s e s' hs hok hstep => hs.step hok hstep) h
    intro s hlog
    have hnil : s.log = [] := hlog
    refine ⟨fun q hq => ?_, fun user start => ?_, fun before q after heq => ?_⟩
    · rw [hnil] at hq
      cases hq
    · rw [hnil]
      exact Nat.zero_le _
    · rw [hnil] at heq
      cases before <;> cases heq
  exact fun user start => hinv.ordered.limitKept hinv.times user start

end

/-! ### A limit of one -/

/-- A request that is answered, and a second one that is refused. -/
def exampleLabels : List Label :=
  [.chat 7 0 true, .start 0 1, .finish 0 2 { rounds := [[.text "Hi", .done]] }, .chat 7 3 true]

theorem example_limit : ∃ s, (usageSystem 1).exec ⟨0, [], []⟩ exampleLabels = some s ∧ LimitKept 1 s := by
  have hinit : (usageSystem 1).Reach (accountedFor 1) ⟨0, [], []⟩ := System.Reach.init rfl
  have hguarded : ((usageSystem 1).guarded (accountedFor 1)).exec ⟨0, [], []⟩ exampleLabels = some _ := rfl
  exact ⟨_, rfl, limit_kept (hinit.guarded_exec hguarded)⟩

/-- A request whose stream ends in an error leaves no row, and a second one reaches the API. -/
theorem example_exceeded : ∃ s, (usageSystem 1).exec ⟨0, [], []⟩ [.chat 7 0 true, .start 0 1, .finish 0 2 { rounds := [[.error]] },
    .chat 7 3 true, .start 1 4] = some s ∧ ¬ LimitKept 1 s := by
  refine ⟨_, rfl, fun hkept => ?_⟩
  have hle := hkept 7 0
  revert hle
  decide

end ProxmoxTool.AiTools
