import ProxmoxTool.GuestAgent.Exec
import Mathlib.Data.Nat.Find
import Mathlib.Tactic.ByContra

/-!
# Streaming a long command out of a guest

`exec_guest_agent_streaming` starts the command detached, with its output in a log file and its exit code in an rc file
inside the guest, and tails the log with short polls.  The poll's snippet ends in the AND-list
`[ "$S" -gt offset ] && tail … | head …`, so a poll that finds no new byte exits with status 1, which
`exec_guest_agent` reports as an error and the loop counts as a failed poll.

The guest's side is a `GuestRun` and the moments at which the polls look at it are `PollTimes`.  The result of this
file is the exact condition (`Lively`) under which the exit code and the whole log come back.
-/

namespace ProxmoxTool.GuestAgent

def guestExecPollFailures : Nat := 5

/-- The inputs of one streaming call besides the command: the API's answers to the launch and to the poll of round
`k` with a given offset, the answer of `stop_fn` in round `k`, and the clock when the deadline is set and at the end
of round `k`.  (The answers to the kill and cleanup commands are not looked at.) -/
structure Session where
  launch : AgentCall
  poll : Nat → Nat → AgentCall
  stopFn : Nat → Bool
  start : Nat
  clock : Nat → Nat

/-! ### The loop of the source -/

def logFile (token : Text) : Text := "/run/lambnet-exec-".toList ++ token ++ ".log".toList

def launchMessage (err : Text) : Text :=
  "\n[Agent Error] Could not start the command in the guest: ".toList ++ err ++ "\n".toList

def cancelMessage : Text := "\n[Cancelled: sent SIGTERM to the process group in the guest]\n".toList

def lostMessage (err : Option Text) (token : Text) : Text :=
  "\n[Agent Error] Lost contact with the guest agent while the command was running (".toList ++
    (match err with
      | some e => if e = [] then "unreadable poll output".toList else e
      | none => "unreadable poll output".toList) ++
    "). The command may still be running in the guest; its output is in ".toList ++ logFile token ++ ".\n".toList

def timeoutMessage (timeout : Nat) (token : Text) : Text :=
  "\n[Timeout] Still running after ".toList ++ natText timeout ++
    "s; left running in the guest. Its output continues in ".toList ++ logFile token ++ ".\n".toList

/-- The `while True` loop from round `k` on: the returned exit code and everything passed to `callback`, or `none`
when `fuel` rounds were not enough. -/
def streamLoop (s : Session) (token : Text) (timeout : Nat) :
    (fuel k offset failures : Nat) → (sent : List Text) → Option (Option Int × List Text)
  | 0, _, _, _, _ => none
  | fuel + 1, k, offset, failures, sent =>
    if s.stopFn k then some (none, sent ++ [cancelMessage])
    else
      let (out, err) := execGuestAgent (s.poll k offset) 60
      match if err.isNone then parseGuestExecPoll out else none with
      -- a poll that exits 1 comes here too, and its output is dropped
      | none =>
        if guestExecPollFailures ≤ failures + 1 then some (none, sent ++ [lostMessage err token])
        else streamLoop s token timeout fuel (k + 1) offset (failures + 1) sent
      | some (rc, size, chunk) =>
        let sent := if chunk = [] then sent else sent ++ [chunk]
        match rc with
        | some code => some (some code, sent)
        | none =>
          if s.start + timeout ≤ s.clock k then some (none, sent ++ [timeoutMessage timeout token])
          else streamLoop s token timeout fuel (k + 1) (max offset size.toNat) 0 sent

def execGuestAgentStreaming (s : Session) (token : Text) (timeout fuel : Nat) : Option (Option Int × List Text) :=
  match (execGuestAgent s.launch 60).2 with
  | some err => some (none, [launchMessage err])
  | none => streamLoop s token timeout fuel 0 0 0 []

/-! ### The guest -/

/-- A run of the launched command: it writes `log` and then the exit code `code`.  At time `t` the first `written t`
bytes of the log are on disk, and the rc file exists from `endTime` on, when the log is complete. -/
structure GuestRun where
  log : Text
  code : Nat
  endTime : Nat
  written : Nat → Nat
  written_mono : ∀ s t, s ≤ t → written s ≤ written t
  written_le : ∀ t, written t ≤ log.length
  written_end : ∀ t, endTime ≤ t → written t = log.length

/-- The moments of poll `k`: its snippet reads the rc file, then the log's size, then the log, and the round ends; the
next poll comes later (the loop sleeps between polls). -/
structure PollTimes where
  readRc : Nat → Nat
  readSize : Nat → Nat
  readLog : Nat → Nat
  check : Nat → Nat
  readRc_le : ∀ k, readRc k ≤ readSize k
  readSize_le : ∀ k, readSize k ≤ readLog k
  readLog_le : ∀ k, readLog k ≤ check k
  check_lt : ∀ k, check k < readRc (k + 1)

/-- Output and exit status of the snippet of poll `k`.  The status is that of the AND-list. -/
def pollSnippet (g : GuestRun) (p : PollTimes) (k offset : Nat) : Text × Int :=
  let rc := if g.endTime ≤ p.readRc k then some g.code else none
  let size := g.written (p.readSize k)
  if offset < size then
    (pollHeader rc size ++ ((g.log.take (g.written (p.readLog k))).drop offset).take (size - offset), 0)
  else (pollHeader rc size, 1)

/-- The call meets the run `g` at the times `p`: the launch succeeds, every poll is delivered and answered with what
its snippet prints and its exit status, and `stop_fn` never fires. -/
structure Follows (s : Session) (g : GuestRun) (p : PollTimes) : Prop where
  launched : ∃ out, Answered s.launch 60 out 0
  polled : ∀ k offset, Answered (s.poll k offset) 60 (pollSnippet g p k offset).1 (pollSnippet g p k offset).2
  not_stopped : ∀ k, s.stopFn k = false
  clock : ∀ k, s.clock k = p.check k

/-- The log size the polls before poll `k` have seen. -/
def seenBefore (g : GuestRun) (p : PollTimes) : Nat → Nat
  | 0 => 0
  | k + 1 => g.written (p.readSize k)

/-- Poll `k` sees no byte that the polls before it have not seen. -/
def Quiet (g : GuestRun) (p : PollTimes) (k : Nat) : Prop := g.written (p.readSize k) = seenBefore g p k

instance (g : GuestRun) (p : PollTimes) (k : Nat) : Decidable (Quiet g p k) := inferInstanceAs (Decidable (_ = _))

/-- The number of polls directly before poll `k` that were quiet in a row. -/
def quietStreak (g : GuestRun) (p : PollTimes) : Nat → Nat
  | 0 => 0
  | k + 1 => if Quiet g p k then quietStreak g p k + 1 else 0

/-- The first poll that reads the rc file also sees new bytes of the log, before it there are never five quiet polls
in a row, and no poll before it that sees new bytes ends past the deadline. -/
def Lively (g : GuestRun) (p : PollTimes) (deadline : Nat) : Prop :=
  ∃ n, g.endTime ≤ p.readRc n ∧ ¬ Quiet g p n ∧
    ∀ k < n, p.readRc k < g.endTime ∧ quietStreak g p (k + 1) < guestExecPollFailures ∧
      (¬ Quiet g p k → p.check k < deadline)

/-! ### One round -/

section

variable {s : Session} {g : GuestRun} {p : PollTimes}

private theorem seenBefore_le (g : GuestRun) (p : PollTimes) (k : Nat) :
    seenBefore g p k ≤ g.written (p.readSize k) := by
  cases k with
  | zero => exact Nat.zero_le _
  | succ k =>
    apply g.written_mono
    have h1 := p.readSize_le k
    have h2 := p.readLog_le k
    have h3 := p.check_lt k
    have h4 := p.readRc_le (k + 1)
    omega

private theorem PollTimes.readRc_lt (p : PollTimes) (k : Nat) : p.readRc k < p.readRc (k + 1) := by
  have h1 := p.readRc_le k
  have h2 := p.readSize_le k
  have h3 := p.readLog_le k
  have h4 := p.check_lt k
  omega

private theorem readRc_ge (p : PollTimes) (k : Nat) : k ≤ p.readRc k := by
  induction k with
  | zero => exact Nat.zero_le _
  | succ k ih =>
    have h1 := p.readRc_lt k
    omega

private theorem readRc_mono (p : PollTimes) {j k : Nat} (h : j ≤ k) : p.readRc j ≤ p.readRc k := by
  induction h with
  | refl => exact Nat.le_refl _
  | @step k _ ih =>
    show p.readRc j ≤ p.readRc (k + 1)
    have h1 := p.readRc_lt k
    omega

/-- A quiet poll exits with status 1, so the round counts as a failure although the poll was answered. -/
private theorem streamLoop_quiet (h : Follows s g p) (token : Text) (timeout fuel k failures : Nat)
    (sent : List Text) (hq : Quiet g p k) :
    ∃ msg, streamLoop s token timeout (fuel + 1) k (seenBefore g p k) failures sent =
      if guestExecPollFailures ≤ failures + 1 then some (none, sent ++ [msg])
      else streamLoop s token timeout fuel (k + 1) (seenBefore g p k) (failures + 1) sent := by
  have hs : pollSnippet g p k (seenBefore g p k) =
      (pollHeader (if g.endTime ≤ p.readRc k then some g.code else none) (g.written (p.readSize k)), 1) := by
    unfold pollSnippet
    unfold Quiet at hq
    simp only [hq, Nat.lt_irrefl, if_false]
  have ha := h.polled k (seenBefore g p k)
  rw [hs] at ha
  obtain ⟨e, he⟩ := execGuestAgent_of_answered ha
  refine ⟨lostMessage (some e) token, ?_⟩
  simp only [streamLoop, h.not_stopped, he]
  simp

/-- A poll that sees new bytes hands them on, returns the exit code if the rc file was there, and else looks at the
deadline. -/
private theorem streamLoop_news (h : Follows s g p) (token : Text) (timeout fuel k failures : Nat)
    (sent : List Text) (hq : ¬ Quiet g p k) :
    streamLoop s token timeout (fuel + 1) k (seenBefore g p k) failures sent =
      let sent' := sent ++ [(g.log.take (seenBefore g p (k + 1))).drop (seenBefore g p k)]
      if g.endTime ≤ p.readRc k then some (some (g.code : Int), sent')
      else if s.start + timeout ≤ p.check k then some (none, sent' ++ [timeoutMessage timeout token])
      else streamLoop s token timeout fuel (k + 1) (seenBefore g p (k + 1)) 0 sent' := by
  have hlt : seenBefore g p k < g.written (p.readSize k) := by
    have := seenBefore_le g p k
    unfold Quiet at hq
    omega
  have hle : g.written (p.readSize k) ≤ g.written (p.readLog k) := g.written_mono _ _ (p.readSize_le k)
  have hlen : seenBefore g p (k + 1) ≤ g.log.length := g.written_le _
  have hchunk : ((g.log.take (g.written (p.readLog k))).drop (seenBefore g p k)).take
      (g.written (p.readSize k) - seenBefore g p k) =
      (g.log.take (seenBefore g p (k + 1))).drop (seenBefore g p k) := by
    rw [← List.drop_take, List.take_take, Nat.min_eq_left hle]; rfl
  have hne : (g.log.take (seenBefore g p (k + 1))).drop (seenBefore g p k) ≠ [] := by
    intro h0
    have := congrArg List.length h0
    rw [List.length_drop, List.length_take, Nat.min_eq_left hlen, List.length_nil] at this
    exact absurd this (Nat.sub_ne_zero_of_lt hlt)
  have hs : pollSnippet g p k (seenBefore g p k) =
      (pollHeader (if g.endTime ≤ p.readRc k then some g.code else none) (g.written (p.readSize k)) ++
        (g.log.take (seenBefore g p (k + 1))).drop (seenBefore g p k), 0) := by
    unfold pollSnippet
    simp only [hlt, if_true, hchunk]
  have ha := h.polled k (seenBefore g p k)
  rw [hs] at ha
  obtain ⟨e, he⟩ := execGuestAgent_of_answered ha
  have hmax : max (seenBefore g p k) (g.written (p.readSize k)) = seenBefore g p (k + 1) :=
    Nat.max_eq_right (Nat.le_of_lt hlt)
  simp only [streamLoop, h.not_stopped, he, if_true, Option.isNone_none, parseGuestExecPoll_header, h.clock]
  by_cases hend : g.endTime ≤ p.readRc k
  · simp [hend, hne]
  · simp [hend, hne, hmax]

/-- More fuel does not change a result. -/
private theorem streamLoop_fuel {token : Text} {timeout : Nat} {r : Option Int × List Text} (d : Nat) :
    ∀ {fuel k offset failures : Nat} {sent : List Text},
      streamLoop s token timeout fuel k offset failures sent = some r →
      streamLoop s token timeout (fuel + d) k offset failures sent = some r := by
  intro fuel
  induction fuel with
  | zero => intro k offset failures sent h; simp [streamLoop] at h
  | succ fuel ih =>
    intro k offset failures sent h
    rw [Nat.add_right_comm]
    simp only [streamLoop] at h ⊢
    split at h
    · rename_i hs; rw [if_pos hs]; exact h
    · rename_i hs
      rw [if_neg hs]
      split at h
      · split at h
        · rename_i hf; rw [if_pos hf]; exact h
        · rename_i hf; rw [if_neg hf]; exact ih h
      · rename_i rc size chunk _
        cases rc with
        | some code => exact h
        | none =>
          dsimp only at h ⊢
          split at h
          · rename_i hd; rw [if_pos hd]; exact h
          · rename_i hd; rw [if_neg hd]; exact ih h

/-! ### The whole call -/

/-- Poll `k` lets the loop go on: quiet, and the failures stay below the limit, or with new bytes, and neither the rc
file was there nor the deadline is reached. -/
private def GoesOn (g : GuestRun) (p : PollTimes) (deadline k : Nat) : Prop :=
  if Quiet g p k then quietStreak g p (k + 1) < guestExecPollFailures
  else p.readRc k < g.endTime ∧ p.check k < deadline

private theorem seenBefore_succ_of_quiet {k : Nat} (hq : Quiet g p k) : seenBefore g p (k + 1) = seenBefore g p k := hq

/-- The loop's state before poll `k`, as long as the loop goes on: the offset is the size seen so far, the failure
counter is the streak of quiet polls, and exactly the bytes below the offset have been handed on. -/
private theorem streamLoop_reach (h : Follows s g p) (token : Text) (timeout : Nat) (k : Nat)
    (hk : ∀ j < k, GoesOn g p (s.start + timeout) j) :
    ∃ sent : List Text, sent.flatten = g.log.take (seenBefore g p k) ∧
      ∀ fuel, streamLoop s token timeout (fuel + k) 0 0 0 [] =
        streamLoop s token timeout fuel k (seenBefore g p k) (quietStreak g p k) sent := by
  induction k with
  | zero => exact ⟨[], by simp [seenBefore], fun _ => rfl⟩
  | succ k ih =>
    obtain ⟨sent, hsent, hloop⟩ := ih fun j hj => hk j (Nat.lt_succ_of_lt hj)
    have hgo := hk k (Nat.lt_succ_self k)
    unfold GoesOn at hgo
    by_cases hq : Quiet g p k
    · rw [if_pos hq] at hgo
      refine ⟨sent, by rw [seenBefore_succ_of_quiet hq]; exact hsent, fun fuel => ?_⟩
      have hs : quietStreak g p (k + 1) = quietStreak g p k + 1 := if_pos hq
      obtain ⟨msg, hmsg⟩ := streamLoop_quiet h token timeout fuel k (quietStreak g p k) sent hq
      rw [← Nat.add_assoc, Nat.add_right_comm, hloop, hmsg, ← hs, if_neg (by omega), seenBefore_succ_of_quiet hq]
    · rw [if_neg hq] at hgo
      refine ⟨sent ++ [(g.log.take (seenBefore g p (k + 1))).drop (seenBefore g p k)], ?_, fun fuel => ?_⟩
      · have hle : seenBefore g p k ≤ seenBefore g p (k + 1) := seenBefore_le g p k
        rw [List.flatten_append, hsent, List.flatten_singleton, List.drop_take,
          ← List.take_add, Nat.add_sub_cancel' hle]
      · have hs : quietStreak g p (k + 1) = 0 := if_neg hq
        rw [← Nat.add_assoc, Nat.add_right_comm, hloop, streamLoop_news h token timeout fuel k _ sent hq, hs]
        simp only [Nat.not_le.2 hgo.1, Nat.not_le.2 hgo.2, if_false]

/-- A poll that neither lets the loop go on nor returns the exit code ends it with an error. -/
private theorem streamLoop_fails (h : Follows s g p) (token : Text) (timeout : Nat) {k : Nat}
    (hk : ∀ j < k, GoesOn g p (s.start + timeout) j) (hno : ¬ GoesOn g p (s.start + timeout) k)
    (hend : g.endTime ≤ p.readRc k → Quiet g p k) :
    ∃ sent, ∀ fuel, streamLoop s token timeout (fuel + (k + 1)) 0 0 0 [] = some (none, sent) := by
  obtain ⟨sent, -, hloop⟩ := streamLoop_reach h token timeout k hk
  unfold GoesOn at hno
  by_cases hq : Quiet g p k
  · rw [if_pos hq, show quietStreak g p (k + 1) = quietStreak g p k + 1 from if_pos hq] at hno
    obtain ⟨msg, hmsg⟩ := streamLoop_quiet h token timeout 0 k (quietStreak g p k) sent hq
    refine ⟨sent ++ [msg], fun fuel => ?_⟩
    rw [if_pos (Nat.not_lt.1 hno)] at hmsg
    have := streamLoop_fuel fuel hmsg
    rw [Nat.zero_add, Nat.add_comm 1 fuel] at this
    rw [← Nat.add_assoc, Nat.add_right_comm, hloop, this]
  · have hrc : ¬ g.endTime ≤ p.readRc k := fun hle => hq (hend hle)
    rw [if_neg hq] at hno
    have hdl : s.start + timeout ≤ p.check k := by omega
    refine ⟨sent ++ [(g.log.take (seenBefore g p (k + 1))).drop (seenBefore g p k)] ++ [timeoutMessage timeout token],
      fun fuel => ?_⟩
    rw [← Nat.add_assoc, Nat.add_right_comm, hloop, streamLoop_news h token timeout fuel k _ sent hq]
    simp only [hrc, hdl, if_false, if_true]

/-- A poll with new bytes that reads the rc file returns the exit code, with the whole log handed on. -/
private theorem streamLoop_returns (h : Follows s g p) (token : Text) (timeout : Nat) {k : Nat}
    (hk : ∀ j < k, GoesOn g p (s.start + timeout) j) (hend : g.endTime ≤ p.readRc k) (hq : ¬ Quiet g p k) :
    ∃ sent : List Text, sent.flatten = g.log ∧
      ∀ fuel, streamLoop s token timeout (fuel + (k + 1)) 0 0 0 [] = some (some (g.code : Int), sent) := by
  obtain ⟨sent, hsent, hloop⟩ := streamLoop_reach h token timeout k hk
  refine ⟨sent ++ [(g.log.take (seenBefore g p (k + 1))).drop (seenBefore g p k)], ?_, fun fuel => ?_⟩
  · have hle : seenBefore g p k ≤ seenBefore g p (k + 1) := seenBefore_le g p k
    have hall : seenBefore g p (k + 1) = g.log.length := g.written_end _ (Nat.le_trans hend (p.readRc_le k))
    rw [List.flatten_append, hsent, List.flatten_singleton, List.drop_take,
      ← List.take_add, Nat.add_sub_cancel' hle, hall, List.take_length]
  · rw [← Nat.add_assoc, Nat.add_right_comm, hloop, streamLoop_news h token timeout fuel k _ sent hq]
    simp only [hend, if_true]

/-- From the first poll that reads the rc file on no new byte appears, so if that poll is quiet the loop runs into the
failure limit. -/
private theorem quiet_of_ended {n k : Nat} (hn : g.endTime ≤ p.readRc n) (hq : Quiet g p n) (hk : n ≤ k) :
    Quiet g p k := by
  cases k with
  | zero => rwa [Nat.le_zero.1 hk] at hq
  | succ k =>
    rcases Nat.eq_or_lt_of_le hk with rfl | hlt
    · exact hq
    · have hsize : ∀ j, n ≤ j → g.written (p.readSize j) = g.log.length := by
        intro j hj
        apply g.written_end
        have h1 := readRc_mono p hj
        have h2 := p.readRc_le j
        omega
      show g.written (p.readSize (k + 1)) = g.written (p.readSize k)
      rw [hsize _ hk, hsize k (by omega)]

private theorem quietStreak_add {n : Nat} (hq : ∀ k, n ≤ k → Quiet g p k) (d : Nat) :
    quietStreak g p (n + d) = quietStreak g p n + d := by
  induction d with
  | zero => rfl
  | succ d ih => rw [← Nat.add_assoc, quietStreak, if_pos (hq _ (by omega)), ih]; omega

/-- The loop does not go on for ever: the command ends, and then a poll either has news or is quiet once more. -/
private theorem exists_not_goesOn (g : GuestRun) (p : PollTimes) (deadline : Nat) : ∃ k, ¬ GoesOn g p deadline k := by
  by_contra hall
  have hgo : ∀ k, GoesOn g p deadline k := fun k => Classical.not_not.1 fun hk => hall ⟨k, hk⟩
  have hquiet : ∀ k, g.endTime ≤ k → Quiet g p k := by
    intro k hk
    by_contra hq
    have h1 := hgo k
    unfold GoesOn at h1
    rw [if_neg hq] at h1
    have h2 := readRc_ge p k
    omega
  have h1 := hgo (g.endTime + guestExecPollFailures)
  unfold GoesOn at h1
  rw [if_pos (hquiet _ (Nat.le_add_right _ _)), Nat.add_assoc, quietStreak_add hquiet] at h1
  omega

private theorem streaming_eq_loop (h : Follows s g p) (token : Text) (timeout fuel : Nat) :
    execGuestAgentStreaming s token timeout fuel = streamLoop s token timeout fuel 0 0 0 [] := by
  obtain ⟨out, ho⟩ := h.launched
  obtain ⟨e, he⟩ := execGuestAgent_of_answered ho
  unfold execGuestAgentStreaming
  rw [he]
  rfl

private theorem goesOn_of_lively {deadline n : Nat} (hn : ∀ k < n, p.readRc k < g.endTime ∧
    quietStreak g p (k + 1) < guestExecPollFailures ∧ (¬ Quiet g p k → p.check k < deadline)) :
    ∀ k < n, GoesOn g p deadline k := by
  intro k hk
  obtain ⟨h1, h2, h3⟩ := hn k hk
  unfold GoesOn
  by_cases hq : Quiet g p k
  · rw [if_pos hq]; exact h2
  · rw [if_neg hq]; exact ⟨h1, h3 hq⟩

/-- Streaming a command returns its exit code and hands on its whole log, each byte once and in order and nothing
else, exactly when the run is lively for the polls: the first poll that finds the rc file also finds new bytes, and
before it no five polls in a row are quiet. -/
theorem execGuestAgentStreaming_complete_iff (h : Follows s g p) (token : Text) (timeout : Nat) :
    (∃ fuel sent, execGuestAgentStreaming s token timeout fuel = some (some (g.code : Int), sent) ∧
      sent.flatten = g.log) ↔ Lively g p (s.start + timeout) := by
  simp only [streaming_eq_loop h]
  constructor
  · rintro ⟨fuel, sent, hrun, -⟩
    obtain ⟨n, hno, hmin⟩ : ∃ n, ¬ GoesOn g p (s.start + timeout) n ∧
        ∀ k < n, GoesOn g p (s.start + timeout) k := by
      classical
      have hex := exists_not_goesOn g p (s.start + timeout)
      exact ⟨Nat.find hex, Nat.find_spec hex, fun k hk => Classical.not_not.1 (Nat.find_min hex hk)⟩
    by_cases hfail : g.endTime ≤ p.readRc n → Quiet g p n
    · -- the run of the source would have ended with an error
      obtain ⟨sent', hfails⟩ := streamLoop_fails h token timeout hmin hno hfail
      have h1 := streamLoop_fuel (n + 1) hrun
      rw [hfails fuel] at h1
      simp at h1
    · obtain ⟨hend, hq⟩ : g.endTime ≤ p.readRc n ∧ ¬ Quiet g p n := by
        constructor
        · by_contra hc; exact hfail fun hle => absurd hle hc
        · exact fun hq => hfail fun _ => hq
      refine ⟨n, hend, hq, fun k hk => ?_⟩
      have hgo := hmin k hk
      unfold GoesOn at hgo
      by_cases hqk : Quiet g p k
      · rw [if_pos hqk] at hgo
        refine ⟨?_, hgo, fun hc => absurd hqk hc⟩
        by_contra hc
        exact hq (quiet_of_ended (Nat.not_lt.1 hc) hqk (Nat.le_of_lt hk))
      · rw [if_neg hqk] at hgo
        refine ⟨hgo.1, ?_, fun _ => hgo.2⟩
        rw [show quietStreak g p (k + 1) = 0 from if_neg hqk]
        decide
  · rintro ⟨n, hend, hq, hn⟩
    obtain ⟨sent, hsent, hloop⟩ := streamLoop_returns h token timeout (goesOn_of_lively hn) hend hq
    exact ⟨0 + (n + 1), sent, hloop 0, hsent⟩

end

/-! ### Concrete runs -/

/-- An agent that starts every command at once and has its result at the first status request. -/
def promptAnswer (out : Text) (code : Int) : AgentCall :=
  { post := .ok (some 1), retry := .ok (some 1), status := fun _ => .ok { exited := true, outData := out, exitcode := code } }

/-- The session that such an agent gives for a run of the guest. -/
def promptSession (g : GuestRun) (p : PollTimes) : Session :=
  { launch := promptAnswer [] 0
    poll := fun k offset => promptAnswer (pollSnippet g p k offset).1 (pollSnippet g p k offset).2
    stopFn := fun _ => false
    start := 0
    clock := p.check }

private theorem answered_promptAnswer (out : Text) (code : Int) : Answered (promptAnswer out code) 60 out code :=
  ⟨⟨1, by decide, .inl rfl⟩, { exited := true, outData := out, exitcode := code }, rfl, rfl, rfl⟩

theorem follows_promptSession (g : GuestRun) (p : PollTimes) : Follows (promptSession g p) g p :=
  { launched := ⟨[], answered_promptAnswer [] 0⟩
    polled := fun _ _ => answered_promptAnswer _ _
    not_stopped := fun _ => rfl
    clock := fun _ => rfl }

/-- A poll every two seconds. -/
def everyTwoSeconds : PollTimes :=
  { readRc := fun k => 2 * k
    readSize := fun k => 2 * k
    readLog := fun k => 2 * k
    check := fun k => 2 * k
    readRc_le := fun _ => Nat.le_refl _
    readSize_le := fun _ => Nat.le_refl _
    readLog_le := fun _ => Nat.le_refl _
    check_lt := fun k => by omega }

/-- A command that has written all its output and exited before the first poll. -/
def finishedRun (log : Text) (code : Nat) : GuestRun :=
  { log := log, code := code, endTime := 0, written := fun _ => log.length
    written_mono := fun _ _ _ => Nat.le_refl _
    written_le := fun _ => Nat.le_refl _
    written_end := fun _ _ => rfl }

private theorem lively_finishedRun : Lively (finishedRun "ok".toList 3) everyTwoSeconds (0 + 1800) :=
  ⟨0, by decide, by decide, fun k hk => absurd hk (Nat.not_lt_zero k)⟩

theorem finished_output_streams :
    Follows (promptSession (finishedRun "ok".toList 3) everyTwoSeconds) (finishedRun "ok".toList 3) everyTwoSeconds ∧
    ∃ fuel sent, execGuestAgentStreaming (promptSession (finishedRun "ok".toList 3) everyTwoSeconds) "a1".toList 1800 fuel =
      some (some 3, sent) ∧ sent.flatten = "ok".toList :=
  ⟨follows_promptSession _ _,
    (execGuestAgentStreaming_complete_iff (follows_promptSession _ _) "a1".toList 1800).2 lively_finishedRun⟩

private theorem streamLoop_silent :
    streamLoop (promptSession (finishedRun [] 0) everyTwoSeconds) "a1".toList 1800 5 0 0 0 [] =
      some (none, [lostMessage (some "Exit code 1".toList) "a1".toList]) := rfl

/-- A command that succeeds without any output (`true`): the rc file is there with exit code 0 at the first poll and
the deadline is far away, but every poll is quiet, and after five of them the call reports lost contact. -/
theorem silent_command_not_returned :
    Follows (promptSession (finishedRun [] 0) everyTwoSeconds) (finishedRun [] 0) everyTwoSeconds ∧
    (finishedRun [] 0).endTime ≤ everyTwoSeconds.readRc 0 ∧
    (∀ k < 5, everyTwoSeconds.check k < (promptSession (finishedRun [] 0) everyTwoSeconds).start + 1800) ∧
    execGuestAgentStreaming (promptSession (finishedRun [] 0) everyTwoSeconds) "a1".toList 1800 5 =
      some (none, [lostMessage (some "Exit code 1".toList) "a1".toList]) ∧
    ¬ ∃ fuel sent, execGuestAgentStreaming (promptSession (finishedRun [] 0) everyTwoSeconds) "a1".toList 1800 fuel =
      some (some 0, sent) ∧ sent.flatten = [] := by
  simp only [streaming_eq_loop (follows_promptSession _ _)]
  refine ⟨follows_promptSession _ _, by decide, by decide, streamLoop_silent, ?_⟩
  rintro ⟨fuel, sent, hrun, -⟩
  have h1 := streamLoop_fuel 5 hrun
  have h2 := streamLoop_fuel fuel streamLoop_silent
  rw [Nat.add_comm, h1] at h2
  simp at h2

end ProxmoxTool.GuestAgent
