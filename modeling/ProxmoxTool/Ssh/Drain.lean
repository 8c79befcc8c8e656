import ProxmoxTool.Lib.System
import ProxmoxTool.Ssh.Capture
import Mathlib.Logic.Function.Basic

/-!
# Draining a channel

`SSHClient._drain_channel` polls a channel of paramiko while the transport thread fills its buffers, sets the exit status and closes it.
The system below takes the tests of the loop one by one, with the transport's steps between any two of them.  The channel's
`exit_status_ready` is also true once it is closed, and its buffers stay readable.

A chunk that comes between the readiness tests of an iteration and its last test is lost if the channel is closed by then:
`always_complete_iff`.
-/

namespace ProxmoxTool.Ssh.Drain

open Utf8

inductive Which
  | stdout | stderr
  deriving DecidableEq

/-- What the transport has delivered, what of it waits to be read, and what has been handed to the sink. -/
structure Stream where
  delivered : Bytes := []
  buffer : Bytes := []
  handed : List Bytes := []

/-- Where the loop stands.  `finished` is the `True` of its two exits, `stopped` the one behind `stop_fn`. -/
inductive Pc
  | top | ready (w : Which) | recv (w : Which) | exitStatusReady | recvReady | recvStderrReady | closed | deadline
  | finished | stopped | expired
  deriving DecidableEq

structure State where
  stream : Which → Stream := fun _ => {}
  /-- The exit status is in. -/
  status : Bool := false
  closed : Bool := false
  gotData : Bool := false
  pc : Pc := .top

/-- The transport delivers data, the exit status or the close; `stop_fn` fires; the deadline has passed; or the loop goes on. -/
inductive Label
  | deliver (w : Which) (data : Bytes)
  | exitStatus
  | close
  | stop
  | expire
  | run
  deriving DecidableEq

def recvChunkSize : Nat := 65536

/-- Behind the reading of one stream comes the other one, or the tests for the end. -/
def State.after (s : State) : Which → Pc
  | .stdout => .ready .stderr
  | .stderr => if s.gotData then .deadline else .exitStatusReady

/-- `recv`, and the sink. -/
def Stream.read (st : Stream) : Stream :=
  { st with buffer := st.buffer.drop recvChunkSize, handed := st.handed ++ [st.buffer.take recvChunkSize] }

def Stream.arrive (st : Stream) (data : Bytes) : Stream :=
  { st with delivered := st.delivered ++ data, buffer := st.buffer ++ data }

/-- The next step of `_drain_channel`. -/
def State.run (s : State) : Option State :=
  match s.pc with
  | .top => some { s with gotData := false, pc := .ready .stdout }
  | .ready w => some { s with pc := if (s.stream w).buffer = [] then s.after w else .recv w }
  | .recv w =>
    let s := { s with stream := Function.update s.stream w (s.stream w).read, gotData := true }
    some { s with pc := s.after w }
  | .exitStatusReady => some { s with pc := if s.closed || s.status then .recvReady else .closed }
  | .recvReady => some { s with pc := if (s.stream .stdout).buffer = [] then .recvStderrReady else .closed }
  | .recvStderrReady => some { s with pc := if (s.stream .stderr).buffer = [] then .finished else .closed }
  | .closed => some { s with pc := if s.closed then .finished else .deadline }
  | .deadline => some { s with pc := .top }
  | .finished | .stopped | .expired => none

/-- No data comes behind the exit status or the close, and nothing behind the close. -/
def State.step (s : State) : Label → Option State
  | .deliver w data =>
    if data ≠ [] ∧ s.status = false ∧ s.closed = false then
      some { s with stream := Function.update s.stream w ((s.stream w).arrive data) }
    else none
  | .exitStatus => if s.closed = false then some { s with status := true } else none
  | .close => some { s with closed := true }
  | .stop => if s.pc = .top then some { s with pc := .stopped } else none
  | .expire => if s.pc = .deadline then some { s with pc := .expired } else none
  | .run => s.run

def system : System State Label where
  init s := s = {}
  step := State.step

/-! ### What is to hold -/

/-- The text that `execute` makes of an output. -/
def wholeText (bytes : Bytes) : Text :=
  decodeReplace (bytes.take maxOutputBytes) ++ if maxOutputBytes < bytes.length then '\n' :: CappedBuffer.mark maxOutputBytes else []

/-- Once the loop has finished, every byte that was delivered has been handed on, in order and once, and `execute` returns all of it. -/
def Complete (s : State) : Prop :=
  s.pc = .finished → (∀ w, (s.stream w).handed.flatten = (s.stream w).delivered) ∧
    ∀ timeout code, execute timeout (.finished (s.stream .stdout).handed (s.stream .stderr).handed code) =
      (wholeText (s.stream .stdout).delivered, wholeText (s.stream .stderr).delivered, code)

/-- When the loop finds the channel closed in its last test, nothing has come since it looked at the streams. -/
def NothingLate (s : State) (e : Label) : Prop :=
  e = .run → s.pc = .closed → s.closed = true → ∀ w, (s.stream w).buffer = []

/-! ### The invariant -/

structure Inv (s : State) : Prop where
  /-- Nothing is lost, doubled or reordered on the way. -/
  account : ∀ w, (s.stream w).handed.flatten ++ (s.stream w).buffer = (s.stream w).delivered
  ended : s.pc = .recvReady ∨ s.pc = .recvStderrReady ∨ s.pc = .finished → s.status = true ∨ s.closed = true
  empty_stdout : s.pc = .recvStderrReady → (s.stream .stdout).buffer = []
  empty : s.pc = .finished → ∀ w, (s.stream w).buffer = []

theorem inv_init : Inv {} where
  account _ := rfl
  ended := by
    rintro (h | h | h) <;> cases h
  empty_stdout := nofun
  empty := nofun

theorem Inv.complete {s : State} (h : Inv s) : Complete s := by
  intro hfinished
  have hall : ∀ w, (s.stream w).handed.flatten = (s.stream w).delivered := by
    intro w
    rw [← h.account w, h.empty hfinished w, List.append_nil]
  refine ⟨hall, fun timeout code => ?_⟩
  show ((capture maxOutputBytes _).text, (capture maxOutputBytes _).text, code) = _
  rw [text_capture, text_capture, hall, hall]
  rfl

theorem Stream.read_account (st : Stream) : st.read.handed.flatten ++ st.read.buffer = st.handed.flatten ++ st.buffer := by
  show (st.handed ++ [st.buffer.take recvChunkSize]).flatten ++ st.buffer.drop recvChunkSize = _
  rw [List.flatten_append, List.flatten_singleton, List.append_assoc, List.take_append_drop]

theorem Stream.arrive_account {st : Stream} (h : st.handed.flatten ++ st.buffer = st.delivered) (data : Bytes) :
    (st.arrive data).handed.flatten ++ (st.arrive data).buffer = (st.arrive data).delivered := by
  show st.handed.flatten ++ (st.buffer ++ data) = st.delivered ++ data
  rw [← List.append_assoc, h]

/-- What a step does to one stream keeps the account of both. -/
theorem Inv.account_update {s : State} (h : Inv s) {w : Which} {st : Stream} (hst : st.handed.flatten ++ st.buffer = st.delivered) (w' : Which) :
    (Function.update s.stream w st w').handed.flatten ++ (Function.update s.stream w st w').buffer =
      (Function.update s.stream w st w').delivered := by
  by_cases hw : w' = w
  · rw [hw, Function.update_self, hst]
  · rw [Function.update_of_ne hw, h.account w']

theorem after_cases (s : State) (w : Which) : s.after w = .ready .stderr ∨ s.after w = .deadline ∨ s.after w = .exitStatusReady := by
  cases w with
  | stdout => exact .inl rfl
  | stderr =>
    by_cases hgot : s.gotData = true
    · exact .inr (.inl (if_pos hgot))
    · exact .inr (.inr (if_neg hgot))

/-- A place of the loop at which nothing but the account is known. -/
def Pc.plain (pc : Pc) : Prop := pc ≠ .recvReady ∧ pc ≠ .recvStderrReady ∧ pc ≠ .finished

theorem plain_after (s : State) (w : Which) : (s.after w).plain := by
  rcases after_cases s w with h | h | h <;> rw [h] <;> exact ⟨nofun, nofun, nofun⟩

theorem inv_of_plain {s : State} (haccount : ∀ w, (s.stream w).handed.flatten ++ (s.stream w).buffer = (s.stream w).delivered)
    (hpc : s.pc.plain) : Inv s where
  account := haccount
  ended := by
    rintro (h | h | h)
    · exact absurd h hpc.1
    · exact absurd h hpc.2.1
    · exact absurd h hpc.2.2
  empty_stdout h := absurd h hpc.2.1
  empty h := absurd h hpc.2.2

theorem Inv.run {s s' : State} (h : Inv s) (hlate : s.pc = .closed → s.closed = true → ∀ w, (s.stream w).buffer = []) (hrun : s.run = some s') :
    Inv s' := by
  unfold State.run at hrun
  split at hrun <;> cases hrun
  · exact inv_of_plain h.account ⟨nofun, nofun, nofun⟩
  · refine inv_of_plain h.account ?_
    dsimp only
    split
    · exact plain_after s _
    · exact ⟨nofun, nofun, nofun⟩
  · refine inv_of_plain (h.account_update ?_) (plain_after _ _)
    rw [Stream.read_account]
    exact h.account _
  · rename_i hpc
    by_cases hended : (s.closed || s.status) = true
    · rw [if_pos hended]
      have hended' : s.status = true ∨ s.closed = true := (Bool.or_eq_true_iff.1 hended).symm
      exact ⟨h.account, fun _ => hended', nofun, nofun⟩
    · rw [if_neg hended]
      exact inv_of_plain h.account ⟨nofun, nofun, nofun⟩
  · rename_i hpc
    by_cases hempty : (s.stream .stdout).buffer = []
    · rw [if_pos hempty]
      exact ⟨h.account, fun _ => h.ended (.inl hpc), fun _ => hempty, nofun⟩
    · rw [if_neg hempty]
      exact inv_of_plain h.account ⟨nofun, nofun, nofun⟩
  · rename_i hpc
    by_cases hempty : (s.stream .stderr).buffer = []
    · rw [if_pos hempty]
      refine ⟨h.account, fun _ => h.ended (.inr (.inl hpc)), nofun, fun _ w => ?_⟩
      cases w with
      | stdout => exact h.empty_stdout hpc
      | stderr => exact hempty
    · rw [if_neg hempty]
      exact inv_of_plain h.account ⟨nofun, nofun, nofun⟩
  · rename_i hpc
    by_cases hclosed : s.closed = true
    · rw [if_pos hclosed]
      exact ⟨h.account, fun _ => .inr hclosed, nofun, fun _ => hlate hpc hclosed⟩
    · rw [if_neg hclosed]
      exact inv_of_plain h.account ⟨nofun, nofun, nofun⟩
  · exact inv_of_plain h.account ⟨nofun, nofun, nofun⟩

theorem Inv.step {s s' : State} {e : Label} (h : Inv s) (hlate : NothingLate s e) (hstep : s.step e = some s') : Inv s' := by
  cases e with
  | deliver w data =>
    obtain ⟨⟨hdata, hstatus, hclosed⟩, rfl⟩ := System.of_guard hstep
    -- data still comes, so the loop is not behind a test that has found the end
    have hopen : ¬ (s.status = true ∨ s.closed = true) := by
      rw [hstatus, hclosed]
      nofun
    exact inv_of_plain (h.account_update (Stream.arrive_account (h.account w) data))
      ⟨fun hpc => hopen (h.ended (.inl hpc)), fun hpc => hopen (h.ended (.inr (.inl hpc))), fun hpc => hopen (h.ended (.inr (.inr hpc)))⟩
  | exitStatus =>
    obtain ⟨-, rfl⟩ := System.of_guard hstep
    exact ⟨h.account, fun _ => .inl rfl, h.empty_stdout, h.empty⟩
  | close =>
    cases hstep
    exact ⟨h.account, fun _ => .inr rfl, h.empty_stdout, h.empty⟩
  | stop | expire =>
    obtain ⟨-, rfl⟩ := System.of_guard hstep
    exact inv_of_plain h.account ⟨nofun, nofun, nofun⟩
  | run => exact h.run (hlate rfl) hstep

/-- Finishing on a closed channel that has something to read loses it. -/
theorem not_complete_of_late {s s' : State} {e : Label} (h : Inv s) (hlate : ¬ NothingLate s e) (hstep : s.step e = some s') :
    ¬ Complete s' := by
  unfold NothingLate at hlate
  push Not at hlate
  obtain ⟨rfl, hpc, hclosed, w, hbuffer⟩ := hlate
  have hrun : s.run = some { s with pc := .finished } := by
    unfold State.run
    rw [hpc]
    show some { s with pc := if s.closed then .finished else .deadline } = _
    rw [if_pos hclosed]
  obtain rfl : { s with pc := .finished } = s' := Option.some.inj (hrun.symm.trans hstep)
  intro hcomplete
  have hall := (hcomplete rfl).1 w
  have haccount := h.account w
  rw [show (s.stream w).delivered = (s.stream w).handed.flatten from hall.symm] at haccount
  exact hbuffer (List.append_right_eq_self.1 haccount)

/-- Whatever the transport does between any two steps of the loop: every run hands on all that is delivered, and `execute` returns it, if
and only if the loop never leaves by its last test, on a closed channel, with something that has come since it looked at the streams. -/
theorem always_complete_iff (es : List Label) : system.Always Complete {} es ↔ system.Meets NothingLate {} es := by
  have hcomplete : ∀ s, Inv s → Complete s := fun _ h => h.complete
  have hkeep : ∀ s e s', Inv s → NothingLate s e → system.step s e = some s' → Inv s' := fun _ _ _ h hlate hstep => h.step hlate hstep
  have hbreak : ∀ s e s', Inv s → ¬ NothingLate s e → system.step s e = some s' → ¬ Complete s' :=
    fun _ _ _ h hlate hstep => not_complete_of_late h hlate hstep
  exact System.always_iff_meets hcomplete hkeep hbreak inv_init es

/-- A chunk, the exit status and the close come after both streams were found empty. -/
def lateClose : List Label := [.run, .run, .run, .deliver .stdout [97], .exitStatus, .close, .run, .run, .run]

theorem late_chunk_lost : ¬ ∀ es, system.Always Complete {} es := by
  intro h
  obtain ⟨s, hs⟩ : ∃ s, system.exec {} lateClose = some s := ⟨_, rfl⟩
  have hfinal := ((h lateClose).of_exec hs)
  cases hs
  have hlost : [] = [(97 : UInt8)] := (hfinal rfl).1 .stdout
  cases hlost

end ProxmoxTool.Ssh.Drain
