import ProxmoxTool.Lib.Rows
import ProxmoxTool.Lib.System
import Mathlib.Data.List.DropRight
import Mathlib.Data.List.Infix

/-!
# Polling the log of a check

A running check of `routes/moderation.py` appends the lines of its log and counts them, in separate steps; `/status` reads the count and
copies the log, also in separate steps, and a client passes the count of its previous response back as the offset.  A line knows its
number, so that no two lines are the same.

The places of the copied lines are computed from the count.  They are right when nothing has been appended besides what is counted:
`polling_lossless_iff`.
-/

namespace ProxmoxTool.Moderation.Polling

/-- `_MODERATION_LOG_MAXLEN`. -/
def logMaxlen : Nat := 2000

/-- `append` of a `deque(maxlen=maxlen)`. -/
def dequeAppend {α : Type} (maxlen : Nat) (log : List α) (a : α) : List α := (log ++ [a]).rtake maxlen

/-- The lines that `status` returns. -/
def newLines {α : Type} (offset logTotal : Nat) (logList : List α) : List α :=
  let firstIndex : Int := logTotal - logList.length
  if offset < firstIndex then logList else logList.drop (offset - firstIndex).toNat

/-- The entries of `_moderation_job` that the log consists of. -/
structure Job (α : Type) where
  log : List α := []
  logTotal : Nat := 0

structure Line where
  number : Nat
  text : String
deriving DecidableEq

/-- The check, with the lines it has logged, and a client.  `uncounted` is set between the two statements of `_append_moderation_log`;
`reading` is what a request has read as the total, and whether the check had finished then. -/
structure State where
  job : Job Line := {}
  logged : List Line := []
  uncounted : Bool := false
  finished : Bool := false
  offset : Nat := 0
  received : List Line := []
  reading : Option (Nat × Bool) := none
  /-- The lines that had been logged at the previous request. -/
  seen : Nat := 0
  /-- A request of the client has been served that began behind the end of the check. -/
  complete : Bool := false

inductive Event
  | append (text : String)
  | count
  | finish
  | readTotal
  | readLog

def step (s : State) : Event → Option State
  | .append text =>
    if !s.uncounted && !s.finished then
      let line : Line := ⟨s.logged.length, text⟩
      some { s with
        job := { s.job with log := dequeAppend logMaxlen s.job.log line }
        logged := s.logged ++ [line]
        uncounted := true }
    else none
  | .count =>
    if s.uncounted then some { s with job := { s.job with logTotal := s.job.logTotal + 1 }, uncounted := false } else none
  | .finish => if !s.uncounted && !s.finished then some { s with finished := true } else none
  | .readTotal =>
    if s.reading.isNone then some { s with reading := some (s.job.logTotal, s.finished), seen := s.logged.length } else none
  | .readLog => s.reading.map fun (logTotal, finished) =>
      { s with
        received := s.received ++ newLines s.offset logTotal s.job.log
        offset := logTotal
        reading := none
        complete := s.complete || finished }

def system : System State Event where
  init s := s = {}
  step := step

/-- What the client has received is the beginning of what was logged, and all of it in the end. -/
structure Lossless (s : State) : Prop where
  beginning : s.received <+: s.logged
  whole : s.complete = true → s.received = s.logged

/-- A request that is behind the total finds nothing in the log besides what is counted, and no line after its offset evicted. -/
def ReadsTogether (s : State) : Event → Prop
  | .readLog => ∀ logTotal finished, s.reading = some (logTotal, finished) →
      s.offset = logTotal ∨ s.logged.length = logTotal ∧ logTotal ≤ s.offset + logMaxlen
  | _ => True

/-! ### The lines of a response -/

variable {α : Type}

/-- A deque keeps the last of all entries. -/
theorem dequeAppend_rtake (maxlen : Nat) (l : List α) (a : α) : dequeAppend maxlen (l.rtake maxlen) a = (l ++ [a]).rtake maxlen :=
  rtake_rtake_concat maxlen l a

theorem rtake_eq_drop (l : List α) (n : Nat) : l.rtake n = l.drop (l.length - n) := rfl

/-- The lines returned for an offset that is not ahead of the total: all from place `first` on. -/
def first (maxlen offset logTotal length : Nat) : Nat := max (length - maxlen) (length - logTotal + offset)

theorem newLines_eq {maxlen offset logTotal : Nat} {l : List α} (htotal : logTotal ≤ l.length) :
    newLines offset logTotal (l.rtake maxlen) = l.drop (first maxlen offset logTotal l.length) := by
  have hlength : (l.rtake maxlen).length = min maxlen l.length := by
    rw [rtake_eq_drop, List.length_drop]
    omega
  unfold newLines first
  rw [hlength, rtake_eq_drop]
  dsimp only
  by_cases hevicted : (offset : Int) < (logTotal : Int) - (min maxlen l.length : Nat)
  · rw [if_pos hevicted]
    congr 1
    omega
  · rw [if_neg hevicted, List.drop_drop]
    congr 1
    omega

/-! ### The invariant -/

structure Inv (s : State) : Prop where
  log : s.job.log = s.logged.rtake logMaxlen
  total : s.job.logTotal + s.uncounted.toNat = s.logged.length
  numbered : ∀ (i : Nat) (line : Line), s.logged[i]? = some line → line.number = i
  received : s.received = s.logged.take s.offset
  offset : s.offset ≤ s.job.logTotal
  reading : ∀ logTotal finished, s.reading = some (logTotal, finished) →
    s.offset ≤ logTotal ∧ logTotal ≤ s.job.logTotal ∧ (finished = true → s.finished = true ∧ logTotal = s.logged.length)
  finished : s.finished = true → s.uncounted = false
  complete : s.complete = true → s.finished = true ∧ s.offset = s.logged.length

variable {s s' : State} {e : Event}

theorem Inv.lossless (h : Inv s) : Lossless s where
  beginning := by
    rw [h.received]
    exact List.take_prefix _ _
  whole hc := by
    rw [h.received, (h.complete hc).2]
    exact List.take_length

theorem Inv.append (h : Inv s) (hcounted : s.uncounted = false) (hgoing : s.finished = false) (text : String) :
    Inv { s with
      job := { s.job with log := dequeAppend logMaxlen s.job.log ⟨s.logged.length, text⟩ }
      logged := s.logged ++ [⟨s.logged.length, text⟩]
      uncounted := true } where
  log := by
    dsimp only
    rw [h.log, dequeAppend_rtake]
  total := by
    have htotal := h.total
    rw [hcounted] at htotal
    rw [List.length_append, ← htotal]
    rfl
  numbered i line hi := by
    rcases Nat.lt_or_ge i s.logged.length with hlt | hge
    · rw [List.getElem?_append_left hlt] at hi
      exact h.numbered i line hi
    · rw [List.getElem?_append_right hge, List.getElem?_singleton] at hi
      split at hi
      · cases hi
        change s.logged.length = i
        omega
      · cases hi
  received := by
    have hle : s.offset ≤ s.logged.length := by
      have htotal := h.total
      have hoffset := h.offset
      omega
    rw [List.take_append_of_le_length hle]
    exact h.received
  offset := h.offset
  reading logTotal finished hr := by
    obtain ⟨hle, hle', hfin⟩ := h.reading logTotal finished hr
    refine ⟨hle, hle', fun hf => ?_⟩
    rw [hgoing] at hfin
    cases (hfin hf).1
  finished hf := by
    rw [hgoing] at hf
    cases hf
  complete hc := by
    have hfin := (h.complete hc).1
    rw [hgoing] at hfin
    cases hfin

theorem Inv.count (h : Inv s) (hun : s.uncounted = true) :
    Inv { s with job := { s.job with logTotal := s.job.logTotal + 1 }, uncounted := false } where
  log := h.log
  total := by
    have htotal := h.total
    rw [hun] at htotal
    exact htotal
  numbered := h.numbered
  received := h.received
  offset := Nat.le_succ_of_le h.offset
  reading logTotal finished hr := by
    obtain ⟨hle, hle', hfin⟩ := h.reading logTotal finished hr
    exact ⟨hle, Nat.le_succ_of_le hle', hfin⟩
  finished _ := rfl
  complete := h.complete

theorem Inv.finish (h : Inv s) (hcounted : s.uncounted = false) : Inv { s with finished := true } where
  log := h.log
  total := h.total
  numbered := h.numbered
  received := h.received
  offset := h.offset
  reading logTotal finished hr := by
    obtain ⟨hle, hle', hfin⟩ := h.reading logTotal finished hr
    exact ⟨hle, hle', fun hf => ⟨rfl, (hfin hf).2⟩⟩
  finished _ := hcounted
  complete hc := ⟨rfl, (h.complete hc).2⟩

theorem Inv.readTotal (h : Inv s) : Inv { s with reading := some (s.job.logTotal, s.finished), seen := s.logged.length } where
  log := h.log
  total := h.total
  numbered := h.numbered
  received := h.received
  offset := h.offset
  reading logTotal finished hr := by
    cases hr
    refine ⟨h.offset, Nat.le_refl _, fun hf => ⟨hf, ?_⟩⟩
    have htotal := h.total
    rw [h.finished hf] at htotal
    exact htotal
  finished := h.finished
  complete := h.complete

/-- The response to a request: the lines from place `first` on. -/
theorem Inv.newLines (h : Inv s) {logTotal : Nat} {finished : Bool} (hr : s.reading = some (logTotal, finished)) :
    newLines s.offset logTotal s.job.log = s.logged.drop (first logMaxlen s.offset logTotal s.logged.length) := by
  obtain ⟨hle, hle', -⟩ := h.reading logTotal finished hr
  have htotal := h.total
  rw [h.log]
  exact newLines_eq (by omega)

theorem Inv.readLog (h : Inv s) {logTotal : Nat} {finished : Bool} (hr : s.reading = some (logTotal, finished))
    (hok : s.offset = logTotal ∨ s.logged.length = logTotal ∧ logTotal ≤ s.offset + logMaxlen) :
    Inv { s with
      received := s.received ++ Polling.newLines s.offset logTotal s.job.log
      offset := logTotal
      reading := none
      complete := s.complete || finished } where
  log := h.log
  total := h.total
  numbered := h.numbered
  received := by
    obtain ⟨hle, hle', -⟩ := h.reading logTotal finished hr
    have htotal := h.total
    change s.received ++ Polling.newLines s.offset logTotal s.job.log = s.logged.take logTotal
    rw [h.newLines hr, h.received]
    rcases hok with heq | ⟨hlen, hkept⟩
    · have hnone : s.logged.length ≤ first logMaxlen s.offset logTotal s.logged.length := by
        unfold first
        omega
      rw [List.drop_eq_nil_of_le hnone, List.append_nil, heq]
    · have hfirst : first logMaxlen s.offset logTotal s.logged.length = s.offset := by
        unfold first
        omega
      rw [hfirst, List.take_append_drop, ← hlen, List.take_length]
  offset := (h.reading logTotal finished hr).2.1
  reading _ _ hnone := by cases hnone
  finished := h.finished
  complete hc := by
    obtain ⟨hle, hle', hfin⟩ := h.reading logTotal finished hr
    have htotal := h.total
    rcases Bool.or_eq_true_iff.1 hc with hc | hf
    · obtain ⟨hend, hoffset⟩ := h.complete hc
      refine ⟨hend, ?_⟩
      change logTotal = s.logged.length
      omega
    · exact hfin hf

theorem Inv.next (h : Inv s) (hok : ReadsTogether s e) (hstep : step s e = some s') : Inv s' := by
  cases e with
  | append text =>
    obtain ⟨hguard, rfl⟩ := System.of_guard hstep
    simp only [Bool.and_eq_true, Bool.not_eq_true'] at hguard
    exact h.append hguard.1 hguard.2 text
  | count =>
    obtain ⟨hguard, rfl⟩ := System.of_guard hstep
    exact h.count hguard
  | finish =>
    obtain ⟨hguard, rfl⟩ := System.of_guard hstep
    simp only [Bool.and_eq_true, Bool.not_eq_true'] at hguard
    exact h.finish hguard.1
  | readTotal =>
    obtain ⟨-, rfl⟩ := System.of_guard hstep
    exact h.readTotal
  | readLog =>
    obtain ⟨⟨logTotal, finished⟩, hr, rfl⟩ := Option.map_eq_some_iff.1 hstep
    exact h.readLog hr (hok logTotal finished hr)

/-- A response that starts at a later line than it should: the client does not have the beginning of the log any more. -/
theorem Inv.lost (h : Inv s) (hok : ¬ ReadsTogether s e) (hstep : step s e = some s') : ¬ Lossless s' := by
  cases e with
  | append | count | finish | readTotal => exact absurd trivial hok
  | readLog =>
    obtain ⟨⟨logTotal, finished⟩, hr, rfl⟩ := Option.map_eq_some_iff.1 hstep
    obtain ⟨hle, hle', -⟩ := h.reading logTotal finished hr
    have htotal := h.total
    have hbad : ¬ (s.offset = logTotal ∨ s.logged.length = logTotal ∧ logTotal ≤ s.offset + logMaxlen) := by
      intro hgood
      refine hok fun t f ht => ?_
      rw [hr] at ht
      cases ht
      exact hgood
    have hpos : 0 < logMaxlen := by decide
    have hlater : s.offset < first logMaxlen s.offset logTotal s.logged.length := by
      unfold first
      omega
    have hinside : first logMaxlen s.offset logTotal s.logged.length < s.logged.length := by
      unfold first
      omega
    intro hlossless
    have hprefix := hlossless.beginning
    change s.received ++ Polling.newLines s.offset logTotal s.job.log <+: s.logged at hprefix
    rw [h.newLines hr, h.received] at hprefix
    -- the line that comes after `offset` lines has a higher number
    have hlength : (s.logged.take s.offset).length = s.offset := by
      rw [List.length_take]
      omega
    generalize first logMaxlen s.offset logTotal s.logged.length = k at hprefix hlater hinside
    have hat : (s.logged.take s.offset ++ s.logged.drop k)[s.offset]? = s.logged[k]? := by
      rw [List.getElem?_append_right (by omega), hlength, Nat.sub_self, List.getElem?_drop, Nat.add_zero]
    obtain ⟨line, hline⟩ : ∃ line, s.logged[k]? = some line := ⟨_, List.getElem?_eq_getElem hinside⟩
    rw [hline] at hat
    have hsame := List.prefix_iff_getElem?.1 hprefix s.offset (by rw [List.length_append, hlength, List.length_drop]; omega)
    rw [← List.getElem?_eq_getElem, hat] at hsame
    have hnumber := h.numbered k line hline
    have hnumber' := h.numbered s.offset line hsame
    omega

/-- In every state of a run the client has the beginning of the log, and all of it after the end, exactly if no request that returns lines
copies more lines than it has read as the total, or comes after lines behind its offset have been evicted. -/
theorem lossless_iff_readsTogether (es : List Event) : system.Always Lossless {} es ↔ system.Meets ReadsTogether {} es := by
  refine System.always_iff_meets (I := Inv) (fun s h => h.lossless) (fun s e s' h hok hstep => h.next hok hstep)
    (fun s e s' h hok hstep => h.lost hok hstep) ⟨(List.rtake_nil _).symm, rfl, fun i line hi => ?_, rfl, Nat.le_refl _,
      fun _ _ hr => ?_, fun _ => rfl, fun hc => ?_⟩ es
  · cases hi
  · cases hr
  · cases hc

/-! ### Clients that keep up -/

/-- Fewer than `_MODERATION_LOG_MAXLEN` lines are appended from one request to the next; the first one counts from the start of the check. -/
def KeepsUp (s : State) : Event → Prop
  | .readTotal => s.logged.length < s.seen + logMaxlen
  | _ => True

/-- A request that is behind the total copies as many lines as have been counted when it reads the total. -/
def CopiesCounted (s : State) : Event → Prop
  | .readLog => ∀ logTotal finished, s.reading = some (logTotal, finished) → s.offset = logTotal ∨ s.logged.length = logTotal
  | _ => True

/-- Nothing behind the offset has been evicted when a request reads the total. -/
structure KeptUp (s : State) : Prop where
  total : s.job.logTotal ≤ s.logged.length ∧ s.logged.length ≤ s.job.logTotal + 1
  counted : s.uncounted = true → s.logged.length = s.job.logTotal + 1
  even : s.uncounted = false → s.logged.length = s.job.logTotal
  idle : s.reading = none → s.seen ≤ s.offset + 1
  reading : ∀ logTotal finished, s.reading = some (logTotal, finished) → s.seen ≤ logTotal + 1 ∧ logTotal ≤ s.offset + logMaxlen

theorem KeptUp.next (h : KeptUp s) (hok : KeepsUp s e ∧ CopiesCounted s e) (hstep : step s e = some s') :
    KeptUp s' ∧ ReadsTogether s e := by
  cases e with
  | append text =>
    obtain ⟨hguard, rfl⟩ := System.of_guard hstep
    simp only [Bool.and_eq_true, Bool.not_eq_true'] at hguard
    have heven := h.even hguard.1
    refine ⟨⟨?_, fun _ => ?_, fun hf => (by cases hf), h.idle, h.reading⟩, trivial⟩
    · dsimp only
      rw [List.length_append, List.length_singleton]
      omega
    · dsimp only
      rw [List.length_append, List.length_singleton]
      omega
  | count =>
    obtain ⟨hguard, rfl⟩ := System.of_guard hstep
    have hcounted := h.counted hguard
    refine ⟨⟨?_, fun hf => (by cases hf), fun _ => hcounted, h.idle, h.reading⟩, trivial⟩
    dsimp only
    omega
  | finish =>
    obtain ⟨-, rfl⟩ := System.of_guard hstep
    exact ⟨⟨h.total, h.counted, h.even, h.idle, h.reading⟩, trivial⟩
  | readTotal =>
    obtain ⟨hguard, rfl⟩ := System.of_guard hstep
    have hseen := h.idle (Option.isNone_iff_eq_none.1 hguard)
    have hfew : s.logged.length < s.seen + logMaxlen := hok.1
    have htotal := h.total
    refine ⟨⟨h.total, h.counted, h.even, fun hnone => (by cases hnone), fun logTotal finished hr => ?_⟩, trivial⟩
    cases hr
    refine ⟨htotal.2, ?_⟩
    change s.job.logTotal ≤ s.offset + logMaxlen
    omega
  | readLog =>
    obtain ⟨⟨logTotal, finished⟩, hr, rfl⟩ := Option.map_eq_some_iff.1 hstep
    obtain ⟨hseen, hkept⟩ := h.reading logTotal finished hr
    refine ⟨⟨h.total, h.counted, h.even, fun _ => hseen, fun _ _ hnone => by cases hnone⟩, fun t f ht => ?_⟩
    rw [hr] at ht
    cases ht
    exact (hok.2 logTotal finished hr).imp_right fun hlen => ⟨hlen, hkept⟩

theorem readsTogether_of_keepsUp {es : List Event} (h : system.Meets KeepsUp {} es) :
    system.Meets ReadsTogether {} es ↔ system.Meets CopiesCounted {} es := by
  constructor
  · refine System.Meets.imp (I := fun _ => True) (fun s e s' _ hok _ => ⟨trivial, ?_⟩) trivial
    cases e with
    | readLog => exact fun logTotal finished hr => (hok logTotal finished hr).imp_right And.left
    | _ => trivial
  · intro hcopies
    refine System.Meets.imp (I := KeptUp) (fun s e s' hI hok hstep => hI.next hok hstep) ?_ (h.and hcopies)
    refine ⟨⟨Nat.le_refl _, Nat.zero_le _⟩, fun hf => ?_, fun _ => rfl, fun _ => Nat.zero_le _, fun _ _ hr => ?_⟩
    · cases hf
    · cases hr

/-- A client gets the beginning of the log and all of it after the end exactly if its requests read together what belongs together; if it
keeps up, exactly if none of them copies lines that are not counted yet. -/
theorem polling_lossless_iff (es : List Event) :
    (system.Always Lossless {} es ↔ system.Meets ReadsTogether {} es) ∧
    (system.Meets KeepsUp {} es → (system.Always Lossless {} es ↔ system.Meets CopiesCounted {} es)) :=
  ⟨lossless_iff_readsTogether es, fun h => (lossless_iff_readsTogether es).trans (readsTogether_of_keepsUp h)⟩

/-- Two requests, each behind a line. -/
def promptRun : List Event :=
  [.append "a", .count, .readTotal, .readLog, .append "b", .count, .finish, .readTotal, .readLog]

instance (s : State) (e : Event) : Decidable (KeepsUp s e) :=
  match e with
  | .readTotal => inferInstanceAs (Decidable (_ < _))
  | .append _ | .count | .finish | .readLog => isTrue trivial

instance (s : State) (e : Event) : Decidable (CopiesCounted s e) :=
  match e with
  | .append _ | .count | .finish | .readTotal => isTrue trivial
  | .readLog => decidable_of_iff (∀ r ∈ s.reading, s.offset = r.1 ∨ s.logged.length = r.1)
      ⟨fun h logTotal finished hr => h (logTotal, finished) hr, fun h r hr => h r.1 r.2 hr⟩

theorem promptRun_lossless : system.Always Lossless {} promptRun :=
  ((polling_lossless_iff promptRun).2 (by decide)).2 (by decide)

/-- The second line is appended and not yet counted when a request comes; it copies the log without the first one. -/
def lossyRun : List Event :=
  [.append "a", .count, .append "b", .readTotal, .readLog]

theorem first_line_lost : ¬ system.Always Lossless {} lossyRun := by
  intro h
  have hend := h.2 _ rfl
  have hend := hend.2 _ rfl
  have hend := hend.2 _ rfl
  have hend := hend.2 _ rfl
  have hend := hend.2 _ rfl
  have hlossless : Lossless _ := hend
  have hprefix := hlossless.beginning
  revert hprefix
  decide

end ProxmoxTool.Moderation.Polling
