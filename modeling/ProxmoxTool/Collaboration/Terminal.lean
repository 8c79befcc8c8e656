import ProxmoxTool.Lib.Dict
import ProxmoxTool.Lib.Queue
import ProxmoxTool.Lib.System
import ProxmoxTool.Lib.Text

/-!
# Shared terminal sessions

The model of `TerminalSession` of `core/collaboration.py`: the ring buffer, the send queues of the subscribers, and the
calls of `add_subscriber`, `remove_subscriber`, `broadcast_output` and `send_control` that are under way, cut at the points
where they take the lock.  `add_subscriber` takes it for the snapshot and again for the registration; `broadcast_output`
takes it for the append and again for the list of queues, and then puts into one queue after the other.

The session also keeps the history of the chunks appended, and with each queue the number of chunks there were at its
snapshot; the code does not read these.  `stream_faithful` says what a subscriber sees when the steps of the calls come in
an order that the code does not enforce: the ring buffer as it was at some moment, then every later chunk once.
-/

namespace ProxmoxTool.Terminal

/-- `MAX_BUFFER`. -/
def maxBuffer : Nat := 100 * 1024

/-- The `maxsize` of a send queue. -/
def queueSize : Nat := 500

/-- `_buffer_chunks` and `_buffer_size`. -/
structure Ring where
  chunks : List Text := []
  size : Nat := 0
  deriving DecidableEq, Repr

/-- The `while` loop of `_append`. -/
def evict : List Text → Nat → Ring
  | [], size => ⟨[], size⟩
  | removed :: chunks, size =>
    if maxBuffer < size then evict chunks (size - removed.length) else ⟨removed :: chunks, size⟩

/-- `_append`. -/
def Ring.append (r : Ring) (data : Text) : Ring := evict (r.chunks ++ [data]) (r.size + data.length)

/-- `_snapshot`. -/
def Ring.snapshot (r : Ring) : Text := r.chunks.flatten

/-- The ring buffer after the chunks of `history`. -/
def ringAfter (history : List Text) : Ring := history.foldl Ring.append {}

theorem ringAfter_append (history : List Text) (data : Text) :
    ringAfter (history ++ [data]) = (ringAfter history).append data := List.foldl_append

/-- A message of a send queue: a chunk of output, or a control message. -/
inductive Message
  | output (data : Text)
  | control (msg : Text)
  deriving DecidableEq, Repr

/-- The output a message carries. -/
def Message.data : Message → Text
  | output data => data
  | control _ => []

/-- A send queue, and the number of chunks appended before its snapshot was taken. -/
structure Sub where
  queue : Queue Message
  moment : Nat
  deriving DecidableEq, Repr

/-- A call of `add_subscriber` between its snapshot and its registration. -/
structure Join where
  ws : Nat
  sub : Nat
  deriving DecidableEq, Repr

/-- A call of `broadcast_output` or `send_control` that has its list of queues: the message and the queues that are still
to get it. -/
structure Fanout where
  msg : Message
  targets : List Nat
  deriving DecidableEq, Repr

structure Session where
  /-- `_queues`: `id(ws)` to the place of the queue in `subs`. -/
  queues : Dict Nat Nat := []
  ring : Ring := {}
  subs : List Sub := []
  joins : List Join := []
  /-- The calls of `broadcast_output` that have appended their chunk and not yet listed the queues. -/
  appended : List Text := []
  fanouts : List Fanout := []
  history : List Text := []
  deriving DecidableEq, Repr

/-- The lock steps of the calls.  `register`, `list` and `put` name one of the calls under way by its place. -/
inductive Event
  | snapshot (ws : Nat)
  | register (i : Nat)
  | remove (ws : Nat)
  | append (data : Text)
  | list (i : Nat)
  | sendControl (msg : Text)
  | put (i : Nat)
  | get (sub : Nat)

/-- The send queue `add_subscriber` makes: it holds the catch-up text, if there is any. -/
def catchUp (text : Text) : Queue Message :=
  if text = [] then {} else Queue.putNowait queueSize {} (.output text)

/-- The next put of a fan-out. -/
def putNext (f : Fanout) (subs : List Sub) : Option (Fanout × List Sub) :=
  match f.targets with
  | [] => none
  | q :: targets => (subs[q]?).map fun sub =>
      ({ f with targets := targets }, subs.set q { sub with queue := sub.queue.putNowait queueSize f.msg })

def step (s : Session) : Event → Option Session
  | .snapshot ws => some { s with
      subs := s.subs ++ [⟨catchUp s.ring.snapshot, s.history.length⟩]
      joins := s.joins ++ [⟨ws, s.subs.length⟩] }
  | .register i => (s.joins[i]?).map fun j => { s with
      queues := s.queues.set j.ws j.sub
      joins := s.joins.eraseIdx i }
  | .remove ws => some { s with queues := s.queues.pop ws }
  | .append data => some { s with
      ring := s.ring.append data
      appended := s.appended ++ [data]
      history := s.history ++ [data] }
  | .list i => (s.appended[i]?).map fun data => { s with
      appended := s.appended.eraseIdx i
      fanouts := s.fanouts ++ [⟨.output data, s.queues.values⟩] }
  | .sendControl msg => some { s with fanouts := s.fanouts ++ [⟨.control msg, s.queues.values⟩] }
  | .put i => (s.fanouts[i]?).bind fun f => (putNext f s.subs).map fun (f', subs) => { s with
      subs := subs
      fanouts := s.fanouts.set i f' }
  | .get q => (s.subs[q]?).bind fun sub => sub.queue.get.map fun queue => { s with
      subs := s.subs.set q { sub with queue := queue } }

def system : System Session Event where
  init s := s = {}
  step := step

/-! ### What a subscriber sees -/

/-- The output placed in a send queue. -/
def Sub.stream (sub : Sub) : Text := (sub.queue.placed.map Message.data).flatten

/-- The output that the fan-outs under way have still to put into a queue. -/
def onTheWay (fanouts : List Fanout) (q : Nat) : Text :=
  fanouts.flatMap fun f => if q ∈ f.targets then f.msg.data else []

/-- The number of chunks whose fan-out has its list of queues. -/
def Session.listed (s : Session) : Nat := s.history.length - s.appended.length

/-- The stream of a queue, with what is on its way to it, is the ring buffer at some moment and the chunks from then on, up
to the first `m`. -/
def Session.Faithful (s : Session) (q m : Nat) : Prop :=
  ∃ sub k, s.subs[q]? = some sub ∧ k ≤ m ∧ m ≤ s.history.length ∧
    sub.stream ++ onTheWay s.fanouts q =
      (ringAfter (s.history.take k)).snapshot ++ ((s.history.take m).drop k).flatten

/-- No call of `broadcast_output` or `send_control` is under way. -/
def Session.Idle (s : Session) : Prop := s.appended = [] ∧ ∀ f ∈ s.fanouts, f.targets = []

/-- The stream of a queue is the ring buffer at some moment followed by every chunk from then on. -/
def Session.CaughtUp (s : Session) (q : Nat) : Prop :=
  ∃ sub k, s.subs[q]? = some sub ∧ k ≤ s.history.length ∧
    sub.stream = (ringAfter (s.history.take k)).snapshot ++ (s.history.drop k).flatten

/-- A put does not meet a full queue. -/
def Event.fits (s : Session) : Event → Prop
  | .put i => ∀ f ∈ s.fanouts[i]?, ∀ q ∈ f.targets.head?, ∀ sub ∈ s.subs[q]?, sub.queue.full queueSize = false
  | _ => True

/-- The order the calls have to keep: the broadcasts list the queues in the order of their appends and put into each queue
in this order, and when a subscriber is registered, the broadcasts between their append and their list are those that have
appended since its snapshot. -/
def Event.inOrder (s : Session) : Event → Prop
  | .register i => ∀ j ∈ s.joins[i]?, ∀ sub ∈ s.subs[j.sub]?, s.history.length = sub.moment + s.appended.length
  | .list i => i = 0
  | .put i => ∀ f ∈ s.fanouts[i]?, ∀ q ∈ f.targets.head?, ∀ g ∈ s.fanouts.take i,
      f.msg.data ≠ [] → g.msg.data ≠ [] → q ∉ g.targets
  | _ => True

@[simp] theorem onTheWay_append (fs gs : List Fanout) (q : Nat) :
    onTheWay (fs ++ gs) q = onTheWay fs q ++ onTheWay gs q := List.flatMap_append

@[simp] theorem onTheWay_cons (f : Fanout) (fs : List Fanout) (q : Nat) :
    onTheWay (f :: fs) q = (if q ∈ f.targets then f.msg.data else []) ++ onTheWay fs q := List.flatMap_cons

@[simp] theorem onTheWay_nil (q : Nat) : onTheWay [] q = [] := rfl

theorem onTheWay_eq_nil {fs : List Fanout} {q : Nat} (h : ∀ f ∈ fs, f.msg.data ≠ [] → q ∉ f.targets) :
    onTheWay fs q = [] := by
  refine List.flatMap_eq_nil_iff.2 fun f hf => ?_
  by_cases hdata : f.msg.data = []
  · simp [hdata]
  · rw [if_neg (h f hf hdata)]

/-! ### The invariant -/

/-- The queues of the calls of `add_subscriber` under way. -/
def Session.joining (s : Session) : List Nat := s.joins.map Join.sub

/-- The places of the queues: no two subscribers share one, and no fan-out has one twice or one that is not registered
yet. -/
structure Session.Tidy (s : Session) : Prop where
  ring : s.ring = ringAfter s.history
  appended : ∃ done, s.history = done ++ s.appended
  values : s.queues.values.Nodup
  joins : s.joining.Nodup
  targets : ∀ f ∈ s.fanouts, f.targets.Nodup
  apart : ∀ q ∈ s.joining, q ∉ s.queues.values ∧ ∀ f ∈ s.fanouts, q ∉ f.targets
  bound : ∀ q, q ∈ s.joining ∨ q ∈ s.queues.values ∨ (∃ f ∈ s.fanouts, q ∈ f.targets) → q < s.subs.length

/-- The stream of a queue is the ring buffer at its snapshot and the chunks from then on, up to the first `m`. -/
def Covers (s : Session) (q : Nat) (sub : Sub) (m : Nat) : Prop :=
  sub.moment ≤ m ∧ m ≤ s.listed ∧
    sub.stream ++ onTheWay s.fanouts q =
      (ringAfter (s.history.take sub.moment)).snapshot ++ ((s.history.take m).drop sub.moment).flatten

structure Session.Streams (s : Session) : Prop where
  joining : ∀ q ∈ s.joining, ∀ sub, s.subs[q]? = some sub →
    sub.moment ≤ s.history.length ∧ sub.stream = (ringAfter (s.history.take sub.moment)).snapshot
  joined : ∀ q sub, s.subs[q]? = some sub → q ∉ s.joining →
    ∃ m, Covers s q sub m ∧ (q ∈ s.queues.values → m = s.listed)

theorem stream_catchUp (text : Text) (k : Nat) : Sub.stream ⟨catchUp text, k⟩ = text := by
  unfold Sub.stream catchUp
  split
  · rename_i h
    rw [h]
    rfl
  · simp [Queue.putNowait, Queue.full, queueSize, Message.data]

theorem putNext_eq_some {f f' : Fanout} {subs subs' : List Sub} (h : putNext f subs = some (f', subs')) :
    ∃ q targets sub, f.targets = q :: targets ∧ subs[q]? = some sub ∧ f' = { f with targets := targets } ∧
      subs' = subs.set q { sub with queue := sub.queue.putNowait queueSize f.msg } := by
  unfold putNext at h
  split at h
  · cases h
  · rename_i q targets hq
    obtain ⟨sub, hsub, heq⟩ := Option.map_eq_some_iff.1 h
    cases heq
    exact ⟨q, targets, sub, hq, hsub, rfl, rfl⟩

/-- A list cut at one of its places. -/
theorem cut_at {α : Type} {l : List α} {i : Nat} {a : α} (h : l[i]? = some a) :
    ∃ before after, l = before ++ a :: after ∧ before.length = i := by
  obtain ⟨hi, rfl⟩ := List.getElem?_eq_some_iff.1 h
  refine ⟨l.take i, l.drop (i + 1), ?_, List.length_take_of_le (Nat.le_of_lt hi)⟩
  rw [List.getElem_cons_drop, List.take_append_drop]

/-- A registration takes its queue out of those that are joining. -/
theorem joining_register {s : Session} {i : Nat} {j : Join} (hj : s.joins[i]? = some j) (hn : s.joining.Nodup) :
    (∀ q, q ∈ s.joining ↔ q = j.sub ∨ q ∈ (s.joins.eraseIdx i).map Join.sub) ∧
      j.sub ∉ (s.joins.eraseIdx i).map Join.sub ∧ ((s.joins.eraseIdx i).map Join.sub).Nodup := by
  obtain ⟨before, after, heq, rfl⟩ := cut_at hj
  have herase : s.joins.eraseIdx before.length = before ++ after := by
    rw [heq, List.eraseIdx_append_of_length_le (Nat.le_refl _), Nat.sub_self, List.eraseIdx_cons_zero]
  have hperm : s.joining.Perm (j.sub :: (before ++ after).map Join.sub) := by
    rw [Session.joining, heq, List.map_append, List.map_append, List.map_cons]
    exact List.perm_middle
  have hcons := List.nodup_cons.1 (hperm.nodup_iff.1 hn)
  rw [herase]
  exact ⟨fun q => by rw [hperm.mem_iff, List.mem_cons], hcons.1, hcons.2⟩

theorem mem_newFanout {fanouts : List Fanout} {f : Fanout} {msg : Message} {values : List Nat}
    (hf : f ∈ fanouts ++ [⟨msg, values⟩]) : f ∈ fanouts ∨ f.targets = values := by
  rcases List.mem_append.1 hf with hf | hf
  · exact Or.inl hf
  · exact Or.inr (congrArg Fanout.targets (List.mem_singleton.1 hf))

/-- A fan-out to the queues that are registered. -/
theorem Session.Tidy.addFanout {s : Session} (h : s.Tidy) (msg : Message) :
    Session.Tidy { s with fanouts := s.fanouts ++ [⟨msg, s.queues.values⟩] } := by
  refine ⟨h.ring, h.appended, h.values, h.joins, fun f hf => ?_, fun q hq => ⟨(h.apart q hq).1, fun f hf => ?_⟩, ?_⟩
  · rcases mem_newFanout hf with hf | hf
    · exact h.targets f hf
    · rw [hf]
      exact h.values
  · rcases mem_newFanout hf with hf | hf
    · exact (h.apart q hq).2 f hf
    · rw [hf]
      exact (h.apart q hq).1
  · rintro q (hq | hq | ⟨f, hf, hq⟩)
    · exact h.bound q (Or.inl hq)
    · exact h.bound q (Or.inr (Or.inl hq))
    · rcases mem_newFanout hf with hf | hf
      · exact h.bound q (Or.inr (Or.inr ⟨f, hf, hq⟩))
      · rw [hf] at hq
        exact h.bound q (Or.inr (Or.inl hq))

/-- The queues may change their contents, and the fan-outs may have less to do. -/
theorem Session.Tidy.shrink {s : Session} (h : s.Tidy) {subs : List Sub} {fanouts : List Fanout}
    (hlen : subs.length = s.subs.length)
    (hle : ∀ g ∈ fanouts, ∃ g' ∈ s.fanouts, List.Sublist g.targets g'.targets) :
    Session.Tidy { s with subs := subs, fanouts := fanouts } := by
  refine ⟨h.ring, h.appended, h.values, h.joins, ?_, ?_, ?_⟩
  · intro g hg
    obtain ⟨g', hg', hsub⟩ := hle g hg
    exact (h.targets g' hg').sublist hsub
  · intro q hq
    refine ⟨(h.apart q hq).1, fun g hg hm => ?_⟩
    obtain ⟨g', hg', hsub⟩ := hle g hg
    exact (h.apart q hq).2 g' hg' (hsub.subset hm)
  · intro q hq
    rw [hlen]
    rcases hq with hq | hq | ⟨g, hg, hm⟩
    · exact h.bound q (Or.inl hq)
    · exact h.bound q (Or.inr (Or.inl hq))
    · obtain ⟨g', hg', hsub⟩ := hle g hg
      exact h.bound q (Or.inr (Or.inr ⟨g', hg', hsub.subset hm⟩))

theorem tidy_step {s s' : Session} {e : Event} (h : s.Tidy) (ho : e.inOrder s) (hs : step s e = some s') : s'.Tidy := by
  cases e with
  | snapshot ws =>
    obtain rfl := Option.some.inj hs
    have hfresh : s.subs.length ∉ s.joining := fun hm => Nat.lt_irrefl _ (h.bound _ (Or.inl hm))
    have hj : Session.joining { s with
        subs := s.subs ++ [⟨catchUp s.ring.snapshot, s.history.length⟩]
        joins := s.joins ++ [⟨ws, s.subs.length⟩] } = s.joining ++ [s.subs.length] := by
      simp [Session.joining]
    refine ⟨h.ring, h.appended, h.values, ?_, h.targets, ?_, ?_⟩
    · rw [hj]
      refine List.nodup_append.2 ⟨h.joins, List.nodup_singleton _, fun a ha b hb hab => hfresh ?_⟩
      rwa [← List.mem_singleton.1 hb, ← hab]
    · intro q hq
      rw [hj, List.mem_append, List.mem_singleton] at hq
      rcases hq with hq | rfl
      · exact h.apart q hq
      · exact ⟨fun hm => Nat.lt_irrefl _ (h.bound _ (Or.inr (Or.inl hm))),
          fun f hf hm => Nat.lt_irrefl _ (h.bound _ (Or.inr (Or.inr ⟨f, hf, hm⟩)))⟩
    · intro q hq
      rw [hj, List.mem_append, List.mem_singleton] at hq
      rw [List.length_append, List.length_singleton]
      rcases hq with (hq | rfl) | hq
      · exact Nat.lt_succ_of_lt (h.bound q (Or.inl hq))
      · exact Nat.lt_succ_self _
      · exact Nat.lt_succ_of_lt (h.bound q (Or.inr hq))
  | register i =>
    obtain ⟨j, hj, rfl⟩ := Option.map_eq_some_iff.1 hs
    obtain ⟨hmem, hgone, hnodup⟩ := joining_register hj h.joins
    have hself : j.sub ∈ s.joining := (hmem j.sub).2 (Or.inl rfl)
    refine ⟨h.ring, h.appended, Dict.nodup_values_set h.values (h.apart _ hself).1 _, hnodup, h.targets, ?_, ?_⟩
    · intro q hq
      have hold := h.apart q ((hmem q).2 (Or.inr hq))
      refine ⟨fun hv => ?_, hold.2⟩
      rcases Dict.mem_values_set hv with rfl | hv
      · exact hgone hq
      · exact hold.1 hv
    · rintro q (hq | hq | hq)
      · exact h.bound q (Or.inl ((hmem q).2 (Or.inr hq)))
      · rcases Dict.mem_values_set hq with rfl | hq
        · exact h.bound _ (Or.inl hself)
        · exact h.bound q (Or.inr (Or.inl hq))
      · exact h.bound q (Or.inr (Or.inr hq))
  | remove ws =>
    obtain rfl := Option.some.inj hs
    have hsub := s.queues.values_pop_sublist ws
    refine ⟨h.ring, h.appended, h.values.sublist hsub, h.joins, h.targets, ?_, ?_⟩
    · intro q hq
      exact ⟨fun hm => (h.apart q hq).1 (hsub.subset hm), (h.apart q hq).2⟩
    · rintro q (hq | hq | hq)
      · exact h.bound q (Or.inl hq)
      · exact h.bound q (Or.inr (Or.inl (hsub.subset hq)))
      · exact h.bound q (Or.inr (Or.inr hq))
  | append data =>
    obtain rfl := Option.some.inj hs
    obtain ⟨done, hdone⟩ := h.appended
    refine ⟨?_, ⟨done, ?_⟩, h.values, h.joins, h.targets, h.apart, h.bound⟩
    · change s.ring.append data = ringAfter (s.history ++ [data])
      rw [ringAfter_append, h.ring]
    · change s.history ++ [data] = done ++ (s.appended ++ [data])
      rw [hdone, List.append_assoc]
  | list i =>
    obtain ⟨data, hdata, rfl⟩ := Option.map_eq_some_iff.1 hs
    obtain rfl : i = 0 := ho
    obtain ⟨done, hdone⟩ := h.appended
    have hhistory : s.history = done ++ [data] ++ s.appended.eraseIdx 0 := by
      rw [hdone]
      cases happ : s.appended with
      | nil => rw [happ] at hdata; cases hdata
      | cons d ds =>
        rw [happ] at hdata
        cases hdata
        simp
    exact { h.addFanout (.output data) with appended := ⟨done ++ [data], hhistory⟩ }
  | sendControl msg =>
    obtain rfl := Option.some.inj hs
    exact h.addFanout (.control msg)
  | put i =>
    obtain ⟨f, hf, hs⟩ := Option.bind_eq_some_iff.1 hs
    obtain ⟨⟨f', subs⟩, hput, rfl⟩ := Option.map_eq_some_iff.1 hs
    obtain ⟨q, targets, sub, hq, hsub, rfl, rfl⟩ := putNext_eq_some hput
    refine h.shrink (List.length_set ..) fun g hg => ?_
    rcases List.mem_or_eq_of_mem_set hg with hg | rfl
    · exact ⟨g, hg, List.Sublist.refl _⟩
    · exact ⟨f, List.mem_of_getElem? hf, hq ▸ List.sublist_cons_self _ _⟩
  | get q =>
    obtain ⟨sub, hsub, hs⟩ := Option.bind_eq_some_iff.1 hs
    obtain ⟨queue, hqueue, rfl⟩ := Option.map_eq_some_iff.1 hs
    exact h.shrink (List.length_set ..) fun g hg => ⟨g, hg, List.Sublist.refl _⟩

theorem listed_le (s : Session) : s.listed ≤ s.history.length := Nat.sub_le _ _

theorem Covers.history {s : Session} {q m : Nat} {sub : Sub} (h : Covers s q sub m) (more : List Text) :
    sub.stream ++ onTheWay s.fanouts q =
      (ringAfter ((s.history ++ more).take sub.moment)).snapshot ++
        (((s.history ++ more).take m).drop sub.moment).flatten := by
  have hm : m ≤ s.history.length := Nat.le_trans h.2.1 (listed_le s)
  rw [h.2.2, List.take_append_of_le_length hm, List.take_append_of_le_length (Nat.le_trans h.1 hm)]

theorem streams_append {s : Session} (h : s.Streams) (data : Text) :
    Session.Streams { s with
      ring := s.ring.append data, appended := s.appended ++ [data], history := s.history ++ [data] } := by
  have hlisted : (s.history ++ [data]).length - (s.appended ++ [data]).length = s.listed := by
    rw [Session.listed, List.length_append, List.length_append, List.length_singleton, Nat.add_sub_add_right]
  refine ⟨fun q hq sub hsub => ?_, fun q sub hsub hq => ?_⟩
  · obtain ⟨hle, hstream⟩ := h.joining q hq sub hsub
    refine ⟨?_, ?_⟩
    · change sub.moment ≤ (s.history ++ [data]).length
      rw [List.length_append]
      omega
    · change sub.stream = (ringAfter ((s.history ++ [data]).take sub.moment)).snapshot
      rw [hstream, List.take_append_of_le_length hle]
  · obtain ⟨m, hcov, hreg⟩ := h.joined q sub hsub hq
    refine ⟨m, ⟨hcov.1, ?_, hcov.history [data]⟩, fun hv => (hreg hv).trans hlisted.symm⟩
    exact Nat.le_trans hcov.2.1 (Nat.le_of_eq hlisted.symm)

theorem streams_snapshot {s : Session} (h : s.Streams) (ht : s.Tidy) (ws : Nat) :
    Session.Streams { s with
      subs := s.subs ++ [⟨catchUp s.ring.snapshot, s.history.length⟩]
      joins := s.joins ++ [⟨ws, s.subs.length⟩] } := by
  have hj : Session.joining { s with
      subs := s.subs ++ [⟨catchUp s.ring.snapshot, s.history.length⟩]
      joins := s.joins ++ [⟨ws, s.subs.length⟩] } = s.joining ++ [s.subs.length] := by
    simp [Session.joining]
  have hnew : ∀ q, q ≠ s.subs.length → ∀ sub : Sub,
      (s.subs ++ [⟨catchUp s.ring.snapshot, s.history.length⟩])[q]? = some sub → s.subs[q]? = some sub := by
    intro q hq sub hsub
    rcases Nat.lt_or_ge q s.subs.length with hlt | hge
    · rwa [List.getElem?_append_left hlt] at hsub
    · rw [List.getElem?_eq_none (by rw [List.length_append, List.length_singleton]; omega)] at hsub
      cases hsub
  refine ⟨fun q hq sub hsub => ?_, fun q sub hsub hq => ?_⟩
  · rw [hj, List.mem_append, List.mem_singleton] at hq
    by_cases heq : q = s.subs.length
    · subst heq
      rw [List.getElem?_append_right (Nat.le_refl _), Nat.sub_self] at hsub
      cases hsub
      refine ⟨Nat.le_refl _, ?_⟩
      rw [stream_catchUp, ht.ring]
      exact congrArg (fun l => (ringAfter l).snapshot) (List.take_length).symm
    · exact h.joining q (hq.resolve_right heq) sub (hnew q heq sub hsub)
  · rw [hj, List.mem_append, List.mem_singleton, not_or] at hq
    exact h.joined q sub (hnew q hq.2 sub hsub) hq.1

/-- The registration of a queue: what is on its way to be listed is what has been appended since the snapshot. -/
theorem streams_register {s : Session} (h : s.Streams) (ht : s.Tidy) {i : Nat} {j : Join} (hj : s.joins[i]? = some j)
    (ho : (Event.register i).inOrder s) :
    Session.Streams { s with queues := s.queues.set j.ws j.sub, joins := s.joins.eraseIdx i } := by
  obtain ⟨hmem, hgone, -⟩ := joining_register hj ht.joins
  have hself : j.sub ∈ s.joining := (hmem j.sub).2 (Or.inl rfl)
  refine ⟨fun q hq sub hsub => h.joining q ((hmem q).2 (Or.inr hq)) sub hsub, fun q sub hsub hq => ?_⟩
  by_cases heq : q = j.sub
  · subst heq
    obtain ⟨hle, hstream⟩ := h.joining _ hself sub hsub
    have hlisted : s.listed = sub.moment := by
      have := ho j hj sub hsub
      rw [Session.listed, this, Nat.add_sub_cancel]
    refine ⟨sub.moment, ⟨Nat.le_refl _, Nat.le_of_eq hlisted.symm, ?_⟩, fun _ => hlisted.symm⟩
    change sub.stream ++ onTheWay s.fanouts j.sub = _
    rw [onTheWay_eq_nil fun f hf _ => (ht.apart _ hself).2 f hf, hstream, List.append_nil]
    simp
  · have hold : q ∉ s.joining := fun hm => ((hmem q).1 hm).elim heq hq
    obtain ⟨m, hcov, hreg⟩ := h.joined q sub hsub hold
    refine ⟨m, hcov, fun hv => hreg ?_⟩
    exact (Dict.mem_values_set hv).resolve_left heq

/-- A new fan-out is on its way to the queues that are registered. -/
theorem onTheWay_new (s : Session) (msg : Message) (q : Nat) :
    onTheWay (s.fanouts ++ [⟨msg, s.queues.values⟩]) q =
      onTheWay s.fanouts q ++ if q ∈ s.queues.values then msg.data else [] := by
  rw [onTheWay_append, onTheWay_cons, onTheWay_nil, List.append_nil]

theorem streams_list {s : Session} (h : s.Streams) (ht : s.Tidy) {data : Text} (hdata : s.appended[0]? = some data) :
    Session.Streams { s with
      appended := s.appended.eraseIdx 0, fanouts := s.fanouts ++ [⟨.output data, s.queues.values⟩] } := by
  obtain ⟨done, hdone⟩ := ht.appended
  obtain ⟨rest, happ⟩ : ∃ rest, s.appended = data :: rest := by
    cases happ : s.appended with
    | nil => rw [happ] at hdata; cases hdata
    | cons d ds => rw [happ] at hdata; cases hdata; exact ⟨ds, rfl⟩
  have hold : s.listed = done.length := by
    rw [Session.listed, hdone, List.length_append, Nat.add_sub_cancel]
  have hnew : s.history.length - (s.appended.eraseIdx 0).length = done.length + 1 := by
    rw [hdone, happ, List.eraseIdx_cons_zero, List.length_append, List.length_cons]
    omega
  refine ⟨h.joining, fun q sub hsub hq => ?_⟩
  obtain ⟨m, ⟨hk, hm, hstream⟩, hreg⟩ := h.joined q sub hsub hq
  by_cases hv : q ∈ s.queues.values
  · obtain rfl : m = done.length := (hreg hv).trans hold
    refine ⟨done.length + 1, ⟨Nat.le_succ_of_le hk, Nat.le_of_eq hnew.symm, ?_⟩, fun _ => hnew.symm⟩
    have htake : s.history.take (done.length + 1) = s.history.take done.length ++ [data] := by
      rw [hdone, happ, List.take_length_add_append, List.take_left]
      rfl
    have hlen : sub.moment ≤ (s.history.take done.length).length := by
      rw [hdone, List.take_left]
      exact hk
    change sub.stream ++ onTheWay (s.fanouts ++ [⟨.output data, s.queues.values⟩]) q = _
    rw [onTheWay_new, if_pos hv, ← List.append_assoc, hstream, htake, List.drop_append_of_le_length hlen,
      List.flatten_append, List.append_assoc]
    simp [Message.data]
  · refine ⟨m, ⟨hk, ?_, ?_⟩, fun hv' => absurd hv' hv⟩
    · exact Nat.le_trans hm (by rw [hold]; exact Nat.le_of_lt (Nat.lt_of_lt_of_eq (Nat.lt_succ_self _) hnew.symm))
    · change sub.stream ++ onTheWay (s.fanouts ++ [⟨.output data, s.queues.values⟩]) q = _
      rw [onTheWay_new, if_neg hv, List.append_nil]
      exact hstream

theorem stream_putNowait {sub : Sub} (hfull : sub.queue.full queueSize = false) (msg : Message) :
    Sub.stream { sub with queue := sub.queue.putNowait queueSize msg } = sub.stream ++ msg.data := by
  unfold Sub.stream
  rw [Queue.placed_putNowait hfull]
  simp

/-- A put moves its chunk from what is on the way to what has arrived. -/
theorem stream_put {s : Session} (ht : s.Tidy) {i : Nat} {f : Fanout} (hf : s.fanouts[i]? = some f) {q₀ : Nat}
    {targets : List Nat} (hq₀ : f.targets = q₀ :: targets) {sub₀ : Sub} (hsub₀ : s.subs[q₀]? = some sub₀)
    (hfull : sub₀.queue.full queueSize = false) (ho : (Event.put i).inOrder s) {q : Nat} {sub' : Sub}
    (hsub' : (s.subs.set q₀ { sub₀ with queue := sub₀.queue.putNowait queueSize f.msg })[q]? = some sub') :
    ∃ sub, s.subs[q]? = some sub ∧ sub'.moment = sub.moment ∧
      sub'.stream ++ onTheWay (s.fanouts.set i { f with targets := targets }) q = sub.stream ++ onTheWay s.fanouts q := by
  obtain ⟨before, after, heq, rfl⟩ := cut_at hf
  have hset : s.fanouts.set before.length { f with targets := targets } =
      before ++ { f with targets := targets } :: after := by
    rw [heq, List.set_append_right _ _ (Nat.le_refl _), Nat.sub_self, List.set_cons_zero]
  rw [hset, heq]
  simp only [onTheWay_append, onTheWay_cons]
  by_cases hq : q = q₀
  · subst hq
    rw [List.getElem?_set_self (List.getElem?_eq_some_iff.1 hsub₀).1] at hsub'
    cases hsub'
    refine ⟨sub₀, hsub₀, rfl, ?_⟩
    have hnot : q ∉ targets := by
      have hnodup := ht.targets f (List.mem_of_getElem? hf)
      rw [hq₀] at hnodup
      exact (List.nodup_cons.1 hnodup).1
    rw [stream_putNowait hfull, if_neg hnot, hq₀, if_pos List.mem_cons_self, List.nil_append, List.append_assoc]
    refine congrArg (sub₀.stream ++ ·) ?_
    by_cases hdata : f.msg.data = []
    · rw [hdata]
      rfl
    · have hbefore : onTheWay before q = [] := by
        refine onTheWay_eq_nil fun g hg hgdata => ?_
        refine ho f hf q (by rw [hq₀]; rfl) g ?_ hdata hgdata
        rw [heq, List.take_left]
        exact hg
      rw [hbefore]
      rfl
  · rw [List.getElem?_set_ne (Ne.symm hq)] at hsub'
    refine ⟨sub', hsub', rfl, ?_⟩
    have hiff : q ∈ f.targets ↔ q ∈ targets := by
      rw [hq₀, List.mem_cons]
      exact ⟨fun h => h.resolve_left hq, Or.inr⟩
    simp only [hiff]

/-- Every step in order keeps the streams. -/
theorem streams_step {s s' : Session} {e : Event} (h : s.Streams) (ht : s.Tidy) (hfits : e.fits s) (ho : e.inOrder s)
    (hs : step s e = some s') : s'.Streams := by
  cases e with
  | snapshot ws =>
    obtain rfl := Option.some.inj hs
    exact streams_snapshot h ht ws
  | register i =>
    obtain ⟨j, hj, rfl⟩ := Option.map_eq_some_iff.1 hs
    exact streams_register h ht hj ho
  | remove ws =>
    obtain rfl := Option.some.inj hs
    refine ⟨h.joining, fun q sub hsub hq => ?_⟩
    obtain ⟨m, hcov, hreg⟩ := h.joined q sub hsub hq
    exact ⟨m, hcov, fun hv => hreg ((s.queues.values_pop_sublist ws).subset hv)⟩
  | append data =>
    obtain rfl := Option.some.inj hs
    exact streams_append h data
  | list i =>
    obtain ⟨data, hdata, rfl⟩ := Option.map_eq_some_iff.1 hs
    obtain rfl : i = 0 := ho
    exact streams_list h ht hdata
  | sendControl msg =>
    obtain rfl := Option.some.inj hs
    refine ⟨h.joining, fun q sub hsub hq => ?_⟩
    obtain ⟨m, ⟨hk, hm, hstream⟩, hreg⟩ := h.joined q sub hsub hq
    refine ⟨m, ⟨hk, hm, ?_⟩, hreg⟩
    change sub.stream ++ onTheWay (s.fanouts ++ [⟨.control msg, s.queues.values⟩]) q = _
    rw [onTheWay_new]
    simpa [Message.data] using hstream
  | put i =>
    obtain ⟨f, hf, hs⟩ := Option.bind_eq_some_iff.1 hs
    obtain ⟨⟨f', subs⟩, hput, rfl⟩ := Option.map_eq_some_iff.1 hs
    obtain ⟨q₀, targets, sub₀, hq₀, hsub₀, rfl, rfl⟩ := putNext_eq_some hput
    have hfull := hfits f hf q₀ (by rw [hq₀]; rfl) sub₀ hsub₀
    refine ⟨fun q hq sub' hsub' => ?_, fun q sub' hsub' hq => ?_⟩
    · -- a queue that is joining is in no fan-out
      have hne : q₀ ≠ q := by
        rintro rfl
        exact (ht.apart _ hq).2 f (List.mem_of_getElem? hf) (hq₀ ▸ List.mem_cons_self)
      change (s.subs.set q₀ _)[q]? = some sub' at hsub'
      rw [List.getElem?_set_ne hne] at hsub'
      exact h.joining q hq sub' hsub'
    · obtain ⟨sub, hsub, hmoment, hstream⟩ := stream_put ht hf hq₀ hsub₀ hfull ho hsub'
      obtain ⟨m, ⟨hk, hm, hcov⟩, hreg⟩ := h.joined q sub hsub hq
      refine ⟨m, ⟨hmoment ▸ hk, hm, ?_⟩, hreg⟩
      rw [hmoment]
      exact hstream.trans hcov
  | get q₀ =>
    obtain ⟨sub₀, hsub₀, hs⟩ := Option.bind_eq_some_iff.1 hs
    obtain ⟨queue, hqueue, rfl⟩ := Option.map_eq_some_iff.1 hs
    have hsame : ∀ (q : Nat) (sub' : Sub), (s.subs.set q₀ { sub₀ with queue := queue })[q]? = some sub' →
        ∃ sub : Sub, s.subs[q]? = some sub ∧ sub'.moment = sub.moment ∧ sub'.stream = sub.stream := by
      intro q sub' hsub'
      by_cases hq : q = q₀
      · subst hq
        rw [List.getElem?_set_self (List.getElem?_eq_some_iff.1 hsub₀).1] at hsub'
        cases hsub'
        exact ⟨sub₀, hsub₀, rfl, by unfold Sub.stream; rw [Queue.placed_get hqueue]⟩
      · rw [List.getElem?_set_ne (Ne.symm hq)] at hsub'
        exact ⟨sub', hsub', rfl, rfl⟩
    refine ⟨fun q hq sub' hsub' => ?_, fun q sub' hsub' hq => ?_⟩
    · obtain ⟨sub, hsub, hmoment, hstream⟩ := hsame q sub' hsub'
      rw [hmoment, hstream]
      exact h.joining q hq sub hsub
    · obtain ⟨sub, hsub, hmoment, hstream⟩ := hsame q sub' hsub'
      obtain ⟨m, hcov, hreg⟩ := h.joined q sub hsub hq
      refine ⟨m, ?_, hreg⟩
      unfold Covers
      rw [hmoment, hstream]
      exact hcov

theorem streams_of_reach {s : Session} (h : system.Reach (fun s e => e.fits s ∧ e.inOrder s) s) :
    s.Tidy ∧ s.Streams := by
  refine System.Reach.invariant (I := fun s => s.Tidy ∧ s.Streams) ?_ ?_ h
  · rintro s rfl
    refine ⟨⟨rfl, ⟨[], rfl⟩, List.nodup_nil, List.nodup_nil, ?_, ?_, ?_⟩, ⟨?_, ?_⟩⟩
    · simp
    · simp [Session.joining]
    · simp [Session.joining, Dict.values]
    · simp [Session.joining]
    · simp
  · rintro s e s' ⟨ht, hstreams⟩ ⟨hfits, ho⟩ hs
    exact ⟨tidy_step ht ho hs, streams_step hstreams ht hfits ho hs⟩

theorem Session.Faithful.caughtUp {s : Session} {q : Nat} (h : s.Faithful q s.listed) (hidle : s.Idle) : s.CaughtUp q := by
  obtain ⟨sub, k, hsub, hk, -, hstream⟩ := h
  have hway : onTheWay s.fanouts q = [] := by
    refine onTheWay_eq_nil fun f hf _ hq => ?_
    rw [hidle.2 f hf] at hq
    cases hq
  have hlisted : s.listed = s.history.length := by
    rw [Session.listed, hidle.1]
    rfl
  rw [hway, List.append_nil, hlisted, List.take_length] at hstream
  exact ⟨sub, k, hsub, hlisted ▸ hk, hstream⟩

/-- As long as no put meets a full queue and the steps of the calls come in order, every subscriber has seen, or is about
to be sent, the ring buffer at some moment and then every chunk once: all of them while it is registered, the chunks up to
its removal after that. -/
theorem stream_faithful {s : Session} (h : system.Reach (fun s e => e.fits s ∧ e.inOrder s) s) :
    (∀ q ∈ s.queues.values, s.Faithful q s.listed ∧ (s.Idle → s.CaughtUp q)) ∧
      ∀ q < s.subs.length, q ∉ s.joining → ∃ m, s.Faithful q m := by
  obtain ⟨ht, hstreams⟩ := streams_of_reach h
  have hjoined : ∀ q < s.subs.length, q ∉ s.joining → ∃ m, s.Faithful q m ∧ (q ∈ s.queues.values → m = s.listed) := by
    intro q hq hnot
    obtain ⟨m, ⟨hk, hm, hstream⟩, hreg⟩ := hstreams.joined q s.subs[q] (List.getElem?_eq_getElem hq) hnot
    exact ⟨m, ⟨_, _, List.getElem?_eq_getElem hq, hk, Nat.le_trans hm (listed_le s), hstream⟩, hreg⟩
  refine ⟨fun q hq => ?_, fun q hq hnot => ?_⟩
  · obtain ⟨m, hfaithful, hreg⟩ := hjoined q (ht.bound q (Or.inr (Or.inl hq))) fun hj => (ht.apart q hj).1 hq
    rw [hreg hq] at hfaithful
    exact ⟨hfaithful, hfaithful.caughtUp⟩
  · obtain ⟨m, hfaithful, -⟩ := hjoined q hq hnot
    exact ⟨m, hfaithful⟩

/-- A follower that joins between two broadcasts: the first is in its catch-up text, the second is sent to it. -/
theorem follower_caughtUp : ∃ s : Session, s.history = [['a'], ['b']] ∧ 0 ∈ s.queues.values ∧ s.CaughtUp 0 := by
  have h0 : system.Reach (fun s e => e.fits s ∧ e.inOrder s) {} := System.Reach.init rfl
  have h1 := (h0.next (.append ['a']) ⟨trivial, trivial⟩ rfl).next (.list 0) ⟨trivial, rfl⟩ rfl
  have h2 := (h1.next (.snapshot 7) ⟨trivial, trivial⟩ rfl).next (.register 0)
    ⟨trivial, by rintro j hj sub hsub; cases hj; cases hsub; rfl⟩ rfl
  have h3 := (h2.next (.append ['b']) ⟨trivial, trivial⟩ rfl).next (.list 0) ⟨trivial, rfl⟩ rfl
  have h4 := h3.next (.put 1)
    ⟨by rintro f hf q hq sub hsub; cases hf; cases hq; cases hsub; rfl,
      by rintro f hf q hq g hg; cases hf; cases hq; revert g; decide⟩ rfl
  exact ⟨_, rfl, List.mem_singleton_self 0, ((stream_faithful h4).1 0 (List.mem_singleton_self 0)).2 ⟨rfl, by decide⟩⟩

/-- A chunk broadcast between a follower's snapshot and its registration is never sent to it, and a chunk appended before
the snapshot and listed after the registration is sent to it twice. -/
theorem chunk_lost_and_chunk_repeated :
    (∃ s : Session, system.Reach (fun s e => e.fits s) s ∧ s.Idle ∧ 0 ∈ s.queues.values ∧ s.history = [['a'], ['b']] ∧
        (s.subs.map Sub.stream = [['a']]) ∧ ¬ s.CaughtUp 0) ∧
      ∃ s : Session, system.Reach (fun s e => e.fits s) s ∧ s.Idle ∧ 0 ∈ s.queues.values ∧ s.history = [['a']] ∧
        (s.subs.map Sub.stream = [['a', 'a']]) ∧ ¬ s.CaughtUp 0 := by
  have h0 : system.Reach (fun s e => e.fits s) {} := System.Reach.init rfl
  constructor
  · have h1 := (h0.next (.append ['a']) trivial rfl).next (.list 0) trivial rfl
    have h2 := (h1.next (.snapshot 7) trivial rfl).next (.append ['b']) trivial rfl
    have h3 := (h2.next (.list 0) trivial rfl).next (.register 0) trivial rfl
    refine ⟨_, h3, ⟨rfl, by decide⟩, List.mem_singleton_self 0, rfl, rfl, ?_⟩
    rintro ⟨sub, k, hsub, hk, heq⟩
    cases hsub
    revert heq k
    decide
  · have h1 := (h0.next (.append ['a']) trivial rfl).next (.snapshot 7) trivial rfl
    have h2 := (h1.next (.register 0) trivial rfl).next (.list 0) trivial rfl
    have h3 := h2.next (.put 0) (by rintro f hf q hq sub hsub; cases hf; cases hq; cases hsub; rfl) rfl
    refine ⟨_, h3, ⟨rfl, by decide⟩, List.mem_singleton_self 0, rfl, rfl, ?_⟩
    rintro ⟨sub, k, hsub, hk, heq⟩
    cases hsub
    revert heq k
    decide

end ProxmoxTool.Terminal
