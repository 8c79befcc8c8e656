import Mathlib.Data.List.Nodup
import Mathlib.Logic.Function.Basic
import ProxmoxTool.Lib.Json
import ProxmoxTool.Lib.Utf8

/-!
# Retrying all jobs of a Sidekiq set

The model of `_SIDEKIQ_RETRY_DEAD_SCRIPT` and `_SIDEKIQ_RETRY_RETRY_SCRIPT` of `core/scanner.py`, which differ in the name of the
sorted set.  The script reads the members, pushes each of them onto the queue its JSON names and swallows whatever goes
wrong there, and then deletes the set.  Sidekiq may add members before any of the commands, and every command has an
outcome of its own.

A member is a string of bytes.  The script's client decodes it with replacement characters and encodes it again for the
push, so that bytes that are not UTF-8 arrive changed.  `retryAll_conserves_iff` says which runs lose no job and enqueue
none twice.
-/

namespace ProxmoxTool.Sidekiq

open Utf8

inductive SetName
  | dead
  | retry
  deriving DecidableEq, Repr

/-- The members of a sorted set. -/
structure ZSet where
  members : List Bytes
  nodup : members.Nodup

instance : Membership Bytes ZSet := ⟨fun z b => b ∈ z.members⟩

instance (b : Bytes) (z : ZSet) : Decidable (b ∈ z) := inferInstanceAs (Decidable (b ∈ z.members))

def ZSet.empty : ZSet := ⟨[], List.nodup_nil⟩

/-- `ZADD`; a member that is there stays once. -/
def ZSet.add (z : ZSet) (b : Bytes) : ZSet :=
  if h : b ∈ z.members then z
  else ⟨z.members ++ [b], List.nodup_append.2 ⟨z.nodup, List.nodup_singleton b, fun _ ha _ hb heq =>
    h (List.mem_singleton.1 hb ▸ heq ▸ ha)⟩⟩

def ZSet.addAll (z : ZSet) (bs : List Bytes) : ZSet := bs.foldl ZSet.add z

/-- The sets, and the pushes carried out: the key of the list and the value. -/
structure Redis where
  zset : SetName → ZSet
  enqueued : List (Bytes × Bytes) := []

def Redis.add (r : Redis) (key : SetName) (bs : List Bytes) : Redis :=
  { r with zset := Function.update r.zset key ((r.zset key).addAll bs) }

/-- `DEL`. -/
def Redis.del (r : Redis) (key : SetName) : Redis := { r with zset := Function.update r.zset key ZSet.empty }

/-- How a command ends: carried out and answered, refused by the server, not sent, or carried out with the answer lost.
The last two raise. -/
inductive Outcome
  | done
  | refused
  | unsent
  | unanswered
  deriving DecidableEq, Repr

def Outcome.executed : Outcome → Bool
  | done | unanswered => true
  | refused | unsent => false

def Outcome.raised : Outcome → Bool
  | unsent | unanswered => true
  | done | refused => false

/-- What the server and Sidekiq do: the members added up to the read, those added before the `i`-th push and, after the last
one, before the `DEL`, and the outcomes. -/
structure Env where
  before : List Bytes
  added : Nat → List Bytes
  push : Nat → Outcome
  del : Outcome

/-- `s.encode()`; `none` for the `UnicodeEncodeError` of a surrogate. -/
def encodeStr : Str → Option Bytes
  | [] => some []
  | n :: s =>
    if n < 0xD800 ∨ 0xDFFF < n ∧ n < 0x110000 then
      (encodeStr s).map fun bs => String.utf8EncodeChar (Char.ofNat n) ++ bs
    else none

/-- `.get("queue", "default")`, where it is a string. -/
def queueOf : Json → Option Str
  | .obj members => match Json.member members (Str.ofText "queue".toList) with
    | none => some (Str.ofText "default".toList)
    | some (.str s) => some s
    | some _ => none
  | _ => none

/-- The key of the queue a member names; `none` if the member, as decoded, is no JSON object, or names none. -/
def names (member : Bytes) : Option Bytes := do
  let job ← Json.loads (decodeReplace member)
  let queue ← queueOf job
  encodeStr (Str.ofText "queue:".toList ++ queue)

/-- The member as the client writes it back. -/
def recode (member : Bytes) : Bytes := encode (decodeReplace member)

/-- The body of the loop: the `try` block around one push. -/
def pushJob (outcome : Outcome) (member : Bytes) (r : Redis) (count : Nat) : Redis × Nat :=
  match names member with
  | none => (r, count)
  | some queue =>
    let r := if outcome.executed then { r with enqueued := r.enqueued ++ [(queue, recode member)] } else r
    (r, if outcome.raised then count else count + 1)

def pushAll (key : SetName) (env : Env) : Nat → List Bytes → Redis → Nat → Redis × Nat
  | _, [], r, count => (r, count)
  | i, member :: jobs, r, count =>
    let (r, count) := pushJob (env.push i) member (r.add key (env.added i)) count
    pushAll key env (i + 1) jobs r count

/-- The members that `ZRANGE` returns. -/
def read (zset : SetName → ZSet) (key : SetName) (env : Env) : List Bytes := ((zset key).addAll env.before).members

/-- The script: the server after it, and the count it prints, `none` if it prints an error. -/
def retryAll (key : SetName) (env : Env) (zset : SetName → ZSet) : Redis × Option Nat :=
  let jobs := read zset key env
  let (r, count) := pushAll key env 0 jobs (Redis.add ⟨zset, []⟩ key env.before) 0
  let r := r.add key (env.added jobs.length)
  (if env.del.executed then r.del key else r, if env.del.raised then none else some count)

/-- `_SIDEKIQ_RETRY_DEAD_SCRIPT`. -/
def retryDeadScript : Env → (SetName → ZSet) → Redis × Option Nat := retryAll .dead

/-- `_SIDEKIQ_RETRY_RETRY_SCRIPT`. -/
def retryRetryScript : Env → (SetName → ZSet) → Redis × Option Nat := retryAll .retry

/-! ### What the script does -/

theorem ZSet.mem_add {z : ZSet} {b c : Bytes} : c ∈ z.add b ↔ c ∈ z ∨ c = b := by
  unfold ZSet.add
  split
  · rename_i h
    constructor
    · exact Or.inl
    · rintro (hc | rfl)
      · exact hc
      · exact h
  · exact List.mem_append.trans (or_congr_right List.mem_singleton)

theorem ZSet.mem_addAll {z : ZSet} {bs : List Bytes} {c : Bytes} : c ∈ z.addAll bs ↔ c ∈ z ∨ c ∈ bs := by
  unfold ZSet.addAll
  induction bs generalizing z with
  | nil => simp
  | cons b bs ih => rw [List.foldl_cons, ih, ZSet.mem_add, List.mem_cons, or_assoc]

@[simp] theorem Redis.mem_add {r : Redis} {key : SetName} {bs : List Bytes} {c : Bytes} :
    c ∈ (r.add key bs).zset key ↔ c ∈ r.zset key ∨ c ∈ bs := by
  change c ∈ Function.update r.zset key ((r.zset key).addAll bs) key ↔ _
  rw [Function.update_self, ZSet.mem_addAll]

theorem Redis.not_mem_del (r : Redis) (key : SetName) (b : Bytes) : ¬ b ∈ (r.del key).zset key := by
  change ¬ b ∈ Function.update r.zset key ZSet.empty key
  rw [Function.update_self]
  exact List.not_mem_nil

@[simp] theorem Redis.enqueued_add (r : Redis) (key : SetName) (bs : List Bytes) : (r.add key bs).enqueued = r.enqueued := rfl

@[simp] theorem zset_pushJob (outcome : Outcome) (member : Bytes) (r : Redis) (count : Nat) :
    (pushJob outcome member r count).1.zset = r.zset := by
  unfold pushJob
  split
  · rfl
  · dsimp only
    split
    · rfl
    · rfl

/-- The push of a member, if it is carried out. -/
def pushed (outcome : Outcome) (member : Bytes) : Option (Bytes × Bytes) :=
  if outcome.executed then (names member).map fun queue => (queue, recode member) else none

theorem enqueued_pushJob (outcome : Outcome) (member : Bytes) (r : Redis) (count : Nat) :
    (pushJob outcome member r count).1.enqueued = r.enqueued ++ (pushed outcome member).toList := by
  unfold pushJob pushed
  cases names member with
  | none => simp
  | some queue =>
    dsimp only
    split
    · rfl
    · simp

theorem mem_pushAll {key : SetName} {env : Env} {i : Nat} {jobs : List Bytes} {r : Redis} {count : Nat} {c : Bytes} :
    c ∈ (pushAll key env i jobs r count).1.zset key ↔
      c ∈ r.zset key ∨ ∃ j, i ≤ j ∧ j < i + jobs.length ∧ c ∈ env.added j := by
  induction jobs generalizing i r count with
  | nil =>
    rw [pushAll]
    constructor
    · exact Or.inl
    · rintro (h | ⟨j, hij, hji, -⟩)
      · exact h
      · rw [List.length_nil] at hji
        omega
  | cons member jobs ih =>
    rw [pushAll, ih, zset_pushJob, Redis.mem_add, or_assoc, List.length_cons]
    refine or_congr_right ⟨?_, ?_⟩
    · rintro (h | ⟨j, hij, hji, h⟩)
      · exact ⟨i, Nat.le_refl i, by omega, h⟩
      · exact ⟨j, by omega, by omega, h⟩
    · rintro ⟨j, hij, hji, h⟩
      by_cases hj : j = i
      · exact Or.inl (hj ▸ h)
      · exact Or.inr ⟨j, by omega, by omega, h⟩

theorem enqueued_pushAll (key : SetName) (env : Env) (i : Nat) (jobs : List Bytes) (r : Redis) (count : Nat) :
    (pushAll key env i jobs r count).1.enqueued =
      r.enqueued ++ (jobs.zipIdx i).filterMap fun e => pushed (env.push e.2) e.1 := by
  induction jobs generalizing i r count with
  | nil => simp [pushAll]
  | cons member jobs ih =>
    rw [pushAll, ih, enqueued_pushJob, Redis.enqueued_add, List.zipIdx_cons, List.filterMap_cons, List.append_assoc]
    cases pushed (env.push i) member with
    | none => rfl
    | some p => rfl

/-! ### Conservation -/

section

variable (zset : SetName → ZSet) (key : SetName) (env : Env)

/-- A job that is in the set at the start or is added while the script runs. -/
def Job (b : Bytes) : Prop :=
  b ∈ read zset key env ∨ ∃ i ≤ (read zset key env).length, b ∈ env.added i

/-- The job is still in the set or in the queue it names, and has not been enqueued twice. -/
def Conserved (r : Redis) (b : Bytes) : Prop :=
  (b ∈ r.zset key ∨ ∃ queue, names b = some queue ∧ (queue, b) ∈ r.enqueued) ∧
    (r.enqueued.map Prod.snd).count b ≤ 1

/-- A member that the push hands on as it is. -/
def Retryable (b : Bytes) : Prop := (∃ t, encode t = b) ∧ (names b).isSome

/-- Where the set is deleted, every member read is UTF-8, names a queue and is pushed, and nothing else has been added since
the read.  Where the deletion fails, no two pushes write the bytes of one job. -/
def Env.Keeps : Prop :=
  if env.del.executed then
    (∀ i b, (read zset key env)[i]? = some b → Retryable b ∧ (env.push i).executed = true) ∧
      ∀ i ≤ (read zset key env).length, ∀ b ∈ env.added i, b ∈ read zset key env
  else
    ∀ b, Job zset key env b →
      (((read zset key env).zipIdx.filter fun e => (env.push e.2).executed && (names e.1).isSome).map fun e =>
        recode e.1).count b ≤ 1

/-- The pushes of a run of the script. -/
def pushes : List (Bytes × Bytes) := (read zset key env).zipIdx.filterMap fun e => pushed (env.push e.2) e.1

theorem enqueued_retryAll : (retryAll key env zset).1.enqueued = pushes zset key env := by
  unfold retryAll pushes
  dsimp only
  split
  · exact (enqueued_pushAll key env 0 _ _ 0).trans (List.nil_append _)
  · exact (enqueued_pushAll key env 0 _ _ 0).trans (List.nil_append _)

variable {zset key env}

theorem recode_recode (b : Bytes) : recode (recode b) = recode b := by
  unfold recode
  rw [decodeReplace_encode]

theorem recode_eq_self {b : Bytes} (h : ∃ t, encode t = b) : recode b = b := recode_eq_self_iff.2 h

/-- After the script the set has all jobs, or none. -/
theorem mem_retryAll {b : Bytes} :
    b ∈ (retryAll key env zset).1.zset key ↔ env.del.executed = false ∧ Job zset key env b := by
  unfold retryAll
  dsimp only
  split
  · rename_i hdel
    rw [hdel]
    exact ⟨fun h => absurd h (Redis.not_mem_del _ key b), fun h => absurd h.1 (by decide)⟩
  · rename_i hdel
    rw [Redis.mem_add, mem_pushAll, Redis.mem_add]
    have hfalse : env.del.executed = false := by simpa using hdel
    unfold Job
    rw [show b ∈ read zset key env ↔ b ∈ zset key ∨ b ∈ env.before from ZSet.mem_addAll]
    constructor
    · rintro ((h | ⟨j, -, hj, h⟩) | h)
      · exact ⟨hfalse, Or.inl h⟩
      · exact ⟨hfalse, Or.inr ⟨j, by omega, h⟩⟩
      · exact ⟨hfalse, Or.inr ⟨_, Nat.le_refl _, h⟩⟩
    · rintro ⟨-, h | ⟨j, hj, h⟩⟩
      · exact Or.inl (Or.inl h)
      · rcases Nat.lt_or_eq_of_le hj with hlt | rfl
        · exact Or.inl (Or.inr ⟨j, Nat.zero_le j, by omega, h⟩)
        · exact Or.inr h

theorem mem_pushes {queue v : Bytes} :
    (queue, v) ∈ pushes zset key env ↔ ∃ (i : Nat) (b : Bytes), (read zset key env)[i]? = some b ∧
      (env.push i).executed = true ∧ names b = some queue ∧ recode b = v := by
  unfold pushes
  rw [List.mem_filterMap]
  constructor
  · rintro ⟨⟨b, i⟩, hmem, hpush⟩
    unfold pushed at hpush
    split at hpush
    · rename_i hexec
      obtain ⟨q, hq, heq⟩ := Option.map_eq_some_iff.1 hpush
      cases heq
      exact ⟨i, b, List.mk_mem_zipIdx_iff_getElem?.1 hmem, hexec, hq, rfl⟩
    · cases hpush
  · rintro ⟨i, b, hget, hexec, hq, rfl⟩
    refine ⟨(b, i), List.mk_mem_zipIdx_iff_getElem?.2 hget, ?_⟩
    rw [pushed, if_pos hexec, hq]
    rfl

theorem values_pushed (l : List (Bytes × Nat)) :
    (l.filterMap fun e => pushed (env.push e.2) e.1).map Prod.snd =
      (l.filter fun e => (env.push e.2).executed && (names e.1).isSome).map fun e => recode e.1 := by
  induction l with
  | nil => rfl
  | cons e l ih =>
    unfold pushed at ih ⊢
    rw [List.filterMap_cons, List.filter_cons]
    cases hexec : (env.push e.2).executed with
    | false => simpa using ih
    | true =>
      cases hnames : names e.1 with
      | none => simpa using ih
      | some queue => simpa using ih

/-- If every member is handed on as it is, then what is pushed are members. -/
theorem values_sublist (h : ∀ i b, (read zset key env)[i]? = some b → Retryable b ∧ (env.push i).executed = true) :
    List.Sublist ((pushes zset key env).map Prod.snd) (read zset key env) := by
  unfold pushes
  rw [values_pushed]
  have hmap : (((read zset key env).zipIdx.filter fun e => (env.push e.2).executed && (names e.1).isSome).map fun e =>
      recode e.1) =
      ((read zset key env).zipIdx.filter fun e => (env.push e.2).executed && (names e.1).isSome).map Prod.fst := by
    refine List.map_congr_left fun e he => ?_
    obtain ⟨b, i⟩ := e
    have hget := List.mk_mem_zipIdx_iff_getElem?.1 (List.mem_of_mem_filter he)
    exact recode_eq_self (h i b hget).1.1
  have hfst : (read zset key env).zipIdx.map Prod.fst = read zset key env := List.zipIdx_map_fst 0 _
  rw [hmap]
  conv => rhs; rw [← hfst]
  exact List.filter_sublist.map _

/-- If every job is pushed under its own name, then every member read is handed on as it is, and nothing else has been added:
what is pushed is an encoding, so every member read is one. -/
theorem retryable_of_pushed (h : ∀ b, Job zset key env b → ∃ queue, names b = some queue ∧ (queue, b) ∈ pushes zset key env) :
    (∀ i b, (read zset key env)[i]? = some b → Retryable b ∧ (env.push i).executed = true) ∧
      ∀ i ≤ (read zset key env).length, ∀ b ∈ env.added i, b ∈ read zset key env := by
  have hvalid : ∀ b ∈ read zset key env, recode b = b := by
    intro b hb
    obtain ⟨queue, -, hmem⟩ := h b (Or.inl hb)
    obtain ⟨i, m, -, -, -, rfl⟩ := mem_pushes.1 hmem
    exact recode_recode m
  refine ⟨fun i b hget => ?_, fun i hi b hb => ?_⟩
  · have hmem := List.mem_of_getElem? hget
    obtain ⟨queue, hq, hpush⟩ := h b (Or.inl hmem)
    obtain ⟨j, m, hget', hexec, -, hrec⟩ := mem_pushes.1 hpush
    obtain rfl : m = b := (hvalid m (List.mem_of_getElem? hget')).symm.trans hrec
    obtain rfl : j = i := by
      have hlt := (List.getElem?_eq_some_iff.1 hget').1
      exact (List.getElem?_inj hlt ((zset key).addAll env.before).nodup).1 (hget'.trans hget.symm)
    exact ⟨⟨recode_eq_self_iff.1 (hvalid m hmem), by rw [hq]; rfl⟩, hexec⟩
  · obtain ⟨queue, -, hpush⟩ := h b (Or.inr ⟨i, hi, hb⟩)
    obtain ⟨j, m, hget, -, -, rfl⟩ := mem_pushes.1 hpush
    have hmem := List.mem_of_getElem? hget
    rwa [hvalid m hmem]

/-- If every member read is handed on as it is, then each is pushed under its name, and once. -/
theorem pushed_of_retryable
    (hread : ∀ i b, (read zset key env)[i]? = some b → Retryable b ∧ (env.push i).executed = true) {b : Bytes}
    (hmem : b ∈ read zset key env) : (∃ queue, names b = some queue ∧ (queue, b) ∈ pushes zset key env) ∧
      ((pushes zset key env).map Prod.snd).count b ≤ 1 := by
  obtain ⟨i, hget⟩ := List.getElem?_of_mem hmem
  obtain ⟨⟨henc, hnames⟩, hexec⟩ := hread i b hget
  obtain ⟨queue, hq⟩ := Option.isSome_iff_exists.1 hnames
  refine ⟨⟨queue, hq, mem_pushes.2 ⟨i, b, hget, hexec, hq, recode_eq_self henc⟩⟩, ?_⟩
  exact Nat.le_trans ((values_sublist hread).count_le b)
    (List.nodup_iff_count_le_one.1 ((zset key).addAll env.before).nodup b)

/-- The script loses no job and enqueues none twice exactly on the runs that keep the members it can hand on. -/
theorem retryAll_conserves_iff (zset : SetName → ZSet) (key : SetName) (env : Env) :
    (∀ b, Job zset key env b → Conserved key (retryAll key env zset).1 b) ↔ env.Keeps zset key := by
  unfold Env.Keeps Conserved
  rw [enqueued_retryAll]
  by_cases hdel : env.del.executed = true
  · have hgone : ∀ b, ¬ b ∈ (retryAll key env zset).1.zset key := by
      intro b hb
      rw [mem_retryAll, hdel] at hb
      cases hb.1
    rw [if_pos hdel]
    constructor
    · intro h
      exact retryable_of_pushed fun b hb => (h b hb).1.resolve_left (hgone b)
    · rintro ⟨hread, hadded⟩ b hb
      have hmem : b ∈ read zset key env := by
        rcases hb with hb | ⟨i, hi, hb⟩
        · exact hb
        · exact hadded i hi b hb
      obtain ⟨hpushed, honce⟩ := pushed_of_retryable hread hmem
      exact ⟨Or.inr hpushed, honce⟩
  · have hfalse : env.del.executed = false := by simpa using hdel
    rw [if_neg hdel]
    unfold pushes
    rw [values_pushed]
    exact ⟨fun h b hb => (h b hb).2, fun h b hb => ⟨Or.inl (mem_retryAll.2 ⟨hfalse, hb⟩), h b hb⟩⟩

theorem not_conserved {r : Redis} {b : Bytes} (hset : ¬ b ∈ r.zset key) (henqueued : r.enqueued = []) :
    ¬ Conserved key r b := by
  rintro ⟨h | ⟨queue, -, h⟩, -⟩
  · exact hset h
  · rw [henqueued] at h
    cases h

end

/-- A member that is no JSON, a member whose push is refused, and a member that Sidekiq adds after the read are all gone when
the set has been deleted; a member that is not UTF-8 is enqueued with other bytes. -/
theorem jobs_vanish :
    (¬ ∀ b, Job (fun _ => ⟨[encode "x".toList], by decide +kernel⟩) .dead ⟨[], fun _ => [], fun _ => .done, .done⟩ b →
        Conserved .dead (retryDeadScript ⟨[], fun _ => [], fun _ => .done, .done⟩
          fun _ => ⟨[encode "x".toList], by decide +kernel⟩).1 b) ∧
      (¬ ∀ b, Job (fun _ => ⟨[encode "\x7b\x7d".toList], by decide +kernel⟩) .retry
          ⟨[], fun _ => [], fun _ => .refused, .done⟩ b →
        Conserved .retry (retryRetryScript ⟨[], fun _ => [], fun _ => .refused, .done⟩
          fun _ => ⟨[encode "\x7b\x7d".toList], by decide +kernel⟩).1 b) ∧
      (¬ ∀ b, Job (fun _ => ZSet.empty) .retry ⟨[], fun _ => [encode "\x7b\x7d".toList], fun _ => .done, .done⟩ b →
        Conserved .retry (retryRetryScript ⟨[], fun _ => [encode "\x7b\x7d".toList], fun _ => .done, .done⟩
          fun _ => ZSet.empty).1 b) ∧
      (retryDeadScript ⟨[], fun _ => [], fun _ => .done, .done⟩
          fun _ => ⟨[encode "\x7b\"args\":\"".toList ++ 0xFF :: encode "\"\x7d".toList], by decide +kernel⟩).1.enqueued =
        [(encode "queue:default".toList, encode "\x7b\"args\":\"\uFFFD\"\x7d".toList)] := by
  refine ⟨fun h => ?_, fun h => ?_, fun h => ?_, ?_⟩
  · exact not_conserved (by decide +kernel) (by decide +kernel) (h (encode "x".toList) (Or.inl List.mem_cons_self))
  · exact not_conserved (by decide +kernel) (by decide +kernel) (h (encode "\x7b\x7d".toList) (Or.inl List.mem_cons_self))
  · exact not_conserved (by decide +kernel) (by decide +kernel)
      (h (encode "\x7b\x7d".toList) (Or.inr ⟨0, Nat.zero_le _, List.mem_cons_self⟩))
  · decide +kernel

end ProxmoxTool.Sidekiq
