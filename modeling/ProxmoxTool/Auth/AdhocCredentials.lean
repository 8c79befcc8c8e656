import Mathlib
import ProxmoxTool.Lib.Text
import ProxmoxTool.Lib.Dict

/-!
# Ad-hoc SSH credentials

The store of `core/adhoc_credentials.py`: credentials typed for one terminal connection wait under a random token, for one
user and one guest, until they are taken or expire.  Every call is one step, the section under `_lock`, with the clock it has
read; nothing is assumed about the order of these readings.

A call sequence is compared with itself: what waits in the store has been parked by an earlier call whose token no `take` has
named since (`parked_after`).  Expired entries and those above the cap are dropped before the new entry goes in, so the store
may end up with one entry more than `_MAX_ENTRIES`.
-/

namespace ProxmoxTool.AdhocCredentials

structure Entry (T : Type) where
  userId : Nat
  guestId : Nat
  username : Text
  password : Text
  expiresAt : T

/-- `_entries`. -/
abbrev Entries (T : Type) := Dict Text (Entry T)

/-- `_MAX_ENTRIES`. -/
def maxEntries : Nat := 256

variable {T : Type} [LinearOrder T]

/-- `min(_entries, key=...)`: the first among the entries that expire first; `best` is the best so far. -/
def oldestFrom (best : Text × Entry T) : Entries T → Text
  | [] => best.1
  | e :: entries => if e.2.expiresAt < best.2.expiresAt then oldestFrom e entries else oldestFrom best entries

/-- `while len(_entries) > _MAX_ENTRIES`: a turn drops an entry, so there are no more turns than entries. -/
def dropOldest : Nat → Entries T → Entries T
  | 0, entries => entries
  | _ + 1, [] => []
  | n + 1, e :: entries =>
    if maxEntries < (e :: entries).length then dropOldest n (Dict.pop (e :: entries) (oldestFrom e entries))
    else e :: entries

/-- The entries that have not expired. -/
def unexpired (now : T) (entries : Entries T) : Entries T := entries.filter fun e => decide (now < e.2.expiresAt)

/-- `_prune_locked`. -/
def prune (now : T) (entries : Entries T) : Entries T := dropOldest (unexpired now entries).length (unexpired now entries)

section

variable [Add T] [OfNat T 300]

/-- `TTL_SECONDS`. -/
def ttlSeconds : T := 300

/-- `store_credentials`, with the token it has drawn. -/
def storeCredentials (entries : Entries T) (token : Text) (userId guestId : Nat) (username password : Text) (now : T) :
    Entries T :=
  (prune now entries).set token ⟨userId, guestId, username, password, now + ttlSeconds⟩

end

/-- `take_credentials`: an empty token is refused before the lock, any other one is gone afterwards. -/
def takeCredentials (entries : Entries T) (token : Option Text) (userId guestId : Nat) (now : T) :
    Option (Text × Text) × Entries T :=
  match token with
  | none | some [] => (none, entries)
  | some token =>
    let live := prune now entries
    let taken := match live.get? token with
      | none => none
      | some e =>
        if e.expiresAt ≤ now then none
        else if e.userId ≠ userId ∨ e.guestId ≠ guestId then none
        else some (e.username, e.password)
    (taken, live.pop token)

def discard (entries : Entries T) : Option Text → Entries T
  | none | some [] => entries
  | some token => entries.pop token

/-! ### Call sequences -/

inductive Call (T : Type)
  | store (token : Text) (userId guestId : Nat) (username password : Text) (now : T)
  | take (token : Option Text) (userId guestId : Nat) (now : T)
  | discard (token : Option Text)

def Call.Takes (token : Text) : Call T → Prop
  | .take taken _ _ _ => taken = some token
  | _ => False

def Call.Stores (token : Text) : Call T → Prop
  | .store stored _ _ _ _ _ => stored = token
  | _ => False

/-- The token that a call hands out. -/
def Call.stored : Call T → Option Text
  | .store token _ _ _ _ _ => some token
  | _ => none

section

variable [Add T] [OfNat T 300]

def serve (entries : Entries T) : Call T → Entries T
  | .store token userId guestId username password now => storeCredentials entries token userId guestId username password now
  | .take token userId guestId now => (takeCredentials entries token userId guestId now).2
  | .discard token => discard entries token

/-- The store after some calls. -/
def after (calls : List (Call T)) : Entries T := calls.foldl serve []

/-- What a call sequence may rely on: credentials go to the user and for the guest they were issued for, before they expire
(`issued`); a take of a token makes every later take of it return nothing (`spent`); no two takes return the credentials that
were stored under one token (`once`). -/
structure SingleUse (calls : List (Call T)) : Prop where
  issued : ∀ before token userId guestId now rest c, calls = before ++ .take token userId guestId now :: rest →
    (takeCredentials (after before) token userId guestId now).1 = some c →
      ∃ first t issuedAt second, token = some t ∧
        before = first ++ .store t userId guestId c.1 c.2 issuedAt :: second ∧ now < issuedAt + ttlSeconds
  spent : ∀ before token userId guestId now between userId' guestId' now' rest,
    calls = before ++ .take (some token) userId guestId now :: (between ++ .take (some token) userId' guestId' now' :: rest) →
    (∀ call ∈ between, ¬ call.Stores token) →
      (takeCredentials (after (before ++ .take (some token) userId guestId now :: between)) (some token) userId' guestId'
        now').1 = none
  once : ∀ before token userId guestId now between token' userId' guestId' now' rest c c',
    calls = before ++ .take token userId guestId now :: (between ++ .take token' userId' guestId' now' :: rest) →
    (takeCredentials (after before) token userId guestId now).1 = some c →
    (takeCredentials (after (before ++ .take token userId guestId now :: between)) token' userId' guestId' now').1 = some c' →
      token ≠ token'

/-- There are never more entries than the cap. -/
def Bounded (calls : List (Call T)) : Prop := ∀ before rest, calls = before ++ rest → (after before).length ≤ maxEntries

/-- Whenever credentials are stored, fewer entries than the cap have not expired. -/
def RoomLeft (calls : List (Call T)) : Prop :=
  ∀ before token userId guestId username password now rest,
    calls = before ++ .store token userId guestId username password now :: rest →
      (unexpired now (after before)).length < maxEntries

end

/-! ### Pruning -/

theorem oldestFrom_mem (best : Text × Entry T) (entries : Entries T) :
    oldestFrom best entries ∈ (best :: entries).map Prod.fst := by
  induction entries generalizing best with
  | nil => exact .head _
  | cons e entries ih =>
    unfold oldestFrom
    split
    · exact List.mem_cons_of_mem _ (ih e)
    · rcases List.mem_cons.1 (ih best) with hbest | hrest
      · exact hbest ▸ .head _
      · exact .tail _ (.tail _ hrest)

theorem dropOldest_sublist (n : Nat) (entries : Entries T) : (dropOldest n entries).Sublist entries := by
  induction n generalizing entries with
  | zero => exact List.Sublist.refl _
  | succ n ih =>
    cases entries with
    | nil => exact List.Sublist.refl _
    | cons e entries =>
      unfold dropOldest
      split
      · exact (ih _).trans List.filter_sublist
      · exact List.Sublist.refl _

/-- The loop leaves as many entries as the cap allows. -/
theorem length_dropOldest {n : Nat} {entries : Entries T} (hnodup : (entries.map Prod.fst).Nodup) (hn : entries.length ≤ n) :
    (dropOldest n entries).length = min entries.length maxEntries := by
  induction n generalizing entries with
  | zero =>
    rw [List.length_eq_zero_iff.1 (Nat.le_zero.1 hn)]
    rfl
  | succ n ih =>
    cases entries with
    | nil => rfl
    | cons e entries =>
      have hpop := Dict.length_pop hnodup (oldestFrom_mem e entries)
      unfold dropOldest
      split
      · rename_i hlong
        have hnodup' : ((Dict.pop (e :: entries) (oldestFrom e entries)).map Prod.fst).Nodup :=
          hnodup.sublist (List.filter_sublist.map _)
        rw [ih hnodup' (by omega)]
        omega
      · omega

theorem prune_sublist_unexpired (now : T) (entries : Entries T) : (prune now entries).Sublist (unexpired now entries) :=
  dropOldest_sublist _ _

theorem prune_sublist (now : T) (entries : Entries T) : (prune now entries).Sublist entries :=
  (prune_sublist_unexpired now entries).trans List.filter_sublist

theorem length_prune {entries : Entries T} (hnodup : (entries.map Prod.fst).Nodup) (now : T) :
    (prune now entries).length = min (unexpired now entries).length maxEntries :=
  length_dropOldest (hnodup.sublist (List.filter_sublist.map _)) le_rfl

/-! ### One call -/

theorem takeCredentials_sublist (entries : Entries T) (token : Option Text) (userId guestId : Nat) (now : T) :
    (takeCredentials entries token userId guestId now).2.Sublist entries := by
  unfold takeCredentials
  split
  · exact List.Sublist.refl _
  · exact List.Sublist.refl _
  · exact List.filter_sublist.trans (prune_sublist now entries)

omit [LinearOrder T] in
theorem discard_sublist (entries : Entries T) (token : Option Text) : (discard entries token).Sublist entries := by
  unfold discard
  split
  · exact List.Sublist.refl _
  · exact List.Sublist.refl _
  · exact List.filter_sublist

/-- A take leaves nothing under its token. -/
theorem not_mem_takeCredentials {entries : Entries T} {token : Text} (hne : token ≠ []) (userId guestId : Nat) (now : T)
    {e : Text × Entry T} (he : e ∈ (takeCredentials entries (some token) userId guestId now).2) : e.1 ≠ token := by
  unfold takeCredentials at he
  split at he
  · contradiction
  · rename_i heq
    exact absurd (Option.some.inj heq) hne
  · rename_i heq
    obtain rfl := Option.some.inj heq
    simpa using (List.mem_filter.1 he).2

/-- What a take returns is an entry of the store that is for this user and guest and has not expired. -/
theorem takeCredentials_some {entries : Entries T} {token : Option Text} {userId guestId : Nat} {now : T} {c : Text × Text}
    (h : (takeCredentials entries token userId guestId now).1 = some c) :
    ∃ t e, token = some t ∧ t ≠ [] ∧ (t, e) ∈ entries ∧ now < e.expiresAt ∧ e.userId = userId ∧ e.guestId = guestId ∧
      c = (e.username, e.password) := by
  unfold takeCredentials at h
  split at h
  · cases h
  · cases h
  · rename_i t hne
    cases hget : (prune now entries).get? t with
    | none =>
      simp only [hget] at h
      cases h
    | some e =>
      simp only [hget] at h
      split at h
      · cases h
      · rename_i hlive
        split at h
        · cases h
        · rename_i hmatch
          rw [not_or, not_not, not_not] at hmatch
          have hmem := (prune_sublist now entries).subset (Dict.mem_of_get? hget)
          exact ⟨t, e, rfl, hne, hmem, not_le.1 hlive, hmatch.1, hmatch.2,
            (Option.some.inj h).symm⟩

/-! ### What waits in the store -/

section

variable [Add T] [OfNat T 300]

/-- The keys are distinct, and every entry has been parked by a call whose token no take has named since. -/
structure Parked (calls : List (Call T)) (entries : Entries T) : Prop where
  nodup : (entries.map Prod.fst).Nodup
  issued : ∀ e ∈ entries, ∃ first issuedAt second,
    calls = first ++ .store e.1 e.2.userId e.2.guestId e.2.username e.2.password issuedAt :: second ∧
      e.2.expiresAt = issuedAt + ttlSeconds ∧ (e.1 ≠ [] → ∀ call ∈ second, ¬ call.Takes e.1)

omit [LinearOrder T] in
theorem Parked.sublist {calls : List (Call T)} {entries entries' : Entries T} (h : Parked calls entries)
    (hsub : entries'.Sublist entries) : Parked calls entries' :=
  ⟨h.nodup.sublist (hsub.map _), fun e he => h.issued e (hsub.subset he)⟩

omit [LinearOrder T] in
/-- A call that takes none of the entries keeps them parked. -/
theorem Parked.append {calls : List (Call T)} {entries : Entries T} (h : Parked calls entries) {call : Call T}
    (hcall : ∀ e ∈ entries, e.1 ≠ [] → ¬ call.Takes e.1) : Parked (calls ++ [call]) entries := by
  refine ⟨h.nodup, fun e he => ?_⟩
  obtain ⟨first, issuedAt, second, rfl, hexpires, htakes⟩ := h.issued e he
  refine ⟨first, issuedAt, second ++ [call], by simp, hexpires, fun hne c hc => ?_⟩
  rcases List.mem_append.1 hc with hc | hc
  · exact htakes hne c hc
  · exact List.mem_singleton.1 hc ▸ hcall e he hne

theorem parked_after (calls : List (Call T)) : Parked calls (after calls) := by
  induction calls using List.reverseRecOn with
  | nil => exact ⟨List.nodup_nil, nofun⟩
  | append_singleton calls call ih =>
    rw [after, List.foldl_append, ← after, List.foldl_cons, List.foldl_nil]
    cases call with
    | store token userId guestId username password now =>
      have hpruned : Parked (calls ++ [.store token userId guestId username password now]) _ :=
        (ih.sublist (prune_sublist now _)).append fun _ _ _ => id
      refine ⟨Dict.nodup_keys_set hpruned.nodup _ _, fun e he => ?_⟩
      rcases Dict.mem_set he with heq | he
      · obtain rfl : e = (token, _) := heq
        exact ⟨calls, now, [], rfl, rfl, fun _ _ => nofun⟩
      · exact hpruned.issued e he
    | take token userId guestId now =>
      refine (ih.sublist (takeCredentials_sublist _ token userId guestId now)).append fun e he hne htakes => ?_
      have htoken : token = some e.1 := htakes
      subst htoken
      exact not_mem_takeCredentials hne userId guestId now he rfl
    | discard token => exact (ih.sublist (discard_sublist _ token)).append fun _ _ _ => id

omit [LinearOrder T] [Add T] [OfNat T 300] in
/-- Two places of one list: one is left of the other. -/
theorem mem_of_split_eq {α : Type} {before between first second : List α} {a b : α}
    (h : before ++ a :: between = first ++ b :: second) : b ∈ between ∨ a = b ∨ a ∈ second := by
  induction before generalizing first with
  | nil =>
    cases first with
    | nil => exact .inr (.inl (List.cons.inj h).1)
    | cons c first =>
      rw [List.nil_append, List.cons_append] at h
      rw [(List.cons.inj h).2]
      exact .inl (List.mem_append_right _ (.head _))
  | cons c before ih =>
    cases first with
    | nil =>
      rw [List.cons_append, List.nil_append] at h
      rw [← (List.cons.inj h).2]
      exact .inr (.inr (List.mem_append_right _ (.head _)))
    | cons c' first => exact ih (List.cons.inj h).2

/-- A token that has been taken and not issued again is not in the store. -/
theorem take_of_taken {before between : List (Call T)} {token : Text} {userId guestId : Nat} {now : T}
    (hstores : ∀ call ∈ between, ¬ call.Stores token) (userId' guestId' : Nat) (now' : T) :
    (takeCredentials (after (before ++ .take (some token) userId guestId now :: between)) (some token) userId' guestId' now').1 =
      none := by
  cases htake : (takeCredentials (after (before ++ .take (some token) userId guestId now :: between)) (some token) userId'
    guestId' now').1 with
  | none => rfl
  | some c =>
    obtain ⟨t, e, heq, hne, hmem, -⟩ := takeCredentials_some htake
    obtain rfl := Option.some.inj heq
    obtain ⟨first, issuedAt, second, hsplit, -, htakes⟩ := (parked_after _).issued _ hmem
    rcases mem_of_split_eq hsplit with hin | hsame | hin
    · exact absurd rfl (hstores _ hin)
    · cases hsame
    · exact absurd rfl (htakes hne _ hin)

/-- What a take returns was stored for this user and guest, less than the lifetime ago. -/
theorem issued_of_take {before : List (Call T)} {token : Option Text} {userId guestId : Nat} {now : T} {c : Text × Text}
    (h : (takeCredentials (after before) token userId guestId now).1 = some c) :
    ∃ first t issuedAt second, token = some t ∧ before = first ++ .store t userId guestId c.1 c.2 issuedAt :: second ∧
      now < issuedAt + ttlSeconds := by
  obtain ⟨t, e, htoken, -, hmem, hlive, rfl, rfl, rfl⟩ := takeCredentials_some h
  obtain ⟨first, issuedAt, second, hsplit, hexpires, -⟩ := (parked_after before).issued _ hmem
  exact ⟨first, t, issuedAt, second, htoken, hsplit, hexpires ▸ hlive⟩

omit [LinearOrder T] [Add T] [OfNat T 300] in
/-- Only one call of a sequence stores a token. -/
theorem not_stores_of_nodup {first second : List (Call T)} {call : Call T} {token : Text} (hcall : call.stored = some token)
    (h : ((first ++ call :: second).filterMap Call.stored).Nodup) : ∀ other ∈ first ++ second, ¬ other.Stores token := by
  intro other hother hstores
  have hstored : other.stored = some token := by
    cases other with
    | store stored userId guestId username password now => exact congrArg some hstores
    | take token userId guestId now => cases hstores
    | discard token => cases hstores
  rw [List.filterMap_append, List.filterMap_cons, hcall, List.nodup_append] at h
  rcases List.mem_append.1 hother with hfirst | hsecond
  · exact h.2.2 _ (List.mem_filterMap.2 ⟨other, hfirst, hstored⟩) _ (.head _) rfl
  · exact (List.nodup_cons.1 h.2.1).1 (List.mem_filterMap.2 ⟨other, hsecond, hstored⟩)

theorem singleUse {calls : List (Call T)} (hdistinct : (calls.filterMap Call.stored).Nodup) : SingleUse calls where
  issued := fun _ _ _ _ _ _ _ _ h => issued_of_take h
  spent := fun _ _ _ _ _ _ _ _ _ _ _ hstores => take_of_taken hstores _ _ _
  once := by
    intro before token userId guestId now between token' userId' guestId' now' rest c c' hcalls hfirst hsecond heq
    subst heq
    obtain ⟨first, t, issuedAt, second, rfl, rfl, -⟩ := issued_of_take hfirst
    have hstores : ∀ call ∈ between, ¬ call.Stores t := by
      rw [hcalls, List.append_assoc, List.cons_append] at hdistinct
      exact fun call hcall => not_stores_of_nodup rfl hdistinct call (by simp [hcall])
    rw [take_of_taken hstores] at hsecond
    cases hsecond

/-! ### The number of entries -/

/-- Tokens that are issued once are not in the store before. -/
theorem not_mem_of_nodup {before rest : List (Call T)} {call : Call T} {token : Text} (hcall : call.stored = some token)
    (hdistinct : ((before ++ call :: rest).filterMap Call.stored).Nodup) : token ∉ (after before).map Prod.fst := by
  intro hmem
  obtain ⟨e, he, rfl⟩ := List.mem_map.1 hmem
  obtain ⟨first, issuedAt, second, hsplit, -⟩ := (parked_after before).issued e he
  have hin : Call.store e.1 e.2.userId e.2.guestId e.2.username e.2.password issuedAt ∈ before := by
    rw [hsplit]
    exact List.mem_append_right _ (.head _)
  exact not_stores_of_nodup hcall hdistinct _ (List.mem_append_left _ hin) rfl

/-- The number of entries after a store. -/
theorem length_storeCredentials {before rest : List (Call T)} {token : Text} {userId guestId : Nat} {username password : Text}
    {now : T}
    (hdistinct : ((before ++ .store token userId guestId username password now :: rest).filterMap Call.stored).Nodup) :
    (storeCredentials (after before) token userId guestId username password now).length =
      min (unexpired now (after before)).length maxEntries + 1 := by
  have hfresh : token ∉ (prune now (after before)).map Prod.fst := fun hmem =>
    not_mem_of_nodup rfl hdistinct (((prune_sublist now (after before)).map Prod.fst).subset hmem)
  unfold storeCredentials
  rw [Dict.length_set, if_neg hfresh, length_prune (parked_after before).nodup]

theorem after_append_singleton (calls : List (Call T)) (call : Call T) : after (calls ++ [call]) = serve (after calls) call :=
  List.foldl_append

theorem bounded_of_roomLeft {calls : List (Call T)} (hdistinct : (calls.filterMap Call.stored).Nodup) (h : RoomLeft calls) :
    Bounded calls := by
  intro before
  induction before using List.reverseRecOn with
  | nil => exact fun _ _ => Nat.zero_le _
  | append_singleton before call ih =>
    intro rest hcalls
    rw [List.append_assoc, List.singleton_append] at hcalls
    have hle := ih (call :: rest) hcalls
    rw [after_append_singleton]
    cases call with
    | store token userId guestId username password now =>
      have hroom := h before token userId guestId username password now rest hcalls
      rw [hcalls] at hdistinct
      rw [serve, length_storeCredentials hdistinct]
      omega
    | take token userId guestId now => exact (takeCredentials_sublist _ token userId guestId now).length_le.trans hle
    | discard token => exact (discard_sublist _ token).length_le.trans hle

theorem roomLeft_of_bounded {calls : List (Call T)} (hdistinct : (calls.filterMap Call.stored).Nodup) (h : Bounded calls) :
    RoomLeft calls := by
  intro before token userId guestId username password now rest hcalls
  have hle := h (before ++ [.store token userId guestId username password now]) rest (by simp [hcalls])
  rw [hcalls] at hdistinct
  have hlen := length_storeCredentials hdistinct
  rw [after_append_singleton, serve, hlen] at hle
  omega

/-- Over any calls that draw distinct tokens: the credentials are used once, by whom they were stored for and before they
expire, and the cap is kept, exactly if every call of `store_credentials` finds fewer unexpired entries than the cap. -/
theorem adhoc_credentials_iff {calls : List (Call T)} (hdistinct : (calls.filterMap Call.stored).Nodup) :
    SingleUse calls ∧ Bounded calls ↔ RoomLeft calls :=
  ⟨fun h => roomLeft_of_bounded hdistinct h.2, fun h => ⟨singleUse hdistinct, bounded_of_roomLeft hdistinct h⟩⟩

end

/-! ### One connection, and a burst of them -/

theorem exampleCalls_room : RoomLeft [.store ['t'] 1 7 ['r'] ['p'] 0, .take (some ['t']) 1 7 (20 : Nat)] := by
  intro before token userId guestId username password now rest hcalls
  cases before with
  | nil => exact Nat.zero_lt_succ _
  | cons call before =>
    cases before with
    | nil => cases (List.cons.inj (List.cons.inj hcalls).2).1
    | cons call' before =>
      have hnil := (List.cons.inj (List.cons.inj hcalls).2).2
      cases before <;> cases hnil

/-- Credentials stored at 0 and taken at 20. -/
theorem example_single_use : SingleUse [.store ['t'] 1 7 ['r'] ['p'] 0, .take (some ['t']) 1 7 (20 : Nat)] :=
  ((adhoc_credentials_iff (by decide)).2 exampleCalls_room).1

/-- `n` calls at the same time. -/
def burst (n : Nat) : List (Call Nat) := (List.range n).map fun i => .store (List.replicate i 'a') 1 7 ['r'] ['p'] 0

theorem burst_succ (n : Nat) : burst (n + 1) = burst n ++ [.store (List.replicate n 'a') 1 7 ['r'] ['p'] 0] := by
  rw [burst, List.range_succ, List.map_append]
  rfl

theorem nodup_burst (n : Nat) : ((burst n).filterMap Call.stored).Nodup := by
  have hstored : (burst n).filterMap Call.stored = (List.range n).map fun i => List.replicate i 'a' := by
    rw [burst, List.filterMap_map]
    exact congrFun List.filterMap_eq_map (List.range n)
  rw [hstored]
  exact List.nodup_range.map fun i j h => by simpa using congrArg List.length h

theorem length_burst {n : Nat} (hn : n ≤ 257) : (after (burst n)).length = n := by
  induction n with
  | zero => rfl
  | succ n ih =>
    have hall : unexpired 0 (after (burst n)) = after (burst n) := by
      refine List.filter_eq_self.2 fun e he => decide_eq_true ?_
      obtain ⟨-, issuedAt, -, -, hexpires, -⟩ := (parked_after (burst n)).issued e he
      rw [hexpires]
      exact Nat.lt_of_lt_of_le (by decide : 0 < 300) (Nat.le_add_left _ _)
    have hlen := length_storeCredentials (burst_succ n ▸ nodup_burst (n + 1))
    rw [burst_succ, after_append_singleton, serve, hlen, hall, ih (by omega)]
    have hcap : maxEntries = 256 := rfl
    omega

/-- Storing for the 257th time within the lifetime leaves 257 entries. -/
theorem one_too_many : ((burst 257).filterMap Call.stored).Nodup ∧ ¬ Bounded (burst 257) := by
  refine ⟨nodup_burst 257, fun h => ?_⟩
  have hle := h (burst 257) [] (List.append_nil _).symm
  rw [length_burst le_rfl] at hle
  exact absurd hle (by decide)

end ProxmoxTool.AdhocCredentials
