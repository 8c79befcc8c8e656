import ProxmoxTool.Lib.Dict
import ProxmoxTool.Lib.Queue
import Mathlib.Algebra.Order.Ring.Rat

/-!
# The collaboration hub

The model of `CollaborationHub` of `core/collaboration.py`: who is connected, with the permissions captured at the
connection, and the event queues.  A queue keeps the user it was made for, which the code does not; everything else is as
in the source, one function per method, over sequences of calls.

`agree_run` is the two-run invariant: what a viewer that is no admin finds in its queues does not depend on the pages of other
users that are about guests outside its tags, nor on the events that are not for it.  `allStripped_run` is that the routing
keys of an event are taken out before it is delivered.
-/

namespace ProxmoxTool.Collab

/-- `_PRESENCE_TIMEOUT`, in seconds. -/
def presenceTimeout : Rat := 90

/-- The `maxsize` of an event queue. -/
def queueSize : Nat := 200

/-- A value of an event dictionary. -/
inductive Value
  | null
  | bool (b : Bool)
  | int (n : Int)
  | str (t : String)
  | list (ids : List Nat)
  deriving DecidableEq, Repr

/-- `bool(value)`. -/
def Value.truthy : Value → Bool
  | null => false
  | bool b => b
  | int n => n ≠ 0
  | str t => t ≠ ""
  | list ids => ids ≠ []

/-- `set(value)` as far as it can meet a set of tag ids; `none` for a `TypeError`. -/
def Value.toSet : Value → Option (List Nat)
  | null | bool _ | int _ => none
  | str _ => some []
  | list ids => some ids

structure Online where
  username : String
  displayName : String
  page : String
  following : Option String
  deriving DecidableEq, Repr

/-- What a queue holds: the presence list, or an event that was broadcast. -/
inductive Event
  | presence (users : List Online)
  | activity (event : Dict String Value)
  deriving DecidableEq, Repr

/-- The keys of an event. -/
def Event.keys : Event → List String
  | presence _ => ["type", "users"]
  | activity event => event.map Prod.fst

structure User where
  username : String
  displayName : String
  page : String
  pageTagIds : Option (List Nat)
  following : Option String
  lastSeen : Rat
  queue : Nat
  isAdmin : Bool
  tagIds : List Nat
  canModerate : Bool
  deriving DecidableEq, Repr

/-- An event queue and the user it was made for. -/
structure Conn where
  owner : Nat
  queue : Queue Event
  deriving DecidableEq, Repr

structure Hub where
  users : Dict Nat User := []
  queues : List Conn := []
  deriving DecidableEq, Repr

def put (queues : List Conn) (q : Nat) (event : Event) : List Conn :=
  queues.modify q fun c => { c with queue := c.queue.putNowait queueSize event }

/-- The loops that put one event into each of the target queues. -/
def putAll (queues : List Conn) (targets : List (Nat × Event)) : List Conn :=
  targets.foldl (fun queues t => put queues t.1 t.2) queues

/-- `_page_visible`. -/
def pageVisible (pageTagIds : Option (List Nat)) (viewerIsAdmin : Bool) (viewerTagIds : List Nat) (isSelf : Bool) : Bool :=
  match pageTagIds with
  | none => true
  | some tagIds => viewerIsAdmin || isSelf || tagIds.any fun t => decide (t ∈ viewerTagIds)

/-- One entry of the presence list. -/
def online (viewerIsAdmin : Bool) (viewerTagIds : List Nat) (viewerId : Option Nat) (uid : Nat) (u : User) : Online where
  username := u.username
  displayName := u.displayName
  page := if pageVisible u.pageTagIds viewerIsAdmin viewerTagIds (decide (viewerId = some uid)) then u.page else "/"
  following := u.following

/-- `get_online_users` at the time `now`. -/
def getOnlineUsers (users : Dict Nat User) (now : Rat) (viewerIsAdmin : Bool) (viewerTagIds : List Nat)
    (viewerId : Option Nat) : List Online :=
  (users.filter fun e => decide (now - e.2.lastSeen < presenceTimeout)).map fun e =>
    online viewerIsAdmin viewerTagIds viewerId e.1 e.2

/-- `_push_presence`; `clock i` is the time read for the `i`-th recipient. -/
def pushPresence (clock : Nat → Rat) (hub : Hub) : Hub :=
  let targets := hub.users.zipIdx.map fun e =>
    (e.1.2.queue, Event.presence (getOnlineUsers hub.users (clock e.2) e.1.2.isAdmin e.1.2.tagIds (some e.1.1)))
  { hub with queues := putAll hub.queues targets }

/-- `connect`; the new queue is the last one. -/
def connect (hub : Hub) (userId : Nat) (username displayName page : String) (isAdmin : Bool) (tagIds : List Nat)
    (canModerate : Bool) (pageTagIds : Option (List Nat)) (now : Rat) (clock : Nat → Rat) : Hub :=
  pushPresence clock
    { users := hub.users.set userId
        { username := username
          displayName := if displayName = "" then username else displayName
          page := page
          pageTagIds := pageTagIds
          following := none
          lastSeen := now
          queue := hub.queues.length
          isAdmin := isAdmin
          tagIds := tagIds
          canModerate := canModerate }
      queues := hub.queues ++ [⟨userId, {}⟩] }

/-- `disconnect`. -/
def disconnect (hub : Hub) (userId : Nat) (eventQueue : Option Nat) (clock : Nat → Rat) : Hub :=
  match hub.users.get? userId with
  | none => hub
  | some entry =>
    if eventQueue.any (· ≠ entry.queue) then hub
    else pushPresence clock { hub with users := hub.users.pop userId }

/-- What `update_presence` writes into the entry of a user. -/
def User.visit (u : User) (page : String) (following : Option String) (pageTagIds : Option (List Nat)) (now : Rat) : User :=
  { u with page := page, pageTagIds := pageTagIds, following := following, lastSeen := now }

/-- `update_presence`. -/
def updatePresence (hub : Hub) (userId : Nat) (page : String) (following : Option String)
    (pageTagIds : Option (List Nat)) (now : Rat) (clock : Nat → Rat) : Hub :=
  match hub.users.get? userId with
  | none => pushPresence clock hub
  | some u =>
    pushPresence clock { hub with users := hub.users.set userId (u.visit page following pageTagIds now) }

/-- The part of `broadcast` before the loop: the tags and the flag that route the event, and the event as delivered.
`none` for a `TypeError` of `set(tag_ids)`. -/
def route (event : Dict String Value) : Option (Option (List Nat) × Bool × Dict String Value) :=
  let tagIds := (event.get? "guest_tag_ids").getD .null
  let event₁ := if tagIds = .null then event else event.pop "guest_tag_ids"
  let moderatorsOnly := ((event₁.get? "moderators_only").getD (.bool false)).truthy
  let event₂ := event₁.pop "moderators_only"
  if tagIds = .null then some (none, moderatorsOnly, event₂)
  else tagIds.toSet.map fun ids => (some ids, moderatorsOnly, event₂)

/-- Whether the loop of `broadcast` puts the event into the user's queue. -/
def receives (tagIds : Option (List Nat)) (moderatorsOnly : Bool) (u : User) : Bool :=
  !(tagIds.any (fun ids => !u.isAdmin && !ids.any fun t => decide (t ∈ u.tagIds)) || (moderatorsOnly && !u.canModerate))

/-- `broadcast`. -/
def broadcast (hub : Hub) (event : Dict String Value) : Hub :=
  match route event with
  | none => hub
  | some (tagIds, moderatorsOnly, event) =>
    let targets := hub.users.values.filter (receives tagIds moderatorsOnly)
    { hub with queues := putAll hub.queues (targets.map fun u => (u.queue, .activity event)) }

/-- The consumer of a queue takes an event. -/
def take (hub : Hub) (q : Nat) : Hub :=
  { hub with queues := hub.queues.modify q fun c => { c with queue := c.queue.get.getD c.queue } }

/-- A call of a method, with the times it reads, or a consumer's `get`. -/
inductive Call
  | connect (userId : Nat) (username displayName page : String) (isAdmin : Bool) (tagIds : List Nat) (canModerate : Bool)
      (pageTagIds : Option (List Nat)) (now : Rat) (clock : Nat → Rat)
  | disconnect (userId : Nat) (eventQueue : Option Nat) (clock : Nat → Rat)
  | updatePresence (userId : Nat) (page : String) (following : Option String) (pageTagIds : Option (List Nat)) (now : Rat)
      (clock : Nat → Rat)
  | broadcast (event : Dict String Value)
  | take (q : Nat)

def step (hub : Hub) : Call → Hub
  | .connect userId username displayName page isAdmin tagIds canModerate pageTagIds now clock =>
    connect hub userId username displayName page isAdmin tagIds canModerate pageTagIds now clock
  | .disconnect userId eventQueue clock => disconnect hub userId eventQueue clock
  | .updatePresence userId page following pageTagIds now clock =>
    updatePresence hub userId page following pageTagIds now clock
  | .broadcast event => broadcast hub event
  | .take q => take hub q

def run (hub : Hub) (calls : List Call) : Hub := calls.foldl step hub

/-! ### Two runs that a viewer cannot tell apart -/

/-- A page is about a guest none of whose tags is among `T`. -/
def Outside (T : List Nat) (pageTagIds : Option (List Nat)) : Prop := ∃ ids, pageTagIds = some ids ∧ ∀ t ∈ ids, t ∉ T

/-- An event is about a guest outside the tags `T`, or for moderators only where `mod` is false. -/
def Unseen (T : List Nat) (mod : Bool) (event : Dict String Value) : Prop :=
  (∃ ids, event.get? "guest_tag_ids" = some (.list ids) ∧ ∀ t ∈ ids, t ∉ T) ∨
    (mod = false ∧ ∃ v, event.get? "moderators_only" = some v ∧ v.truthy = true)

/-- Wherever `V` connects, it is no admin, its tags are among `T`, and it is a moderator only if `mod` is true. -/
def Call.asViewer (V : Nat) (T : List Nat) (mod : Bool) : Call → Prop
  | .connect userId _ _ _ isAdmin tagIds canModerate _ _ _ =>
    userId = V → isAdmin = false ∧ (∀ t ∈ tagIds, t ∈ T) ∧ (canModerate = true → mod = true)
  | _ => True

/-- Two runs that differ in the pages of others that are about guests outside `T`, and in the events that are not for `V`. -/
inductive Similar (V : Nat) (T : List Nat) (mod : Bool) : List Call → List Call → Prop
  | nil : Similar V T mod [] []
  | same {cs cs' : List Call} (c : Call) : c.asViewer V T mod → Similar V T mod cs cs' → Similar V T mod (c :: cs) (c :: cs')
  | connect {cs cs' : List Call} {userId : Nat} (username displayName : String) {page page' : String} (isAdmin : Bool)
      (tagIds : List Nat) (canModerate : Bool) {pageTagIds pageTagIds' : Option (List Nat)} (now : Rat)
      (clock : Nat → Rat) : userId ≠ V → Outside T pageTagIds → Outside T pageTagIds' → Similar V T mod cs cs' →
      Similar V T mod
        (.connect userId username displayName page isAdmin tagIds canModerate pageTagIds now clock :: cs)
        (.connect userId username displayName page' isAdmin tagIds canModerate pageTagIds' now clock :: cs')
  | updatePresence {cs cs' : List Call} {userId : Nat} {page page' : String} (following : Option String)
      {pageTagIds pageTagIds' : Option (List Nat)} (now : Rat) (clock : Nat → Rat) :
      userId ≠ V → Outside T pageTagIds → Outside T pageTagIds' → Similar V T mod cs cs' →
      Similar V T mod (.updatePresence userId page following pageTagIds now clock :: cs)
        (.updatePresence userId page' following pageTagIds' now clock :: cs')
  | left {cs cs' : List Call} {event : Dict String Value} : Unseen T mod event → Similar V T mod cs cs' →
      Similar V T mod (.broadcast event :: cs) cs'
  | right {cs cs' : List Call} {event : Dict String Value} : Unseen T mod event → Similar V T mod cs cs' →
      Similar V T mod cs (.broadcast event :: cs')

/-- A user of the two runs: the same but for the page, and for that too if it is `V` or the page is not outside `T`. -/
structure SameUser (V : Nat) (T : List Nat) (uid : Nat) (u u' : User) : Prop where
  rest : u' = { u with page := u'.page, pageTagIds := u'.pageTagIds }
  page : (u'.page = u.page ∧ u'.pageTagIds = u.pageTagIds) ∨
    (uid ≠ V ∧ Outside T u.pageTagIds ∧ Outside T u'.pageTagIds)

section

variable {V uid : Nat} {T : List Nat} {u u' : User} (h : SameUser V T uid u u')

include h

theorem SameUser.queue : u'.queue = u.queue := (congrArg User.queue h.rest).trans rfl

theorem SameUser.isAdmin : u'.isAdmin = u.isAdmin := (congrArg User.isAdmin h.rest).trans rfl

theorem SameUser.tagIds : u'.tagIds = u.tagIds := (congrArg User.tagIds h.rest).trans rfl

theorem SameUser.lastSeen : u'.lastSeen = u.lastSeen := (congrArg User.lastSeen h.rest).trans rfl

end

/-- The same queues were made, and those for `V` hold the same. -/
def SameQueues (V : Nat) (queues queues' : List Conn) : Prop :=
  List.Forall₂ (fun c c' => c.owner = c'.owner ∧ (c.owner = V → c.queue = c'.queue)) queues queues'

/-- What is known of the viewer's entry. -/
def Viewer (T : List Nat) (mod : Bool) (u : User) : Prop :=
  u.isAdmin = false ∧ (∀ t ∈ u.tagIds, t ∈ T) ∧ (u.canModerate = true → mod = true)

/-- The user of the queue at a place. -/
def ownerAt (queues : List Conn) (q : Nat) : Option Nat := (queues[q]?).map Conn.owner

structure Agree (V : Nat) (T : List Nat) (mod : Bool) (h h' : Hub) : Prop where
  users : h.users.Related (SameUser V T) h'.users
  queues : SameQueues V h.queues h'.queues
  owned : ∀ e ∈ h.users, ownerAt h.queues e.2.queue = some e.1
  viewer : ∀ e ∈ h.users, e.1 = V → Viewer T mod e.2

/-! ### Puts -/

section

variable {V : Nat} {queues queues' : List Conn}

theorem ownerAt_modify {f : Conn → Conn} (hf : ∀ c, (f c).owner = c.owner) (queues : List Conn) (q r : Nat) :
    ownerAt (queues.modify q f) r = ownerAt queues r := by
  unfold ownerAt
  rw [List.getElem?_modify]
  cases queues[r]? with
  | none => rfl
  | some c =>
    by_cases hq : q = r
    · simp [hq, hf]
    · simp [hq]

theorem ownerAt_put (queues : List Conn) (q r : Nat) (event : Event) :
    ownerAt (put queues q event) r = ownerAt queues r := by
  unfold put
  exact ownerAt_modify (by intro c; rfl) queues q r

theorem ownerAt_putAll (queues : List Conn) (targets : List (Nat × Event)) (r : Nat) :
    ownerAt (putAll queues targets) r = ownerAt queues r := by
  induction targets generalizing queues with
  | nil => rfl
  | cons t targets ih => exact (ih _).trans (ownerAt_put queues t.1 r t.2)

theorem SameQueues.symm (h : SameQueues V queues queues') : SameQueues V queues' queues := by
  refine h.flip.imp fun c c' hc => ⟨hc.1.symm, fun hV => (hc.2 (hc.1.trans hV)).symm⟩

theorem SameQueues.ownerAt (h : SameQueues V queues queues') (q : Nat) : ownerAt queues q = ownerAt queues' q := by
  unfold SameQueues at h
  unfold Collab.ownerAt
  induction h generalizing q with
  | nil => rfl
  | cons hc _ ih =>
    cases q with
    | zero => exact congrArg some hc.1
    | succ q => exact ih q

/-- Changes at one place, alike if the place belongs to `V`. -/
theorem SameQueues.modify (h : SameQueues V queues queues') {q : Nat} {f f' : Conn → Conn}
    (hf : ∀ c, (f c).owner = c.owner) (hf' : ∀ c, (f' c).owner = c.owner)
    (hV : Collab.ownerAt queues q = some V → ∀ c c', c.queue = c'.queue → (f c).queue = (f' c').queue) :
    SameQueues V (queues.modify q f) (queues'.modify q f') := by
  unfold SameQueues at h ⊢
  induction h generalizing q with
  | nil => simp
  | @cons c c' queues queues' hc hrest ih =>
    cases q with
    | zero =>
      rw [List.modify_zero_cons, List.modify_zero_cons]
      refine List.Forall₂.cons ⟨?_, fun howner => ?_⟩ hrest
      · rw [hf, hf', hc.1]
      · rw [hf] at howner
        exact hV (congrArg some howner) c c' (hc.2 howner)
    | succ q =>
      rw [List.modify_succ_cons, List.modify_succ_cons]
      exact List.Forall₂.cons hc (ih hV)

theorem SameQueues.putAll {owner : Nat → Option Nat} {targets targets' : List (Nat × Event)}
    (ht : List.Forall₂ (fun t t' => t.1 = t'.1 ∧ (owner t.1 = some V → t.2 = t'.2)) targets targets')
    (h : SameQueues V queues queues') (ho : ∀ q, Collab.ownerAt queues q = owner q) :
    SameQueues V (putAll queues targets) (putAll queues' targets') := by
  induction ht generalizing queues queues' with
  | nil => exact h
  | @cons t t' targets targets' htt _ ih =>
    refine ih ?_ fun q => (ownerAt_put queues t.1 q t.2).trans (ho q)
    change SameQueues V (put queues t.1 t.2) (put queues' t'.1 t'.2)
    rw [← htt.1]
    refine h.modify (by intro c; rfl) (by intro c; rfl) fun hV c c' hc => ?_
    rw [hc, htt.2 ((ho t.1).symm.trans hV)]

/-- Puts into the queues of others. -/
theorem SameQueues.putAll_left {targets : List (Nat × Event)} (h : SameQueues V queues queues')
    (ht : ∀ t ∈ targets, Collab.ownerAt queues t.1 ≠ some V) : SameQueues V (Collab.putAll queues targets) queues' := by
  induction targets generalizing queues with
  | nil => exact h
  | cons t targets ih =>
    refine ih ?_ fun r hr => ?_
    · have hid : queues'.modify t.1 id = queues' := List.modify_id _ _
      rw [← hid]
      exact h.modify (by intro c; rfl) (by intro c; rfl) fun hV => absurd hV (ht t List.mem_cons_self)
    · rw [ownerAt_put]
      exact ht r (List.mem_cons_of_mem _ hr)

end

/-! ### Presence -/

section

variable {V : Nat} {T : List Nat} {mod : Bool} {h h' : Hub}

theorem not_visible_of_outside {p : Option (List Nat)} (hp : Outside T p) {tagIds : List Nat} (ht : ∀ t ∈ tagIds, t ∈ T) :
    pageVisible p false tagIds false = false := by
  obtain ⟨ids, rfl, hids⟩ := hp
  rw [pageVisible, Bool.false_or, Bool.false_or, List.any_eq_false]
  intro t hmem
  rw [decide_eq_true_eq]
  exact fun hin => hids t hmem (ht t hin)

/-- The viewer sees the same entry for a user of both runs. -/
theorem online_same {uid : Nat} {u u' : User} (hu : SameUser V T uid u u') {tagIds : List Nat}
    (ht : ∀ t ∈ tagIds, t ∈ T) :
    online false tagIds (some V) uid u = online false tagIds (some V) uid u' := by
  rw [hu.rest]
  unfold online
  rcases hu.page with ⟨hpage, hids⟩ | ⟨hne, hout, hout'⟩
  · simp [hpage, hids]
  · have hself : decide (some V = some uid) = false := by simpa using Ne.symm hne
    rw [hself, not_visible_of_outside hout ht, not_visible_of_outside hout' ht]
    rfl

theorem getOnlineUsers_same {users users' : Dict Nat User} (hu : users.Related (SameUser V T) users') (now : Rat)
    {tagIds : List Nat} (ht : ∀ t ∈ tagIds, t ∈ T) :
    getOnlineUsers users now false tagIds (some V) = getOnlineUsers users' now false tagIds (some V) := by
  unfold Dict.Related at hu
  unfold getOnlineUsers
  induction hu with
  | nil => rfl
  | @cons e e' users users' he _ ih =>
    rw [List.filter_cons, List.filter_cons, he.2.lastSeen]
    split
    · rw [List.map_cons, List.map_cons, ih, online_same he.2 ht, he.1]
    · exact ih

theorem forall₂_zipIdx {α β : Type} {R : α → β → Prop} {l : List α} {l' : List β} (hl : List.Forall₂ R l l') (n : Nat) :
    List.Forall₂ (fun e e' => R e.1 e'.1 ∧ e.2 = e'.2) (l.zipIdx n) (l'.zipIdx n) := by
  induction hl generalizing n with
  | nil => exact List.Forall₂.nil
  | cons hR _ ih =>
    rw [List.zipIdx_cons, List.zipIdx_cons]
    exact List.Forall₂.cons ⟨hR, rfl⟩ (ih _)

theorem Agree.pushPresence (hagree : Agree V T mod h h') (clock : Nat → Rat) :
    Agree V T mod (pushPresence clock h) (Collab.pushPresence clock h') := by
  refine ⟨hagree.users, ?_, fun e he => (ownerAt_putAll _ _ _).trans (hagree.owned e he), hagree.viewer⟩
  refine SameQueues.putAll ?_ hagree.queues fun q => rfl
  -- the recipients are the same, and the event is the same where the recipient is the viewer
  have husers : List.Forall₂ (fun e e' => (ownerAt h.queues e.2.queue = some e.1 ∧ (e.1 = V → Viewer T mod e.2)) ∧
      e.1 = e'.1 ∧ SameUser V T e.1 e.2 e'.2) h.users h'.users :=
    (List.forall₂_and_left _ _).2 ⟨fun e he => ⟨hagree.owned e he, hagree.viewer e he⟩, hagree.users⟩
  rw [List.forall₂_map_left_iff, List.forall₂_map_right_iff]
  refine (forall₂_zipIdx husers 0).imp ?_
  rintro ⟨⟨uid, u⟩, i⟩ ⟨⟨uid', u'⟩, i'⟩ ⟨⟨⟨howner, hviewer⟩, huid, hu⟩, hi⟩
  obtain rfl : uid = uid' := huid
  obtain rfl : i = i' := hi
  refine ⟨hu.queue.symm, fun hV => ?_⟩
  obtain rfl : uid = V := Option.some.inj (howner.symm.trans hV)
  obtain ⟨hadmin, htags, -⟩ := hviewer rfl
  dsimp only at hadmin htags ⊢
  rw [hu.isAdmin, hu.tagIds, hadmin, getOnlineUsers_same hagree.users (clock i) htags]

/-! ### The calls -/

theorem Agree.connect (hagree : Agree V T mod h h') {userId : Nat} (username displayName : String) {page page' : String}
    (isAdmin : Bool) (tagIds : List Nat) (canModerate : Bool) {pageTagIds pageTagIds' : Option (List Nat)} (now : Rat)
    (clock : Nat → Rat)
    (hviewer : userId = V → isAdmin = false ∧ (∀ t ∈ tagIds, t ∈ T) ∧ (canModerate = true → mod = true))
    (hpage : (page' = page ∧ pageTagIds' = pageTagIds) ∨
      (userId ≠ V ∧ Outside T pageTagIds ∧ Outside T pageTagIds')) :
    Agree V T mod (connect h userId username displayName page isAdmin tagIds canModerate pageTagIds now clock)
      (Collab.connect h' userId username displayName page' isAdmin tagIds canModerate pageTagIds' now clock) := by
  have hlength : h'.queues.length = h.queues.length := hagree.queues.length_eq.symm
  refine Agree.pushPresence ⟨?_, ?_, ?_, ?_⟩ clock
  · refine hagree.users.set ⟨?_, hpage⟩
    rw [hlength]
  · exact List.rel_append hagree.queues (List.Forall₂.cons ⟨rfl, fun _ => rfl⟩ List.Forall₂.nil)
  · rintro ⟨uid, u⟩ he
    rcases Dict.mem_set he with heq | he
    · cases heq
      simp [ownerAt]
    · have hold := hagree.owned _ he
      have hlt : u.queue < h.queues.length := by
        rw [ownerAt, Option.map_eq_some_iff] at hold
        obtain ⟨c, hc, -⟩ := hold
        exact (List.getElem?_eq_some_iff.1 hc).1
      rw [ownerAt, List.getElem?_append_left hlt]
      exact hold
  · rintro ⟨uid, u⟩ he hV
    rcases Dict.mem_set he with heq | he
    · cases heq
      exact hviewer hV
    · exact hagree.viewer _ he hV

theorem Agree.disconnect (hagree : Agree V T mod h h') (userId : Nat) (eventQueue : Option Nat) (clock : Nat → Rat) :
    Agree V T mod (disconnect h userId eventQueue clock) (Collab.disconnect h' userId eventQueue clock) := by
  unfold Collab.disconnect
  rcases hagree.users.get? userId with ⟨hnone, hnone'⟩ | ⟨u, u', hu, hu', hsame⟩
  · rw [hnone, hnone']
    exact hagree
  · rw [hu, hu']
    dsimp only
    rw [hsame.queue]
    split
    · exact hagree
    · have hpop : Agree V T mod { h with users := h.users.pop userId } { h' with users := h'.users.pop userId } := by
        refine ⟨hagree.users.pop userId, hagree.queues, fun e he => ?_, fun e he => ?_⟩
        · exact hagree.owned e (List.mem_of_mem_filter he)
        · exact hagree.viewer e (List.mem_of_mem_filter he)
      exact hpop.pushPresence clock

theorem Agree.updatePresence (hagree : Agree V T mod h h') {userId : Nat} {page page' : String}
    (following : Option String) {pageTagIds pageTagIds' : Option (List Nat)} (now : Rat) (clock : Nat → Rat)
    (hpage : (page' = page ∧ pageTagIds' = pageTagIds) ∨
      (userId ≠ V ∧ Outside T pageTagIds ∧ Outside T pageTagIds')) :
    Agree V T mod (updatePresence h userId page following pageTagIds now clock)
      (Collab.updatePresence h' userId page' following pageTagIds' now clock) := by
  unfold Collab.updatePresence
  rcases hagree.users.get? userId with ⟨hnone, hnone'⟩ | ⟨u, u', hu, hu', hsame⟩
  · rw [hnone, hnone']
    exact hagree.pushPresence clock
  · rw [hu, hu']
    have hmem := Dict.mem_of_get? hu
    have hset : Agree V T mod
        { h with users := h.users.set userId (u.visit page following pageTagIds now) }
        { h' with users := h'.users.set userId (u'.visit page' following pageTagIds' now) } := by
      refine ⟨hagree.users.set ⟨?_, hpage⟩, hagree.queues, ?_, ?_⟩
      · rw [hsame.rest]
        rfl
      · rintro ⟨uid, v⟩ he
        rcases Dict.mem_set he with heq | he
        · cases heq
          exact hagree.owned (userId, u) hmem
        · exact hagree.owned _ he
      · rintro ⟨uid, v⟩ he hV
        rcases Dict.mem_set he with heq | he
        · cases heq
          exact hagree.viewer (userId, u) hmem hV
        · exact hagree.viewer _ he hV
    exact hset.pushPresence clock

/-- The recipients of an event are the same in both runs. -/
theorem targets_same {users users' : Dict Nat User} (hu : users.Related (SameUser V T) users')
    (tagIds : Option (List Nat)) (moderatorsOnly : Bool) (event : Event) :
    ((users.values.filter (receives tagIds moderatorsOnly)).map fun u => (u.queue, event)) =
      (users'.values.filter (receives tagIds moderatorsOnly)).map fun u => (u.queue, event) := by
  unfold Dict.Related at hu
  unfold Dict.values
  induction hu with
  | nil => rfl
  | @cons e e' users users' he _ ih =>
    have hrec : receives tagIds moderatorsOnly e'.2 = receives tagIds moderatorsOnly e.2 := by
      rw [he.2.rest]
      rfl
    rw [List.map_cons, List.map_cons, List.filter_cons, List.filter_cons, hrec]
    split
    · rw [List.map_cons, List.map_cons, ih, he.2.queue]
    · exact ih

theorem Agree.broadcast (hagree : Agree V T mod h h') (event : Dict String Value) :
    Agree V T mod (broadcast h event) (Collab.broadcast h' event) := by
  unfold Collab.broadcast
  split
  · exact hagree
  · refine ⟨hagree.users, ?_, fun e he => (ownerAt_putAll _ _ _).trans (hagree.owned e he), hagree.viewer⟩
    dsimp only
    rw [← targets_same hagree.users]
    exact SameQueues.putAll (List.forall₂_same.2 fun t _ => ⟨rfl, fun _ => rfl⟩) hagree.queues fun q => rfl

theorem Agree.take (hagree : Agree V T mod h h') (q : Nat) : Agree V T mod (take h q) (Collab.take h' q) := by
  refine ⟨hagree.users, ?_, fun e he => ?_, hagree.viewer⟩
  · refine hagree.queues.modify (by intro c; rfl) (by intro c; rfl) fun _ c c' hc => ?_
    rw [hc]
  · exact (ownerAt_modify (by intro c; rfl) _ _ _).trans (hagree.owned e he)

/-- An event that is not for the viewer is not delivered to it. -/
theorem not_receives_of_unseen {event event' : Dict String Value} (hunseen : Unseen T mod event)
    {tagIds : Option (List Nat)} {moderatorsOnly : Bool} (hroute : route event = some (tagIds, moderatorsOnly, event'))
    {u : User} (hu : Viewer T mod u) : receives tagIds moderatorsOnly u = false := by
  obtain ⟨hadmin, htags, hmod⟩ := hu
  unfold receives
  rw [Bool.not_eq_false', Bool.or_eq_true]
  rcases hunseen with ⟨ids, hids, hout⟩ | ⟨hmod', v, hv, htruthy⟩
  · left
    rw [route, hids] at hroute
    cases hroute
    have hnone : (ids.any fun t => decide (t ∈ u.tagIds)) = false := by
      rw [List.any_eq_false]
      intro t ht
      rw [decide_eq_true_eq]
      exact fun hin => hout t ht (htags t hin)
    simp [hadmin, hnone]
  · right
    have hcan : u.canModerate = false := by
      rw [← Bool.not_eq_true]
      exact fun hcan => absurd (hmod hcan) (by rw [hmod']; decide)
    have hflag : moderatorsOnly = true := by
      rw [route] at hroute
      by_cases hnull : (event.get? "guest_tag_ids").getD .null = .null
      · rw [if_pos hnull, if_pos hnull, hv] at hroute
        cases hroute
        exact htruthy
      · rw [if_neg hnull, if_neg hnull, Dict.get?_pop_of_ne (by decide), hv, Option.map_eq_some_iff] at hroute
        obtain ⟨ids, -, heq⟩ := hroute
        cases heq
        exact htruthy
    rw [hflag, hcan]
    rfl

theorem Agree.broadcast_left (hagree : Agree V T mod h h') {event : Dict String Value} (hunseen : Unseen T mod event) :
    Agree V T mod (Collab.broadcast h event) h' := by
  unfold Collab.broadcast
  split
  · exact hagree
  · rename_i tagIds moderatorsOnly event' hroute
    refine ⟨hagree.users, ?_, fun e he => (ownerAt_putAll _ _ _).trans (hagree.owned e he), hagree.viewer⟩
    refine hagree.queues.putAll_left fun t ht hV => ?_
    obtain ⟨u, hu, rfl⟩ := List.mem_map.1 ht
    obtain ⟨hmem, hrec⟩ := List.mem_filter.1 hu
    obtain ⟨⟨uid, u⟩, he, rfl⟩ := List.mem_map.1 hmem
    obtain rfl : uid = V := Option.some.inj ((hagree.owned _ he).symm.trans hV)
    rw [not_receives_of_unseen hunseen hroute (hagree.viewer _ he rfl)] at hrec
    cases hrec

theorem Agree.symm (hagree : Agree V T mod h h') : Agree V T mod h' h := by
  have hflip : h'.users.Related (SameUser V T) h.users := by
    refine hagree.users.flip.imp fun e e' he => ⟨he.1.symm, ?_, ?_⟩
    · rw [he.2.rest]
    · rw [← he.1]
      exact he.2.page.imp (fun hp => ⟨hp.1.symm, hp.2.symm⟩) fun hp => ⟨hp.1, hp.2.2, hp.2.1⟩
  refine ⟨hflip, hagree.queues.symm, fun e' he' => ?_, fun e' he' hV => ?_⟩
  · obtain ⟨e, he, hkey, hsame⟩ := hagree.users.mem_right he'
    rw [hsame.queue, ← hagree.queues.ownerAt, ← hkey]
    exact hagree.owned e he
  · obtain ⟨e, he, hkey, hsame⟩ := hagree.users.mem_right he'
    have hview := hagree.viewer e he (hkey.trans hV)
    rw [hsame.rest]
    exact hview

/-- Two runs that differ in what is not for the viewer go hand in hand. -/
theorem agree_run {cs cs' : List Call} (hsim : Similar V T mod cs cs') (hagree : Agree V T mod h h') :
    Agree V T mod (run h cs) (run h' cs') := by
  induction hsim generalizing h h' with
  | nil => exact hagree
  | same c hc _ ih =>
    refine ih ?_
    cases c with
    | connect userId username displayName page isAdmin tagIds canModerate pageTagIds now clock =>
      exact hagree.connect username displayName isAdmin tagIds canModerate now clock hc (Or.inl ⟨rfl, rfl⟩)
    | disconnect userId eventQueue clock => exact hagree.disconnect userId eventQueue clock
    | updatePresence userId page following pageTagIds now clock =>
      exact hagree.updatePresence following now clock (Or.inl ⟨rfl, rfl⟩)
    | broadcast event => exact hagree.broadcast event
    | take q => exact hagree.take q
  | connect username displayName isAdmin tagIds canModerate now clock hne hout hout' _ ih =>
    refine ih ?_
    exact hagree.connect username displayName isAdmin tagIds canModerate now clock (fun heq => absurd heq hne)
      (Or.inr ⟨hne, hout, hout'⟩)
  | updatePresence following now clock hne hout hout' _ ih =>
    exact ih (hagree.updatePresence following now clock (Or.inr ⟨hne, hout, hout'⟩))
  | left hunseen _ ih => exact ih (hagree.broadcast_left hunseen)
  | right hunseen _ ih => exact ih (hagree.symm.broadcast_left hunseen).symm

theorem placed_same {queues queues' : List Conn} (hq : SameQueues V queues queues') :
    ((queues.filter fun c => decide (c.owner = V)).map fun c => c.queue.placed) =
      (queues'.filter fun c => decide (c.owner = V)).map fun c => c.queue.placed := by
  unfold SameQueues at hq
  induction hq with
  | nil => rfl
  | @cons c c' queues queues' hc _ ih =>
    rw [List.filter_cons, List.filter_cons, ← hc.1]
    split
    · rename_i hV
      rw [List.map_cons, List.map_cons, ih, hc.2 (of_decide_eq_true hV)]
    · exact ih

end

/-! ### Routing keys -/

/-- An event as it is delivered. -/
def Event.Stripped (e : Event) : Prop := "guest_tag_ids" ∉ e.keys ∧ "moderators_only" ∉ e.keys

theorem stripped_presence (users : List Online) : (Event.presence users).Stripped := by
  constructor
  · change "guest_tag_ids" ∉ ["type", "users"]
    decide
  · change "moderators_only" ∉ ["type", "users"]
    decide

/-- The keys of a delivered event, unless `guest_tag_ids` is there with the value `None`. -/
theorem stripped_of_route {event event' : Dict String Value} (hnull : event.get? "guest_tag_ids" ≠ some .null)
    {tagIds : Option (List Nat)} {moderatorsOnly : Bool} (hroute : route event = some (tagIds, moderatorsOnly, event')) :
    (Event.activity event').Stripped := by
  have hkeys : ∀ e : Dict String Value, "guest_tag_ids" ∉ e.map Prod.fst →
      (Event.activity (e.pop "moderators_only")).Stripped :=
    fun e he => ⟨fun hmem => he (Dict.mem_keys_of_mem_keys_pop hmem), e.not_mem_keys_pop _⟩
  rw [route] at hroute
  by_cases hget : (event.get? "guest_tag_ids").getD .null = .null
  · rw [if_pos hget, if_pos hget] at hroute
    cases hroute
    refine hkeys event (Dict.get?_eq_none ?_)
    cases hsome : event.get? "guest_tag_ids" with
    | none => rfl
    | some v =>
      rw [hsome, Option.getD_some] at hget
      rw [hsome, hget] at hnull
      exact absurd rfl hnull
  · rw [if_neg hget, if_neg hget, Option.map_eq_some_iff] at hroute
    obtain ⟨ids, -, heq⟩ := hroute
    cases heq
    exact hkeys _ (event.not_mem_keys_pop _)

/-- All queues hold stripped events only. -/
def AllStripped (queues : List Conn) : Prop := ∀ c ∈ queues, ∀ e ∈ c.queue.placed, e.Stripped

theorem allStripped_putAll {queues : List Conn} (h : AllStripped queues) {targets : List (Nat × Event)}
    (ht : ∀ t ∈ targets, t.2.Stripped) : AllStripped (putAll queues targets) := by
  induction targets generalizing queues with
  | nil => exact h
  | cons t targets ih =>
    refine ih (fun c hc e he => ?_) fun r hr => ht r (List.mem_cons_of_mem _ hr)
    obtain ⟨i, hi⟩ := List.getElem?_of_mem hc
    change (put queues t.1 t.2)[i]? = some c at hi
    rw [put, List.getElem?_modify, Option.map_eq_map, Option.map_eq_some_iff] at hi
    obtain ⟨c₀, hc₀, rfl⟩ := hi
    have hmem := List.mem_of_getElem? hc₀
    split at he
    · rcases Queue.mem_placed_putNowait he with he | rfl
      · exact h c₀ hmem e he
      · exact ht t List.mem_cons_self
    · exact h c₀ hmem e he

theorem allStripped_pushPresence {hub : Hub} (h : AllStripped hub.queues) (clock : Nat → Rat) :
    AllStripped (pushPresence clock hub).queues := by
  refine allStripped_putAll h fun t ht => ?_
  obtain ⟨e, -, rfl⟩ := List.mem_map.1 ht
  exact stripped_presence _

theorem allStripped_step {hub : Hub} (h : AllStripped hub.queues) {c : Call}
    (hc : ∀ event, c = .broadcast event → event.get? "guest_tag_ids" ≠ some .null) : AllStripped (step hub c).queues := by
  cases c with
  | connect userId username displayName page isAdmin tagIds canModerate pageTagIds now clock =>
    refine allStripped_pushPresence (fun c hc e he => ?_) clock
    rcases List.mem_append.1 hc with hc | hc
    · exact h c hc e he
    · rw [List.mem_singleton.1 hc] at he
      cases he
  | disconnect userId eventQueue clock =>
    change AllStripped (disconnect hub userId eventQueue clock).queues
    unfold disconnect
    split
    · exact h
    · split
      · exact h
      · refine allStripped_pushPresence ?_ clock
        exact h
  | updatePresence userId page following pageTagIds now clock =>
    change AllStripped (updatePresence hub userId page following pageTagIds now clock).queues
    unfold updatePresence
    split
    · exact allStripped_pushPresence h clock
    · refine allStripped_pushPresence ?_ clock
      exact h
  | broadcast event =>
    change AllStripped (broadcast hub event).queues
    unfold broadcast
    split
    · exact h
    · rename_i tagIds moderatorsOnly event' hroute
      refine allStripped_putAll h fun t ht => ?_
      obtain ⟨u, -, rfl⟩ := List.mem_map.1 ht
      exact stripped_of_route (hc event rfl) hroute
  | take q =>
    intro c hc e he
    obtain ⟨i, hi⟩ := List.getElem?_of_mem hc
    change (hub.queues.modify q _)[i]? = some c at hi
    rw [List.getElem?_modify, Option.map_eq_map, Option.map_eq_some_iff] at hi
    obtain ⟨c₀, hc₀, rfl⟩ := hi
    have hmem := List.mem_of_getElem? hc₀
    split at he
    · refine h c₀ hmem e ?_
      cases hget : c₀.queue.get with
      | none => rwa [hget] at he
      | some q' =>
        rw [hget] at he
        rwa [← Queue.placed_get hget]
    · exact h c₀ hmem e he

theorem allStripped_run {hub : Hub} (h : AllStripped hub.queues) {cs : List Call}
    (hcs : ∀ event, .broadcast event ∈ cs → event.get? "guest_tag_ids" ≠ some .null) :
    AllStripped (run hub cs).queues := by
  induction cs generalizing hub with
  | nil => exact h
  | cons c cs ih =>
    refine ih (allStripped_step h fun event heq => ?_) fun event hmem => hcs event (List.mem_cons_of_mem _ hmem)
    exact hcs event (heq ▸ List.mem_cons_self)

/-! ### Noninterference -/

/-- What was placed in the queues of a user, one list for each of its connections. -/
def seen (V : Nat) (hub : Hub) : List (List Event) :=
  (hub.queues.filter fun c => decide (c.owner = V)).map fun c => c.queue.placed

/-- A viewer that is no admin sees the same in two runs that differ in the pages of others about guests outside its tags
and in the events that are not for it; and no event in any queue has a routing key.  As `log_action` does, a caller gives
`guest_tag_ids` a list of tag ids or leaves it out. -/
theorem hub_noninterference (V : Nat) (T : List Nat) (mod : Bool) {cs cs' : List Call} (hsim : Similar V T mod cs cs') :
    seen V (run {} cs) = seen V (run {} cs') ∧
      ((∀ event, .broadcast event ∈ cs → event.get? "guest_tag_ids" ≠ some .null) →
        ∀ events ∈ seen V (run {} cs), ∀ e ∈ events, e.Stripped) := by
  have hempty : Agree V T mod {} {} := by
    refine ⟨List.Forall₂.nil, List.Forall₂.nil, ?_, ?_⟩
    · simp
    · simp
  have hstart : AllStripped (Hub.queues {}) := by simp [AllStripped]
  refine ⟨placed_same (agree_run hsim hempty).queues, fun hcs events hevents e he => ?_⟩
  obtain ⟨c, hc, rfl⟩ := List.mem_map.1 hevents
  exact allStripped_run hstart hcs c (List.mem_of_mem_filter hc) e he

/-- A viewer with the tag 7, and another user on the page of a guest without that tag. -/
def besideViewer (page : String) (tags : List Nat) : List Call :=
  [.connect 1 "v" "" "/" false [7] false none 0 fun _ => 0, .connect 2 "w" "" page true [] true (some tags) 1 fun _ => 1]

/-- Two pages, and an event for moderators that comes in one of the runs only. -/
theorem viewer_of_two_guests :
    seen 1 (run {} (besideViewer "/guests/5" [9] ++ [.broadcast [("type", .str "activity"), ("moderators_only", .bool true)],
        .broadcast [("type", .str "activity"), ("guest_tag_ids", .list [7, 9])]])) =
      seen 1 (run {} (besideViewer "/guests/6" [] ++ [.broadcast [("type", .str "activity"), ("guest_tag_ids", .list [7, 9])]])) ∧
    ∀ events ∈ seen 1 (run {} (besideViewer "/guests/5" [9] ++
        [.broadcast [("type", .str "activity"), ("moderators_only", .bool true)],
          .broadcast [("type", .str "activity"), ("guest_tag_ids", .list [7, 9])]])), ∀ e ∈ events, e.Stripped := by
  refine (hub_noninterference 1 [7] false ?_).imp_right fun h => h ?_
  · exact .same _ (fun _ => ⟨rfl, by decide, by decide⟩) (.connect _ _ _ _ _ _ _ (by decide) ⟨[9], rfl, by decide⟩
      ⟨[], rfl, by decide⟩ (.left (Or.inr ⟨rfl, .bool true, by decide, rfl⟩) (.same _ trivial .nil)))
  · intro event hevent
    have hcases : event = [("type", .str "activity"), ("moderators_only", .bool true)] ∨
        event = [("type", .str "activity"), ("guest_tag_ids", .list [7, 9])] := by
      simpa [besideViewer] using hevent
    rcases hcases with rfl | rfl <;> decide

end ProxmoxTool.Collab
