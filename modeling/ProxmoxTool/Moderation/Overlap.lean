import ProxmoxTool.Moderation.World

/-!
# Polls that overlap

Nothing keeps the poll of the scheduler and a manual one apart: `_watch_poll_lock` is for manual ones only.  Here any number of polls are at
work, and a check of a watch, or a discovery, is two events.  At the request (`ask`) the poll has read its cursor and the instance has given its
answer; when it goes on (`answer`) it raises the alerts and writes the cursor, whatever has happened in between.  The events of the system in
which a request and what follows it are one step are there as well (`act`).
-/

namespace ProxmoxTool.Moderation

/-- What a poll holds after a request: the cursor as it read it, and what the instance showed. -/
inductive Held
  | check (p : Place) (timeline : List Status)
  | discovery (cursor : Option Time) (members : List Member)

/-- `held` is by poll. -/
structure Polls where
  world : World := {}
  held : Nat → Option Held := fun _ => none

/-- A request is about the posts of a watch, or about new accounts. -/
inductive Move
  | act (e : Event)
  | ask (poll : Nat) (watch : Option WatchId)
  | answer (poll : Nat) (now clock : Time) (t : Trouble) (bot : Option Bot)

namespace Held

/-- The watch is there.  Otherwise the poll ends with an exception of the ORM. -/
def stays (w : World) : Held → Bool
  | .check p _ => w.db.places.any fun q => q.id = p.id && q.account = p.account
  | .discovery _ _ => true

/-- The tables and the instance as the poll sees them. -/
def view (w : World) : Held → World
  | .check p timeline =>
    { w with
      db := { w.db with watches := w.db.watches.map fun x => if x.id = p.id then { x with lastStatusId := p.cursor } else x }
      inst := { w.inst with timeline := fun a => if a = p.account then timeline else w.inst.timeline a } }
  | .discovery cursor members =>
    { w with
      db := { w.db with newAccountCursor := cursor }
      inst := { w.inst with members := members } }

def event (now clock : Time) (t : Trouble) (bot : Option Bot) : Held → Event
  | .check p _ => .check p.id now clock t
  | .discovery _ _ => .newAccounts now clock t bot

/-- What is there afterwards: a cursor that the poll has not moved is not written. -/
def leave (w w' : World) : Held → World
  | .check p _ =>
    let cursor := (w.db.places.find? fun q => q.id = p.id).bind Place.cursor
    { w' with
      db := { w'.db with watches := w'.db.watches.map fun x =>
        if x.id = p.id ∧ x.lastStatusId = p.cursor then { x with lastStatusId := cursor } else x }
      inst := w.inst }
  | .discovery cursor _ =>
    { w' with
      db := if w'.db.newAccountCursor = cursor then { w'.db with newAccountCursor := w.db.newAccountCursor } else w'.db
      inst := w.inst }

end Held

def Polls.step (s : Polls) : Move → Option Polls
  | .act e => (Moderation.step s.world e).map fun w => { s with world := w }
  | .ask poll none =>
    some { s with held := Function.update s.held poll (some (.discovery s.world.db.newAccountCursor s.world.inst.members)) }
  | .ask poll (some id) => (s.world.db.places.find? fun p => p.id = id).map fun p =>
    { s with held := Function.update s.held poll (some (.check p (s.world.inst.timeline p.account))) }
  | .answer poll now clock t bot => (s.held poll).bind fun h =>
    if h.stays s.world then
      (Moderation.step (h.view s.world) (h.event now clock t bot)).map fun w' =>
        { world := h.leave s.world w', held := Function.update s.held poll none }
    else none

def polls : System Polls Move where
  init s := system.init s.world ∧ ∀ poll, s.held poll = none
  step := Polls.step

/-- A step of the system, a request, or what a poll makes of its answer. -/
theorem Polls.step_cases {s s' : Polls} {m : Move} (hstep : polls.step s m = some s') :
    (∃ e, m = .act e ∧ Moderation.step s.world e = some s'.world) ∨
    (∃ poll watch, m = .ask poll watch ∧ s'.world = s.world) ∨
    ∃ poll now clock t bot h w', m = .answer poll now clock t bot ∧ s.held poll = some h ∧
      Moderation.step (h.view s.world) (h.event now clock t bot) = some w' ∧ s'.world = h.leave s.world w' := by
  cases m with
  | act e =>
    obtain ⟨w, hw, rfl⟩ := Option.map_eq_some_iff.1 hstep
    exact .inl ⟨e, rfl, hw⟩
  | ask poll watch => cases watch with
    | none =>
      obtain rfl := Option.some.inj hstep
      exact .inr (.inl ⟨poll, none, rfl, rfl⟩)
    | some id =>
      obtain ⟨p, -, rfl⟩ := Option.map_eq_some_iff.1 hstep
      exact .inr (.inl ⟨poll, some id, rfl, rfl⟩)
  | answer poll now clock t bot =>
    obtain ⟨h, hheld, hanswer⟩ := Option.bind_eq_some_iff.1 hstep
    obtain ⟨-, hanswer⟩ := Option.ite_none_right_eq_some.1 hanswer
    obtain ⟨w', hw', rfl⟩ := Option.map_eq_some_iff.1 hanswer
    exact .inr (.inr ⟨poll, now, clock, t, bot, h, w', rfl, hheld, hw', rfl⟩)

/-- Something holds of all that the polls hold. -/
def Polls.Holds (P : World → Held → Prop) (s : Polls) : Prop := ∀ poll x, s.held poll = some x → P s.world x

/-- It does so after a step if it holds of new requests and is kept by what happens to the world. -/
theorem Polls.Holds.step {P : World → Held → Prop} {s s' : Polls} {m : Move} (h : s.Holds P) (hstep : polls.step s m = some s')
    (hcheck : ∀ p ∈ s.world.db.places, P s.world (.check p (s.world.inst.timeline p.account)))
    (hdiscovery : P s.world (.discovery s.world.db.newAccountCursor s.world.inst.members))
    (hkeep : ∀ x, P s.world x → P s'.world x) : s'.Holds P := by
  have hupdate : ∀ {poll : Nat} {new : Option Held} {w : World}, (∀ x, P s.world x → P w x) → (∀ x, new = some x → P w x) →
      Polls.Holds P ⟨w, Function.update s.held poll new⟩ := by
    intro poll new w hkeep hnew other x hx
    by_cases heq : other = poll
    · rw [heq] at hx
      exact hnew x ((Function.update_self poll new s.held).symm.trans hx)
    · exact hkeep x (h other x ((Function.update_of_ne heq new s.held).symm.trans hx))
  cases m with
  | act e =>
    obtain ⟨w, -, rfl⟩ := Option.map_eq_some_iff.1 hstep
    exact fun poll x hx => hkeep x (h poll x hx)
  | ask poll watch => cases watch with
    | none =>
      obtain rfl := Option.some.inj hstep
      refine hupdate (fun x hx => hx) fun x hx => ?_
      rw [← Option.some.inj hx]
      exact hdiscovery
    | some id =>
      obtain ⟨p, hfind, rfl⟩ := Option.map_eq_some_iff.1 hstep
      refine hupdate (fun x hx => hx) fun x hx => ?_
      rw [← Option.some.inj hx]
      exact hcheck p (List.mem_of_find?_eq_some hfind)
  | answer poll now clock t bot =>
    obtain ⟨x, -, hanswer⟩ := Option.bind_eq_some_iff.1 hstep
    obtain ⟨-, hanswer⟩ := Option.ite_none_right_eq_some.1 hanswer
    obtain ⟨w', -, rfl⟩ := Option.map_eq_some_iff.1 hanswer
    refine hupdate hkeep fun y hy => ?_
    cases hy

theorem polls_init : polls.init {} := ⟨⟨rfl, rfl, fun _ => rfl, rfl⟩, fun _ => rfl⟩

/-! ### A watch that no other poll has written -/

section

variable {w : World} {p : Place} (hids : (w.db.places.map Place.id).Nodup) (hp : p ∈ w.db.places)
include hids hp

theorem Held.view_check (timeline : List Status) : (Held.check p timeline).view w =
    { w with inst := { w.inst with timeline := fun a => if a = p.account then timeline else w.inst.timeline a } } := by
  have hwatches : w.db.watches.map (fun x => if x.id = p.id then { x with lastStatusId := p.cursor } else x) = w.db.watches := by
    refine (List.map_congr_left fun x hx => ?_).trans (List.map_id' _)
    by_cases hid : x.id = p.id
    · have hplace : x.place = p := eq_of_id_eq Place.id hids (List.mem_map_of_mem hx) hp hid
      rw [if_pos hid, ← hplace]
      rfl
    · exact if_neg hid
  unfold Held.view
  dsimp only
  rw [hwatches]

theorem Held.leave_check (w' : World) (timeline : List Status) : (Held.check p timeline).leave w w' = { w' with inst := w.inst } := by
  have hfind : (w.db.places.find? fun q => q.id = p.id) = some p := by
    cases h : w.db.places.find? fun q => q.id = p.id with
    | none => exact absurd (List.find?_eq_none.1 h p hp) (by simp)
    | some q => rw [eq_of_id_eq Place.id hids (List.mem_of_find?_eq_some h) hp (by simpa using List.find?_some h)]
  have hwatches : w'.db.watches.map (fun x => if x.id = p.id ∧ x.lastStatusId = p.cursor then { x with lastStatusId := p.cursor } else x) =
      w'.db.watches := by
    refine (List.map_congr_left fun x _ => ?_).trans (List.map_id' _)
    by_cases hsame : x.id = p.id ∧ x.lastStatusId = p.cursor
    · rw [if_pos hsame, ← hsame.2]
    · exact if_neg hsame
  unfold Held.leave
  dsimp only
  rw [hfind]
  exact congrArg (fun watches => { w' with db := { w'.db with watches := watches }, inst := w.inst }) hwatches

end

/-! ### A cursor of the discovery that no other poll has written -/

theorem Held.leave_discovery {w w' : World} {cursor : Option Time} {members : List Member} (hcursor : w.db.newAccountCursor = cursor) :
    (Held.discovery cursor members).leave w w' = { w' with inst := w.inst } := by
  unfold Held.leave
  dsimp only
  split_ifs with heq
  · rw [hcursor, ← heq]
  · rfl

end ProxmoxTool.Moderation
