import ProxmoxTool.Ghost.Proven

/-!
# A run that is aborted before the update

What a run of `run_ghost_upgrade` that never issues `ghost update` leaves of the guest: the version of Node.js, which `n` changes, and the
grants of Ghost's MySQL user, which `GRANT` changes.  Both are changed by checks before the update, and later checks may still end the
run: `aborted_unchanged_iff`.  Every command before the update is issued at most once, so its outcome is a function of the command.
-/

namespace ProxmoxTool.Ghost

open Script

/-! ### The guest -/

@[ext]
structure Guest (G : Type) where
  node : Text
  grants : G

/-- `newest` is the newest release of a major, `grantAll` what a `GRANT ALL PRIVILEGES` adds. -/
structure World (G : Type) where
  newest : Nat → Text
  grantAll : Text → Text → G → G

/-- The answers of all commands, and which of them have had their effect: those that exit with 0, and maybe others. -/
structure Outcomes where
  answer : ∀ c, Answer c
  applied : Site → Bool
  applied_of_zero : ∀ site, ∀ r ∈ answer (.execute site), r.code = 0 → applied site = true

def Outcomes.reply (o : Outcomes) (site : Site) : Option Reply := o.answer (.execute site)

section

variable {G : Type} (w : World G) (o : Outcomes)

/-- The effect of a command on the runtime of the site. -/
def effect (g : Guest G) : Command → Guest G
  | .execute (.n major) => if o.applied (.n major) then { g with node := w.newest major } else g
  | .execute (.grant db user) => if o.applied (.grant db user) then { g with grants := w.grantAll db user g.grants } else g
  | _ => g

def guestAfter (g : Guest G) (cs : List Command) : Guest G := cs.foldl (effect w o) g

end

section

variable (py : Python) (cfg : Config) (view : View) (skip : Bool) {G : Type} (w : World G) (o : Outcomes) (g : Guest G)

/-- A run that returns `False` without `ghost update` leaves the version of Node.js and the grants. -/
def AbortedUnchanged : Prop :=
  let run := (runGhostUpgrade py cfg view skip).follow o.answer
  run.2 = .ok false → .execute .update ∉ run.1 → guestAfter w o g run.1 = g

/-! ### When a check changes the guest -/

/-- All that comes before the runtime checks has been done. -/
def Reaches (found : Found) : Prop :=
  prepare py cfg view = .ok () ∧ outcome o.answer (protect cfg skip) = .ok true ∧
    outcome o.answer (connectAndPrepare py cfg) = .ok (some found)

/-- The database server is on the guest. -/
def LocalDb (again : Bool) : Prop := ∃ r ∈ o.reply (.dbHost again), resolveGhostDbHost r.out (r.code = 0) ∈ localDbHosts

/-- The user is known, the server is on the guest, and the grants are read and lack `ALL PRIVILEGES`. -/
def Grants (db user : Text) : Prop :=
  (∃ r ∈ o.reply .dbConfig, account py r = some (some (db, user))) ∧ LocalDb o false ∧
    ∃ r ∈ o.reply (.showGrants user), r.code = 0 ∧ hasAll db r.out = false

/-- The version of Node.js is known and outside the range, `n` is there, and the range names a major. -/
def Installs (range : Text) (major : Nat) : Prop :=
  ∃ r ∈ o.reply (.nodeVersion false), firstLine r.out ≠ [] ∧ nodeSatisfies py (firstLine r.out) range = false ∧
    nodeTargetMajor py range ((parseSemver py (firstLine r.out)).map Prod.fst) = some major ∧ ∃ r ∈ o.reply .whichN, r.code = 0

/-! ### When the checks pass -/

/-- No command of the privilege check raises, and the entries of the configuration are strings. -/
def DbChecked : Prop :=
  ∃ r ∈ o.reply .dbConfig, ∃ found, account py r = some found ∧ ∀ db user, found = some (db, user) →
    (o.reply (.dbHost false)).isSome ∧ (LocalDb o false → (o.reply (.showGrants user)).isSome) ∧
      (Grants py o db user → (o.reply (.grant db user)).isSome)

def EngineChecked : Prop := (o.reply (.dbHost true)).isSome ∧ (LocalDb o true → (o.reply .mysqlVersion).isSome)

/-- `engines.node` of the release. -/
def nodeRange : Option Text := o.answer (.nodeRange (if cfg.latestVersion = [] then "latest".toList else cfg.latestVersion))

/-- The version is not known, or in the range, at the latest after `n`. -/
def Compatible (range : Text) : Prop :=
  ∃ r ∈ o.reply (.nodeVersion false), firstLine r.out = [] ∨ nodeSatisfies py (firstLine r.out) range = true ∨
    ∃ major, Installs py o range major ∧ (∃ r ∈ o.reply (.n major), r.code = 0) ∧
      ∃ r ∈ o.reply (.nodeVersion true), firstLine r.out ≠ [] ∧ nodeSatisfies py (firstLine r.out) range = true

/-- If the range is known, Node.js is compatible. -/
def NodeOk : Prop := ∀ range ∈ (nodeRange cfg o).filter (· ≠ []), Compatible py o range

/-- nginx is not there, or can be reloaded, at the latest after a restart. -/
def NginxOk (nginx : Text) : Prop :=
  ∃ r ∈ o.reply (.nginxPresent nginx), r.code ≠ 0 ∨ ∃ r ∈ o.reply (.reload nginx false), r.code = 0 ∨
    (∃ r ∈ o.reply .nginxActive, strip r.out = "active".toList) ∧ (∃ r ∈ o.reply .nginxRestart, r.code = 0) ∧
      ∃ r ∈ o.reply (.reload nginx true), r.code = 0

/-- Every check passes, and `ghost update` is issued. -/
structure GoesOn (nginx : Text) : Prop where
  db : DbChecked py o
  engine : EngineChecked o
  node : NodeOk py cfg o
  nginx : NginxOk o nginx
  date : (o.reply .date).isSome

/-- A check changes the guest: `GRANT` adds privileges, or `n` installs another version. -/
def Changes : Prop :=
  (∃ db user, Grants py o db user ∧ o.applied (.grant db user) = true ∧ w.grantAll db user g.grants ≠ g.grants) ∨
    (DbChecked py o ∧ EngineChecked o) ∧ ∃ range ∈ (nodeRange cfg o).filter (· ≠ []), ∃ major, Installs py o range major ∧
      o.applied (.n major) = true ∧ w.newest major ≠ g.node

end

/-! ### What a script does with fixed outcomes -/

section

variable {py : Python} {cfg : Config} {view : View} {skip : Bool} {G : Type} {w : World G} {o : Outcomes} {g : Guest G} {α β : Type}

/-- The guest after a script. -/
def after (w : World G) (o : Outcomes) (g : Guest G) (x : Step α) : Guest G := guestAfter w o g (commands o.answer x)

theorem guestAfter_append (cs ds : List Command) : guestAfter w o g (cs ++ ds) = guestAfter w o (guestAfter w o g cs) ds :=
  List.foldl_append

theorem after_pure (a : α) : after w o g (pure a : Step α) = g := rfl

theorem after_bind_ok {x : Step α} {f : α → Step β} {a : α} (hx : outcome o.answer x = .ok a) :
    after w o g (x >>= f) = after w o (after w o g x) (f a) := by
  unfold after
  rw [commands_bind_ok hx, guestAfter_append]

theorem after_bind_error {x : Step α} {f : α → Step β} {e : Unit} (hx : outcome o.answer x = .error e) :
    after w o g (x >>= f) = after w o g x := by
  unfold after
  rw [commands_bind_error hx]

theorem effect_of_calm {c : Command} (hc : calm c = true) : effect w o g c = g := by
  unfold effect
  split
  · cases hc
  · cases hc
  · rfl

theorem guestAfter_of_calm {cs : List Command} (hcs : ∀ c ∈ cs, calm c = true) : guestAfter w o g cs = g := by
  induction cs with
  | nil => rfl
  | cons c cs ih =>
    obtain ⟨hc, hcs⟩ := List.forall_mem_cons.1 hcs
    show guestAfter w o (effect w o g c) cs = g
    rw [effect_of_calm hc, ih hcs]

theorem after_of_calm {x : Step α} (hx : Issues calm x) : after w o g x = g := guestAfter_of_calm (Only.commands hx)

theorem outcome_issue (c : Command) : outcome o.answer (issue c) = .ok (o.answer c) := outcome_lift (Script.send c)

theorem commands_issue (c : Command) : commands o.answer (issue c) = [c] := commands_lift (Script.send c)

theorem outcome_ask_eq_ok {site : Site} {r : Reply} : outcome o.answer (ask site) = .ok r ↔ r ∈ o.reply site := by
  rw [ask, outcome_bind_ok (outcome_issue _)]
  show _ ↔ o.answer (.execute site) = some r
  cases o.answer (.execute site) with
  | none => simp only [outcome_throw, reduceCtorEq]
  | some r' => simp only [outcome_pure, Except.ok.injEq, Option.some.injEq]

theorem outcome_ask {site : Site} {r : Reply} (hr : r ∈ o.reply site) : outcome o.answer (ask site) = .ok r := outcome_ask_eq_ok.2 hr

theorem outcome_ask_none {site : Site} (hr : o.reply site = none) : outcome o.answer (ask site) = .error () := by
  cases h : outcome o.answer (ask site) with
  | ok r => exact absurd (outcome_ask_eq_ok.1 h) (by rw [hr]; nofun)
  | error e => rfl

theorem commands_ask (site : Site) : commands o.answer (ask site) = [.execute site] := by
  rw [ask, commands_bind_ok (outcome_issue _), commands_issue]
  cases o.answer (.execute site) with
  | none => rfl
  | some r => rfl

theorem after_ask (site : Site) : after w o g (ask site) = effect w o g (.execute site) := by
  unfold after
  rw [commands_ask]
  rfl

theorem after_ask_bind {site : Site} {f : Reply → Step β} {r : Reply} (hr : r ∈ o.reply site) :
    after w o g (ask site >>= f) = after w o (effect w o g (.execute site)) (f r) := by
  rw [after_bind_ok (outcome_ask hr), after_ask]

theorem after_ask_bind_none {site : Site} {f : Reply → Step β} (hr : o.reply site = none) :
    after w o g (ask site >>= f) = effect w o g (.execute site) := by
  rw [after_bind_error (outcome_ask_none hr), after_ask]

/-- The script does not raise. -/
def Passes (o : Outcomes) (x : Step α) : Prop := ∃ a, outcome o.answer x = .ok a

theorem passes_pure (a : α) : Passes o (pure a : Step α) := ⟨a, rfl⟩

theorem not_passes_throw : ¬ Passes o (throw () : Step α) := by
  rintro ⟨a, ha⟩
  cases ha

theorem passes_bind {x : Step α} {f : α → Step β} : Passes o (x >>= f) ↔ ∃ a, outcome o.answer x = .ok a ∧ Passes o (f a) := by
  constructor
  · rintro ⟨b, hb⟩
    obtain ⟨a, ha, hfa⟩ := outcome_bind_eq_ok.1 hb
    exact ⟨a, ha, b, hfa⟩
  · rintro ⟨a, ha, b, hfa⟩
    exact ⟨b, outcome_bind_eq_ok.2 ⟨a, ha, hfa⟩⟩

theorem passes_ask_bind {site : Site} {f : Reply → Step β} : Passes o (ask site >>= f) ↔ ∃ r ∈ o.reply site, Passes o (f r) := by
  rw [passes_bind]
  exact exists_congr fun r => and_congr_left' outcome_ask_eq_ok

theorem outcome_ask_bind_eq_ok {site : Site} {f : Reply → Step β} {b : β} :
    outcome o.answer (ask site >>= f) = .ok b ↔ ∃ r ∈ o.reply site, outcome o.answer (f r) = .ok b := by
  rw [outcome_bind_eq_ok]
  exact exists_congr fun r => and_congr_left' outcome_ask_eq_ok

/-! ### The privileges -/

theorem outcome_ghostDbHost {again : Bool} {host : Text} :
    outcome o.answer (ghostDbHost again) = .ok host ↔ ∃ r ∈ o.reply (.dbHost again), resolveGhostDbHost r.out (r.code = 0) = host := by
  rw [ghostDbHost, outcome_ask_bind_eq_ok]
  simp only [outcome_pure, Except.ok.injEq]

theorem after_ghostDbHost_bind {again : Bool} {f : Text → Step β} {r : Reply} (hr : r ∈ o.reply (.dbHost again)) :
    after w o g (ghostDbHost again >>= f) = after w o g (f (resolveGhostDbHost r.out (r.code = 0))) := by
  rw [after_bind_ok (outcome_ghostDbHost.2 ⟨r, hr, rfl⟩), after_of_calm (calm_ghostDbHost again)]

theorem after_ghostDbHost_bind_none {again : Bool} {f : Text → Step β} (hr : o.reply (.dbHost again) = none) :
    after w o g (ghostDbHost again >>= f) = g := by
  have hfails : outcome o.answer (ghostDbHost again) = .error () := outcome_bind_error (outcome_ask_none hr)
  rw [after_bind_error hfails, after_of_calm (calm_ghostDbHost again)]

theorem passes_ghostDbHost_bind {again : Bool} {f : Text → Step β} :
    Passes o (ghostDbHost again >>= f) ↔ ∃ r ∈ o.reply (.dbHost again), Passes o (f (resolveGhostDbHost r.out (r.code = 0))) := by
  rw [passes_bind]
  constructor
  · rintro ⟨host, hhost, hf⟩
    obtain ⟨r, hr, rfl⟩ := outcome_ghostDbHost.1 hhost
    exact ⟨r, hr, hf⟩
  · rintro ⟨r, hr, hf⟩
    exact ⟨_, outcome_ghostDbHost.2 ⟨r, hr, rfl⟩, hf⟩

/-- Where privileges are missing, `GRANT` is issued, and nothing else happens to the guest. -/
theorem after_privileges_of_grants {db user : Text} (hgrants : Grants py o db user) :
    after w o g (ensureGhostDbPrivileges py) = effect w o g (.execute (.grant db user)) := by
  obtain ⟨⟨r, hr, hacc⟩, ⟨rhost, hhost, hlocal⟩, rgrants, hshow, hcode, hall⟩ := hgrants
  rw [ensureGhostDbPrivileges, after_ask_bind hr, effect_of_calm rfl, hacc]
  show after w o g (ghostDbHost false >>= _) = _
  rw [after_ghostDbHost_bind hhost, if_neg (not_not.2 hlocal), after_ask_bind hshow, effect_of_calm rfl, if_neg (not_not.2 hcode),
    if_neg (by rw [hall]; nofun)]
  cases hgrant : o.reply (.grant db user) with
  | none => exact after_ask_bind_none hgrant
  | some rgrant => exact after_ask_bind hgrant

theorem after_privileges_of_not (hnone : ∀ db user, ¬ Grants py o db user) : after w o g (ensureGhostDbPrivileges py) = g := by
  rw [ensureGhostDbPrivileges]
  cases hr : o.reply .dbConfig with
  | none => rw [after_ask_bind_none hr, effect_of_calm rfl]
  | some r =>
    rw [after_ask_bind hr, effect_of_calm rfl]
    rcases hacc : account py r with _ | _ | ⟨db, user⟩
    · rfl
    · rfl
    · cases hhost : o.reply (.dbHost false) with
      | none =>
        exact after_ghostDbHost_bind_none hhost
      | some rhost =>
        show after w o g (ghostDbHost false >>= _) = _
        rw [after_ghostDbHost_bind hhost]
        split
        · rfl
        · rename_i hlocal
          cases hshow : o.reply (.showGrants user) with
          | none => rw [after_ask_bind_none hshow, effect_of_calm rfl]
          | some rgrants =>
            rw [after_ask_bind hshow, effect_of_calm rfl]
            split
            · rfl
            · rename_i hcode
              split
              · rfl
              · rename_i hall
                refine absurd ⟨⟨r, hr, hacc⟩, ⟨rhost, hhost, not_not.1 hlocal⟩, rgrants, hshow, not_not.1 hcode, ?_⟩ (hnone db user)
                exact Bool.eq_false_iff.2 hall

theorem exists_reply {site : Site} {r : Reply} {P : Reply → Prop} (hr : o.reply site = some r) : (∃ r ∈ o.reply site, P r) ↔ P r := by
  simp only [hr, Option.mem_some_iff, exists_eq_left']

/-- The privilege check of a known user. -/
theorem passes_grantMissing {db user : Text} {r : Reply} (hr : o.reply .dbConfig = some r) (hacc : account py r = some (some (db, user))) :
    Passes o (ensureGhostDbPrivileges py) ↔ (o.reply (.dbHost false)).isSome ∧ (LocalDb o false → (o.reply (.showGrants user)).isSome) ∧
      (Grants py o db user → (o.reply (.grant db user)).isSome) := by
  have hgrants : Grants py o db user ↔ LocalDb o false ∧ ∃ r ∈ o.reply (.showGrants user), r.code = 0 ∧ hasAll db r.out = false :=
    and_iff_right ⟨r, hr, hacc⟩
  rw [hgrants, ensureGhostDbPrivileges, passes_ask_bind, exists_reply hr, hacc]
  show Passes o (ghostDbHost false >>= _) ↔ _
  rw [passes_ghostDbHost_bind, LocalDb]
  cases hhost : o.reply (.dbHost false) with
  | none => simp only [Option.not_mem_none, false_and, exists_false, Option.isSome_none, Bool.false_eq_true]
  | some rhost =>
    simp only [Option.mem_some_iff, exists_eq_left', Option.isSome_some, true_and]
    by_cases hlocal : resolveGhostDbHost rhost.out (rhost.code = 0) ∈ localDbHosts
    · rw [if_neg (not_not.2 hlocal), passes_ask_bind]
      cases hshow : o.reply (.showGrants user) with
      | none => simp [hlocal]
      | some rgrants =>
        simp only [Option.mem_some_iff, exists_eq_left', Option.isSome_some, hlocal, true_and, forall_const]
        by_cases hcode : rgrants.code = 0
        · cases hall : hasAll db rgrants.out with
          | true => simp [hcode, passes_pure]
          | false =>
            simp only [hcode, not_true_eq_false, if_false, Bool.false_eq_true, passes_ask_bind, passes_pure, and_true,
              forall_const, Option.isSome_iff_exists, Option.mem_def, ne_eq]
        · simp [hcode, passes_pure]
    · rw [if_pos hlocal]
      simp [hlocal, passes_pure]

theorem passes_privileges : Passes o (ensureGhostDbPrivileges py) ↔ DbChecked py o := by
  unfold DbChecked
  cases hr : o.reply .dbConfig with
  | none =>
    rw [ensureGhostDbPrivileges, passes_ask_bind, hr]
    simp only [Option.not_mem_none, false_and, exists_false]
  | some r =>
    simp only [Option.mem_some_iff, exists_eq_left']
    rcases hacc : account py r with _ | _ | ⟨db, user⟩
    · rw [ensureGhostDbPrivileges, passes_ask_bind, exists_reply hr, hacc]
      simp only [not_passes_throw, reduceCtorEq, false_and, exists_false]
    · rw [ensureGhostDbPrivileges, passes_ask_bind, exists_reply hr, hacc]
      simp [passes_pure]
    · rw [passes_grantMissing hr hacc]
      constructor
      · rintro hchecked
        refine ⟨_, rfl, fun db' user' heq => ?_⟩
        cases heq
        exact hchecked
      · rintro ⟨found, heq, hchecked⟩
        exact hchecked db user (Option.some.inj heq).symm

/-! ### The engine -/

theorem passes_checkGhostDbEngine : Passes o checkGhostDbEngine ↔ EngineChecked o := by
  rw [checkGhostDbEngine, passes_ghostDbHost_bind, EngineChecked, LocalDb]
  cases hhost : o.reply (.dbHost true) with
  | none => simp only [Option.not_mem_none, false_and, exists_false, Option.isSome_none, Bool.false_eq_true]
  | some rhost =>
    simp only [Option.mem_some_iff, exists_eq_left', Option.isSome_some, true_and]
    by_cases hlocal : resolveGhostDbHost rhost.out (rhost.code = 0) ∈ localDbHosts
    · simp only [hlocal, if_true, passes_ask_bind, passes_pure, and_true, forall_const, Option.isSome_iff_exists, Option.mem_def]
    · simp [hlocal, passes_pure]

/-! ### Node.js -/

theorem after_guestNode_bind {again : Bool} {f : Text → Step β} {r : Reply} (hr : r ∈ o.reply (.nodeVersion again)) :
    after w o g (guestNode again >>= f) = after w o g (f (firstLine r.out)) := by
  have hok : outcome o.answer (guestNode again) = .ok (firstLine r.out) := outcome_bind_ok (outcome_ask hr)
  rw [after_bind_ok hok, after_of_calm (calm_guestNode again)]

theorem after_guestNode_bind_none {again : Bool} {f : Text → Step β} (hr : o.reply (.nodeVersion again) = none) :
    after w o g (guestNode again >>= f) = g := by
  have hfails : outcome o.answer (guestNode again) = .error () := outcome_bind_error (outcome_ask_none hr)
  rw [after_bind_error hfails, after_of_calm (calm_guestNode again)]

theorem outcome_guestNode_bind {again : Bool} {f : Text → Step β} {b : β} : outcome o.answer (guestNode again >>= f) = .ok b ↔
    ∃ r ∈ o.reply (.nodeVersion again), outcome o.answer (f (firstLine r.out)) = .ok b := by
  rw [outcome_bind_eq_ok]
  constructor
  · rintro ⟨v, hv, hf⟩
    obtain ⟨r, hr, hpure⟩ := outcome_ask_bind_eq_ok.1 hv
    cases hpure
    exact ⟨r, hr, hf⟩
  · rintro ⟨r, hr, hf⟩
    exact ⟨_, outcome_ask_bind_eq_ok.2 ⟨r, hr, rfl⟩, hf⟩

variable {nr : Option Text} {range : Text}

theorem after_node_of_installs {major : Nat} (hnr : nr.filter (· ≠ []) = some range) (hi : Installs py o range major) :
    after w o g (ensureNodeCompatible py nr) = effect w o g (.execute (.n major)) := by
  obtain ⟨r, hr, hknown, hsat, hmajor, rn, hn, hcode⟩ := hi
  rw [ensureNodeCompatible, hnr]
  show after w o g (guestNode false >>= _) = _
  rw [after_guestNode_bind hr, if_neg hknown, if_neg (by rw [hsat]; nofun), after_ask_bind hn, effect_of_calm rfl, hmajor]
  show after w o g (if _ then _ else ask (.n major) >>= _) = _
  rw [if_neg (not_not.2 hcode)]
  cases hinstall : o.reply (.n major) with
  | none => exact after_ask_bind_none hinstall
  | some rinstall =>
    rw [after_ask_bind hinstall]
    split
    · rfl
    · cases hagain : o.reply (.nodeVersion true) with
      | none => exact after_guestNode_bind_none hagain
      | some ragain => rw [after_guestNode_bind hagain, after_pure]

theorem after_node_of_not (hnone : ∀ range ∈ nr.filter (· ≠ []), ∀ major, ¬ Installs py o range major) :
    after w o g (ensureNodeCompatible py nr) = g := by
  rw [ensureNodeCompatible]
  cases hnr : nr.filter (· ≠ []) with
  | none => rfl
  | some range =>
    show after w o g (guestNode false >>= _) = _
    cases hr : o.reply (.nodeVersion false) with
    | none => exact after_guestNode_bind_none hr
    | some r =>
      rw [after_guestNode_bind hr]
      split
      · rfl
      · rename_i hknown
        split
        · rfl
        · rename_i hsat
          cases hn : o.reply .whichN with
          | none => rw [after_ask_bind_none hn, effect_of_calm rfl]
          | some rn =>
            rw [after_ask_bind hn, effect_of_calm rfl]
            cases hmajor : nodeTargetMajor py range ((parseSemver py (firstLine r.out)).map Prod.fst) with
            | none => rfl
            | some major =>
              show after w o g (if _ then _ else ask (.n major) >>= _) = _
              split
              · rfl
              · rename_i hcode
                refine absurd ⟨r, hr, hknown, Bool.eq_false_iff.2 hsat, hmajor, rn, hn, not_not.1 hcode⟩ (hnone range hnr major)

theorem outcome_node : outcome o.answer (ensureNodeCompatible py nr) = .ok true ↔ ∀ range ∈ nr.filter (· ≠ []), Compatible py o range := by
  rw [ensureNodeCompatible]
  cases hnr : nr.filter (· ≠ []) with
  | none => simp
  | some range =>
    simp only [Option.mem_some_iff, forall_eq']
    rw [outcome_guestNode_bind, Compatible]
    refine exists_congr fun r => and_congr_right fun hr => ?_
    have hinstalls : ∀ major, Installs py o range major ↔ firstLine r.out ≠ [] ∧ nodeSatisfies py (firstLine r.out) range = false ∧
        nodeTargetMajor py range ((parseSemver py (firstLine r.out)).map Prod.fst) = some major ∧ ∃ r ∈ o.reply .whichN, r.code = 0 :=
      fun major => exists_reply hr
    simp only [hinstalls]
    by_cases hknown : firstLine r.out = []
    · rw [if_pos hknown]
      exact iff_of_true rfl (.inl hknown)
    cases hsat : nodeSatisfies py (firstLine r.out) range with
    | true =>
      rw [if_neg hknown]
      exact iff_of_true rfl (.inr (.inl rfl))
    | false =>
      rw [if_neg hknown, if_neg nofun, outcome_ask_bind_eq_ok]
      cases hmajor : nodeTargetMajor py range ((parseSemver py (firstLine r.out)).map Prod.fst) with
      | none => simp [hknown]
      | some major =>
        have hrest : ∀ rn : Reply, outcome o.answer (if rn.code ≠ 0 then pure false else do
              let r ← ask (.n major)
              if r.code ≠ 0 then return false
              let current ← guestNode true
              return current ≠ [] && nodeSatisfies py current range) = .ok true ↔
            rn.code = 0 ∧ (∃ r ∈ o.reply (.n major), r.code = 0) ∧
              ∃ r ∈ o.reply (.nodeVersion true), firstLine r.out ≠ [] ∧ nodeSatisfies py (firstLine r.out) range = true := by
          intro rn
          by_cases hcode : rn.code = 0
          · rw [if_neg (not_not.2 hcode), outcome_ask_bind_eq_ok, and_iff_right hcode, ← exists_and_right]
            refine exists_congr fun ri => ?_
            rw [and_assoc]
            refine and_congr_right fun _ => ?_
            by_cases hinstalled : ri.code = 0
            · rw [if_neg (not_not.2 hinstalled), outcome_guestNode_bind, and_iff_right hinstalled]
              simp
            · rw [if_pos hinstalled]
              simp [hinstalled]
          · rw [if_pos hcode]
            simp [hcode]
        simp only [hrest, ← and_assoc, exists_and_right]
        simp [hknown]

/-! ### nginx -/

theorem outcome_preflightNginxReload {nginx : Text} : outcome o.answer (preflightNginxReload nginx) = .ok true ↔ NginxOk o nginx := by
  rw [preflightNginxReload, outcome_ask_bind_eq_ok, NginxOk]
  refine exists_congr fun present => and_congr_right fun _ => ?_
  by_cases habsent : present.code ≠ 0
  · rw [if_pos habsent]
    exact iff_of_true rfl (.inl habsent)
  rw [if_neg habsent, or_iff_right habsent, outcome_ask_bind_eq_ok]
  refine exists_congr fun reload => and_congr_right fun _ => ?_
  by_cases hreload : reload.code = 0
  · rw [if_pos hreload]
    exact iff_of_true rfl (.inl hreload)
  rw [if_neg hreload, or_iff_right hreload, outcome_ask_bind_eq_ok, ← exists_and_right]
  refine exists_congr fun active => ?_
  rw [and_assoc]
  refine and_congr_right fun _ => ?_
  by_cases hactive : strip active.out = "active".toList
  · rw [if_neg (not_not.2 hactive), and_iff_right hactive, outcome_ask_bind_eq_ok, ← exists_and_right]
    refine exists_congr fun restart => ?_
    rw [and_assoc]
    refine and_congr_right fun _ => ?_
    by_cases hrestart : restart.code = 0
    · rw [if_neg (not_not.2 hrestart), and_iff_right hrestart, outcome_ask_bind_eq_ok]
      simp only [outcome_pure, Except.ok.injEq, decide_eq_true_eq]
    · rw [if_pos hrestart]
      simp [hrestart]
  · rw [if_pos hactive]
    exact iff_of_false nofun fun h => hactive h.1

/-! ### The checks together -/

theorem after_bind_calm {x : Step α} {f : α → Step β} (hf : ∀ a, Issues calm (f a)) : after w o g (x >>= f) = after w o g x := by
  cases hx : outcome o.answer x with
  | error e => exact after_bind_error hx
  | ok a => rw [after_bind_ok hx, after_of_calm (hf a)]

theorem outcome_checkRuntime {nginx : Text} : outcome o.answer (checkRuntime py cfg nginx) = .ok true ↔
    DbChecked py o ∧ EngineChecked o ∧ NodeOk py cfg o ∧ NginxOk o nginx := by
  rw [checkRuntime, outcome_bind_eq_ok, ← passes_privileges, ← passes_checkGhostDbEngine, Passes, ← exists_and_right]
  refine exists_congr fun _ => and_congr_right fun _ => ?_
  rw [outcome_bind_eq_ok, Passes, ← exists_and_right]
  refine exists_congr fun _ => and_congr_right fun _ => ?_
  rw [outcome_bind_ok (outcome_issue _), NodeOk, nodeRange, ← outcome_node, ← outcome_preflightNginxReload, outcome_bind_eq_ok]
  constructor
  · rintro ⟨_ | _, hnode, hrest⟩
    · cases hrest
    · obtain ⟨_ | _, hnginx, hrest⟩ := outcome_bind_eq_ok.1 hrest
      · cases hrest
      · exact ⟨hnode, hnginx⟩
  · rintro ⟨hnode, hnginx⟩
    exact ⟨true, hnode, outcome_bind_eq_ok.2 ⟨true, hnginx, rfl⟩⟩

theorem node_after_privileges : (after w o g (ensureGhostDbPrivileges py)).node = g.node := by
  by_cases hgrants : ∃ db user, Grants py o db user
  · obtain ⟨db, user, hgrants⟩ := hgrants
    rw [after_privileges_of_grants hgrants, effect]
    split <;> rfl
  · rw [after_privileges_of_not fun db user hdb => hgrants ⟨db, user, hdb⟩]

theorem grants_after_node : (after w o g (ensureNodeCompatible py nr)).grants = g.grants := by
  by_cases hinstalls : ∃ range ∈ nr.filter (· ≠ []), ∃ major, Installs py o range major
  · obtain ⟨range, hrange, major, hinstalls⟩ := hinstalls
    rw [after_node_of_installs hrange hinstalls, effect]
    split <;> rfl
  · rw [after_node_of_not fun range hrange major hmajor => hinstalls ⟨range, hrange, major, hmajor⟩]

theorem after_privileges_eq_iff : after w o g (ensureGhostDbPrivileges py) = g ↔
    ¬ ∃ db user, Grants py o db user ∧ o.applied (.grant db user) = true ∧ w.grantAll db user g.grants ≠ g.grants := by
  constructor
  · rintro hsame ⟨db, user, hgrants, happlied, hne⟩
    rw [after_privileges_of_grants hgrants, effect, if_pos happlied] at hsame
    exact hne (congrArg Guest.grants hsame)
  · intro hnone
    by_cases hgrants : ∃ db user, Grants py o db user
    · obtain ⟨db, user, hgrants⟩ := hgrants
      rw [after_privileges_of_grants hgrants, effect]
      split
      · rename_i happlied
        have hsame : w.grantAll db user g.grants = g.grants := not_not.1 fun hne => hnone ⟨db, user, hgrants, happlied, hne⟩
        rw [hsame]
      · rfl
    · exact after_privileges_of_not fun db user hdb => hgrants ⟨db, user, hdb⟩

theorem after_node_eq_iff : after w o g (ensureNodeCompatible py nr) = g ↔ ¬ ∃ range ∈ nr.filter (· ≠ []), ∃ major,
    Installs py o range major ∧ o.applied (.n major) = true ∧ w.newest major ≠ g.node := by
  constructor
  · rintro hsame ⟨range, hrange, major, hinstalls, happlied, hne⟩
    rw [after_node_of_installs hrange hinstalls, effect, if_pos happlied] at hsame
    exact hne (congrArg Guest.node hsame)
  · intro hnone
    by_cases hinstalls : ∃ range ∈ nr.filter (· ≠ []), ∃ major, Installs py o range major
    · obtain ⟨range, hrange, major, hinstalls⟩ := hinstalls
      rw [after_node_of_installs hrange hinstalls, effect]
      split
      · rename_i happlied
        have hsame : w.newest major = g.node := not_not.1 fun hne => hnone ⟨range, hrange, major, hinstalls, happlied, hne⟩
        rw [hsame]
      · rfl
    · exact after_node_of_not fun range hrange major hmajor => hinstalls ⟨range, hrange, major, hmajor⟩

/-- `n` needs the checks of the database not to raise. -/
theorem after_checkRuntime_of_checked {nginx : Text} (hdb : DbChecked py o) (hengine : EngineChecked o) :
    after w o g (checkRuntime py cfg nginx) =
      after w o (after w o g (ensureGhostDbPrivileges py)) (ensureNodeCompatible py (nodeRange cfg o)) := by
  obtain ⟨done, hdone⟩ := passes_privileges.2 hdb
  obtain ⟨u, hu⟩ := passes_checkGhostDbEngine.2 hengine
  rw [checkRuntime, after_bind_ok hdone, after_bind_ok hu, after_of_calm calm_checkGhostDbEngine, after_bind_ok (outcome_issue _),
    after_of_calm (issues_issue rfl)]
  refine after_bind_calm fun ok => .ite (.pure _) ?_
  exact (calm_preflightNginxReload nginx).bind fun _ => .ite (.pure _) (.pure _)

theorem after_checkRuntime_of_not {nginx : Text} (hnot : ¬ (DbChecked py o ∧ EngineChecked o)) :
    after w o g (checkRuntime py cfg nginx) = after w o g (ensureGhostDbPrivileges py) := by
  rw [checkRuntime]
  cases hdb : outcome o.answer (ensureGhostDbPrivileges py) with
  | error e => exact after_bind_error hdb
  | ok done =>
    rw [after_bind_ok hdb]
    cases hengine : outcome o.answer checkGhostDbEngine with
    | error e => rw [after_bind_error hengine, after_of_calm calm_checkGhostDbEngine]
    | ok u => exact absurd ⟨passes_privileges.1 ⟨done, hdb⟩, passes_checkGhostDbEngine.1 ⟨u, hengine⟩⟩ hnot

theorem after_checkRuntime_eq_iff {nginx : Text} : after w o g (checkRuntime py cfg nginx) = g ↔ ¬ Changes py cfg w o g := by
  rw [Changes, not_or, ← after_privileges_eq_iff]
  by_cases hchecked : DbChecked py o ∧ EngineChecked o
  · rw [after_checkRuntime_of_checked hchecked.1 hchecked.2, and_iff_right hchecked]
    constructor
    · intro hsame
      have hprivileges : after w o g (ensureGhostDbPrivileges py) = g := by
        refine Guest.ext node_after_privileges ?_
        rw [← grants_after_node, hsame]
      rw [hprivileges] at hsame
      exact ⟨hprivileges, after_node_eq_iff.1 hsame⟩
    · rintro ⟨hprivileges, hnone⟩
      rw [hprivileges]
      exact after_node_eq_iff.2 hnone
  · rw [after_checkRuntime_of_not hchecked]
    exact (and_iff_left fun h => hchecked h.1).symm

/-! ### The run -/

/-- What is left of the run once all that comes before the checks is done. -/
def checkAndUpdate (py : Python) (cfg : Config) (found : Found) : Step Bool := do
  if !(← checkRuntime py cfg found.nginx) then return false
  update py found

theorem calm_protect : Issues calm (protect cfg skip) := by
  unfold protect
  refine .ite (.pure _) (.ite (.pure _) ((issues_issue rfl).bind fun answer => ?_))
  cases answer with
  | none => exact .throw
  | some ok => exact .pure ok

theorem calm_connect : Issues calm connect := (issues_issue rfl).bind fun _ => .ite .throw (.pure _)

theorem calm_connectAndPrepare : Issues calm (connectAndPrepare py cfg) := by
  refine calm_connect.bind fun _ => (issues_ask rfl).bind fun raw => ?_
  cases metadata py cfg.ghostDir raw.out (raw.code = 0) with
  | mk service preVersion =>
    refine (calm_resolveGhostServiceUser service).bind fun _ => ?_
    refine (calm_resolveGuestBinary _ _).bind fun _ => (calm_resolveGuestBinary _ _).bind fun _ => ?_
    refine (calm_resolveGuestBinary _ _).bind fun _ => (calm_resolveGuestBinary _ _).bind fun _ => ?_
    refine (issues_ask rfl).bind fun _ => (issues_ask rfl).bind fun _ => calm_stopStalePermissionSweeps.bind fun _ => ?_
    exact (calm_fixGhostPermissions _ _).bind fun _ => .ite (.pure _) (.pure _)

/-- Plain commands are not the update. -/
theorem update_not_mem {x : Step α} (hx : Issues plain x) : .execute .update ∉ commands o.answer x := by
  intro hmem
  have hplain : plain (.execute .update) = true := Only.commands hx _ hmem
  cases hplain

theorem outcome_startedAt_isOk (hdate : (o.reply .date).isSome) : Passes o (startedAt py) := by
  rw [startedAt, passes_ask_bind]
  exact (Option.isSome_iff_exists.1 hdate).imp fun r hr => ⟨hr, passes_pure _⟩

theorem outcome_startedAt_none (hdate : ¬ (o.reply .date).isSome) : outcome o.answer (startedAt py) = .error () :=
  outcome_bind_error (outcome_ask_none (Option.not_isSome_iff_eq_none.1 hdate))

theorem goesOn_iff {found : Found} :
    GoesOn py cfg o found.nginx ↔ outcome o.answer (checkRuntime py cfg found.nginx) = .ok true ∧ (o.reply .date).isSome := by
  rw [outcome_checkRuntime]
  exact ⟨fun h => ⟨⟨h.db, h.engine, h.node, h.nginx⟩, h.date⟩, fun h => ⟨h.1.1, h.1.2.1, h.1.2.2.1, h.1.2.2.2, h.2⟩⟩

theorem update_mem_of_goesOn {found : Found} (hgoes : GoesOn py cfg o found.nginx) :
    .execute .update ∈ commands o.answer (checkAndUpdate py cfg found) := by
  obtain ⟨hchecks, hdate⟩ := goesOn_iff.1 hgoes
  obtain ⟨since, hsince⟩ := outcome_startedAt_isOk hdate
  rw [checkAndUpdate, commands_bind_ok hchecks, List.mem_append]
  refine .inr ?_
  show _ ∈ commands o.answer (update py found)
  rw [update, commands_bind_ok hsince, List.mem_append]
  refine .inr ?_
  cases hr : o.reply .update with
  | none =>
    rw [commands_bind_error (outcome_ask_none hr), commands_ask]
    exact List.mem_singleton_self _
  | some r =>
    rw [commands_bind_ok (outcome_ask hr), commands_ask]
    exact List.mem_append_left _ (List.mem_singleton_self _)

/-- Where the run does not go on, no update is issued, the guest is as the checks leave it, and the run does not end in `True`. -/
theorem checkAndUpdate_of_not_goesOn {found : Found} (hnot : ¬ GoesOn py cfg o found.nginx) :
    .execute .update ∉ commands o.answer (checkAndUpdate py cfg found) ∧
      after w o g (checkAndUpdate py cfg found) = after w o g (checkRuntime py cfg found.nginx) ∧
      outcome o.answer (checkAndUpdate py cfg found) ≠ .ok true := by
  have hquiet : .execute .update ∉ commands o.answer (checkRuntime py cfg found.nginx) := update_not_mem (quiet_checkRuntime found.nginx)
  rw [checkAndUpdate]
  rcases hchecks : outcome o.answer (checkRuntime py cfg found.nginx) with e | _ | _
  · rw [commands_bind_error hchecks, after_bind_error hchecks, outcome_bind_error hchecks]
    exact ⟨hquiet, rfl, nofun⟩
  · rw [commands_bind_ok hchecks, after_bind_ok hchecks, outcome_bind_ok hchecks]
    refine ⟨?_, rfl, nofun⟩
    rw [List.mem_append, not_or]
    exact ⟨hquiet, List.not_mem_nil⟩
  · have hdate : ¬ (o.reply .date).isSome := fun hdate => hnot (goesOn_iff.2 ⟨hchecks, hdate⟩)
    have hstarted : outcome o.answer (startedAt py) = .error () := outcome_startedAt_none hdate
    rw [commands_bind_ok hchecks, after_bind_ok hchecks, outcome_bind_ok hchecks]
    show _ ∉ _ ++ commands o.answer (update py found) ∧ after w o _ (update py found) = _ ∧ outcome o.answer (update py found) ≠ _
    rw [update, commands_bind_error hstarted, after_bind_error hstarted, outcome_bind_error hstarted, after_of_calm calm_startedAt]
    refine ⟨?_, rfl, nofun⟩
    rw [List.mem_append, not_or]
    exact ⟨hquiet, update_not_mem calm_startedAt.plain⟩

/-- An error that is caught is a `False`. -/
theorem follow_caught (x : Step Bool) : Script.follow o.answer (do
      match ← x.run with
      | .ok ok => return .ok ok
      | .error () => return .ok false : Remote (Except Unit Bool)) =
    (commands o.answer x, match outcome o.answer x with
      | .ok ok => .ok ok
      | .error () => .ok false) := by
  rw [follow_bind]
  unfold commands outcome
  cases (x.run.follow o.answer).2 with
  | ok ok => exact Prod.ext (List.append_nil _) rfl
  | error e => exact Prod.ext (List.append_nil _) rfl

theorem follow_runGhostUpgrade (hprepare : prepare py cfg view = .ok ()) (hprotect : outcome o.answer (protect cfg skip) = .ok true) :
    (runGhostUpgrade py cfg view skip).follow o.answer = (commands o.answer (protect cfg skip) ++ commands o.answer (stepTwo py cfg),
      match outcome o.answer (stepTwo py cfg) with
      | .ok ok => .ok ok
      | .error () => .ok false) := by
  unfold outcome at hprotect
  rw [runGhostUpgrade, hprepare]
  show ((protect cfg skip).run >>= _).follow o.answer = _
  rw [follow_bind, hprotect]
  exact congrArg (fun run : List Command × Except Unit Bool => (commands o.answer (protect cfg skip) ++ run.1, run.2)) (follow_caught _)

/-- Without the checks only calm commands are issued. -/
theorem calm_of_not_reaches (hnot : ∀ found, ¬ Reaches py cfg view skip o found) :
    ∀ c ∈ ((runGhostUpgrade py cfg view skip).follow o.answer).1, calm c = true := by
  have hprotected : ∀ c ∈ commands o.answer (protect cfg skip), calm c = true := Only.commands calm_protect
  rcases hprepare : prepare py cfg view with ⟨_ | _⟩ | ⟨⟨⟩⟩
  · rw [runGhostUpgrade, hprepare]
    nofun
  · rw [runGhostUpgrade, hprepare]
    nofun
  · by_cases hprotect : outcome o.answer (protect cfg skip) = .ok true
    · rw [follow_runGhostUpgrade hprepare hprotect, stepTwo]
      intro c hc
      rcases List.mem_append.1 hc with hc | hc
      · exact hprotected c hc
      · have hconnected : ∀ c ∈ commands o.answer (connectAndPrepare py cfg), calm c = true := Only.commands calm_connectAndPrepare
        rcases hfound : outcome o.answer (connectAndPrepare py cfg) with e | _ | found
        · rw [commands_bind_error hfound] at hc
          exact hconnected c hc
        · rw [commands_bind_ok hfound] at hc
          exact hconnected c ((List.mem_append.1 hc).resolve_right List.not_mem_nil)
        · exact absurd ⟨hprepare, hprotect, hfound⟩ (hnot found)
    · rw [runGhostUpgrade, hprepare]
      show ∀ c ∈ (((protect cfg skip).run >>= _).follow o.answer).1, _
      rw [follow_bind]
      unfold outcome at hprotect
      intro c hc
      refine hprotected c ((List.mem_append.1 hc).resolve_right fun hrest => ?_)
      rcases hr : ((protect cfg skip).run.follow o.answer).2 with e | _ | _
      · rw [hr] at hrest
        cases hrest
      · rw [hr] at hrest
        cases hrest
      · exact hprotect hr

/-- The run is what comes before the checks, and then the checks and the update. -/
theorem follow_of_reaches {found : Found} (hreaches : Reaches py cfg view skip o found) :
    (runGhostUpgrade py cfg view skip).follow o.answer = (commands o.answer (protect cfg skip) ++
      (commands o.answer (connectAndPrepare py cfg) ++ commands o.answer (checkAndUpdate py cfg found)),
      match outcome o.answer (checkAndUpdate py cfg found) with
      | .ok ok => .ok ok
      | .error () => .ok false) := by
  obtain ⟨hprepare, hprotect, hfound⟩ := hreaches
  rw [follow_runGhostUpgrade hprepare hprotect, stepTwo, commands_bind_ok hfound, outcome_bind_ok hfound]
  rfl

/-- Whatever the outcomes are: a run that is aborted before the update leaves the version of Node.js and the grants, if and only if, where
`GRANT` adds privileges or `n` installs another version, all the checks pass, so that `ghost update` is issued. -/
theorem aborted_unchanged_iff (py : Python) (cfg : Config) (view : View) (skip : Bool) {G : Type} (w : World G) (o : Outcomes) (g : Guest G) :
    AbortedUnchanged py cfg view skip w o g ↔
      ∀ found, Reaches py cfg view skip o found → Changes py cfg w o g → GoesOn py cfg o found.nginx := by
  unfold AbortedUnchanged
  by_cases hreaches : ∃ found, Reaches py cfg view skip o found
  · obtain ⟨found, hreaches⟩ := hreaches
    have hunique : ∀ found', Reaches py cfg view skip o found' → found' = found := fun found' h =>
      Option.some.inj (Except.ok.inj (h.2.2.symm.trans hreaches.2.2))
    have hrun := follow_of_reaches hreaches
    have hafter : guestAfter w o g ((runGhostUpgrade py cfg view skip).follow o.answer).1 = after w o g (checkAndUpdate py cfg found) := by
      rw [hrun, guestAfter_append, guestAfter_append, guestAfter_of_calm (Only.commands calm_protect),
        guestAfter_of_calm (Only.commands calm_connectAndPrepare)]
      rfl
    have hissued : .execute .update ∈ ((runGhostUpgrade py cfg view skip).follow o.answer).1 ↔ GoesOn py cfg o found.nginx := by
      rw [hrun, List.mem_append, List.mem_append, or_iff_right (update_not_mem calm_protect.plain),
        or_iff_right (update_not_mem calm_connectAndPrepare.plain)]
      exact ⟨fun hmem => not_not.1 fun hnot => (checkAndUpdate_of_not_goesOn (g := g) (w := w) hnot).1 hmem, update_mem_of_goesOn⟩
    have haborted : ¬ GoesOn py cfg o found.nginx → ((runGhostUpgrade py cfg view skip).follow o.answer).2 = .ok false := by
      intro hnot
      have hne := (checkAndUpdate_of_not_goesOn (g := g) (w := w) hnot).2.2
      rw [hrun]
      rcases hoc : outcome o.answer (checkAndUpdate py cfg found) with e | _ | _
      · rfl
      · rfl
      · exact absurd hoc hne
    have hchanged : ¬ GoesOn py cfg o found.nginx → (guestAfter w o g ((runGhostUpgrade py cfg view skip).follow o.answer).1 = g ↔
        ¬ Changes py cfg w o g) := by
      intro hnot
      rw [hafter, (checkAndUpdate_of_not_goesOn hnot).2.1, after_checkRuntime_eq_iff]
    constructor
    · intro hunchanged found' hreaches' hchanges
      rw [hunique found' hreaches']
      by_contra hnot
      exact (hchanged hnot).1 (hunchanged (haborted hnot) fun hmem => hnot (hissued.1 hmem)) hchanges
    · intro hgoes _ _ hnot
      have hstops : ¬ GoesOn py cfg o found.nginx := fun h => hnot (hissued.2 h)
      exact (hchanged hstops).2 fun hchanges => hstops (hgoes found hreaches hchanges)
  · have hnot : ∀ found, ¬ Reaches py cfg view skip o found := fun found h => hreaches ⟨found, h⟩
    refine iff_of_true (fun _ _ => guestAfter_of_calm (calm_of_not_reaches hnot)) fun found h => absurd h (hnot found)

end

/-! ### A run that is aborted too late -/

/-- Python on ASCII text. -/
def asciiPython : Python where
  chars := ⟨fun _ => false, fun _ => false⟩
  isdigit t := !t.isEmpty && t.all Char.isDigit
  int t := (parseInt t).map Int.toNat
  truthy literal := literal.any fun c => c ∈ "123456789".toList
  str
    | some (.str s) => textOf s
    | _ => []
  intOf _ := some none
  hostname _ := some none

/-- nginx can neither be reloaded nor is it running; every other command exits with 0. -/
def deadNginx : ∀ c, Answer c
  | .protect _ => some true
  | .connect => true
  | .nodeRange _ => some "^22.13.1".toList
  | .setSetting _ _ => true
  | .execute .dbConfig => some { out := "[\"ghost_prod\", \"ghost\"]".toList }
  | .execute (.showGrants _) => some { out := "GRANT USAGE ON *.* TO ghost@localhost".toList }
  | .execute (.nodeVersion again) => some { out := if again then "v22.21.0".toList else "v20.19.5".toList }
  | .execute (.reload _ _) => some { out := [], code := 1 }
  | .execute .nginxActive => some { out := "inactive".toList, code := 3 }
  | .execute _ => some { out := [] }

def deadNginxOutcomes : Outcomes where
  answer := deadNginx
  applied _ := true
  applied_of_zero _ _ _ _ := rfl

def site : Config where
  guestId := "1".toList
  user := "ghost".toList
  ghostDir := "/var/www/ghost".toList
  latestVersion := "6.0.0".toList
  protectionType := "snapshot".toList
  backupStorage := []
  backupMode := "snapshot".toList

/-- All that matters of the grants is whether they have all privileges. -/
def grantWorld : World Bool where
  newest _ := "v22.21.0".toList
  grantAll _ _ _ := true

/-- `GRANT` and `n` have changed the guest when the check of nginx ends the run. -/
theorem aborted_run_changes_guest : ¬ AbortedUnchanged asciiPython site ⟨fun _ => some ⟨true, true⟩, true⟩ false grantWorld deadNginxOutcomes
    { node := "v20.19.5".toList, grants := false } := by
  intro hunchanged
  have hguest := hunchanged (by decide +kernel) (by decide +kernel)
  have hgrants := congrArg Guest.grants hguest
  revert hgrants
  decide +kernel

end ProxmoxTool.Ghost
