import ProxmoxTool.Mastodon.Protection

/-!
# Local changes and the stash

What becomes of the local changes in the working tree of the primary guest.  Git is not part of the program: `Git` is what its commands
make of a repository, and `Git.Documented` what its documentation promises.  With these, only `git stash drop` can lose a change, and the
resolver of conflicts issues it whether or not `git checkout --theirs` has restored the files.

`local_changes_kept_iff` says for every outcome of every command when all local changes survive the run.
-/

namespace ProxmoxTool.Mastodon.Commands

open Stateful

/-- A change has its file; it may be in the working tree, and in the entry that the run has put on the stash.  `effect` is what an applied
command makes of the repository. -/
structure Git (Repo Change : Type) where
  file : Change → Text
  inTree : Repo → Change → Prop
  onStash : Repo → Change → Prop
  effect : Site → Repo → Repo

variable {Repo Change : Type}

def Git.Kept (git : Git Repo Change) (r : Repo) (c : Change) : Prop := git.inTree r c ∨ git.onStash r c

/-- The commands that may move a change. -/
def moves : Site → Bool
  | .stash | .pull | .pop | .abortPop | .retryPop | .checkoutTheirs _ | .add _ | .stashDrop => true
  | _ => false

/-- `git stash` takes the changes of the tree or leaves them there, `git pull` overwrites none, and `git stash pop` drops the entry only
after it has applied it.  `git checkout --theirs` brings back a conflicted file as it is in the entry, `git add` only changes the index, and
`git stash drop` drops the entry.  The other commands of the upgrade leave changes alone. -/
structure Git.Documented (git : Git Repo Change) : Prop where
  stash : ∀ r c, git.inTree r c → git.Kept (git.effect .stash r) c
  pull : ∀ r c, git.Kept r c → git.Kept (git.effect .pull r) c
  pop : ∀ site ∈ [Site.pop, .abortPop, .retryPop], ∀ r c, git.Kept r c → git.Kept (git.effect site r) c
  checkoutTheirs : ∀ f r c, (git.inTree (git.effect (.checkoutTheirs f) r) c ↔ git.inTree r c ∨ git.file c = f) ∧
    (git.onStash (git.effect (.checkoutTheirs f) r) c ↔ git.onStash r c)
  add : ∀ f r c, (git.inTree (git.effect (.add f) r) c ↔ git.inTree r c) ∧ (git.onStash (git.effect (.add f) r) c ↔ git.onStash r c)
  stashDrop : ∀ r c, (git.inTree (git.effect .stashDrop r) c ↔ git.inTree r c) ∧ ¬ git.onStash (git.effect .stashDrop r) c
  others : ∀ site, moves site = false → ∀ r c, (git.inTree (git.effect site r) c ↔ git.inTree r c) ∧
    (git.onStash (git.effect site r) c ↔ git.onStash r c)

/-! ### The condition -/

section

variable (git : Git Repo Change) (u : CharTable) (sur : Surroundings) (cfg : Config) (σ : Outcomes)
  (answers : Nat → ∀ c, Answer c)

/-- The command, if it is applied. -/
def Git.applied (site : Site) (r : Repo) : Repo := if (σ site).applied then git.effect site r else r

/-- The first switch reports success. -/
def switches (env : EnvFile) (stashed : Bool) : Bool :=
  match Mastodon.swapEnvDb u σ .toDirect cfg.appDir cfg.direct ⟨true, env, false, stashed⟩ with
  | .ok ok s => ok && s.live
  | .error _ _ => false

/-- The files that `git diff` lists as conflicted. -/
def listed : List Text := fileNames (σ .conflicts).out

/-- The connection outlives both commands for the file. -/
def fileKeeps (f : Text) : Bool := (σ (.checkoutTheirs f)).keeps && (σ (.add f)).keeps

/-- The resolver comes to its last command over a live connection, and that is applied. -/
def resolverDrops : Bool :=
  !blankList (σ .conflicts).out && (σ .conflicts).keeps && (listed σ).all (fileKeeps σ) && (σ .stashDrop).applied

/-- 2d comes to the resolver, and the entry is dropped. -/
def popDrops (pending : Bool) : Bool := pending && !(σ .pop).ok && (σ .pop).keeps && resolverDrops σ

/-- The same for 2c and 2d. -/
def deployDrops (pending : Bool) : Bool := (σ .pull).ok && popDrops σ pending

/-- The same for step 3. -/
def stepDrops (env : EnvFile) : Bool :=
  let stashed := !hasSub noLocalChanges (σ .stash).out
  blankList (σ .unmerged).out && (σ .unmerged).keeps && (σ .stash).ok && switches u cfg σ env stashed && deployDrops σ stashed

/-- The run comes to step 3. -/
def reachesStepThree (skip : Bool) (w : World Repo) : Bool :=
  let (r, w') := Script.run (onGuest git.effect σ answers) (beforeStepThree u sur cfg skip) w
  r.isOk && answers w'.asked (.connect .upgrade)

/-- The repository after the pop that has failed. -/
def afterPop (r : Repo) : Repo := [Site.unmerged, .stash, .pull, .pop].foldl (fun r site => git.applied σ site r) r

/-- The change is in the tree when the resolver drops the entry: the failed pop has brought it back, or the checkout of its file. -/
def Restored (r : Repo) (c : Change) : Prop :=
  git.inTree (afterPop git σ r) c ∨ git.file c ∈ listed σ ∧ (σ (.checkoutTheirs (git.file c))).applied = true

end

/-! ### What a step keeps -/

/-- No command of git to the primary guest. -/
def still (c : Command) : Prop := ∀ site, c = .run .primary site → moves site = false

section

variable (git : Git Repo Change) (σ : Outcomes) (answers : Nat → ∀ c, Answer c)

abbrev handle : ∀ c, StateM (World Repo) (Answer c) := onGuest git.effect σ answers

/-- A property of the variables and the repository that step 3 keeps once the stash has been popped. -/
structure Frame (J : Vars → Repo → Prop) : Prop where
  swapped : ∀ vars r b, J vars r → J { vars with envSwapped := b } r
  others : ∀ site vars r, moves site = false → J vars r → J vars (git.effect site r)
  pop : ∀ site ∈ [Site.abortPop, .retryPop], ∀ vars r (b : Bool), vars.stashPending = true → J vars r →
    J { vars with stashPending := false } (if b then git.effect site r else r)

/-- Whether or not the step raises. -/
def Preserves {α : Type} (J : Vars → Repo → Prop) (x : Step α) : Prop :=
  ∀ vars w, J vars w.repo → J (Script.run (handle git σ answers) (x vars) w).1.2 (Script.run (handle git σ answers) (x vars) w).2.repo

variable {git σ answers} {J : Vars → Repo → Prop} {α β : Type}

theorem Preserves.pure (a : α) : Preserves git σ answers J (pure a) := fun _ _ h => h

theorem Preserves.bind {x : Step α} {f : α → Step β} (hx : Preserves git σ answers J x) (hf : ∀ a, Preserves git σ answers J (f a)) :
    Preserves git σ answers J (x >>= f) := by
  intro vars w h
  have hfirst := hx vars w h
  rw [run_step_bind]
  revert hfirst
  rcases Script.run (handle git σ answers) (x vars) w with ⟨⟨⟨e⟩ | ⟨a⟩, vars'⟩, w'⟩ <;> intro hfirst
  · exact hfirst
  · exact hf a vars' w' hfirst

theorem Preserves.throw_bind {e : Raised} {f : β → Step α} : Preserves git σ answers J (throw e >>= f) := fun _ _ h => h

theorem Preserves.ite {c : Prop} [Decidable c] {x y : Step α} (hx : Preserves git σ answers J x) (hy : Preserves git σ answers J y) :
    Preserves git σ answers J (if c then x else y) := by
  split
  · exact hx
  · exact hy

theorem Preserves.modify {f : Vars → Vars} (hf : ∀ vars r, J vars r → J (f vars) r) : Preserves git σ answers J (modify f) :=
  fun vars w h => hf vars w.repo h

theorem Preserves.remote {x : Remote α} (hx : ∀ vars w, J vars w.repo → J vars (Script.run (handle git σ answers) x w).2.repo) :
    Preserves git σ answers J (remote x) := by
  intro vars w h
  rw [run_remote]
  exact hx vars w h

/-- A command to the primary guest makes of the repository what it makes of it when applied, or nothing. -/
theorem handle_run (site : Site) (w : World Repo) :
    ((handle git σ answers) (.run .primary site) w).2.repo = if w.live && (σ site).applied then git.effect site w.repo else w.repo := by
  cases hlive : w.live with
  | false => simp [onGuest, hlive]
  | true => simp [onGuest, hlive]

/-- The other commands leave the repository alone. -/
theorem handle_else {c : Command} (hc : ∀ site, c ≠ .run .primary site) (w : World Repo) :
    ((handle git σ answers) c w).2.repo = w.repo := by
  cases c with
  | run machine site =>
    cases machine with
    | primary => exact absurd rfl (hc site)
    | second => rfl
  | sed s f value =>
    cases hlive : w.live with
    | false => simp [onGuest, hlive]
    | true => simp [onGuest, hlive]
  | grep s =>
    cases hlive : w.live with
    | false => simp [onGuest, hlive]
    | true => simp [onGuest, hlive]
  | _ => rfl

theorem Frame.still (hJ : Frame git J) {c : Command} (hc : still c) (vars : Vars) (w : World Repo) (h : J vars w.repo) :
    J vars ((handle git σ answers) c w).2.repo := by
  by_cases hrun : ∃ site, c = .run .primary site
  · obtain ⟨site, rfl⟩ := hrun
    rw [handle_run]
    split
    · exact hJ.others site vars w.repo (hc site rfl) h
    · exact h
  · rw [handle_else fun site heq => hrun ⟨site, heq⟩]
    exact h

theorem Preserves.still (hJ : Frame git J) {x : Remote α} (hx : Script.Only still x) : Preserves git σ answers J (Commands.remote x) :=
  .remote fun vars _ h => hx.run_invariant (I := fun w => J vars w.repo) (fun _ s hc h => hJ.still hc vars s h) h

theorem Preserves.get_bind {f : Vars → Step β} (hf : ∀ vars r, J vars r → Preserves git σ answers J (f vars)) :
    Preserves git σ answers J (get >>= f) :=
  fun vars w h => hf vars w.repo h vars w h

/-- The swaps of the environment file do not touch the repository at all. -/
theorem preserves_swapEnvDb (u : CharTable) (w : Swap) (appDir : Text) (t : Target) :
    Preserves git σ answers J (swapEnvDb u w appDir t) := by
  have hissue : ∀ c, (∀ site, c ≠ .run .primary site) → Preserves git σ answers J (remote (issue c)) := by
    intro c hc
    refine .remote fun vars w h => ?_
    rw [issue, Script.run_send, handle_else hc]
    exact h
  have hsed : ∀ f v, Preserves git σ answers J (remote (issue (.sed w f v))) := fun f v => hissue _ fun _ heq => by cases heq
  have hgrep : Preserves git σ answers J (remote (issue (.grep w))) := hissue _ fun _ heq => by cases heq
  have hedit : Preserves git σ answers J (editEnv w t) := by
    refine (hsed _ _).bind fun ok => .ite (.pure _) ((hsed _ _).bind fun ok => .ite (.pure _) (hgrep.bind fun out => ?_))
    cases out with
    | none => exact .pure _
    | some out => exact .pure _
  exact .ite .throw_bind (.ite .throw_bind (.ite (.pure _) hedit))

theorem preserves_restoreEnv (hJ : Frame git J) (u : CharTable) (cfg : Config) (w : Swap) :
    Preserves git σ answers J (restoreEnv u cfg w) := by
  refine (preserves_swapEnvDb u w _ _).bind fun ok => .ite ?_ (.pure _)
  exact (Preserves.modify fun vars r => hJ.swapped vars r false).bind fun _ => .pure _

theorem preserves_abort (hJ : Frame git J) (u : CharTable) (cfg : Config) {site : Site} (hsite : site ∈ [Site.abortPop, .retryPop])
    (w : Swap) (restore : Bool) : Preserves git σ answers J (abort u cfg site w restore) := by
  have hrestore : Preserves git σ answers J
      (do
        if restore && (← get).envSwapped then
          let _ ← restoreEnv u cfg w
        return false) :=
    .get_bind fun vars r _ => .ite ((preserves_restoreEnv hJ u cfg w).bind fun _ => .pure _) (.pure _)
  have hpop : ∀ vars w, vars.stashPending = true → J vars w.repo →
      J { vars with stashPending := false } (Script.run (handle git σ answers) (gitStashPop (execute .primary) site) w).2.repo := by
    intro vars w hpending h
    rw [gitStashPop, Script.run_bind, stateM_bind_run, Commands.execute, issue, Script.run_send]
    show J _ ((handle git σ answers) (.run .primary site) w).2.repo
    rw [handle_run]
    exact hJ.pop site hsite vars w.repo _ hpending h
  intro vars w h
  rw [abort, run_get_bind]
  split
  · rename_i hpending
    rw [run_step_bind, run_remote]
    exact hrestore { vars with stashPending := false } _ (hpop vars w hpending h)
  · exact hrestore vars w h

theorem preserves_postDeploy (hJ : Frame git J) (u : CharTable) (cfg : Config) : Preserves git σ answers J (postDeploy u cfg) := by
  have hexecute : ∀ site, moves site = false → Preserves git σ answers J (remote (execute .primary site)) :=
    fun site hsite => .still hJ (.send fun site' heq => by cases heq; exact hsite)
  have habort : ∀ restore, Preserves git σ answers J (abort u cfg .abortPop .abort restore) :=
    fun restore => preserves_abort hJ u cfg (.head _) .abort restore
  refine (preserves_swapEnvDb u _ _ _).bind fun ok => .ite (habort _) ?_
  refine (Preserves.modify fun vars r => hJ.swapped vars r true).bind fun _ => (hexecute _ rfl).bind fun r => .ite (habort _) ?_
  refine (preserves_restoreEnv hJ u cfg _).bind fun ok => .ite (habort _) ?_
  exact (hexecute _ rfl).bind fun r => (hexecute _ rfl).bind fun r => .pure _

theorem preserves_restart (hJ : Frame git J) (u : CharTable) (cfg : Config) : Preserves git σ answers J (restart u cfg) := by
  have hexecute : ∀ site, moves site = false → Preserves git σ answers J (remote (execute .primary site)) :=
    fun site hsite => .still hJ (.send fun site' heq => by cases heq; exact hsite)
  refine (preserves_restoreEnv hJ u cfg _).bind fun ok => .ite (preserves_abort hJ u cfg (.head _) _ _) ?_
  exact (hexecute _ rfl).bind fun r => (hexecute _ rfl).bind fun r => preserves_postDeploy hJ u cfg

end

/-! ### What becomes of one change -/

section

variable {git : Git Repo Change} {σ : Outcomes} {answers : Nat → ∀ c, Answer c} {c : Change} {w : World Repo}

theorem Git.Documented.others_kept (hd : git.Documented) {site : Site} (hsite : moves site = false) (r : Repo) :
    git.Kept (git.effect site r) c ↔ git.Kept r c :=
  or_congr (hd.others site hsite r c).1 (hd.others site hsite r c).2

theorem frame_kept (hd : git.Documented) (c : Change) : Frame git fun _ r => git.Kept r c where
  swapped _ _ _ h := h
  others site _ r hsite h := (hd.others_kept hsite r).2 h
  pop site hsite _ r b _ h := by
    split
    · exact hd.pop site (List.mem_cons_of_mem _ hsite) r c h
    · exact h

/-- Once nothing is left to be popped, it is settled whether the change is kept. -/
theorem frame_settled (hd : git.Documented) (c : Change) (P : Prop) :
    Frame git fun vars r => vars.stashPending = false ∧ (git.Kept r c ↔ P) where
  swapped _ _ _ h := h
  others site _ r hsite h := ⟨h.1, (hd.others_kept hsite r).trans h.2⟩
  pop _ _ vars _ _ hpending h := by
    rw [h.1] at hpending
    cases hpending

/-- A command that is neither the first one of git nor its last. -/
def sparing (c : Command) : Prop := ∀ site, c = .run .primary site → site ≠ .stash ∧ site ≠ .stashDrop

theorem kept_of_sparing (hd : git.Documented) {α : Type} {x : Remote α} (hx : Script.Only sparing x) (h : git.Kept w.repo c) :
    git.Kept (Script.run (handle git σ answers) x w).2.repo c := by
  refine hx.run_invariant (I := fun w : World Repo => git.Kept w.repo c) (fun cmd w hcmd h => ?_) h
  by_cases hrun : ∃ site, cmd = .run .primary site
  · obtain ⟨site, rfl⟩ := hrun
    obtain ⟨hstash, hdrop⟩ := hcmd site rfl
    rw [handle_run]
    split
    · cases hsite : moves site with
      | false => exact (hd.others_kept hsite w.repo).2 h
      | true =>
        cases site with
        | stash => exact absurd rfl hstash
        | stashDrop => exact absurd rfl hdrop
        | pull => exact hd.pull _ c h
        | pop => exact hd.pop .pop (.head _) _ c h
        | abortPop => exact hd.pop .abortPop (.tail _ (.head _)) _ c h
        | retryPop => exact hd.pop .retryPop (.tail _ (.tail _ (.head _))) _ c h
        | checkoutTheirs f => exact h.imp (fun h => (hd.checkoutTheirs f _ c).1.2 (.inl h)) (hd.checkoutTheirs f _ c).2.2
        | add f => exact h.imp (hd.add f _ c).1.2 (hd.add f _ c).2.2
        | _ => cases hsite
    · exact h
  · rw [handle_else fun site heq => hrun ⟨site, heq⟩]
    exact h

theorem run_execute (site : Site) (hlive : w.live = true) : Script.run (handle git σ answers) (execute .primary site) w =
    (⟨(σ site).out, (σ site).ok⟩, { w with live := (σ site).keeps, repo := git.applied σ site w.repo }) := by
  simp [Commands.execute, issue, onGuest, hlive, Git.applied]

theorem run_execute_dead (site : Site) (hlive : w.live = false) :
    Script.run (handle git σ answers) (execute .primary site) w = (⟨[], false⟩, w) := by
  simp [Commands.execute, issue, onGuest, hlive]

/-- Commands over a dead connection reach nobody. -/
theorem run_dead {α : Type} {x : Remote α} (hx : Script.Only (fun c => ∃ site, c = .run .primary site) x) (hlive : w.live = false) :
    (Script.run (handle git σ answers) x w).2 = w := by
  refine hx.run_invariant (I := fun w' => w' = w) (fun cmd w' hcmd h => ?_) rfl
  obtain ⟨site, rfl⟩ := hcmd
  rw [h]
  simp [onGuest, hlive]

theorem inTree_checkoutTheirs (hd : git.Documented) (f : Text) (r : Repo) :
    git.inTree (git.applied σ (.checkoutTheirs f) r) c ↔
      git.inTree r c ∨ git.file c = f ∧ (σ (.checkoutTheirs f)).applied = true := by
  unfold Git.applied
  split
  · rename_i happlied
    simp only [(hd.checkoutTheirs f r c).1, happlied, and_true]
  · rename_i happlied
    exact ⟨.inl, fun h => h.elim id fun h => absurd h.2 happlied⟩

theorem inTree_add (hd : git.Documented) (f : Text) (r : Repo) : git.inTree (git.applied σ (.add f) r) c ↔ git.inTree r c := by
  unfold Git.applied
  split
  · exact (hd.add f r c).1
  · exact Iff.rfl

variable (answers) in
theorem run_keepLocal (hd : git.Documented) (f : Text) (hlive : w.live = true) :
    (Script.run (handle git σ answers) (keepLocal (execute .primary) f) w).2.live = fileKeeps σ f ∧
      (fileKeeps σ f = true → ∀ c, git.inTree (Script.run (handle git σ answers) (keepLocal (execute .primary) f) w).2.repo c ↔
        git.inTree w.repo c ∨ git.file c = f ∧ (σ (.checkoutTheirs f)).applied = true) := by
  rw [keepLocal, Script.run_bind, stateM_bind_run, run_execute _ hlive, Script.run_bind, stateM_bind_run]
  cases hkeeps : (σ (.checkoutTheirs f)).keeps with
  | false =>
    rw [run_execute_dead _ rfl]
    simp [fileKeeps, hkeeps]
  | true =>
    rw [run_execute _ rfl]
    refine ⟨by simp [fileKeeps, hkeeps], fun _ c => ?_⟩
    exact (inTree_add hd f _).trans (inTree_checkoutTheirs hd f _)

theorem only_keepLocal (f : Text) : Script.Only (fun c => ∃ site, c = .run .primary site) (keepLocal (execute .primary) f) :=
  (only_execute ⟨_, rfl⟩).bind fun _ => (only_execute ⟨_, rfl⟩).bind fun _ => .pure _

variable (answers) in
/-- The loop over the conflicted files, over a live connection. -/
theorem run_files (hd : git.Documented) (files : List Text) (hlive : w.live = true) :
    (Script.run (handle git σ answers) (files.forM (keepLocal (execute .primary))) w).2.live = files.all (fileKeeps σ) ∧
      (files.all (fileKeeps σ) = true → ∀ c,
        git.inTree (Script.run (handle git σ answers) (files.forM (keepLocal (execute .primary))) w).2.repo c ↔
        git.inTree w.repo c ∨ git.file c ∈ files ∧ (σ (.checkoutTheirs (git.file c))).applied = true) := by
  induction files generalizing w with
  | nil => exact ⟨hlive, fun _ c => by simp [List.forM]⟩
  | cons f files ih =>
    obtain ⟨hfirst, htree⟩ := run_keepLocal answers hd f hlive
    have hrun : Script.run (handle git σ answers) ((f :: files).forM (keepLocal (execute .primary))) w =
        Script.run (handle git σ answers) (files.forM (keepLocal (execute .primary)))
          (Script.run (handle git σ answers) (keepLocal (execute .primary) f) w).2 := by
      show Script.run (handle git σ answers) (keepLocal (execute .primary) f >>= fun _ => files.forM (keepLocal (execute .primary))) w = _
      rw [Script.run_bind, stateM_bind_run]
    rw [hrun, List.all_cons]
    cases hkeeps : fileKeeps σ f with
    | false =>
      rw [run_dead (.forM files fun f _ => only_keepLocal f) (hfirst.trans hkeeps), hfirst, hkeeps]
      exact ⟨rfl, fun h => absurd h Bool.false_ne_true⟩
    | true =>
      obtain ⟨hrest, htrees⟩ := ih (hfirst.trans hkeeps)
      refine ⟨hrest, fun hall c => (htrees hall c).trans ?_⟩
      rw [htree hkeeps c, List.mem_cons]
      constructor
      · rintro ((h | ⟨heq, happlied⟩) | ⟨hmem, happlied⟩)
        · exact .inl h
        · exact .inr ⟨.inl heq, heq ▸ happlied⟩
        · exact .inr ⟨.inr hmem, happlied⟩
      · rintro (h | ⟨heq | hmem, happlied⟩)
        · exact .inl (.inl h)
        · exact .inl (.inr ⟨heq, heq ▸ happlied⟩)
        · exact .inr ⟨hmem, happlied⟩

/-- The world after the listing of the conflicts. -/
def afterListing (git : Git Repo Change) (σ : Outcomes) (w : World Repo) : World Repo :=
  { w with live := (σ .conflicts).keeps, repo := git.applied σ .conflicts w.repo }

theorem run_resolve_blank (hlive : w.live = true) (hblank : blankList (σ .conflicts).out = true) :
    Script.run (handle git σ answers) (resolveStashConflicts (execute .primary)) w = (false, afterListing git σ w) := by
  rw [resolveStashConflicts, Script.run_bind, stateM_bind_run, run_execute _ hlive]
  dsimp only
  rw [if_pos hblank]
  rfl

theorem run_resolve (hlive : w.live = true) (hblank : blankList (σ .conflicts).out = false) :
    Script.run (handle git σ answers) (resolveStashConflicts (execute .primary)) w =
      (true, (Script.run (handle git σ answers) (execute .primary .stashDrop)
        (Script.run (handle git σ answers) ((listed σ).forM (keepLocal (execute .primary))) (afterListing git σ w)).2).2) := by
  rw [resolveStashConflicts, Script.run_bind, stateM_bind_run, run_execute _ hlive]
  dsimp only
  rw [if_neg (by rw [hblank]; exact Bool.false_ne_true), Script.run_bind, stateM_bind_run, Script.run_bind, stateM_bind_run]
  rfl

theorem kept_listing (hd : git.Documented) : git.Kept (afterListing git σ w).repo c ↔ git.Kept w.repo c := by
  unfold afterListing Git.applied
  dsimp only
  split
  · exact hd.others_kept rfl w.repo
  · exact Iff.rfl

theorem only_resolve : Script.Only (fun c => ∃ site, c = .run .primary site) (resolveStashConflicts (execute .primary)) := by
  refine (only_execute ⟨_, rfl⟩).bind fun r => .ite (.pure _) (Script.Only.bind (.forM _ fun f _ => only_keepLocal f) fun _ => ?_)
  exact (only_execute ⟨_, rfl⟩).bind fun _ => .pure _

theorem sparing_keepLocal (f : Text) : Script.Only sparing (keepLocal (execute .primary) f) := by
  have hcheckout : Script.Only sparing (execute .primary (.checkoutTheirs f)) :=
    .send fun site heq => by cases heq; exact ⟨nofun, nofun⟩
  have hadd : Script.Only sparing (execute .primary (.add f)) := .send fun site heq => by cases heq; exact ⟨nofun, nofun⟩
  exact hcheckout.bind fun _ => hadd.bind fun _ => .pure _

/-- Unless its last command takes effect, the resolver loses nothing. -/
theorem resolve_kept (hd : git.Documented) (hdrops : w.live = false ∨ resolverDrops σ = false) (h : git.Kept w.repo c) :
    git.Kept (Script.run (handle git σ answers) (resolveStashConflicts (execute .primary)) w).2.repo c := by
  cases hlive : w.live with
  | false =>
    rw [run_dead only_resolve hlive]
    exact h
  | true =>
    have hdrops : resolverDrops σ = false := hdrops.resolve_left (by rw [hlive]; exact Bool.noConfusion)
    cases hblank : blankList (σ .conflicts).out with
    | true =>
      rw [run_resolve_blank hlive hblank]
      exact (kept_listing hd).2 h
    | false =>
      rw [run_resolve hlive hblank]
      have hfiles : git.Kept (Script.run (handle git σ answers) ((listed σ).forM (keepLocal (execute .primary)))
          (afterListing git σ w)).2.repo c :=
        kept_of_sparing hd (.forM _ fun f _ => sparing_keepLocal f) ((kept_listing hd).2 h)
      have hlast : (Script.run (handle git σ answers) ((listed σ).forM (keepLocal (execute .primary)))
          (afterListing git σ w)).2.live = true →
          (σ .stashDrop).applied = false := by
        intro hend
        have hkeeps : (σ .conflicts).keeps = true := by
          cases hkeeps : (afterListing git σ w).live with
          | true => exact hkeeps
          | false =>
            rw [run_dead (.forM _ fun f _ => only_keepLocal f) hkeeps, hkeeps] at hend
            cases hend
        have hall := (run_files answers hd (listed σ) (w := afterListing git σ w) hkeeps).1.symm.trans hend
        simpa [resolverDrops, hblank, hkeeps, hall] using hdrops
      revert hfiles hlast
      generalize (Script.run (handle git σ answers) ((listed σ).forM (keepLocal (execute .primary))) (afterListing git σ w)).2 = w'
      intro hfiles hlast
      cases hlive' : w'.live with
      | false =>
        rw [run_execute_dead _ hlive']
        exact hfiles
      | true =>
        rw [run_execute _ hlive']
        simpa [Git.applied, hlast hlive'] using hfiles

variable (answers) in
/-- When its last command takes effect, a change is left if it was in the tree or has been checked out. -/
theorem resolve_drops (hd : git.Documented) (hlive : w.live = true) (hdrops : resolverDrops σ = true) :
    (Script.run (handle git σ answers) (resolveStashConflicts (execute .primary)) w).1 = true ∧
      (git.Kept (Script.run (handle git σ answers) (resolveStashConflicts (execute .primary)) w).2.repo c ↔
        git.inTree w.repo c ∨ git.file c ∈ listed σ ∧ (σ (.checkoutTheirs (git.file c))).applied = true) := by
  unfold resolverDrops at hdrops
  simp only [Bool.and_eq_true, Bool.not_eq_true'] at hdrops
  obtain ⟨⟨⟨hblank, hkeeps⟩, hall⟩, happlied⟩ := hdrops
  obtain ⟨hend, htree⟩ := run_files answers hd (listed σ) (w := afterListing git σ w) hkeeps
  rw [run_resolve hlive hblank]
  refine ⟨rfl, ?_⟩
  dsimp only
  rw [run_execute _ (hend.trans hall)]
  have hlisting : git.inTree (afterListing git σ w).repo c ↔ git.inTree w.repo c := by
    unfold afterListing Git.applied
    dsimp only
    split
    · exact (hd.others .conflicts rfl w.repo c).1
    · exact Iff.rfl
  rw [← hlisting, ← htree hall c]
  dsimp only [Git.applied]
  rw [if_pos happlied]
  constructor
  · exact fun h => h.elim (hd.stashDrop _ c).1.1 fun h => absurd h (hd.stashDrop _ c).2
  · exact fun h => .inl ((hd.stashDrop _ c).1.2 h)

theorem kept_of_still (hd : git.Documented) {α : Type} {x : Remote α} (hx : Script.Only still x) :
    git.Kept (Script.run (handle git σ answers) x w).2.repo c ↔ git.Kept w.repo c := by
  refine hx.run_invariant (I := fun w' : World Repo => git.Kept w'.repo c ↔ git.Kept w.repo c) (fun cmd w' hcmd h => ?_) Iff.rfl
  by_cases hrun : ∃ site, cmd = .run .primary site
  · obtain ⟨site, rfl⟩ := hrun
    rw [handle_run]
    split
    · exact (hd.others_kept (hcmd site rfl) w'.repo).trans h
    · exact h
  · rw [handle_else fun site heq => hrun ⟨site, heq⟩]
    exact h

/-! ### 2c to 2i -/

theorem kept_pop (hd : git.Documented) {r : Repo} (h : git.Kept r c) : git.Kept (git.applied σ .pop r) c := by
  unfold Git.applied
  split
  · exact hd.pop .pop (.head _) r c h
  · exact h

theorem run_popAfterPull : Script.run (handle git σ answers) (popAfterPull (execute .primary) true) w =
    let (r, w') := Script.run (handle git σ answers) (execute .primary .pop) w
    if r.ok then (false, w')
    else (!(Script.run (handle git σ answers) (resolveStashConflicts (execute .primary)) w').1,
      (Script.run (handle git σ answers) (resolveStashConflicts (execute .primary)) w').2) := by
  show Script.run (handle git σ answers) (execute .primary .pop >>= _) w = _
  rw [Script.run_bind, stateM_bind_run]
  rcases Script.run (handle git σ answers) (execute .primary .pop) w with ⟨r, w'⟩
  dsimp only
  split
  · rfl
  · rw [Script.run_bind, stateM_bind_run]
    rfl

theorem popAfterPull_kept (hd : git.Documented) {pending : Bool} (hdrops : w.live = false ∨ popDrops σ pending = false)
    (h : git.Kept w.repo c) : git.Kept (Script.run (handle git σ answers) (popAfterPull (execute .primary) pending) w).2.repo c := by
  cases pending with
  | false => exact h
  | true =>
    rw [run_popAfterPull]
    cases hlive : w.live with
    | false =>
      rw [run_execute_dead _ hlive]
      exact resolve_kept hd (.inl hlive) h
    | true =>
      rw [run_execute _ hlive]
      dsimp only
      split
      · exact kept_pop hd h
      · rename_i hok
        refine resolve_kept hd ?_ (kept_pop hd h)
        cases hkeeps : (σ .pop).keeps with
        | false => exact .inl rfl
        | true =>
          have hdrops : popDrops σ true = false := hdrops.resolve_left (by rw [hlive]; exact Bool.noConfusion)
          simpa [popDrops, hok, hkeeps] using hdrops

variable (answers) in
theorem popAfterPull_drops (hd : git.Documented) {pending : Bool} (hlive : w.live = true) (hdrops : popDrops σ pending = true) :
    (Script.run (handle git σ answers) (popAfterPull (execute .primary) pending) w).1 = false ∧
      (git.Kept (Script.run (handle git σ answers) (popAfterPull (execute .primary) pending) w).2.repo c ↔
        git.inTree (git.applied σ .pop w.repo) c ∨ git.file c ∈ listed σ ∧ (σ (.checkoutTheirs (git.file c))).applied = true) := by
  unfold popDrops at hdrops
  simp only [Bool.and_eq_true, Bool.not_eq_true'] at hdrops
  obtain ⟨⟨⟨rfl, hok⟩, hkeeps⟩, hresolver⟩ := hdrops
  rw [run_popAfterPull, run_execute _ hlive]
  dsimp only
  rw [hok, if_neg Bool.false_ne_true]
  obtain ⟨hresult, hkept⟩ := resolve_drops answers (c := c)
    (w := { w with live := (σ .pop).keeps, repo := git.applied σ .pop w.repo }) hd hkeeps hresolver
  exact ⟨by rw [hresult]; rfl, hkept⟩

theorem only_build (view : View) : Script.Only (fun c => ∃ site, c = .run .primary site ∧ moves site = false) (build view) := by
  have hruntime : ∀ site, runtime site = true → ∃ site', Command.run .primary site = .run .primary site' ∧ moves site' = false := by
    intro site hsite
    refine ⟨site, rfl, ?_⟩
    cases site <;> first | rfl | cases hsite
  refine (only_remediateEnvironment hruntime view.engines).bind fun ok => .ite (.pure _) ?_
  refine (only_execute ⟨_, rfl, rfl⟩).bind fun r => .ite (.pure _) ((only_execute ⟨_, rfl, rfl⟩).bind fun r => .ite (.pure _) ?_)
  exact (only_execute ⟨_, rfl, rfl⟩).bind fun r => .ite (.pure _) ((only_execute ⟨_, rfl, rfl⟩).bind fun r => .pure _)

theorem still_build (view : View) : Script.Only still (build view) := by
  refine (only_build view).mono fun c hc site heq => ?_
  obtain ⟨site', rfl, hsite⟩ := hc
  cases heq
  exact hsite

theorem run_deploy (view : View) (pending : Bool) : Script.run (handle git σ answers) (deploy view (execute .primary) pending) w =
    let (r, w') := Script.run (handle git σ answers) (execute .primary .pull) w
    if !r.ok then ((false, pending), w')
    else
      let (pending, w') := Script.run (handle git σ answers) (popAfterPull (execute .primary) pending) w'
      let (ok, w') := Script.run (handle git σ answers) (build view) w'
      ((ok, pending), w') := by
  rw [deploy_eq, Script.run_bind, stateM_bind_run]
  rcases Script.run (handle git σ answers) (execute .primary .pull) w with ⟨r, w'⟩
  dsimp only
  split
  · rfl
  · rw [Script.run_bind, stateM_bind_run, Script.run_bind, stateM_bind_run]
    rfl

theorem deploy_kept (hd : git.Documented) (view : View) {pending : Bool} (hdrops : w.live = false ∨ deployDrops σ pending = false)
    (h : git.Kept w.repo c) : git.Kept (Script.run (handle git σ answers) (deploy view (execute .primary) pending) w).2.repo c := by
  rw [run_deploy]
  cases hlive : w.live with
  | false =>
    rw [run_execute_dead _ hlive]
    exact h
  | true =>
    have hpull : git.Kept (git.applied σ .pull w.repo) c := by
      unfold Git.applied
      split
      · exact hd.pull w.repo c h
      · exact h
    rw [run_execute _ hlive]
    dsimp only
    split
    · exact hpull
    · rename_i hok
      refine (kept_of_still hd (still_build view)).2 (popAfterPull_kept hd ?_ hpull)
      have hok : (σ .pull).ok = true := by simpa using hok
      have hdrops : deployDrops σ pending = false := hdrops.resolve_left (by rw [hlive]; exact Bool.noConfusion)
      unfold deployDrops at hdrops
      rw [hok, Bool.true_and] at hdrops
      exact .inr hdrops

variable (answers) in
theorem deploy_drops (hd : git.Documented) (view : View) {pending : Bool} (hlive : w.live = true) (hdrops : deployDrops σ pending = true) :
    (Script.run (handle git σ answers) (deploy view (execute .primary) pending) w).1.2 = false ∧
      (git.Kept (Script.run (handle git σ answers) (deploy view (execute .primary) pending) w).2.repo c ↔
        git.inTree (git.applied σ .pop (git.applied σ .pull w.repo)) c ∨
          git.file c ∈ listed σ ∧ (σ (.checkoutTheirs (git.file c))).applied = true) := by
  obtain ⟨hok, hpop⟩ := Bool.and_eq_true_iff.1 hdrops
  rw [run_deploy, run_execute _ hlive]
  dsimp only
  rw [hok, Bool.not_true, if_neg Bool.false_ne_true]
  obtain ⟨hpending, hkept⟩ := popAfterPull_drops answers (c := c)
    (w := { w with live := (σ .pull).keeps, repo := git.applied σ .pull w.repo }) hd (Outcome.keeps_of_ok hok) hpop
  exact ⟨hpending, (kept_of_still hd (still_build view)).trans hkept⟩

/-! ### Step 3 -/

variable {u : CharTable} {sur : Surroundings} {view : View} {cfg : Config} {vars : Vars}

/-- The rest of 2b to 2p, behind the first switch. -/
theorem run_switchAndDeploy (vars : Vars) (w : World Repo) :
    Script.run (handle git σ answers) (switchAndDeploy u view cfg vars) w =
      match Script.run (handle git σ answers) (swapEnvDb u .toDirect cfg.appDir cfg.direct vars) w with
      | ((.error e, vars'), w') => ((.error e, vars'), w')
      | ((.ok ok, vars'), w') =>
        if !ok then Script.run (handle git σ answers) (abort u cfg .abortPop .abort false vars') w'
        else
          let ((ok, pending), w') := Script.run (handle git σ answers) (deploy view (execute .primary) vars'.stashPending) w'
          Script.run (handle git σ answers) ((if !ok then abort u cfg .abortPop .abort true else restart u cfg)
            { vars' with envSwapped := true, stashPending := pending }) w' := by
  rw [switchAndDeploy, run_step_bind]
  rcases Script.run (handle git σ answers) (swapEnvDb u .toDirect cfg.appDir cfg.direct vars) w with ⟨⟨⟨e⟩ | ⟨ok⟩, vars'⟩, w'⟩
  · rfl
  · dsimp only
    split
    · rfl
    · rw [run_step_bind]
      show Script.run (handle git σ answers) ((get >>= fun v => remote (deploy view (execute .primary) v.stashPending) >>= _) _) w' = _
      rw [run_get_bind, run_step_bind, run_remote]
      rfl

variable (git σ answers u cfg) in
/-- The first switch leaves the repository alone; whether it leads on is `switches`. -/
theorem run_switch (hlive : w.live = true) (hswapped : vars.envSwapped = false) :
    let r := Script.run (handle git σ answers) (swapEnvDb u .toDirect cfg.appDir cfg.direct vars) w
    r.2.repo = w.repo ∧ r.1.2.stashPending = vars.stashPending ∧
      switches u cfg σ w.env vars.stashPending = (match r.1.1 with | .ok ok => ok && r.2.live | .error _ => false) := by
  have hkeeps : Preserves git σ answers (fun v r => r = w.repo ∧ v.stashPending = vars.stashPending)
      (swapEnvDb u .toDirect cfg.appDir cfg.direct) := preserves_swapEnvDb u _ _ _
  have hfollows : Follows git.effect σ answers (swapEnvDb u .toDirect cfg.appDir cfg.direct)
      (Mastodon.swapEnvDb u σ .toDirect cfg.appDir cfg.direct) := follows_swapEnvDb u _ _ _
  have hresult := hfollows vars w
  obtain ⟨hrepo, hpending⟩ := hkeeps vars w ⟨rfl, rfl⟩
  refine ⟨hrepo, hpending, ?_⟩
  rw [stateOf, hlive, hswapped] at hresult
  rw [switches, ← hresult]
  rcases Script.run (handle git σ answers) (swapEnvDb u .toDirect cfg.appDir cfg.direct vars) w with ⟨⟨⟨e⟩ | ⟨ok⟩, vars'⟩, w'⟩
  · rfl
  · rfl

/-- What follows 2i. -/
theorem preserves_afterDeploy {J : Vars → Repo → Prop} (hJ : Frame git J) (ok : Bool) :
    Preserves git σ answers J (if !ok then abort u cfg .abortPop .abort true else restart u cfg) :=
  .ite (preserves_abort hJ u cfg (.head _) _ _) (preserves_restart hJ u cfg)

theorem switchAndDeploy_kept (hd : git.Documented) (hlive : w.live = true) (hswapped : vars.envSwapped = false)
    (hdrops : (switches u cfg σ w.env vars.stashPending && deployDrops σ vars.stashPending) = false) (h : git.Kept w.repo c) :
    git.Kept (Script.run (handle git σ answers) (switchAndDeploy u view cfg vars) w).2.repo c := by
  obtain ⟨hrepo, hpending, hswitches⟩ := run_switch git σ answers u cfg hlive hswapped
  rw [run_switchAndDeploy]
  revert hrepo hpending hswitches
  rcases Script.run (handle git σ answers) (swapEnvDb u .toDirect cfg.appDir cfg.direct vars) w with ⟨⟨⟨e⟩ | ⟨ok⟩, vars'⟩, w'⟩
  · intro hrepo _ _
    exact hrepo ▸ h
  · intro hrepo hpending hswitches
    dsimp only at hrepo hpending hswitches ⊢
    have h' : git.Kept w'.repo c := hrepo ▸ h
    split
    · exact preserves_abort (frame_kept hd c) u cfg (.head _) _ _ vars' w' h'
    · rename_i hok
      have hok : ok = true := by simpa using hok
      rw [hok, Bool.true_and] at hswitches
      refine preserves_afterDeploy (frame_kept hd c) _ _ _ (deploy_kept hd view ?_ h')
      rw [hpending]
      rw [hswitches] at hdrops
      cases hlive' : w'.live with
      | false => exact .inl rfl
      | true =>
        rw [hlive', Bool.true_and] at hdrops
        exact .inr hdrops

theorem switchAndDeploy_drops (hd : git.Documented) (hlive : w.live = true) (hswapped : vars.envSwapped = false)
    (hdrops : (switches u cfg σ w.env vars.stashPending && deployDrops σ vars.stashPending) = true) :
    let r := Script.run (handle git σ answers) (switchAndDeploy u view cfg vars) w
    r.1.2.stashPending = false ∧ (git.Kept r.2.repo c ↔ git.inTree (git.applied σ .pop (git.applied σ .pull w.repo)) c ∨
      git.file c ∈ listed σ ∧ (σ (.checkoutTheirs (git.file c))).applied = true) := by
  obtain ⟨hrepo, hpending, hswitches⟩ := run_switch git σ answers u cfg hlive hswapped
  obtain ⟨hswitch, hdeploy⟩ := Bool.and_eq_true_iff.1 hdrops
  dsimp only
  rw [run_switchAndDeploy]
  rw [hswitch] at hswitches
  revert hrepo hpending hswitches
  rcases Script.run (handle git σ answers) (swapEnvDb u .toDirect cfg.appDir cfg.direct vars) w with ⟨⟨⟨e⟩ | ⟨ok⟩, vars'⟩, w'⟩
  · intro _ _ hswitches
    cases hswitches
  · intro hrepo hpending hswitches
    dsimp only at hrepo hpending hswitches ⊢
    obtain ⟨rfl, hlive'⟩ := Bool.and_eq_true_iff.1 hswitches.symm
    rw [Bool.not_true, if_neg Bool.false_ne_true]
    rw [← hpending] at hdeploy
    obtain ⟨hpop, hkept⟩ := deploy_drops answers (c := c) hd view hlive' hdeploy
    rw [hrepo] at hkept
    exact preserves_afterDeploy (frame_settled hd c _) _ { vars' with envSwapped := true, stashPending := _ } _ ⟨hpop, hkept⟩

/-- The body of the `with` block, as far as the first switch. -/
theorem run_stepThree (vars : Vars) (w : World Repo) :
    Script.run (handle git σ answers) (stepThree u view cfg vars) w =
      let (r, w') := Script.run (handle git σ answers) (execute .primary .unmerged) w
      if !blankList r.out then ((.ok false, vars), w')
      else
        let ((ok, stashed), w') := Script.run (handle git σ answers) (gitStash (execute .primary)) w'
        if !ok then ((.ok false, vars), w')
        else Script.run (handle git σ answers) (switchAndDeploy u view cfg { vars with stashPending := stashed }) w' := by
  rw [stepThree, run_step_bind, run_remote]
  rcases Script.run (handle git σ answers) (execute .primary .unmerged) w with ⟨r, w'⟩
  dsimp only
  split
  · rfl
  · rw [run_step_bind, run_remote]
    rcases Script.run (handle git σ answers) (gitStash (execute .primary)) w' with ⟨⟨ok, stashed⟩, w''⟩
    dsimp only
    split
    · rfl
    · rfl

theorem inTree_unmerged (hd : git.Documented) (r : Repo) : git.inTree (git.applied σ .unmerged r) c ↔ git.inTree r c := by
  unfold Git.applied
  split
  · exact (hd.others .unmerged rfl r c).1
  · exact Iff.rfl

theorem kept_stash (hd : git.Documented) {r : Repo} (h : git.inTree r c) : git.Kept (git.applied σ .stash r) c := by
  unfold Git.applied
  split
  · exact hd.stash r c h
  · exact .inl h

theorem run_gitStash (hlive : w.live = true) : Script.run (handle git σ answers) (gitStash (execute .primary)) w =
    (if (σ .stash).ok then (true, !hasSub noLocalChanges (σ .stash).out) else (false, false),
      { w with live := (σ .stash).keeps, repo := git.applied σ .stash w.repo }) := by
  rw [gitStash, Script.run_bind, stateM_bind_run, run_execute _ hlive]
  rfl

theorem stepThree_kept (hd : git.Documented) (hlive : w.live = true) (hswapped : vars.envSwapped = false)
    (hdrops : stepDrops u cfg σ w.env = false) (h : git.inTree w.repo c) :
    git.Kept (Script.run (handle git σ answers) (stepThree u view cfg vars) w).2.repo c := by
  have htree : git.inTree (git.applied σ .unmerged w.repo) c := (inTree_unmerged hd _).2 h
  rw [run_stepThree, run_execute _ hlive]
  dsimp only
  split
  · exact .inl htree
  · rename_i hblank
    have hblank : blankList (σ .unmerged).out = true := by simpa using hblank
    cases hkeeps : (σ .unmerged).keeps with
    | false =>
      rw [gitStash, Script.run_bind, stateM_bind_run, run_execute_dead _ rfl]
      exact .inl htree
    | true =>
      have hstash : git.Kept (git.applied σ .stash (git.applied σ .unmerged w.repo)) c := kept_stash hd htree
      rw [run_gitStash rfl]
      dsimp only
      cases hok : (σ .stash).ok with
      | false => exact hstash
      | true =>
        refine switchAndDeploy_kept hd (Outcome.keeps_of_ok hok) hswapped ?_ hstash
        simpa [stepDrops, hblank, hkeeps, hok] using hdrops

variable (answers) in
theorem stepThree_drops (hd : git.Documented) (hlive : w.live = true) (hswapped : vars.envSwapped = false)
    (hdrops : stepDrops u cfg σ w.env = true) :
    let r := Script.run (handle git σ answers) (stepThree u view cfg vars) w
    r.1.2.stashPending = false ∧ (git.Kept r.2.repo c ↔ Restored git σ w.repo c) := by
  unfold stepDrops at hdrops
  simp only [Bool.and_eq_true] at hdrops
  obtain ⟨⟨⟨⟨hblank, hkeeps⟩, hok⟩, hswitches⟩, hdeploy⟩ := hdrops
  dsimp only
  rw [run_stepThree, run_execute _ hlive]
  dsimp only
  rw [hblank, Bool.not_true, if_neg Bool.false_ne_true, run_gitStash hkeeps]
  dsimp only
  rw [hok, if_pos rfl]
  dsimp only
  rw [Bool.not_true, if_neg Bool.false_ne_true]
  exact switchAndDeploy_drops hd (Outcome.keeps_of_ok hok) hswapped (Bool.and_eq_true_iff.2 ⟨hswitches, hdeploy⟩)

/-! ### The run -/

/-- What holds of the variables and the repository after step 3 survives the `except` branch. -/
theorem upgradePrimary_keeps {J : Vars → Repo → Prop} (sur : Surroundings) (cfg : Config) (w : World Repo) (hJ : Frame git J)
    (hstep : answers w.asked (.connect .upgrade) = true →
      let r := Script.run (handle git σ answers) (stepThree u sur.view cfg {}) { w with asked := w.asked + 1, live := true }
      J r.1.2 r.2.repo) (hnone : answers w.asked (.connect .upgrade) = false → J {} w.repo) :
    ∃ vars, J vars (Script.run (handle git σ answers) (upgradePrimary u sur cfg) w).2.repo := by
  rw [upgradePrimary, Script.run_bind, stateM_bind_run, issue, Script.run_send]
  show ∃ vars, J vars (Script.run (handle git σ answers) (if !(answers w.asked (.connect .upgrade)) then _ else _)
    { w with asked := w.asked + 1, live := true }).2.repo
  cases hup : answers w.asked (.connect .upgrade) with
  | false => exact ⟨{}, hnone hup⟩
  | true =>
    have hstep := hstep hup
    rw [Bool.not_true, if_neg Bool.false_ne_true, Script.run_bind, stateM_bind_run]
    revert hstep
    rcases Script.run (handle git σ answers) (stepThree u sur.view cfg {}) { w with asked := w.asked + 1, live := true } with
      ⟨⟨⟨e⟩ | ⟨ok⟩, vars⟩, w'⟩
    · intro hstep
      dsimp only
      split
      · rw [Script.run_bind, stateM_bind_run, issue, Script.run_send]
        show ∃ vars, J vars (Script.run (handle git σ answers) (if answers w'.asked (.connect .again) then _ else _)
          { w' with asked := w'.asked + 1, live := true }).2.repo
        split
        · rw [Script.run_bind, stateM_bind_run]
          exact ⟨_, preserves_abort hJ u cfg (.tail _ (.head _)) .retry true vars { w' with asked := w'.asked + 1, live := true } hstep⟩
        · exact ⟨vars, hstep⟩
      · exact ⟨vars, hstep⟩
    · intro hstep
      exact ⟨vars, hstep⟩

theorem harmless_protect (sur : Surroundings) (cfg : Config) (skip : Bool) (primary db : GuestRow) (second : Option GuestRow) :
    Script.Only harmless (protect sur cfg skip primary db second) := by
  have hissue : ∀ c, harmless c → Script.Only harmless (issue c) := fun c hc => .send hc
  have hpoll : ∀ g node upid n, Script.Only harmless (pollTask g node upid n) := by
    intro g node upid n
    induction n with
    | zero => exact .pure _
    | succ n ih =>
      refine (hissue (.taskStatus g node upid) trivial).bind fun task => ?_
      cases task with
      | none => exact ih
      | some task => exact .ite (.pure _) ih
  have hguest : ∀ kind g, Script.Only harmless (protectGuest sur kind g) := by
    intro kind g
    refine .ite (.pure _) ((hissue (.findNode g) trivial).bind fun node => ?_)
    cases node with
    | none => exact .pure _
    | some node =>
      refine .ite (.pure _) ((hissue (.create kind g node) trivial).bind fun upid => ?_)
      cases upid with
      | none => exact .pure _
      | some upid => exact hpoll g node upid _
  have hone : ∀ (isBackup : Bool) g, Script.Only harmless
      (if isBackup then backupGuest sur g cfg.backupStorage sur.backupMode else snapshotGuest sur g) :=
    fun isBackup g => .ite (hguest _ g) (hguest _ g)
  refine .ite (.pure _) (.ite (.pure _) ((hone _ primary).bind fun ok => .ite (.pure _) ?_))
  cases second with
  | none => exact hone _ db
  | some g => exact (hone _ g).bind fun ok => .ite (.pure _) (hone _ db)

variable (git σ answers) in
/-- What comes before step 3 leaves the primary guest alone. -/
theorem run_beforeStepThree (u : CharTable) (sur : Surroundings) (cfg : Config) (skip : Bool) (w : World Repo) :
    let w' := (Script.run (handle git σ answers) (beforeStepThree u sur cfg skip) w).2
    w'.repo = w.repo ∧ w'.env = w.env := by
  have hharmless : Script.Only harmless (beforeStepThree u sur cfg skip) := by
    unfold beforeStepThree
    split
    · exact .pure _
    · refine (harmless_checkEnvironment u sur _).bind fun ok => .ite (.pure _) ?_
      refine (harmless_protect sur cfg skip _ _ _).bind fun ok => .ite (.pure _) ?_
      exact (harmless_dumpDatabase sur skip _).bind fun _ => .pure _
  refine hharmless.run_invariant (I := fun w' : World Repo => w'.repo = w.repo ∧ w'.env = w.env) (fun c w' hc h => ?_) ⟨rfl, rfl⟩
  cases c with
  | run machine site => exact hc.elim
  | sed s f value => exact hc.elim
  | grep s => exact hc.elim
  | _ => exact h

/-- The repository of the primary guest is left as step 3 leaves it. -/
theorem run_runMastodonUpgrade (u : CharTable) (sur : Surroundings) (cfg : Config) (skip : Bool) (w : World Repo) :
    (Script.run (handle git σ answers) (runMastodonUpgrade u sur cfg skip) w).2.repo =
      let (r, w') := Script.run (handle git σ answers) (beforeStepThree u sur cfg skip) w
      if r.isOk then (Script.run (handle git σ answers) (upgradePrimary u sur cfg) w').2.repo else w.repo := by
  obtain ⟨hrepo, -⟩ := run_beforeStepThree git σ answers u sur cfg skip w
  rw [runMastodonUpgrade, Script.run_bind, stateM_bind_run]
  revert hrepo
  rcases Script.run (handle git σ answers) (beforeStepThree u sur cfg skip) w with ⟨⟨e⟩ | ⟨second⟩, w'⟩
  · intro hrepo
    cases e with
    | raised => exact hrepo
    | refused => exact hrepo
  · intro _
    have hsync : ∀ g w, (Script.run (handle git σ answers) (runSecondGuestSync sur g) w).2.repo = w.repo := by
      intro g w
      have honly : Script.Only (fun c => ∀ site, c ≠ .run .primary site) (runSecondGuestSync sur g) :=
        only_runSecondGuestSync (fun site site' heq => by cases heq) (fun site heq => by cases heq) sur g
      exact honly.run_invariant (I := fun w' : World Repo => w'.repo = w.repo) (fun c w' hc h => (handle_else hc w').trans h) rfl
    show (Script.run (handle git σ answers) (upgradePrimary u sur cfg >>= _) w').2.repo =
      (Script.run (handle git σ answers) (upgradePrimary u sur cfg) w').2.repo
    rw [Script.run_bind, stateM_bind_run]
    rcases Script.run (handle git σ answers) (upgradePrimary u sur cfg) w' with ⟨ok, w''⟩
    dsimp only
    split
    · rfl
    · cases second with
      | none => rfl
      | some g =>
        rw [Script.run_bind, stateM_bind_run]
        exact hsync g w''

/-- One change: it is lost only by the drop, and then unless it was restored. -/
theorem kept_iff (hd : git.Documented) (u : CharTable) (sur : Surroundings) (cfg : Config) (skip : Bool) (w : World Repo)
    (h : git.inTree w.repo c) :
    git.Kept (Script.run (handle git σ answers) (runMastodonUpgrade u sur cfg skip) w).2.repo c ↔
      (reachesStepThree git u sur cfg σ answers skip w = true → stepDrops u cfg σ w.env = true → Restored git σ w.repo c) := by
  have hbefore := run_beforeStepThree git σ answers u sur cfg skip w
  rw [run_runMastodonUpgrade, reachesStepThree]
  revert hbefore
  rcases Script.run (handle git σ answers) (beforeStepThree u sur cfg skip) w with ⟨r, w'⟩
  rintro ⟨hrepo, henv⟩
  dsimp only at hrepo henv ⊢
  cases r.isOk with
  | false => exact ⟨fun _ hreach => absurd hreach Bool.false_ne_true, fun _ => .inl h⟩
  | true =>
    rw [if_pos rfl, Bool.true_and]
    cases hup : answers w'.asked (.connect .upgrade) with
    | false =>
      obtain ⟨vars, hkept⟩ := upgradePrimary_keeps (u := u) sur cfg w' (frame_kept hd c)
        (fun hup' => absurd (hup.symm.trans hup') Bool.false_ne_true) fun _ => .inl (hrepo ▸ h)
      exact ⟨fun _ hreach => absurd hreach Bool.false_ne_true, fun _ => hkept⟩
    | true =>
      cases hdrops : stepDrops u cfg σ w.env with
      | false =>
        obtain ⟨vars, hkept⟩ := upgradePrimary_keeps (u := u) sur cfg w' (frame_kept hd c)
          (fun _ => stepThree_kept hd rfl rfl (by rw [henv]; exact hdrops) (hrepo ▸ h))
          fun hup' => absurd (hup.symm.trans hup') Bool.noConfusion
        exact ⟨fun _ _ hdrop => absurd hdrop Bool.false_ne_true, fun _ => hkept⟩
      | true =>
        have hrestored : Restored git σ w'.repo c ↔ Restored git σ w.repo c := by rw [hrepo]
        obtain ⟨vars, -, hkept⟩ := upgradePrimary_keeps (u := u) sur cfg w' (frame_settled hd c (Restored git σ w'.repo c))
          (fun _ => stepThree_drops answers hd rfl rfl (by rw [henv]; exact hdrops)) fun hup' => absurd (hup.symm.trans hup') Bool.noConfusion
        exact (hkept.trans hrestored).trans ⟨fun h _ _ => h, fun h => h rfl rfl⟩

/-- All local changes of the working tree are in it or on the stash after the run, exactly if the stash entry is not dropped, or every change
is back in the tree by then: for every outcome of every command. -/
theorem local_changes_kept_iff (git : Git Repo Change) (hd : git.Documented) (u : CharTable) (sur : Surroundings) (cfg : Config)
    (σ : Outcomes) (answers : Nat → ∀ c, Answer c) (skip : Bool) (w : World Repo) :
    (∀ c, git.inTree w.repo c → git.Kept (Script.run (handle git σ answers) (runMastodonUpgrade u sur cfg skip) w).2.repo c) ↔
      (reachesStepThree git u sur cfg σ answers skip w = true → stepDrops u cfg σ w.env = true →
        ∀ c, git.inTree w.repo c → Restored git σ w.repo c) := by
  constructor
  · exact fun hall hreach hdrops c h => (kept_iff hd u sur cfg skip w h).1 (hall c h) hreach hdrops
  · exact fun hall c h => (kept_iff hd u sur cfg skip w h).2 fun hreach hdrops => hall hreach hdrops c h

end

/-! ### One file -/

/-- The content of the one file in the working tree, `none` if it is not there, and the stash entry. -/
structure OneFile where
  tree : Option Text
  entry : Option (Option Text)

def base : Option Text := some ['a']

def upstream : Option Text := some ['b']

/-- `git stash pop` on a tree that differs from the last commit reports a conflict and keeps the entry. -/
def popEntry (r : OneFile) : OneFile :=
  match r.entry with
  | none => r
  | some e => if r.tree = base then ⟨e, none⟩ else r

/-- A repository with one file, which upstream has changed; `mine` is what the working tree has of it. -/
def oneFile (mine : Option Text) : Git OneFile Unit where
  file _ := ['f']
  inTree r _ := r.tree = mine
  onStash r _ := r.entry = some mine
  effect
    | .stash, r => if r.tree = base then r else ⟨base, some r.tree⟩
    | .pull, r => if r.tree = base then { r with tree := upstream } else r
    | .pop, r | .abortPop, r | .retryPop, r => popEntry r
    | .checkoutTheirs f, r => if f = ['f'] then { r with tree := mine } else r
    | .stashDrop, r => { r with entry := none }
    | _, r => r

theorem oneFile_documented {mine : Option Text} (h : mine ≠ base) : (oneFile mine).Documented := by
  have hpop : ∀ r c, (oneFile mine).Kept r c → (oneFile mine).Kept (popEntry r) c := by
    rintro ⟨tree, entry⟩ c (rfl | hentry)
    · cases entry with
      | none => exact .inl rfl
      | some e => exact .inl (congrArg OneFile.tree (if_neg h))
    · cases hentry
      by_cases htree : tree = base
      · exact .inl (congrArg OneFile.tree (if_pos htree))
      · exact .inr (congrArg OneFile.entry (if_neg htree))
  refine ⟨?_, ?_, ?_, ?_, fun f r c => ⟨Iff.rfl, Iff.rfl⟩, fun r c => ⟨Iff.rfl, nofun⟩, ?_⟩
  · rintro ⟨tree, entry⟩ c rfl
    exact .inr (congrArg OneFile.entry (if_neg h))
  · rintro ⟨tree, entry⟩ c (rfl | hentry)
    · exact .inl (congrArg OneFile.tree (if_neg h))
    · refine .inr ?_
      by_cases htree : tree = base
      · exact (congrArg OneFile.entry (if_pos htree)).trans hentry
      · exact (congrArg OneFile.entry (if_neg htree)).trans hentry
  · intro site hsite r c hkept
    simp only [List.mem_cons, List.not_mem_nil, or_false] at hsite
    rcases hsite with rfl | rfl | rfl <;> exact hpop r c hkept
  · intro f r c
    by_cases hf : f = ['f']
    · subst hf
      exact ⟨⟨fun _ => .inr rfl, fun _ => rfl⟩, Iff.rfl⟩
    · have hsame : (oneFile mine).effect (.checkoutTheirs f) r = r := if_neg hf
      rw [hsame]
      exact ⟨⟨.inl, fun hor => hor.elim id fun heq => absurd heq.symm hf⟩, Iff.rfl⟩
  · intro site hsite r c
    cases site <;> first | exact ⟨Iff.rfl, Iff.rfl⟩ | cases hsite

/-- `git stash pop` conflicts in the file; its checkout ends as `checkout` says, and every other command succeeds. -/
def conflicting (checkout : Outcome) : Outcomes
  | .pop => .failed [] true
  | .conflicts => .done ['f', Char.ofNat 0]
  | .checkoutTheirs _ => checkout
  | .rubyVersionFile => .done ['3', '.', '4', '.', '1']
  | .ruby _ => .done ['r', 'u', 'b', 'y', ' ', '3', '.', '4', '.', '1']
  | _ => .done []

def oneFileWorld (mine : Option Text) : World OneFile := ⟨0, false, linesOf exampleConfig.pgbouncer, ⟨mine, none⟩⟩

def asciiOnly : CharTable := ⟨fun _ => false, fun _ => false⟩

/-- The guest can be reached from step 3 on. -/
def exampleGuestAnswer : ∀ c, Answer c
  | .connect c => c == .upgrade
  | c => exampleAnswer [] c

/-- The repository after the run. -/
def oneFileAfter (mine : Option Text) (checkout : Outcome) : OneFile :=
  (Script.run (handle (oneFile mine) (conflicting checkout) fun _ => exampleGuestAnswer)
    (runMastodonUpgrade asciiOnly exampleSurroundings exampleConfig true) (oneFileWorld mine)).2.repo

/-- A file that is deleted locally has no version to check out: the deletion is neither in the tree nor on the stash any more. -/
theorem example_lost : (oneFile none).Documented ∧ (oneFile none).inTree (oneFileWorld none).repo () ∧
    ¬ (oneFile none).Kept (oneFileAfter none (.failed [] false)) () := by
  have hd : (oneFile none).Documented := oneFile_documented nofun
  have hreach : reachesStepThree (oneFile none) asciiOnly exampleSurroundings exampleConfig (conflicting (.failed [] false))
      (fun _ => exampleGuestAnswer) true (oneFileWorld none) = true := rfl
  have hdrops : stepDrops asciiOnly exampleConfig (conflicting (.failed [] false)) (oneFileWorld none).env = true := rfl
  have htree : (oneFile none).inTree (oneFileWorld none).repo () := rfl
  refine ⟨hd, htree, fun hkept => ?_⟩
  unfold oneFileAfter at hkept
  rw [kept_iff hd asciiOnly exampleSurroundings exampleConfig true (oneFileWorld none) htree] at hkept
  rcases hkept hreach hdrops with hafter | ⟨-, happlied⟩
  · cases hafter
  · cases happlied

/-- With a local edit the checkout restores the file before the entry is dropped. -/
theorem example_restored : (oneFile (some ['c'])).Kept (oneFileAfter (some ['c']) (.done [])) () := by
  have hd : (oneFile (some ['c'])).Documented := oneFile_documented (by decide)
  have hkept := (local_changes_kept_iff (oneFile (some ['c'])) hd asciiOnly exampleSurroundings exampleConfig
    (conflicting (.done [])) (fun _ => exampleGuestAnswer) true (oneFileWorld (some ['c']))).2
    fun _ _ _ _ => .inr ⟨.head _, rfl⟩
  exact hkept () rfl

end ProxmoxTool.Mastodon.Commands
