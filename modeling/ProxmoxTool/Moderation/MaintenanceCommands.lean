import ProxmoxTool.Moderation.GuestCommand
import ProxmoxTool.Moderation.StatusScript

/-!
# Maintenance commands cannot be hijacked

What `build_modify_command`, `build_status_action_command` and `build_status_action_script` of `core/mastodon_maintenance.py` let through.
Whatever is accepted, the two shells read the words that were meant, and Ruby reads the same tokens but for the values.  The one program
runs unless the account begins with `-` or `~` or the directory with `-`, which `_validate_shell_param` lets pass.
-/

namespace ProxmoxTool.Moderation.Admin

open Posix

/-- The words of `tootctl`. -/
def modifyArgv (username : Text) (action : MaintenanceAction) (email : Option Text) (confirm : Bool) : List Text :=
  ["bin/tootctl", "accounts", "modify"].map String.toList ++ username :: match action with
    | .disable2fa => ["--disable-2fa".toList]
    | .resetPassword => ["--reset-password".toList]
    | .confirmEmail => ["--confirm".toList]
    | .changeEmail => "--email".toList :: email.getD [] :: if confirm then ["--confirm".toList] else []

def runnerArgv : List Text := ["bin/rails", "runner", "-"].map String.toList

section

variable {u : TextTable}

/-! ### What is let through -/

theorem plain_username {t : Text} (h : isUsername t = true) : Plain t := by
  simp only [isUsername, Bool.and_eq_true, decide_eq_true_eq, List.all_eq_true] at h
  obtain ⟨⟨hlength, -⟩, hall⟩ := h
  refine ⟨by rintro rfl; simp at hlength, List.all_eq_true.2 fun c hc => ?_⟩
  rcases Bool.or_eq_true_iff.1 (hall c hc) with halnum | hline
  · simp [isSafe, halnum]
  · simp [isSafe, beq_iff_eq.1 hline]

/-- An address has no character that the shell reads as anything but itself. -/
theorem plain_email {t : Text} (h : validateEmail t = true) : Plain t := by
  unfold validateEmail at h
  split at h
  · next name host hsplit =>
    simp only [Bool.and_eq_true, List.all_eq_true] at h
    obtain ⟨⟨⟨⟨⟨⟨⟨-, hne⟩, hname⟩, hhost⟩, -⟩, -⟩, -⟩, -⟩ := h
    have ht : t = name ++ '@' :: host := by
      have hjoin : ['@'].intercalate (t.splitOn '@') = t := List.intercalate_splitOn '@'
      rw [← hjoin, hsplit]
      simp [List.intercalate]
    have hsafe : ∀ c ∈ "._%+-".toList, isSafe c = true := List.all_eq_true.1 rfl
    refine ⟨by rw [ht]; simp, List.all_eq_true.2 fun c hc => ?_⟩
    rw [ht, List.mem_append, List.mem_cons] at hc
    rcases hc with hc | rfl | hc
    · rcases Bool.or_eq_true_iff.1 (hname c hc) with halnum | hmem
      · simp [isSafe, halnum]
      · exact hsafe c (of_decide_eq_true hmem)
    · decide
    · rcases Bool.or_eq_true_iff.1 (hhost c hc) with hc | hline
      · rcases Bool.or_eq_true_iff.1 hc with halnum | hdot
        · simp [isSafe, halnum]
        · simp [isSafe, beq_iff_eq.1 hdot]
      · simp [isSafe, beq_iff_eq.1 hline]
  · cases h

theorem shlexQuote_of_plain {t : Text} (h : Plain t) : Services.shlexQuote t = t := by
  unfold Services.shlexQuote
  rw [if_neg h.1, if_pos]
  refine List.all_eq_true.2 fun c hc => ?_
  have hc := List.all_eq_true.1 h.2 c hc
  simp only [isSafe, Bool.or_eq_true, decide_eq_true_eq] at hc ⊢
  rcases hc with hc | hc
  · exact Or.inl hc
  · exact Or.inr (by simpa using hc)

theorem suLine_guestLine {user appDir : Text} {argv : List Text} (happDir : u.validateShellParam appDir = true)
    (hargv : ∀ t ∈ argv, Plain t) :
    suLine user (guestLine appDir argv) = "su - ".toList ++ (user ++ (" -c ".toList ++ '\'' :: (guestLine appDir argv ++ ['\'']))) := by
  have hquote : '\'' ∉ guestLine appDir argv :=
    not_mem_guestLine rfl (by decide) (by decide) (shellParam_spec happDir).2.2.2.2 hargv
  unfold suLine
  rw [nest_of_not_mem hquote, List.append_assoc, List.append_assoc]

/-- The flags are the last words of `tootctl`. -/
theorem modifyFlags_eq {action : MaintenanceAction} {email : Option Text} {confirm : Bool} {flags : Text} (username : Text)
    (h : modifyFlags action email confirm = some flags) :
    joinText [' '] (modifyArgv username action email confirm) = "bin/tootctl accounts modify ".toList ++ (username ++ ' ' :: flags) ∧
      ∀ t ∈ modifyArgv username action email confirm, t = username ∨ Plain t := by
  have hfront : ∀ t ∈ ["bin/tootctl", "accounts", "modify"].map String.toList, Plain t := by
    simp only [Plain, List.map_cons, List.map_nil, List.forall_mem_cons]
    refine ⟨⟨by simp, by decide⟩, ⟨by simp, by decide⟩, ⟨by simp, by decide⟩, fun _ h => absurd h List.not_mem_nil⟩
  have hflag : ∀ f ∈ ["--disable-2fa", "--reset-password", "--confirm", "--email"].map String.toList, Plain f := by
    simp only [Plain, List.map_cons, List.map_nil, List.forall_mem_cons]
    refine ⟨⟨by simp, by decide⟩, ⟨by simp, by decide⟩, ⟨by simp, by decide⟩, ⟨by simp, by decide⟩, fun _ h => absurd h List.not_mem_nil⟩
  have htext : "bin/tootctl accounts modify ".toList =
      "bin/tootctl".toList ++ [' '] ++ ("accounts".toList ++ [' '] ++ ("modify".toList ++ [' '])) := by
    rw [String.toList_ofList, String.toList_ofList, String.toList_ofList, String.toList_ofList]
    rfl
  have hjoin : ∀ rest : List Text, joinText [' '] (["bin/tootctl", "accounts", "modify"].map String.toList ++ username :: rest) =
      "bin/tootctl accounts modify ".toList ++ joinText [' '] (username :: rest) := by
    intro rest
    change joinText [' '] ("bin/tootctl".toList :: "accounts".toList :: "modify".toList :: username :: rest) = _
    rw [joinText_cons_cons, joinText_cons_cons, joinText_cons_cons, htext]
    simp only [-String.reduceToList, List.append_assoc]
  have hwords : ∀ rest : List Text, (∀ f ∈ rest, Plain f) →
      ∀ t ∈ ["bin/tootctl", "accounts", "modify"].map String.toList ++ username :: rest, t = username ∨ Plain t := by
    intro rest hrest t ht
    rw [List.mem_append, List.mem_cons] at ht
    rcases ht with ht | rfl | ht
    · exact Or.inr (hfront t ht)
    · exact Or.inl rfl
    · exact Or.inr (hrest t ht)
  unfold modifyArgv
  rw [hjoin]
  cases email with
  | none =>
    cases action with
    | changeEmail => cases h
    | disable2fa | resetPassword | confirmEmail =>
      obtain rfl := Option.some.inj h
      refine ⟨?_, hwords _ fun f hf => hflag f (by simp_all)⟩
      rw [joinText_cons_cons, joinText, List.intercalate_singleton, List.append_assoc]
      rfl
  | some email =>
    cases action with
    | disable2fa => cases h
    | resetPassword => cases h
    | confirmEmail => cases h
    | changeEmail =>
      have hflags : (if validateEmail email then
          some ("--email ".toList ++ Services.shlexQuote email ++ if confirm then " --confirm".toList else []) else none) = some flags := h
      have hemail : validateEmail email = true := by
        by_contra hemail
        rw [if_neg hemail] at hflags
        cases hflags
      have hplain := plain_email hemail
      rw [if_pos hemail, shlexQuote_of_plain hplain] at hflags
      obtain rfl := Option.some.inj hflags
      have hname : "--email ".toList = "--email".toList ++ [' '] := by
        rw [String.toList_ofList, String.toList_ofList]
        rfl
      have hconfirmed : " --confirm".toList = [' '] ++ "--confirm".toList := by
        rw [String.toList_ofList, String.toList_ofList]
        rfl
      cases confirm
      · refine ⟨?_, hwords _ fun f hf => ?_⟩
        · rw [joinText_cons_cons, Option.getD_some, if_neg Bool.false_ne_true, if_neg Bool.false_ne_true, joinText_cons_cons, joinText,
            List.intercalate_singleton, hname]
          simp only [-String.reduceToList, List.append_assoc, List.cons_append, List.nil_append, List.append_nil]
        · rw [if_neg Bool.false_ne_true, List.mem_cons, List.mem_singleton, Option.getD_some] at hf
          rcases hf with rfl | rfl
          · exact hflag _ (by simp)
          · exact hplain
      · refine ⟨?_, hwords _ fun f hf => ?_⟩
        · rw [joinText_cons_cons, Option.getD_some, if_pos rfl, if_pos rfl, joinText_cons_cons, joinText_cons_cons, joinText,
            List.intercalate_singleton, hname, hconfirmed]
          simp only [-String.reduceToList, List.append_assoc, List.cons_append, List.nil_append]
        · rw [if_pos rfl, List.mem_cons, List.mem_cons, List.mem_singleton, Option.getD_some] at hf
          rcases hf with rfl | rfl | rfl
          · exact hflag _ (by simp)
          · exact hplain
          · exact hflag _ (by simp)

/-- What is built is `su` with the line that runs `tootctl`. -/
theorem buildModifyCommand_eq {username : Text} {action : MaintenanceAction} {email : Option Text} {confirm : Bool} {user appDir command : Text}
    (h : buildModifyCommand u username action email confirm user appDir = some command) :
    u.validateShellParam user = true ∧ u.validateShellParam appDir = true ∧ (∀ t ∈ modifyArgv username action email confirm, Plain t) ∧
      command = suLine user (guestLine appDir (modifyArgv username action email confirm)) := by
  unfold buildModifyCommand at h
  split_ifs at h with hvalid
  rw [Bool.and_eq_true, Bool.and_eq_true] at hvalid
  obtain ⟨⟨husername, huser⟩, happDir⟩ := hvalid
  obtain ⟨flags, hflags, rfl⟩ := Option.map_eq_some_iff.1 h
  obtain ⟨hjoin, hwords⟩ := modifyFlags_eq username hflags
  have hargv : ∀ t ∈ modifyArgv username action email confirm, Plain t := fun t ht =>
    (hwords t ht).elim (fun he => he ▸ plain_username husername) id
  refine ⟨huser, happDir, hargv, ?_⟩
  have hcommand : " -c '".toList = " -c ".toList ++ ['\''] := by
    rw [String.toList_ofList, String.toList_ofList]
    rfl
  have hrails : " && RAILS_ENV=production bin/tootctl accounts modify ".toList =
      " && ".toList ++ ("RAILS_ENV=production".toList ++ ([' '] ++ "bin/tootctl accounts modify ".toList)) := by
    rw [String.toList_ofList, String.toList_ofList, String.toList_ofList, String.toList_ofList]
    rfl
  rw [suLine_guestLine happDir hargv]
  unfold guestLine
  rw [show modifyArgv username action email confirm = "bin/tootctl".toList :: (modifyArgv username action email confirm).tail from rfl,
    joinText_cons_cons, show "bin/tootctl".toList :: (modifyArgv username action email confirm).tail =
      modifyArgv username action email confirm from rfl, hjoin, hcommand, hrails]
  simp only [-String.reduceToList, List.append_assoc, List.cons_append, List.nil_append]

/-! ### What the shell of root reads -/

theorem not_mem_suLine {user line : Text} (huser : '\x00' ∉ user) (hline : '\x00' ∉ line) : '\x00' ∉ suLine user line := by
  have hnest : '\x00' ∉ nest line := not_mem_nest (by decide) hline
  unfold suLine
  simp only [List.mem_append, not_or]
  exact ⟨⟨⟨by decide, huser⟩, by decide⟩, hnest⟩

theorem parse_suLine {user line : Text} (huser : u.validateShellParam user = true) (hline : '\x00' ∉ line) :
    parse (suLine user line) = some [({ words := suWords user line }, .semi)] := by
  obtain ⟨hne, hordinary, -, hnul, -⟩ := shellParam_spec huser
  rw [parse_of_run (not_mem_suLine hnul hline) (run_suLine hne hordinary line [])]
  have hfinish : Posix.finish ⟨.plain, some (quoted line), [] ++ [unquoted "su".toList, unquoted "-".toList, unquoted user,
      unquoted "-c".toList].map .word⟩ = some ((suWords user line).map .word) := rfl
  rw [hfinish, Option.bind_some]
  exact parse_words (w := unquoted "su".toList) (by decide) (by decide) _

/-- The commands that feed the script to `su`. -/
def feedCommands (script : Text) : List (Simple × Op) :=
  [({ words := [unquoted "printf".toList, quoted "%s".toList, quoted (base64Text script)] }, .pipe),
    ({ words := [unquoted "base64".toList, unquoted "-d".toList] }, .pipe)]

def feedText (script : Text) : Text := "printf '%s' ".toList ++ (nest (base64Text script) ++ " | base64 -d | ".toList)

theorem not_mem_base64Text {c : Char} (hc : Base64.isChar c = false) (t : Text) : c ∉ base64Text t := by
  intro hmem
  rw [base64Text_eq] at hmem
  have hchar := List.all_eq_true.1 (Base64.all_isChar_encode _) c hmem
  rw [hc] at hchar
  cases hchar

theorem run_feedText (script : Text) : run {} (feedText script) =
    some ⟨.plain, none, [.word (unquoted "printf".toList), .word (quoted "%s".toList), .word (quoted (base64Text script)), .op .pipe,
      .word (unquoted "base64".toList), .word (unquoted "-d".toList), .op .pipe]⟩ := by
  have hprintf : run {} "printf '%s' ".toList =
      some ⟨.plain, none, [.word (unquoted "printf".toList), .word (quoted "%s".toList)]⟩ := by
    rw [String.toList_ofList, String.toList_ofList, String.toList_ofList]
    decide
  have hdecode : run ⟨.plain, some (quoted (base64Text script)), [.word (unquoted "printf".toList), .word (quoted "%s".toList)]⟩
      " | base64 -d | ".toList =
      some ⟨.plain, none, [.word (unquoted "printf".toList), .word (quoted "%s".toList), .word (quoted (base64Text script)), .op .pipe,
        .word (unquoted "base64".toList), .word (unquoted "-d".toList), .op .pipe]⟩ := by
    rw [String.toList_ofList, String.toList_ofList, String.toList_ofList, String.toList_ofList, String.toList_ofList]
    rfl
  unfold feedText
  rw [run_append_of hprintf, run_append_of (run_nest _ _), hdecode]

theorem parse_feedText {user line : Text} (script : Text) (huser : u.validateShellParam user = true) (hline : '\x00' ∉ line) :
    parse (feedText script ++ suLine user line) = some (feedCommands script ++ [({ words := suWords user line }, .semi)]) := by
  obtain ⟨hne, hordinary, -, hnul, -⟩ := shellParam_spec huser
  have hfeed : '\x00' ∉ feedText script := by
    have hnest : '\x00' ∉ nest (base64Text script) := not_mem_nest (by decide) (not_mem_base64Text (by decide) script)
    unfold feedText
    simp only [List.mem_append, not_or]
    exact ⟨by decide, hnest, by decide⟩
  have hnul' : '\x00' ∉ feedText script ++ suLine user line := by
    rw [List.mem_append, not_or]
    exact ⟨hfeed, not_mem_suLine hnul hline⟩
  rw [parse_of_run hnul' ((run_append_of (run_feedText script) _).trans (run_suLine hne hordinary line _))]
  rfl

theorem buildStatusActionCommand_eq {script user appDir command : Text} (h : buildStatusActionCommand u script user appDir = some command) :
    u.validateShellParam user = true ∧ u.validateShellParam appDir = true ∧ (∀ t ∈ runnerArgv, Plain t) ∧
      command = feedText script ++ suLine user (guestLine appDir runnerArgv) := by
  unfold buildStatusActionCommand at h
  split_ifs at h with hvalid
  rw [Bool.and_eq_true] at hvalid
  obtain ⟨huser, happDir⟩ := hvalid
  have hargv : ∀ t ∈ runnerArgv, Plain t := by
    unfold runnerArgv
    simp only [Plain, List.map_cons, List.map_nil, List.forall_mem_cons]
    refine ⟨⟨by simp, by decide⟩, ⟨by simp, by decide⟩, ⟨by simp, by decide⟩, fun _ h => absurd h List.not_mem_nil⟩
  refine ⟨huser, happDir, hargv, (Option.some.inj h).symm.trans ?_⟩
  have hquote : '\'' ∉ base64Text script := not_mem_base64Text (by decide) script
  have hprintf : "printf '%s' '".toList = "printf '%s' ".toList ++ ['\''] := by
    rw [String.toList_ofList, String.toList_ofList]
    rfl
  have hpipe : "' | base64 -d | su - ".toList = ['\''] ++ (" | base64 -d | ".toList ++ "su - ".toList) := by
    rw [String.toList_ofList, String.toList_ofList, String.toList_ofList]
    rfl
  have hcommand : " -c '".toList = " -c ".toList ++ ['\''] := by
    rw [String.toList_ofList, String.toList_ofList]
    rfl
  have hrails : " && RAILS_ENV=production bin/rails runner -'".toList =
      " && ".toList ++ (joinText [' '] ("RAILS_ENV=production".toList :: runnerArgv) ++ ['\'']) := by
    rw [String.toList_ofList, String.toList_ofList, String.toList_ofList]
    rfl
  rw [suLine_guestLine happDir hargv]
  unfold feedText guestLine
  rw [nest_of_not_mem hquote, hprintf, hpipe, hcommand, hrails]
  simp only [-String.reduceToList, List.append_assoc, List.cons_append, List.nil_append]

/-! ### What runs -/

/-- The account is neither an option of `su` nor a home directory, and the directory no option of `cd`. -/
def Named (user appDir : Text) : Prop := isOption user = false ∧ user.head? ≠ some '~' ∧ appDir.head? ≠ some '-'

instance (user appDir : Text) : Decidable (Named user appDir) := inferInstanceAs (Decidable (_ ∧ _))

variable (m : Machine)

theorem programs_of_su {user appDir program : Text} {args : List Text} (huser : u.validateShellParam user = true)
    (happDir : u.validateShellParam appDir = true) (hnamed : Named user appDir) (hargs : ∀ t ∈ program :: args, Plain t)
    (hassign : (unquoted program).isAssignment = false) (hreserved : unquoted program ∉ reserved.map unquoted)
    (hexport : program ≠ "export".toList) (hprogram : program ∉ ["cd", "printf", "base64", "su"].map String.toList) (n : Nat) (dir : Text)
    (input : Utf8.Bytes) :
    (m.runSimple (m.call (n + 2)) "root".toList dir { words := suWords user (guestLine appDir (program :: args)) } input).programs =
      runsIn m user appDir (program :: args) input := by
  obtain ⟨hoption, htilde, hminus⟩ := hnamed
  rw [runSimple_su m huser hoption htilde]
  unfold runsIn
  cases m.passwd user with
  | none => rfl
  | some home => exact programs_guestLine m happDir hminus hargs hassign hreserved hexport hprogram n user home input

theorem programs_modify {user appDir : Text} (huser : u.validateShellParam user = true) (happDir : u.validateShellParam appDir = true)
    (hnamed : Named user appDir) {username : Text} {action : MaintenanceAction} {email : Option Text} {confirm : Bool}
    (hargv : ∀ t ∈ modifyArgv username action email confirm, Plain t) (n : Nat) (dir : Text) (input : Utf8.Bytes) :
    (m.shell (n + 2) dir (suLine user (guestLine appDir (modifyArgv username action email confirm))) input).programs =
      runsIn m user appDir (modifyArgv username action email confirm) input := by
  have hline : '\x00' ∉ guestLine appDir (modifyArgv username action email confirm) :=
    not_mem_guestLine rfl (by decide) (by decide) (shellParam_spec happDir).2.2.2.1 hargv
  unfold Machine.shell Machine.runText
  rw [parse_suLine huser hline]
  refine (m.runList_run (by simp [Machine.Skips]) rfl []).trans ?_
  exact (List.append_nil _).trans
    (programs_of_su m huser happDir hnamed hargv (by decide) (by decide) (by decide) (by decide) n dir input)

/-- The first two commands of the pipeline feed the script to the third. -/
theorem call_base64 (n : Nat) (dir : Text) (env : List Text) (input : Utf8.Bytes) :
    m.call (n + 1) "root".toList dir env ["base64".toList, "-d".toList] input =
      match base64Decode input with
      | some bytes => { out := bytes, ok := true, dir := dir }
      | none => { ok := false, dir := dir } := rfl

theorem runPipeline_feed (script : Text) (s : Simple) (n : Nat) (dir : Text) (input : Utf8.Bytes) :
    (m.runPipeline (m.call (n + 1)) "root".toList dir ((feedCommands script).map Prod.fst ++ [s]) input).programs =
      (m.runSimple (m.call (n + 1)) "root".toList dir s (Utf8.encode script)).programs := by
  have hname : ∀ {name : Text} {ws : List Word}, name ≠ "export".toList → (unquoted name :: ws).head? ≠ some (unquoted "export".toList) :=
    fun hne h => hne (unquoted_injective (Option.some.inj h))
  have hprintfWords : [unquoted "printf".toList, quoted "%s".toList, quoted (base64Text script)].mapM (m.expand "root".toList) =
      some ["printf".toList, "%s".toList, base64Text script] := by
    rw [List.mapM_cons, expand_plain m _ (by decide), List.mapM_cons, m.expand_quoted, List.mapM_cons, m.expand_quoted]
    rfl
  have hbase64Words : [unquoted "base64".toList, unquoted "-d".toList].mapM (m.expand "root".toList) =
      some ["base64".toList, "-d".toList] := by
    rw [List.mapM_cons, expand_plain m _ (by decide), List.mapM_cons, expand_plain m _ (by decide)]
    rfl
  have hprintf : m.runSimple (m.call (n + 1)) "root".toList dir
      { words := [unquoted "printf".toList, quoted "%s".toList, quoted (base64Text script)] } input =
      { out := Utf8.encode (base64Text script), ok := true, dir := dir } :=
    (m.runSimple_of rfl (hname (by decide)) rfl hprintfWords).trans rfl
  have hbase64 : m.runSimple (m.call (n + 1)) "root".toList dir { words := [unquoted "base64".toList, unquoted "-d".toList] }
      (Utf8.encode (base64Text script)) = { out := Utf8.encode script, ok := true, dir := dir } := by
    refine (m.runSimple_of rfl (hname (by decide)) rfl hbase64Words).trans ?_
    rw [call_base64, base64Text_eq, base64Decode_encode]
  change (m.runSimple _ _ _ _ _).programs ++ ((m.runSimple _ _ _ _ _).programs ++ (m.runSimple _ _ _ _ _).programs) = _
  rw [hprintf, hbase64]
  rfl

theorem programs_runner {user appDir : Text} (huser : u.validateShellParam user = true) (happDir : u.validateShellParam appDir = true)
    (hnamed : Named user appDir) (hargv : ∀ t ∈ runnerArgv, Plain t) (script : Text) (n : Nat) (dir : Text) (input : Utf8.Bytes) :
    (m.shell (n + 2) dir (feedText script ++ suLine user (guestLine appDir runnerArgv)) input).programs =
      runsIn m user appDir runnerArgv (Utf8.encode script) := by
  have hline : '\x00' ∉ guestLine appDir runnerArgv :=
    not_mem_guestLine rfl (by decide) (by decide) (shellParam_spec happDir).2.2.2.1 hargv
  unfold Machine.shell Machine.runText
  rw [parse_feedText script huser hline]
  refine (m.runList_run (by simp [Machine.Skips]) rfl []).trans ?_
  refine (List.append_nil _).trans ((runPipeline_feed m script _ (n + 1) dir input).trans ?_)
  exact programs_of_su m huser happDir hnamed hargv (by decide) (by decide) (by decide) (by decide) n dir _

end

/-! ### The script -/

section

variable (u : TextTable)

/-- `build_status_action_script`, where both ids are given as `str` gives them. -/
def statusActionScript (action : StatusAction) (statusIds : List Text) (reportId actor text : Text) (sendEmail : Bool) : Option Text :=
  let ids := firstOccurrences statusIds
  if !statusIds.isEmpty && statusIds.all (isDigits u) && ids.length ≤ maxStatusIds && isDigits u reportId && isDigits u actor &&
      text.length ≤ maxActionText then do
    let account ← u.int actor
    let report ← u.int reportId
    some (printLines (scriptLines action ids (intText report) (intText account) text sendEmail))
  else none

theorem mem_of_mem_firstOccurrences {ids : List Text} {id : Text} (h : id ∈ firstOccurrences ids) : id ∈ ids := by
  induction ids with
  | nil => cases h
  | cons first ids ih =>
    rcases List.mem_cons.1 h with rfl | h
    · exact List.mem_cons_self
    · exact List.mem_cons_of_mem _ (ih (List.mem_of_mem_filter h))

variable {u}

/-- `int` of digits is no negative number. -/
theorem statusActionScript_eq (hint : ∀ t i, isDigits u t = true → u.int t = some i → 0 ≤ i) {action : StatusAction}
    {statusIds : List Text} {reportId actor text : Text} {sendEmail : Bool} {script : Text}
    (h : statusActionScript u action statusIds reportId actor text sendEmail = some script) :
    (∀ id ∈ firstOccurrences statusIds, id.all u.isDecimal = true) ∧ ∃ report account : Nat,
      script = printLines (scriptLines action (firstOccurrences statusIds) (natText report) (natText account) text sendEmail) := by
  unfold statusActionScript at h
  dsimp only at h
  split_ifs at h with hvalid
  simp only [Bool.and_eq_true] at hvalid
  obtain ⟨⟨⟨⟨⟨-, hids⟩, -⟩, hreport⟩, hactor⟩, -⟩ := hvalid
  obtain ⟨account, haccount, h⟩ := Option.bind_eq_some_iff.1 h
  obtain ⟨report, hreport', h⟩ := Option.bind_eq_some_iff.1 h
  have htext : ∀ i : Int, 0 ≤ i → intText i = natText i.toNat := by
    intro i hi
    rw [intText, if_neg (by omega), show i.natAbs = i.toNat by omega]
  refine ⟨fun id hid => ?_, report.toNat, account.toNat, ?_⟩
  · have hdigits := List.all_eq_true.1 hids id (mem_of_mem_firstOccurrences hid)
    rw [isDigits, Bool.and_eq_true] at hdigits
    exact hdigits.2
  · rw [← Option.some.inj h, htext report (hint _ _ hreport hreport'), htext account (hint _ _ hactor haccount)]

theorem quote_not_decimal {t : Text} (h : t.all u.isDecimal = true) : ∀ c ∈ t, c ≠ '\'' ∧ c ≠ '\\' := by
  intro c hc
  have hdecimal := List.all_eq_true.1 h c hc
  constructor
  · rintro rfl
    exact absurd hdecimal (Bool.eq_false_iff.1 rfl)
  · rintro rfl
    exact absurd hdecimal (Bool.eq_false_iff.1 rfl)

end

/-! ### No value is more than a value -/

/-- Both shells read what was meant, the program runs where account and directory are names, the script decodes its text, and scripts for
the same action with the same flag and as many posts have the same tokens but for their values. -/
theorem maintenance_not_hijacked (u : TextTable) (hint : ∀ t i, isDigits u t = true → u.int t = some i → 0 ≤ i) :
    (∀ (username : Text) (action : MaintenanceAction) (email : Option Text) (confirm : Bool) (user appDir command : Text),
      buildModifyCommand u username action email confirm user appDir = some command →
      parse command = some [({ words := suWords user (guestLine appDir (modifyArgv username action email confirm)) }, .semi)] ∧
      parse (guestLine appDir (modifyArgv username action email confirm)) =
        some (guestCommands appDir (modifyArgv username action email confirm)) ∧
      (Named user appDir → ∀ (m : Machine) (n : Nat) (dir : Text) (input : Utf8.Bytes), (m.shell (n + 2) dir command input).programs =
        runsIn m user appDir (modifyArgv username action email confirm) input)) ∧
    (∀ script user appDir command : Text, buildStatusActionCommand u script user appDir = some command →
      parse command = some (feedCommands script ++ [({ words := suWords user (guestLine appDir runnerArgv) }, .semi)]) ∧
      parse (guestLine appDir runnerArgv) = some (guestCommands appDir runnerArgv) ∧
      (Named user appDir → ∀ (m : Machine) (n : Nat) (dir : Text) (input : Utf8.Bytes), (m.shell (n + 2) dir command input).programs =
        runsIn m user appDir runnerArgv (Utf8.encode script))) ∧
    (∀ (action : StatusAction) (statusIds : List Text) (reportId actor text : Text) (sendEmail : Bool) (script : Text),
      statusActionScript u action statusIds reportId actor text sendEmail = some script →
      ∃ ts, Ruby.lex script = some ts ∧ decoded ts = some (Utf8.encode text)) ∧
    (∀ (action : StatusAction) (sendEmail : Bool) (statusIds statusIds' : List Text) (reportId reportId' actor actor' text text' : Text)
      (script script' : Text), (firstOccurrences statusIds).length = (firstOccurrences statusIds').length →
      statusActionScript u action statusIds reportId actor text sendEmail = some script →
      statusActionScript u action statusIds' reportId' actor' text' sendEmail = some script' →
      ∃ ts ts', Ruby.lex script = some ts ∧ Ruby.lex script' = some ts' ∧ List.Forall₂ (like u · ·) ts ts') := by
  refine ⟨?_, ?_, ?_, ?_⟩
  · intro username action email confirm user appDir command h
    obtain ⟨huser, happDir, hargv, rfl⟩ := buildModifyCommand_eq h
    have hline : '\x00' ∉ guestLine appDir (modifyArgv username action email confirm) :=
      not_mem_guestLine rfl (by decide) (by decide) (shellParam_spec happDir).2.2.2.1 hargv
    exact ⟨parse_suLine huser hline, parse_guestLine happDir hargv (by decide) (by decide),
      fun hnamed m n dir input => programs_modify m huser happDir hnamed hargv n dir input⟩
  · intro script user appDir command h
    obtain ⟨huser, happDir, hargv, rfl⟩ := buildStatusActionCommand_eq h
    have hline : '\x00' ∉ guestLine appDir runnerArgv :=
      not_mem_guestLine rfl (by decide) (by decide) (shellParam_spec happDir).2.2.2.1 hargv
    exact ⟨parse_feedText script huser hline, parse_guestLine happDir hargv (by decide) (by decide),
      fun hnamed m n dir input => programs_runner m huser happDir hnamed hargv script n dir input⟩
  · intro action statusIds reportId actor text sendEmail script h
    obtain ⟨hids, report, account, rfl⟩ := statusActionScript_eq hint h
    exact ⟨_, lex_script fun id hid => quote_not_decimal (hids id hid), decoded_script action _ report account text sendEmail⟩
  · intro action sendEmail statusIds statusIds' reportId reportId' actor actor' text text' script script' hlength h h'
    obtain ⟨hids, report, account, rfl⟩ := statusActionScript_eq hint h
    obtain ⟨hids', report', account', rfl⟩ := statusActionScript_eq hint h'
    exact ⟨_, _, lex_script fun id hid => quote_not_decimal (hids id hid), lex_script fun id hid => quote_not_decimal (hids' id hid),
      like_script u action sendEmail hlength hids hids' report report' account account' text text'⟩

/-- Python's functions on ASCII digits. -/
def digitsTable : TextTable where
  alnum := fun _ => false
  decimal := fun _ => false
  lower := List.map Char.toLower
  isDigits := fun t => !t.isEmpty && t.all Char.isDigit
  int := parseInt

theorem digitsTable_int (t : Text) (i : Int) (ht : isDigits digitsTable t = true) (hi : digitsTable.int t = some i) : 0 ≤ i := by
  rw [isDigits, Bool.and_eq_true] at ht
  have hdigits : ∀ c ∈ t, c.isDigit = true := by
    intro c hc
    have hdecimal := List.all_eq_true.1 ht.2 c hc
    unfold CharTable.isDecimal at hdecimal
    split_ifs at hdecimal
    · exact hdecimal
    · simp [digitsTable] at hdecimal
  have hne : t ≠ [] := by
    rintro rfl
    exact absurd ht.1 (by decide)
  have hvalue : digitsTable.int t = _ := parseInt_of_digits hne hdigits
  rw [hvalue] at hi
  rw [← Option.some.inj hi]
  exact Int.natCast_nonneg _

/-- A machine with the accounts `root` and `mastodon`. -/
def exampleMachine : Machine where
  passwd := fun user => if user = "root".toList then some "/root".toList else if user = "mastodon".toList then some "/home/m".toList else none
  directory := fun _ path => if path = "/home/m/live".toList then some path else none
  output := fun _ => []
  succeeds := fun _ => true
  absolute := by
    intro user home h
    split_ifs at h <;> obtain rfl := Option.some.inj h <;> rfl

theorem alice_confirmed : (exampleMachine.shell 2 "/root".toList
    (suLine "mastodon".toList (guestLine "~/live".toList (modifyArgv "alice".toList .confirmEmail none false))) []).programs =
      runsIn exampleMachine "mastodon".toList "~/live".toList (modifyArgv "alice".toList .confirmEmail none false) [] := by
  have hsome : (buildModifyCommand digitsTable "alice".toList .confirmEmail none false "mastodon".toList "~/live".toList).isSome = true := by
    decide +kernel
  obtain ⟨command, hbuilt⟩ := Option.isSome_iff_exists.1 hsome
  have hruns := ((maintenance_not_hijacked digitsTable digitsTable_int).1 "alice".toList .confirmEmail none false "mastodon".toList
    "~/live".toList command hbuilt).2.2 (by decide +kernel) exampleMachine 0 "/root".toList []
  obtain ⟨-, -, -, hcommand⟩ := buildModifyCommand_eq hbuilt
  rw [← hcommand]
  exact hruns

/-- `su` takes the account `-s/tmp/x` for a shell, and another post is another token. -/
theorem shell_and_post_injected :
    (¬ ∀ (username : Text) (action : MaintenanceAction) (email : Option Text) (confirm : Bool) (user appDir command : Text),
      buildModifyCommand digitsTable username action email confirm user appDir = some command →
      ∀ (m : Machine) (n : Nat) (dir : Text) (input : Utf8.Bytes), (m.shell (n + 2) dir command input).programs =
        runsIn m user appDir (modifyArgv username action email confirm) input) ∧
    ¬ ∀ (action action' : StatusAction) (sendEmail sendEmail' : Bool) (statusIds statusIds' : List Text)
      (reportId reportId' actor actor' text text' : Text) (script script' : Text),
      statusActionScript digitsTable action statusIds reportId actor text sendEmail = some script →
      statusActionScript digitsTable action' statusIds' reportId' actor' text' sendEmail' = some script' →
      ∃ ts ts', Ruby.lex script = some ts ∧ Ruby.lex script' = some ts' ∧ List.Forall₂ (like digitsTable · ·) ts ts' := by
  constructor
  · intro hall
    have hsome : (buildModifyCommand digitsTable "alice".toList .confirmEmail none false "-s/tmp/x".toList "/srv".toList).isSome = true := by
      decide +kernel
    obtain ⟨command, hbuilt⟩ := Option.isSome_iff_exists.1 hsome
    have hruns := hall "alice".toList .confirmEmail none false "-s/tmp/x".toList "/srv".toList command hbuilt exampleMachine 0 "/root".toList []
    obtain ⟨-, -, -, hcommand⟩ := buildModifyCommand_eq hbuilt
    rw [hcommand] at hruns
    revert hruns
    decide +kernel
  · intro hall
    have hone : statusActionScript digitsTable .delete [['1']] ['9'] ['3'] [] true =
        some (printLines (scriptLines .delete [['1']] (natText 9) (natText 3) [] true)) := rfl
    have htwo : statusActionScript digitsTable .delete [['1'], ['2']] ['9'] ['3'] [] true =
        some (printLines (scriptLines .delete [['1'], ['2']] (natText 9) (natText 3) [] true)) := rfl
    obtain ⟨ts, ts', hts, hts', hlike⟩ := hall _ _ _ _ _ _ _ _ _ _ _ _ _ _ hone htwo
    have hdigits : ∀ id ∈ [['1'], ['2']], ∀ c ∈ id, c ≠ '\'' ∧ c ≠ '\\' := by
      simp
    rw [lex_script fun id hid => hdigits id (List.mem_cons.2 (Or.inl (List.mem_singleton.1 hid)))] at hts
    rw [lex_script hdigits] at hts'
    have hlength := hlike.length_eq
    rw [← Option.some.inj hts, ← Option.some.inj hts'] at hlength
    unfold scriptSlots at hlength
    simp only [List.flatMap_append, List.length_append] at hlength
    have hids : ((idSlots [['1']]).flatMap Slot.tokens).length = 1 := rfl
    have hids' : ((idSlots [['1'], ['2']]).flatMap Slot.tokens).length = 4 := by decide +kernel
    omega

end ProxmoxTool.Moderation.Admin
