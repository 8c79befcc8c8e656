import ProxmoxTool.Lib.PlainLine
import ProxmoxTool.Services.Execute

/-!
# One line for each unit

`check_service_statuses` joins the unit names of a guest to one `systemctl is-active` and takes the lines of the answer for the services by
their positions.  The names have passed `_safe_unit_name`, which lets a `*` pass, a name that begins with `-`, and a newline at the end.
Without these the command is one call with a line for each unit (`checked_own`), and with any of them there is a host on which it is not
(`own_statuses_iff`).
-/

namespace ProxmoxTool.Services

open PlainLine

/-- A host with systemd, as its shell and `systemctl is-active` see it: the names in the directory, the active states, the loaded units that
match a pattern, what is printed when there are options, and what any other command prints. -/
structure Systemd where
  files : List Text
  state : Text → Text
  state_word : ∀ unit, state unit ≠ [] ∧ ∀ c ∈ state unit, isSpace c = false
  loaded : Text → List Text
  withOptions : List Text → Text
  other : List Text → Text

def isOption (arg : Text) : Bool := arg.head? = some '-' && arg ≠ ['-']

def isPattern (arg : Text) : Bool := arg.any fun c => c = '*' || c = '?' || c = '['

/-- `systemctl is-active` prints a line for each unit, the named ones before those that match the patterns. -/
def Systemd.isActive (w : Systemd) (args : List Text) : Text :=
  if args.any isOption then w.withOptions args
  else printLines ((args.filter (fun a => !isPattern a) ++ (args.filter isPattern).flatMap w.loaded).map w.state)

def Systemd.command (w : Systemd) : List Text → Text
  | [] => []
  | [name] => w.other [name]
  | name :: verb :: args =>
    if name = "systemctl".toList ∧ verb = "is-active".toList then w.isActive args else w.other (name :: verb :: args)

/-- What a command line prints. -/
def Systemd.prints (w : Systemd) (t : Text) : Text := ((programs w.files t).getD []).flatMap w.command

/-- The rows of a guest's services. -/
def servicesOf (guest : Nat) (s : State) : List (Service × Row) := s.rows.filter fun e => decide (e.1.1 = guest)

/-- On every host the command is one `systemctl is-active` of the units, it prints a line for each of them in the order of the services, and
each service is read the state of its own unit. -/
def OwnStatuses (u : CharTable) (guest : Nat) (s : State) : Prop :=
  ∀ (w : Systemd) (error : Option Text),
    programs w.files (checkCommand guest s) =
      some ["systemctl".toList :: "is-active".toList :: (servicesOf guest s).map fun e => e.1.2] ∧
    w.prints (checkCommand guest s) = printLines ((servicesOf guest s).map fun e => w.state e.1.2) ∧
    checked u s.rows guest ⟨some (w.prints (checkCommand guest s)), error⟩ =
      (servicesOf guest s).map fun e => (e, mapSystemctlStatus (w.state e.1.2))

/-- A name that is one unit for the shell and for `systemctl`. -/
def IsOperand (name : Text) : Prop := '*' ∉ name ∧ isOption name = false ∧ name.getLast? ≠ some '\n'

/-! ### The command -/

variable (u : CharTable)

theorem isPlain_of_isWord {c : Char} (h : u.isWord c = true) : isPlain c = true := by
  by_contra hspecial
  rw [isPlain, Bool.not_eq_true, decide_eq_false_iff_not, not_not] at hspecial
  have hall : special.all (fun c => !u.isWord c) = true := rfl
  have hword := List.all_eq_true.1 hall c hspecial
  rw [h] at hword
  cases hword

theorem safeUnitName_spec {name : Text} (h : safeUnitName u name = true) (hlast : name.getLast? ≠ some '\n') :
    name ≠ [] ∧ '\n' ∉ name ∧ name.all isPlain = true := by
  unfold safeUnitName at h
  rw [if_neg hlast] at h
  dsimp only at h
  rw [Bool.and_eq_true, Bool.not_eq_true', List.all_eq_true] at h
  obtain ⟨hne, hall⟩ := h
  have hplain : ∀ c ∈ name, isPlain c = true ∧ c ≠ '\n' := by
    intro c hc
    rcases Bool.or_eq_true_iff.1 (hall c hc) with hword | hsign
    · refine ⟨isPlain_of_isWord u hword, ?_⟩
      rintro rfl
      cases hword
    · have hmem := of_decide_eq_true hsign
      have hsigns : ['.', '-', '@', '*'].all (fun c => isPlain c && decide (c ≠ '\n')) = true := rfl
      obtain ⟨hplain, hline⟩ := Bool.and_eq_true_iff.1 (List.all_eq_true.1 hsigns c hmem)
      exact ⟨hplain, of_decide_eq_true hline⟩
  refine ⟨?_, fun hmem => (hplain _ hmem).2 rfl, List.all_eq_true.2 fun c hc => (hplain c hc).1⟩
  rintro rfl
  cases hne

/-- The command as words with blanks between them. -/
theorem checkCommand_eq (guest : Nat) (s : State) :
    checkCommand guest s = joinText [' ']
      (("systemctl".toList :: "is-active".toList :: (servicesOf guest s).map fun e => e.1.2) ++ ["2>".toList ++ "/dev/null".toList]) := by
  have hjoin : ∀ names : List Text, (names.map fun name => ' ' :: name).flatten ++ " 2>/dev/null".toList =
      ' ' :: joinText [' '] (names ++ ["2>".toList ++ "/dev/null".toList]) := by
    intro names
    induction names with
    | nil => rfl
    | cons name names ih =>
      obtain ⟨v, vs, hvs⟩ : ∃ v vs, names ++ ["2>".toList ++ "/dev/null".toList] = v :: vs :=
        List.exists_cons_of_ne_nil (List.append_ne_nil_of_right_ne_nil names (List.cons_ne_nil _ _))
      rw [List.map_cons, List.flatten_cons, List.append_assoc, ih, List.cons_append, List.cons_append, hvs, joinText, joinText,
        List.intercalate_cons_cons, List.append_assoc]
      rfl
  unfold checkCommand isActive units
  rw [List.append_assoc, hjoin]
  obtain ⟨v, vs, hvs⟩ : ∃ v vs, ((servicesOf guest s).map fun e => e.1.2) ++ ["2>".toList ++ "/dev/null".toList] = v :: vs :=
    List.exists_cons_of_ne_nil (List.append_ne_nil_of_right_ne_nil _ (List.cons_ne_nil _ _))
  unfold servicesOf at hvs ⊢
  rw [List.cons_append, List.cons_append, hvs, joinText, joinText, List.intercalate_cons_cons, List.intercalate_cons_cons]
  simp

section

variable {guest : Nat} {s : State}

/-- Names without ends of line, that no file name is put in place of. -/
theorem programs_checkCommand (hsafe : ∀ e ∈ servicesOf guest s, safeUnitName u e.1.2 = true)
    (hlast : ∀ e ∈ servicesOf guest s, e.1.2.getLast? ≠ some '\n') {files : List Text}
    (hfiles : ∀ e ∈ servicesOf guest s, expand files e.1.2 = [e.1.2]) :
    programs files (checkCommand guest s) =
      some ["systemctl".toList :: "is-active".toList :: (servicesOf guest s).map fun e => e.1.2] := by
  rw [checkCommand_eq]
  refine programs_line (List.cons_ne_nil _ _) (fun w hw => ?_) (by decide) (by decide)
  have hverb : ∀ w ∈ ["systemctl".toList, "is-active".toList], w ≠ [] ∧ '\n' ∉ w ∧ w.all isPlain = true ∧ '*' ∉ w := by decide
  rcases List.mem_cons.1 hw with rfl | hw
  · obtain ⟨hne, hline, hplain, hstar⟩ := hverb _ List.mem_cons_self
    exact ⟨hne, hline, hplain, expand_of_not_mem hstar files⟩
  · rcases List.mem_cons.1 hw with rfl | hw
    · obtain ⟨hne, hline, hplain, hstar⟩ := hverb "is-active".toList (by simp)
      exact ⟨hne, hline, hplain, expand_of_not_mem hstar files⟩
    · obtain ⟨e, he, rfl⟩ := List.mem_map.1 hw
      obtain ⟨hne, hline, hplain⟩ := safeUnitName_spec u (hsafe e he) (hlast e he)
      exact ⟨hne, hline, hplain, hfiles e he⟩

theorem Systemd.command_isActive (w : Systemd) (args : List Text) :
    w.command ("systemctl".toList :: "is-active".toList :: args) = w.isActive args := by
  unfold Systemd.command
  dsimp only
  exact if_pos ⟨rfl, rfl⟩

theorem prints_checkCommand (hsafe : ∀ e ∈ servicesOf guest s, safeUnitName u e.1.2 = true)
    (hlast : ∀ e ∈ servicesOf guest s, e.1.2.getLast? ≠ some '\n') {w : Systemd}
    (hfiles : ∀ e ∈ servicesOf guest s, expand w.files e.1.2 = [e.1.2]) :
    w.prints (checkCommand guest s) = w.isActive ((servicesOf guest s).map fun e => e.1.2) := by
  unfold Systemd.prints
  rw [programs_checkCommand u hsafe hlast hfiles, Option.getD_some, List.flatMap_singleton]
  exact w.command_isActive _

theorem isActive_operands {w : Systemd} {names : List Text} (h : ∀ name ∈ names, isOption name = false ∧ isPattern name = false) :
    w.isActive names = printLines (names.map w.state) := by
  have hoption : names.any isOption = false := List.any_eq_false.2 fun name hname => by rw [(h name hname).1]; exact Bool.false_ne_true
  have hunits : names.filter (fun a => !isPattern a) = names :=
    List.filter_eq_self.2 fun name hname => by rw [(h name hname).2]; rfl
  have hpatterns : names.filter isPattern = [] :=
    List.filter_eq_nil_iff.2 fun name hname => by rw [(h name hname).2]; exact Bool.false_ne_true
  unfold Systemd.isActive
  rw [hoption, if_neg Bool.false_ne_true, hunits, hpatterns, List.flatMap_nil, List.append_nil]

theorem not_isPattern {name : Text} (hplain : name.all isPlain = true) (hstar : '*' ∉ name) : isPattern name = false := by
  refine List.any_eq_false.2 fun c hc hpattern => ?_
  have hc' := List.all_eq_true.1 hplain c hc
  simp only [Bool.or_eq_true, decide_eq_true_eq] at hpattern
  rcases hpattern with (rfl | rfl) | rfl
  · exact hstar hc
  · cases hc'
  · cases hc'

/-! ### The lines of the answer -/

theorem getLast?_joinText {ws : List Text} (hne : ws ≠ []) (hws : ∀ w ∈ ws, w ≠ []) :
    ∃ w ∈ ws, (joinText ['\n'] ws).getLast? = w.getLast? := by
  induction ws with
  | nil => exact absurd rfl hne
  | cons w ws ih =>
    cases ws with
    | nil => exact ⟨w, List.mem_cons_self, by rw [joinText, List.intercalate_singleton]⟩
    | cons v ws =>
      obtain ⟨x, hx, hlast⟩ := ih (List.cons_ne_nil _ _) fun y hy => hws y (List.mem_cons_of_mem _ hy)
      have hsome := List.getLast?_eq_some_getLast (hws x (List.mem_cons_of_mem _ hx))
      refine ⟨x, List.mem_cons_of_mem _ hx, ?_⟩
      unfold joinText at hlast ⊢
      rw [List.intercalate_cons_cons, List.getLast?_append, hlast, hsome]
      rfl

theorem head?_joinText {w : Text} (hw : w ≠ []) (ws : List Text) : (joinText ['\n'] (w :: ws)).head? = w.head? := by
  obtain ⟨c, w, rfl⟩ := List.exists_cons_of_ne_nil hw
  unfold joinText
  cases ws with
  | nil => rw [List.intercalate_singleton]
  | cons v ws => rw [List.intercalate_cons_cons, List.cons_append, List.cons_append, List.head?_cons, List.head?_cons]

/-- The lines of printed words. -/
theorem lines_printLines {ws : List Text} (hne : ws ≠ []) (hws : ∀ w ∈ ws, w ≠ [] ∧ ∀ c ∈ w, isSpace c = false)
    (error : Option Text) :
    Output.lines ⟨some (printLines ws), error⟩ = ws := by
  have hline : ∀ w ∈ ws, '\n' ∉ w := by
    intro w hw hmem
    cases (hws w hw).2 '\n' hmem
  have hstrip : strip (printLines ws) = joinText ['\n'] ws := by
    have hspace : ∀ c ∈ ['\n'], isSpace c = true := by
      intro c hc
      rw [List.mem_singleton.1 hc]
      rfl
    rw [printLines_eq_joinText hne, strip_append_right hspace]
    refine strip_eq_self (fun c hc => ?_) fun c hc => ?_
    · obtain ⟨w, ws, rfl⟩ := List.exists_cons_of_ne_nil hne
      obtain ⟨hw, hchars⟩ := hws w List.mem_cons_self
      rw [head?_joinText hw] at hc
      exact hchars c (List.mem_of_mem_head? hc)
    · obtain ⟨w, hw, hlast⟩ := getLast?_joinText hne fun w hw => (hws w hw).1
      rw [hlast] at hc
      exact (hws w hw).2 c (List.mem_of_mem_getLast? hc)
  unfold Output.lines
  rw [Option.getD_some, hstrip, splitOn_joinText hline hne]

/-- The services are read the lines of the answer in their order. -/
theorem checked_printLines {w : Systemd} (hne : servicesOf guest s ≠ []) (hsafe : ∀ e ∈ servicesOf guest s, safeUnitName u e.1.2 = true)
    (error : Option Text) :
    checked u s.rows guest ⟨some (printLines ((servicesOf guest s).map fun e => w.state e.1.2)), error⟩ =
      (servicesOf guest s).map fun e => (e, mapSystemctlStatus (w.state e.1.2)) := by
  have hall : (servicesOf guest s).all (fun e => safeUnitName u e.1.2) = true := List.all_eq_true.2 hsafe
  have hstates : (servicesOf guest s).map (fun e => w.state e.1.2) ≠ [] := fun h => hne (List.map_eq_nil_iff.1 h)
  have hlines := lines_printLines hstates (fun x hx => by
    obtain ⟨e, -, rfl⟩ := List.mem_map.1 hx
    exact w.state_word e.1.2) error
  have hset : isSet (some (printLines ((servicesOf guest s).map fun e => w.state e.1.2))) = true := by
    obtain ⟨x, xs, hxs⟩ := List.exists_cons_of_ne_nil hstates
    rw [hxs, printLines_cons]
    simp [isSet]
  have hread : ∀ e ∈ (servicesOf guest s).zipIdx, (((servicesOf guest s).map fun e => w.state e.1.2)[e.2]?).elim "unknown".toList strip =
      w.state e.1.1.2 := by
    intro e he
    rw [List.getElem?_map, List.mem_zipIdx_iff_getElem?.1 he]
    exact strip_of_forall_not_space (w.state_word e.1.1.2).2
  unfold checked
  change (if (servicesOf guest s).all (fun e => safeUnitName u e.1.2) = false then [] else
    if (isSet error && !isSet (some (printLines ((servicesOf guest s).map fun e => w.state e.1.2)))) = true then [] else
      (servicesOf guest s).zipIdx.map fun e => (e.1, mapSystemctlStatus (((Output.lines _)[e.2]?).elim "unknown".toList strip))) = _
  rw [hall, if_neg (Ne.symm Bool.false_ne_true), hset, Bool.not_true, Bool.and_false, if_neg Bool.false_ne_true, hlines,
    List.map_congr_left fun e he => by rw [hread e he]]
  have hfst : (servicesOf guest s).zipIdx.map Prod.fst = servicesOf guest s := List.zipIdx_map_fst _ _
  conv_rhs => rw [← hfst, List.map_map]
  rfl

/-! ### When every service has its own line -/

/-- Names that are operands give one call with a line for each. -/
theorem checked_own (hne : servicesOf guest s ≠ []) (hsafe : ∀ e ∈ servicesOf guest s, safeUnitName u e.1.2 = true)
    (h : ∀ e ∈ servicesOf guest s, IsOperand e.1.2) : OwnStatuses u guest s := by
  intro w error
  have hlast : ∀ e ∈ servicesOf guest s, e.1.2.getLast? ≠ some '\n' := fun e he => (h e he).2.2
  have hfiles : ∀ e ∈ servicesOf guest s, expand w.files e.1.2 = [e.1.2] := fun e he => expand_of_not_mem (h e he).1 w.files
  have hnames : ∀ name ∈ (servicesOf guest s).map (fun e => e.1.2), isOption name = false ∧ isPattern name = false := by
    intro name hname
    obtain ⟨e, he, rfl⟩ := List.mem_map.1 hname
    exact ⟨(h e he).2.1, not_isPattern (safeUnitName_spec u (hsafe e he) (hlast e he)).2.2 (h e he).1⟩
  have hprints : w.prints (checkCommand guest s) = printLines ((servicesOf guest s).map fun e => w.state e.1.2) := by
    rw [prints_checkCommand u hsafe hlast hfiles, isActive_operands hnames, List.map_map]
    rfl
  refine ⟨programs_checkCommand u hsafe hlast hfiles, hprints, ?_⟩
  rw [hprints]
  exact checked_printLines u hne hsafe error

theorem word_of_all {t : Text} (hne : t ≠ []) (h : t.all (fun c => !isSpace c) = true) : t ≠ [] ∧ ∀ c ∈ t, isSpace c = false :=
  ⟨hne, fun c hc => by simpa using List.all_eq_true.1 h c hc⟩

/-- A host without files and units that match a pattern, on which a call with options prints nothing. -/
def bareHost : Systemd where
  files := []
  state _ := "active".toList
  state_word _ := word_of_all (by simp) rfl
  loaded _ := []
  withOptions _ := []
  other _ := []

theorem length_printLines_replicate (n : Nat) (t : Text) : (printLines (List.replicate n t)).length = n * (t.length + 1) := by
  induction n with
  | zero => simp [printLines]
  | succ n ih =>
    rw [List.replicate_succ, printLines_cons, List.length_append, List.length_cons, ih, Nat.succ_mul]
    omega

theorem isOperand_of_own (hsafe : ∀ e ∈ servicesOf guest s, safeUnitName u e.1.2 = true) (h : OwnStatuses u guest s) :
    ∀ e ∈ servicesOf guest s, IsOperand e.1.2 := by
  obtain ⟨hprograms, hprints, -⟩ := h bareHost none
  have hlast : ∀ e ∈ servicesOf guest s, e.1.2.getLast? ≠ some '\n' := by
    intro e he hnewline
    have hname : e.1.2 ∈ "systemctl".toList :: "is-active".toList :: (servicesOf guest s).map fun e => e.1.2 :=
      List.mem_cons_of_mem _ (List.mem_cons_of_mem _ (List.mem_map_of_mem he))
    exact not_mem_programs hprograms _ List.mem_cons_self e.1.2 hname (List.mem_of_getLast? hnewline)
  have hlines : ∀ names : List Text, printLines (names.map bareHost.state) = printLines (List.replicate names.length "active".toList) := by
    intro names
    rw [← List.map_const']
    rfl
  rw [prints_checkCommand u hsafe hlast fun e _ => expand_nil e.1.2] at hprints
  have hexpected : printLines ((servicesOf guest s).map fun e => bareHost.state e.1.2) =
      printLines (List.replicate (servicesOf guest s).length "active".toList) := by
    have hmap := hlines ((servicesOf guest s).map fun e => e.1.2)
    rwa [List.map_map, List.length_map] at hmap
  rw [hexpected] at hprints
  have hlength := congrArg List.length hprints
  have hsix : "active".toList.length = 6 := rfl
  rw [length_printLines_replicate, hsix] at hlength
  have hoption : ∀ e ∈ servicesOf guest s, isOption e.1.2 = false := by
    intro e he
    by_contra hopt
    have hany : ((servicesOf guest s).map fun e => e.1.2).any isOption = true :=
      List.any_eq_true.2 ⟨e.1.2, List.mem_map_of_mem he, (Bool.not_eq_false _).mp hopt⟩
    have hpositive := List.length_pos_of_mem he
    unfold Systemd.isActive at hlength
    rw [hany, if_pos rfl] at hlength
    have hzero : (bareHost.withOptions ((servicesOf guest s).map fun e => e.1.2)).length = 0 := rfl
    omega
  intro e he
  refine ⟨fun hstar => ?_, hoption e he, hlast e he⟩
  have hany : ((servicesOf guest s).map fun e => e.1.2).any isOption = false := by
    refine List.any_eq_false.2 fun name hname => ?_
    obtain ⟨e', he', rfl⟩ := List.mem_map.1 hname
    rw [hoption e' he']
    exact Bool.false_ne_true
  have hpattern : isPattern e.1.2 = true := List.any_eq_true.2 ⟨'*', hstar, rfl⟩
  have hfewer : (((servicesOf guest s).map fun e => e.1.2).filter fun a => !isPattern a).length < (servicesOf guest s).length := by
    have hleft : ¬(!isPattern e.1.2) = true := by
      rw [hpattern]
      exact Bool.false_ne_true
    have hname : e.1.2 ∈ (servicesOf guest s).map fun e => e.1.2 := List.mem_map_of_mem he
    have hlt : (((servicesOf guest s).map fun e => e.1.2).filter fun a => !isPattern a).length <
        ((servicesOf guest s).map fun e => e.1.2).length := List.length_filter_lt_length_iff_exists.2 ⟨e.1.2, hname, hleft⟩
    rwa [List.length_map] at hlt
  unfold Systemd.isActive at hlength
  have hnone : (((servicesOf guest s).map fun e => e.1.2).filter isPattern).flatMap bareHost.loaded = [] :=
    List.flatMap_eq_nil_iff.2 fun _ _ => rfl
  rw [hany, if_neg Bool.false_ne_true, hnone, List.append_nil, hlines, length_printLines_replicate, hsix] at hlength
  omega

/-- Every service has its own status on every host just if no name has a `*`, begins with `-` or ends with a newline. -/
theorem own_statuses_iff (hne : servicesOf guest s ≠ []) (hsafe : ∀ e ∈ servicesOf guest s, safeUnitName u e.1.2 = true) :
    OwnStatuses u guest s ↔ ∀ e ∈ servicesOf guest s, IsOperand e.1.2 :=
  ⟨isOperand_of_own u hsafe, checked_own u hne hsafe⟩

end

/-! ### Names that are not operands -/

/-- The services of a Mastodon guest as they are assigned by hand, Sidekiq with the pattern of its units. -/
def assignedServices : State where
  rows := [((1, "mastodon-sidekiq*.service".toList), ⟨"sidekiq".toList, .running⟩),
    ((1, "redis-server.service".toList), ⟨"redis".toList, .running⟩)]

/-- Two units of Sidekiq are active, and Redis has failed. -/
def mastodonHost : Systemd where
  files := []
  state unit := if unit = "redis-server.service".toList then "failed".toList else "active".toList
  state_word unit := by
    split_ifs
    · exact word_of_all (by simp) rfl
    · exact word_of_all (by simp) rfl
  loaded _ := ["mastodon-sidekiq1.service".toList, "mastodon-sidekiq2.service".toList]
  withOptions _ := []
  other _ := []

/-- Names that end with a newline; the text of the second one is a command. -/
def servicesWithNewline : State where
  rows := [((1, "a.service\n".toList), ⟨"a".toList, .running⟩), ((1, "reboot".toList), ⟨"b".toList, .running⟩)]

theorem sidekiq_shifts_redis :
    ((∀ e ∈ servicesOf 1 assignedServices, safeUnitName asciiWords e.1.2 = true) ∧ ¬OwnStatuses asciiWords 1 assignedServices ∧
      (checked asciiWords assignedServices.rows 1 ⟨some (mastodonHost.prints (checkCommand 1 assignedServices)), none⟩).map Prod.snd =
        [.failed, .running]) ∧
    (∀ e ∈ servicesOf 1 servicesWithNewline, safeUnitName asciiWords e.1.2 = true) ∧
      programs [] (checkCommand 1 servicesWithNewline) =
        some [["systemctl".toList, "is-active".toList, "a.service".toList], ["reboot".toList]] := by
  have hread : (checked asciiWords assignedServices.rows 1 ⟨some (mastodonHost.prints (checkCommand 1 assignedServices)), none⟩).map
      Prod.snd = [.failed, .running] := by decide +kernel
  refine ⟨⟨by decide, fun h => ?_, hread⟩, by decide, by decide +kernel⟩
  rw [(h mastodonHost none).2.2] at hread
  exact absurd hread (by decide +kernel)

theorem two_own_statuses : OwnStatuses asciiWords 1 twoServices := by
  have hsafe : ∀ e ∈ servicesOf 1 twoServices, safeUnitName asciiWords e.1.2 = true := by decide
  refine (own_statuses_iff asciiWords (by decide) hsafe).2 ?_
  unfold IsOperand
  decide

end ProxmoxTool.Services
