import ProxmoxTool.Lib.PosixRun
import ProxmoxTool.Ssh.SudoWrap

/-!
# Files written on a guest

`_remote_write_cmd` of `apps/utils.py`, and what a shell does with the command, alone or wrapped by `sudo_wrap`.  The content travels as
base64 and every word is quoted, so that nothing in them means anything to the shell; but `install` takes a path that begins with `-` for
options, and writes nothing (`remote_write_iff`).
-/

namespace ProxmoxTool

open Posix Utf8

/-- `if value`, for a text or `None`. -/
def given (t : Option Text) : Bool := t.any (· ≠ [])

/-- `_remote_write_cmd`. -/
def remoteWriteCmd (path content : Text) (mode owner group : Option Text) (append : Bool) : Text :=
  let b64 := Base64.encode (encode content)
  let target := quote path
  let pipe := "echo ".toList ++ b64 ++ " | base64 -d".toList
  if append then pipe ++ " >> ".toList ++ target
  else if given mode || given owner then
    let args := (if given mode then " -m ".toList ++ quote (mode.getD []) else []) ++
      (if given owner then " -o ".toList ++ quote (owner.getD []) ++ " -g ".toList ++
        quote (if given group then group.getD [] else owner.getD []) else [])
    pipe ++ " | install".toList ++ args ++ " /dev/stdin ".toList ++ target
  else pipe ++ " > ".toList ++ target

/-- What the host should hold afterwards: the bytes in the file of that path, or behind those there, as far as the host lets it. -/
def delivered (root : Bool) (h : Host) (path content : Text) (mode owner group : Option Text) (append : Bool) : Host :=
  if append then if h.writable root path then h.write path ((h.files path).getD [] ++ encode content) else h
  else if given mode || given owner then
    if h.writable root path && h.grants root (mode.filter (· ≠ [])) (owner.filter (· ≠ []))
        (if given owner then (if given group then group else owner) else none) then
      h.write path (encode content)
    else h
  else if h.writable root path then h.write path (encode content) else h

/-! ### The tokens -/

/-- The words in front of the pipe; an empty text is no word. -/
def echoWords (b64 : Text) : List Word := unquoted "echo".toList :: (if b64 = [] then [] else [unquoted b64])

theorem isOrdinary_of_isChar {c : Char} (h : Base64.isChar c = true) : isOrdinary c = true := by
  simp only [Base64.isChar, Bool.or_eq_true, decide_eq_true_eq] at h
  rcases h with ((h | rfl) | rfl) | rfl
  · exact isOrdinary_of_isSafe (by simp [isSafe, h])
  · decide
  · decide
  · decide

theorem run_pipe (bs : Bytes) :
    run {} ("echo ".toList ++ Base64.encode bs ++ " | base64 -d".toList) =
      some ⟨.plain, some (unquoted "-d".toList), (echoWords (Base64.encode bs)).map .word ++ [.op .pipe, .word (unquoted "base64".toList)]⟩ := by
  have hecho : run {} "echo ".toList = some ⟨.plain, none, [.word (unquoted "echo".toList)]⟩ := by decide
  rw [List.append_assoc, run_append_of hecho, echoWords]
  by_cases hnil : Base64.encode bs = []
  · rw [hnil]
    rfl
  · have hall : (Base64.encode bs).all isOrdinary = true :=
      List.all_eq_true.2 fun c hc => isOrdinary_of_isChar (List.all_eq_true.1 (Base64.all_isChar_encode bs) c hc)
    rw [run_append_of (run_ordinary_start hall hnil _), if_neg hnil]
    rfl

/-- The options of `install`, with their values. -/
def options (mode owner group : Option Text) : List (Text × Text) :=
  (if given mode then [("-m".toList, mode.getD [])] else []) ++
    (if given owner then [("-o".toList, owner.getD []), ("-g".toList, if given group then group.getD [] else owner.getD [])] else [])

def optionText (o : Text × Text) : Text := ' ' :: (o.1 ++ ' ' :: quote o.2)

def optionWords (o : Text × Text) : List Word := [unquoted o.1, quotedWord o.2]

theorem run_options {os : List (Text × Text)} (hos : ∀ o ∈ os, o.1 ≠ [] ∧ o.1.all isOrdinary = true) (w : Word) (ts : List Token) :
    ∃ w' ts', run ⟨.plain, some w, ts⟩ (os.flatMap optionText) = some ⟨.plain, some w', ts'⟩ ∧
      ts' ++ [.word w'] = ts ++ .word w :: (os.flatMap optionWords).map .word := by
  induction os generalizing w ts with
  | nil => exact ⟨w, ts, rfl, rfl⟩
  | cons o os ih =>
    obtain ⟨hne, hall⟩ := hos o List.mem_cons_self
    have hblank : step ⟨.plain, some w, ts⟩ ' ' = some ⟨.plain, none, ts ++ [.word w]⟩ := rfl
    have hname := run_ordinary_start hall hne (ts ++ [.word w])
    have hblank' : step ⟨.plain, some (unquoted o.1), ts ++ [.word w]⟩ ' ' = some ⟨.plain, none, ts ++ [.word w] ++ [.word (unquoted o.1)]⟩ := rfl
    have hvalue := run_quote o.2 (ts ++ [.word w] ++ [.word (unquoted o.1)])
    obtain ⟨w', ts', hrun, htokens⟩ := ih (fun o' ho' => hos o' (List.mem_cons_of_mem _ ho')) (quotedWord o.2)
      (ts ++ [.word w] ++ [.word (unquoted o.1)])
    refine ⟨w', ts', ?_, ?_⟩
    · rw [List.flatMap_cons, optionText, List.cons_append, run_cons_of hblank, List.append_assoc, run_append_of hname, List.cons_append,
        run_cons_of hblank', run_append_of hvalue, hrun]
    · rw [htokens]
      simp [optionWords]

/-- The tokens of a command that ends with a word in quotes. -/
theorem lex_append_quote {t : Text} {ts : List Token} (hrun : run {} t = some ⟨.plain, none, ts⟩) {path : Text}
    (hnul : '\x00' ∉ t ++ quote path) : lex (t ++ quote path) = some (ts ++ [.word (quotedWord path)]) := by
  rw [lex, if_neg hnul, run_append_of hrun, run_quote, Option.bind_some]
  rfl

theorem remoteWriteCmd_eq (path content : Text) (mode owner group : Option Text) (append : Bool) :
    remoteWriteCmd path content mode owner group append =
      "echo ".toList ++ Base64.encode (encode content) ++ " | base64 -d".toList ++
        (if append then " >> ".toList
        else if given mode || given owner then
          " | install".toList ++ (options mode owner group).flatMap optionText ++ " /dev/stdin ".toList
        else " > ".toList) ++ quote path := by
  unfold remoteWriteCmd options
  dsimp only
  split_ifs <;> simp [optionText]

/-- The tokens of each of the three forms. -/
def endTokens (path : Text) (mode owner group : Option Text) (append : Bool) : List Token :=
  (if append then [.op .dgreat]
  else if given mode || given owner then
    .op .pipe :: (unquoted "install".toList :: ((options mode owner group).flatMap optionWords ++ [unquoted "/dev/stdin".toList])).map .word
  else [.op .great]) ++ [.word (quotedWord path)]

theorem options_name {mode owner group : Option Text} {o : Text × Text} (ho : o ∈ options mode owner group) :
    o.1 ∈ ["-m", "-o", "-g"].map String.toList := by
  unfold options at ho
  rw [List.mem_append] at ho
  rcases ho with ho | ho
  · by_cases hmode : given mode = true
    · rw [if_pos hmode, List.mem_singleton] at ho
      simp [ho]
    · simp [hmode] at ho
  · by_cases howner : given owner = true
    · rw [if_pos howner, List.mem_cons, List.mem_singleton] at ho
      rcases ho with rfl | rfl <;> simp
    · simp [howner] at ho

theorem options_ordinary (mode owner group : Option Text) :
    ∀ o ∈ options mode owner group, o.1 ≠ [] ∧ o.1.all isOrdinary = true :=
  fun o ho => (by decide : ∀ name ∈ ["-m", "-o", "-g"].map String.toList, name ≠ [] ∧ name.all isOrdinary = true) o.1 (options_name ho)

theorem lex_remoteWriteCmd {path content : Text} {mode owner group : Option Text} {append : Bool}
    (hnul : '\x00' ∉ remoteWriteCmd path content mode owner group append) :
    lex (remoteWriteCmd path content mode owner group append) =
      some ((echoWords (Base64.encode (encode content))).map .word ++
        ([.op .pipe, .word (unquoted "base64".toList), .word (unquoted "-d".toList)] ++ endTokens path mode owner group append)) := by
  have hpipe := run_pipe (encode content)
  generalize (echoWords (Base64.encode (encode content))).map Token.word = ts at hpipe ⊢
  rw [remoteWriteCmd_eq] at hnul ⊢
  unfold endTokens
  split_ifs at hnul ⊢ with happend hinstall
  · have hend : run ⟨.plain, some (unquoted "-d".toList), ts ++ [.op .pipe, .word (unquoted "base64".toList)]⟩ " >> ".toList =
        some ⟨.plain, none, ts ++ [.op .pipe, .word (unquoted "base64".toList)] ++ [.word (unquoted "-d".toList)] ++ [.op .dgreat]⟩ := rfl
    rw [lex_append_quote ((run_append_of hpipe _).trans hend) hnul]
    simp
  · have hname : run ⟨.plain, some (unquoted "-d".toList), ts ++ [.op .pipe, .word (unquoted "base64".toList)]⟩ " | install".toList =
        some ⟨.plain, some (unquoted "install".toList),
          ts ++ [.op .pipe, .word (unquoted "base64".toList)] ++ [.word (unquoted "-d".toList)] ++ [.op .pipe]⟩ := rfl
    obtain ⟨w, ts', hoptions, htokens⟩ := run_options (options_ordinary mode owner group) (unquoted "install".toList)
      (ts ++ [.op .pipe, .word (unquoted "base64".toList)] ++ [.word (unquoted "-d".toList)] ++ [.op .pipe])
    have hsource : run ⟨.plain, some w, ts'⟩ " /dev/stdin ".toList =
        some ⟨.plain, none, ts' ++ [.word w] ++ [.word (unquoted "/dev/stdin".toList)]⟩ := rfl
    have hfront : run {} ("echo ".toList ++ Base64.encode (encode content) ++ " | base64 -d".toList ++
        (" | install".toList ++ (options mode owner group).flatMap optionText ++ " /dev/stdin ".toList)) =
        some ⟨.plain, none, ts' ++ [.word w] ++ [.word (unquoted "/dev/stdin".toList)]⟩ := by
      rw [run_append_of hpipe, List.append_assoc, run_append_of hname, run_append_of hoptions, hsource]
    rw [lex_append_quote hfront hnul, htokens]
    simp
  · have hend : run ⟨.plain, some (unquoted "-d".toList), ts ++ [.op .pipe, .word (unquoted "base64".toList)]⟩ " > ".toList =
        some ⟨.plain, none, ts ++ [.op .pipe, .word (unquoted "base64".toList)] ++ [.word (unquoted "-d".toList)] ++ [.op .great]⟩ := rfl
    rw [lex_append_quote ((run_append_of hpipe _).trans hend) hnul]
    simp

/-- The commands that a shell reads. -/
def commands (path content : Text) (mode owner group : Option Text) (append : Bool) : List Simple :=
  { words := echoWords (Base64.encode (encode content)) } ::
    if append then [{ words := ["base64", "-d"].map (unquoted ·.toList), redirects := [(.dgreat, quotedWord path)] }]
    else if given mode || given owner then
      [{ words := ["base64", "-d"].map (unquoted ·.toList) },
        { words := unquoted "install".toList ::
            ((options mode owner group).flatMap optionWords ++ [unquoted "/dev/stdin".toList] ++ [quotedWord path]) }]
    else [{ words := ["base64", "-d"].map (unquoted ·.toList), redirects := [(.great, quotedWord path)] }]

theorem foldlM_echoWords (b64 : Text) (ts : List Token) :
    ((echoWords b64).map Token.word ++ ts).foldlM parseStep {} = ts.foldlM parseStep { cur := { words := echoWords b64 } } := by
  unfold echoWords
  split_ifs
  · rfl
  · rfl

theorem parse_remoteWriteCmd {path content : Text} {mode owner group : Option Text} {append : Bool}
    (hnul : '\x00' ∉ remoteWriteCmd path content mode owner group append) :
    (parse (remoteWriteCmd path content mode owner group append)).bind pipelineOf =
      some (commands path content mode owner group append) := by
  rw [parse, lex_remoteWriteCmd hnul, Option.bind_some, foldlM_echoWords, commands, endTokens]
  generalize Base64.encode (encode content) = b64
  have hdecode : [.op .pipe, .word (unquoted "base64".toList), .word (unquoted "-d".toList)].foldlM parseStep
      { cur := { words := echoWords b64 } } =
      some ⟨[({ words := echoWords b64 }, .pipe)], { words := ["base64", "-d"].map (unquoted ·.toList) }, none⟩ := rfl
  rw [List.foldlM_append, hdecode]
  split_ifs
  · rfl
  · have hinstall : [.op .pipe, .word (unquoted "install".toList)].foldlM parseStep
        ⟨[({ words := echoWords b64 }, .pipe)], { words := ["base64", "-d"].map (unquoted ·.toList) }, none⟩ =
        some ⟨[({ words := echoWords b64 }, .pipe), ({ words := ["base64", "-d"].map (unquoted ·.toList) }, .pipe)],
          { words := [unquoted "install".toList] }, none⟩ := rfl
    have hwords := foldlM_words ((options mode owner group).flatMap optionWords ++ [unquoted "/dev/stdin".toList] ++ [quotedWord path])
      [unquoted "install".toList]
      ⟨[({ words := echoWords b64 }, .pipe), ({ words := ["base64", "-d"].map (unquoted ·.toList) }, .pipe)],
        { words := [unquoted "install".toList] }, none⟩ rfl rfl (by simp)
    have htokens : Token.op Op.pipe :: (unquoted "install".toList :: ((options mode owner group).flatMap optionWords ++
        [unquoted "/dev/stdin".toList])).map Token.word ++ [.word (quotedWord path)] =
        [.op .pipe, .word (unquoted "install".toList)] ++
          ((options mode owner group).flatMap optionWords ++ [unquoted "/dev/stdin".toList] ++ [quotedWord path]).map .word := by
      simp
    change (Option.bind (List.foldlM parseStep _ _) Parser.finish).bind pipelineOf = _
    rw [htokens, List.foldlM_append, hinstall]
    change (Option.bind (List.foldlM parseStep _ _) Parser.finish).bind pipelineOf = _
    rw [hwords]
    rfl
  · rfl

/-! ### The run -/

def echoArgs (b64 : Text) : List Text := if b64 = [] then [] else [b64]

theorem isInert_of_isChar {c : Char} (h : Base64.isChar c = true) : isInert c = true := by
  simp only [Base64.isChar, Bool.or_eq_true, decide_eq_true_eq] at h
  rcases h with ((h | rfl) | rfl) | rfl
  · exact isInert_of_isSafe (by simp [isSafe, h])
  · decide
  · decide
  · decide

theorem argv_echoWords (bs : Bytes) :
    (echoWords (Base64.encode bs)).mapM Word.literal = some ("echo".toList :: echoArgs (Base64.encode bs)) := by
  have hinert : (Base64.encode bs).all isInert = true :=
    List.all_eq_true.2 fun c hc => isInert_of_isChar (List.all_eq_true.1 (Base64.all_isChar_encode bs) c hc)
  unfold echoWords echoArgs
  rw [List.mapM_cons, show (unquoted "echo".toList).literal = some "echo".toList from rfl]
  split_ifs
  · rfl
  · rw [List.mapM_cons, literal_unquoted hinert]
    rfl

/-- The bytes come out of `base64 -d` as they went in. -/
theorem base64Decode_echo (bs : Bytes) : base64Decode (echo (echoArgs (Base64.encode bs))) = some bs := by
  have hecho : echo (echoArgs (Base64.encode bs)) = encode (Base64.encode bs ++ ['\n']) := by
    unfold echo echoArgs
    by_cases hnil : Base64.encode bs = []
    · rw [if_pos hnil, hnil]
      rfl
    · rw [if_neg hnil, joinText, List.intercalate_singleton]
  rw [base64Decode, hecho, decodeReplace_encode, List.filter_append, filter_encode, show ['\n'].filter (· ≠ '\n') = [] from rfl, List.append_nil,
    Base64.decode_encode]

def optionArgs (o : Text × Text) : List Text := [o.1, o.2]

theorem argv_options {os : List (Text × Text)} (hos : ∀ o ∈ os, o.1.all isInert = true) :
    (os.flatMap optionWords).mapM Word.literal = some (os.flatMap optionArgs) := by
  induction os with
  | nil => rfl
  | cons o os ih =>
    have hhead : (optionWords o).mapM Word.literal = some (optionArgs o) := by
      rw [optionWords, List.mapM_cons, literal_unquoted (hos o List.mem_cons_self), List.mapM_cons, literal_quotedWord]
      rfl
    rw [List.flatMap_cons, List.mapM_append, hhead, ih fun o' ho' => hos o' (List.mem_cons_of_mem _ ho')]
    rfl

theorem filter_of_given {t : Option Text} (h : given t = true) : t.filter (· ≠ []) = some (t.getD []) := by
  cases t with
  | none => cases h
  | some t => simpa [given] using h

theorem filter_of_not_given {t : Option Text} (h : ¬ given t = true) : t.filter (· ≠ []) = none := by
  cases t with
  | none => rfl
  | some t => simpa [given] using h

/-- Two operands; a path that is taken for options is none. -/
theorem installArgs_operands (a : InstallArgs) (ha : a.operands = []) (path : Text) :
    installArgs a ["/dev/stdin".toList, path] =
      if isOption path then none else some { a with operands := ["/dev/stdin".toList, path] } := by
  rw [installArgs, if_neg (by decide), if_neg (by decide), if_neg (by decide), if_neg (by decide), installArgs, ha]
  rfl

theorem installArgs_options (mode owner group : Option Text) (path : Text) :
    installArgs {} ((options mode owner group).flatMap optionArgs ++ ["/dev/stdin".toList, path]) =
      if isOption path then none
      else some ⟨mode.filter (· ≠ []), owner.filter (· ≠ []), if given owner then (if given group then group else owner) else none,
        ["/dev/stdin".toList, path]⟩ := by
  have hvalue : ∀ {t : Option Text}, given t = true → some (t.getD []) = t := by
    intro t ht
    cases t with
    | none => cases ht
    | some t => rfl
  have hm : ∀ (a : InstallArgs) (v : Text) rest, installArgs a ("-m".toList :: v :: rest) = installArgs { a with mode := some v } rest :=
    fun a v rest => rfl
  have ho : ∀ (a : InstallArgs) (v : Text) rest, installArgs a ("-o".toList :: v :: rest) = installArgs { a with owner := some v } rest :=
    fun a v rest => rfl
  have hg : ∀ (a : InstallArgs) (v : Text) rest, installArgs a ("-g".toList :: v :: rest) = installArgs { a with group := some v } rest :=
    fun a v rest => rfl
  unfold options
  by_cases hmode : given mode = true <;> by_cases howner : given owner = true
  · rw [if_pos hmode, if_pos howner, if_pos howner, filter_of_given hmode, filter_of_given howner]
    change installArgs {} ("-m".toList :: _ :: "-o".toList :: _ :: "-g".toList :: _ :: ["/dev/stdin".toList, path]) = _
    rw [hm, ho, hg, installArgs_operands _ rfl]
    split_ifs with hoption hgroup
    · rfl
    · dsimp only
      rw [hvalue hgroup]
    · dsimp only
      rw [hvalue howner]
  · rw [if_pos hmode, if_neg howner, if_neg howner, filter_of_given hmode, filter_of_not_given howner]
    change installArgs {} ("-m".toList :: _ :: ["/dev/stdin".toList, path]) = _
    rw [hm, installArgs_operands _ rfl]
  · rw [if_neg hmode, if_pos howner, if_pos howner, filter_of_not_given hmode, filter_of_given howner]
    change installArgs {} ("-o".toList :: _ :: "-g".toList :: _ :: ["/dev/stdin".toList, path]) = _
    rw [ho, hg, installArgs_operands _ rfl]
    split_ifs with hoption hgroup
    · rfl
    · dsimp only
      rw [hvalue hgroup]
    · dsimp only
      rw [hvalue howner]
  · rw [if_neg hmode, if_neg howner, if_neg howner, filter_of_not_given hmode, filter_of_not_given howner]
    exact installArgs_operands {} rfl path

theorem options_inert (mode owner group : Option Text) : ∀ o ∈ options mode owner group, o.1.all isInert = true :=
  fun o ho => (by decide : ∀ name ∈ ["-m", "-o", "-g"].map String.toList, name.all isInert = true) o.1 (options_name ho)

/-- The first command hands on the content in base64. -/
theorem runPipeline_echo (n : Nat) (root : Bool) (s : Simple) (ss : List Simple) (h : Host) (input bs : Bytes) :
    runPipeline (exec (n + 1)) root ({ words := echoWords (Base64.encode bs) } :: s :: ss) h input =
      runPipeline (exec (n + 1)) root (s :: ss) h (echo (echoArgs (Base64.encode bs))) := by
  rw [runPipeline_cons, runSimple_words root h input (argv_echoWords bs), exec_echo]

/-- The file that a path names is written, unless `install` takes the path for options. -/
theorem shell_remoteWriteCmd {path content : Text} {mode owner group : Option Text} {append : Bool}
    (hnul : '\x00' ∉ remoteWriteCmd path content mode owner group append) (n : Nat) (root : Bool) (h : Host) (input : Bytes) :
    (shell (n + 1) root (remoteWriteCmd path content mode owner group append) h input).host =
      if !append && (given mode || given owner) && isOption path then h else delivered root h path content mode owner group append := by
  have hargv : (["base64", "-d"].map (unquoted ·.toList)).mapM Word.literal = some ["base64".toList, "-d".toList] := rfl
  have hdecoded := exec_base64 n root h _ (base64Decode_echo (encode content))
  have hredirect := fun (o : Op) => runSimple_redirect root h (echo (echoArgs (Base64.encode (encode content)))) hargv
    (literal_quotedWord path) (congrArg Result.host hdecoded) (o := o)
  rw [shell, runText, parse_remoteWriteCmd hnul]
  change (runPipeline _ _ _ _ _).host = _
  unfold commands delivered
  by_cases happend : append = true
  · rw [if_pos happend, runPipeline_echo, if_neg (by simp [happend]), if_pos happend]
    refine (hredirect .dgreat (Or.inr rfl)).trans ?_
    rw [hdecoded]
    rfl
  · by_cases hinstall : (given mode || given owner) = true
    · have hwords : (unquoted "install".toList :: ((options mode owner group).flatMap optionWords ++ [unquoted "/dev/stdin".toList] ++
          [quotedWord path])).mapM Word.literal =
          some ("install".toList :: ((options mode owner group).flatMap optionArgs ++ ["/dev/stdin".toList, path])) := by
        have hname : (unquoted "install".toList).literal = some "install".toList := rfl
        have hsource : [unquoted "/dev/stdin".toList].mapM Word.literal = some ["/dev/stdin".toList] := rfl
        have htarget : [quotedWord path].mapM Word.literal = some [path] := by
          rw [List.mapM_cons, literal_quotedWord]
          rfl
        rw [List.mapM_cons, hname, List.mapM_append, List.mapM_append, argv_options (options_inert mode owner group), hsource, htarget]
        exact congrArg some (congrArg _ (List.append_assoc _ _ _))
      rw [if_neg happend, if_pos hinstall, runPipeline_echo, runPipeline_cons, runSimple_words root h _ hargv, hdecoded, runPipeline,
        runSimple_words root h _ hwords, exec_install, install, installArgs_options, if_neg happend, if_pos hinstall]
      by_cases hoption : isOption path = true
      · rw [if_pos hoption, if_pos (by simp [happend, hinstall, hoption])]
        rfl
      · have htaken : ¬ (!append && (given mode || given owner) && isOption path) = true := by
          simp [hoption]
        rw [if_neg hoption, if_neg htaken]
        exact apply_ite Result.host _ _ _
    · rw [if_neg happend, if_neg hinstall, runPipeline_echo, if_neg (by simp [hinstall]), if_neg happend, if_neg hinstall]
      refine (hredirect .great (Or.inl rfl)).trans ?_
      rw [hdecoded]
      rfl

/-! ### Under `sudo` -/

theorem getD_not_mem {t : Option Text} (h : ∀ u ∈ t, '\x00' ∉ u) : '\x00' ∉ t.getD [] := by
  cases t with
  | none => exact List.not_mem_nil
  | some u => exact h u rfl

/-- No NUL comes into the command but with a word. -/
theorem not_mem_remoteWriteCmd {path : Text} (content : Text) {mode owner group : Option Text} (append : Bool) (hpath : '\x00' ∉ path)
    (hmode : ∀ t ∈ mode, '\x00' ∉ t) (howner : ∀ t ∈ owner, '\x00' ∉ t) (hgroup : ∀ t ∈ group, '\x00' ∉ t) :
    '\x00' ∉ remoteWriteCmd path content mode owner group append := by
  have hquote : ∀ {t : Text}, '\x00' ∉ t → '\x00' ∉ quote t := not_mem_quote (by decide)
  have hbase64 : '\x00' ∉ Base64.encode (encode content) := fun hmem =>
    absurd (List.all_eq_true.1 (Base64.all_isChar_encode (encode content)) _ hmem) (by decide)
  have hvalue : ∀ o ∈ options mode owner group, '\x00' ∉ o.2 := by
    intro o ho
    unfold options at ho
    rw [List.mem_append] at ho
    rcases ho with ho | ho
    · split_ifs at ho
      · rw [List.mem_singleton.1 ho]
        exact getD_not_mem hmode
      · cases ho
    · split_ifs at ho
      · rw [List.mem_cons, List.mem_singleton] at ho
        rcases ho with rfl | rfl
        · exact getD_not_mem howner
        · exact getD_not_mem hgroup
      · rw [List.mem_cons, List.mem_singleton] at ho
        rcases ho with rfl | rfl <;> exact getD_not_mem howner
      · cases ho
  have hoptions : '\x00' ∉ (options mode owner group).flatMap optionText := by
    intro hmem
    obtain ⟨o, ho, hmem⟩ := List.mem_flatMap.1 hmem
    have hname : '\x00' ∉ o.1 :=
      (by decide : ∀ name ∈ ["-m", "-o", "-g"].map String.toList, '\x00' ∉ name) o.1 (options_name ho)
    simp [optionText, hname, hquote (hvalue o ho)] at hmem
  rw [remoteWriteCmd_eq]
  split_ifs
  · simp [hbase64, hquote hpath]
  · simp [hbase64, hquote hpath, hoptions]
  · simp [hbase64, hquote hpath]

/-- Under `sudo` the command runs as root, if the host lets the user. -/
theorem shell_sudoWrap {username : Text} (huser : Ssh.needsSudo username = true) (sudoPassword : Option Text) {command : Text}
    (hnul : '\x00' ∉ command) (n : Nat) (h : Host) (input : Bytes) :
    ∃ input', shell (n + 2) false (Ssh.sudoWrap username sudoPassword command) h input =
      if h.sudoer then shell n true command h input' else refused h := by
  obtain ⟨s, hparse, hassign, hredirects, hargv⟩ := Ssh.parse_sudoWrap huser sudoPassword hnul
  have hrun : shell (n + 2) false (Ssh.sudoWrap username sudoPassword command) h input =
      exec (n + 2) false (Ssh.sudoWords sudoPassword ++ ["sh".toList, "-c".toList, command]) h input := by
    rw [shell, runText, hparse]
    change runSimple _ _ s _ _ = _
    rw [runSimple, hassign, hredirects, hargv]
  by_cases hpassword : sudoPassword.any (· ≠ []) = true
  · have hargs : sudoArgs false ["-S".toList, "-p".toList, [], "sh".toList, "-c".toList, command] =
        some (true, ["sh".toList, "-c".toList, command]) := rfl
    refine ⟨(input.dropWhile (· ≠ 10)).tail, ?_⟩
    rw [hrun, Ssh.sudoWords, if_pos hpassword]
    refine (exec_sudo (n + 1) false h input hargs).trans ?_
    rw [Bool.or_false, if_pos rfl, exec_sh]
  · have hargs : sudoArgs false ["-n".toList, "sh".toList, "-c".toList, command] =
        some (false, ["sh".toList, "-c".toList, command]) := rfl
    refine ⟨input, ?_⟩
    rw [hrun, Ssh.sudoWords, if_neg hpassword]
    refine (exec_sudo (n + 1) false h input hargs).trans ?_
    rw [Bool.or_false, if_neg Bool.false_ne_true, exec_sh]

/-! ### What is written -/

/-- The bytes of the content come to the file of that path and to no other, as far as the host lets them, alone and under `sudo`. -/
def Delivers (username : Text) (sudoPassword : Option Text) (path content : Text) (mode owner group : Option Text) (append : Bool) : Prop :=
  let cmd := remoteWriteCmd path content mode owner group append
  ∀ (n : Nat) (root : Bool) (h : Host) (input : Bytes),
    (shell (n + 1) root cmd h input).host = delivered root h path content mode owner group append ∧
      (shell (n + 3) (!Ssh.needsSudo username) (Ssh.sudoWrap username sudoPassword cmd) h input).host =
        if Ssh.needsSudo username && !h.sudoer then h else delivered true h path content mode owner group append

/-- A host without files, which lets everything be done. -/
def emptyHost : Host := ⟨fun _ => none, fun _ _ => true, fun _ _ _ _ => true, true⟩

theorem delivers_of_word (username : Text) (sudoPassword : Option Text) {path content : Text} {mode owner group : Option Text}
    {append : Bool} (hnul : '\x00' ∉ remoteWriteCmd path content mode owner group append)
    (hword : append = true ∨ (given mode || given owner) = false ∨ isOption path = false) :
    Delivers username sudoPassword path content mode owner group append := by
  have htaken : ¬ (!append && (given mode || given owner) && isOption path) = true := by
    rcases hword with h | h | h <;> simp [h]
  have halone : ∀ (n : Nat) (root : Bool) (h : Host) (input : Bytes),
      (shell (n + 1) root (remoteWriteCmd path content mode owner group append) h input).host =
        delivered root h path content mode owner group append := by
    intro n root h input
    rw [shell_remoteWriteCmd hnul, if_neg htaken]
  intro n root h input
  refine ⟨halone n root h input, ?_⟩
  cases huser : Ssh.needsSudo username
  · rw [Ssh.sudoWrap, huser, Bool.false_and, if_neg Bool.false_ne_true]
    exact halone (n + 2) true h input
  · obtain ⟨input', hshell⟩ := shell_sudoWrap huser sudoPassword hnul (n + 1) h input
    rw [Bool.not_true, hshell]
    cases h.sudoer
    · rfl
    · exact halone n true h input'

/-- `sudo_wrap` hands every command to `sh -c` as it is; the content comes to the file exactly if `install` is not used or takes the path
for an operand. -/
theorem remote_write_iff (username : Text) (sudoPassword : Option Text) (command path content : Text) (mode owner group : Option Text)
    (append : Bool) (hcommand : '\x00' ∉ command) (hpath : '\x00' ∉ path) (hmode : ∀ t ∈ mode, '\x00' ∉ t)
    (howner : ∀ t ∈ owner, '\x00' ∉ t) (hgroup : ∀ t ∈ group, '\x00' ∉ t) :
    (Ssh.needsSudo username = true →
      ∃ s front, parse (Ssh.sudoWrap username sudoPassword command) = some [(s, .semi)] ∧ s.assignments = [] ∧ s.redirects = [] ∧
        s.argv = some (front ++ ["sh".toList, "-c".toList, command])) ∧
    (Delivers username sudoPassword path content mode owner group append ↔
      append = true ∨ (given mode || given owner) = false ∨ isOption path = false) := by
  have hnul := not_mem_remoteWriteCmd content append hpath hmode howner hgroup
  refine ⟨fun huser => ?_, fun hdelivers => ?_, delivers_of_word username sudoPassword hnul⟩
  · obtain ⟨s, hparse, hassign, hredirects, hargv⟩ := Ssh.parse_sudoWrap huser sudoPassword hcommand
    exact ⟨s, _, hparse, hassign, hredirects, hargv⟩
  · by_contra hword
    rw [not_or, not_or, Bool.not_eq_true, Bool.not_eq_false, Bool.not_eq_false] at hword
    obtain ⟨happend, hinstall, hoption⟩ := hword
    have hrun := (hdelivers 0 true emptyHost []).1
    have htaken : (!append && (given mode || given owner) && isOption path) = true := by
      rw [happend, hinstall, hoption]
      rfl
    rw [shell_remoteWriteCmd hnul, if_pos htaken, delivered, if_neg (by simp [happend]), if_pos hinstall] at hrun
    have hfile := congrFun (congrArg Host.files hrun) path
    simp [emptyHost, Host.write] at hfile

/-- A file with a quote and a newline in its name. -/
theorem remote_write_of_quote : Delivers "deploy".toList (some "secret".toList) "/etc/it's\n$HOME".toList "a\\b".toList (some "600".toList)
    (some "root".toList) none false :=
  (remote_write_iff "deploy".toList (some "secret".toList) "id".toList "/etc/it's\n$HOME".toList "a\\b".toList (some "600".toList)
    (some "root".toList) none false (by decide) (by decide) (by decide) (by decide) (by decide)).2.2 (Or.inr (Or.inr (by decide)))

/-- `install -m 600 /dev/stdin -x` has an option too many and no target. -/
theorem option_not_written : ¬ ∀ (username : Text) (sudoPassword : Option Text) (path content : Text) (mode owner group : Option Text)
    (append : Bool), '\x00' ∉ path → (∀ t ∈ mode, '\x00' ∉ t) → (∀ t ∈ owner, '\x00' ∉ t) → (∀ t ∈ group, '\x00' ∉ t) →
    Delivers username sudoPassword path content mode owner group append := by
  intro hall
  have hrun := (hall "root".toList none "-x".toList "a".toList (some "600".toList) none none false (by decide) (by decide) (by decide)
    (by decide) 0 true emptyHost []).1
  have hfile := congrFun (congrArg Host.files hrun) "-x".toList
  revert hfile
  decide

end ProxmoxTool
