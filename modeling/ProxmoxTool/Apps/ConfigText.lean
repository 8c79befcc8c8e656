import ProxmoxTool.Lib.EnvFile
import ProxmoxTool.Lib.Fields
import ProxmoxTool.Lib.Toml
import ProxmoxTool.Lib.Yaml

/-!
# Values in remote config files

`_yaml_single_quote`, `_toml_escape` and `_render_env_file`, and how YAML, TOML and systemd read what they write.

The first two leave control characters as they are, which the formats do not allow, and version 1.1 of YAML has ends of lines that the first one
does not know.  The third one takes a name with a newline behind it, since `$` matches there, and a value with a noncharacter, with which systemd
does not load the file.  All other values come back unchanged (`encoders_iff`).
-/

namespace ProxmoxTool.ConfigText

/-- `t.replace(c, new)`. -/
def replaceChar (c : Char) (new t : Text) : Text := t.flatMap fun d => if d = c then new else [d]

/-- The text of a value in one line: without CR, and with blanks for LF. -/
def oneLine (value : Text) : Text := replaceChar '\n' [' '] (replaceChar '\r' [] value)

/-- `_yaml_single_quote`. -/
def yamlSingleQuote (value : Text) : Text := '\'' :: (replaceChar '\'' ['\'', '\''] (oneLine value) ++ ['\''])

/-- `_toml_escape`. -/
def tomlEscape (value : Text) : Text :=
  let text := replaceChar '"' ['\\', '"'] (replaceChar '\\' ['\\', '\\'] value)
  replaceChar '\t' ['\\', 't'] (replaceChar '\n' ['\\', 'n'] (replaceChar '\r' ['\\', 'r'] text))

/-- `_ENV_KEY_RE.match`; `$` matches in front of a newline at the end, too. -/
def envKeyMatches (key : Text) : Bool := EnvFile.isName (if key.getLast? = some '\n' then key.dropLast else key)

/-- `_CONTROL_CHAR_RE`. -/
def isControlChar (c : Char) : Bool := c.toNat < 32 || c.toNat = 127

/-- `_render_env_file`, of the keys and values as `str` gives them; `none` if it raises. -/
def renderEnvFile (config : Dict Text Text) : Option Text :=
  if config.all fun e => envKeyMatches e.1 && !e.2.any isControlChar then
    some (joinText ['\n'] (config.map fun e => e.1 ++ '=' :: Posix.quote e.2) ++ ['\n'])
  else none

/-! ### YAML -/

theorem mem_replaceChar {c d : Char} {new t : Text} (h : d ∈ replaceChar c new t) : d ∈ new ∨ d ≠ c ∧ d ∈ t := by
  obtain ⟨e, he, hd⟩ := List.mem_flatMap.1 h
  split_ifs at hd with heq
  · exact .inl hd
  · rw [List.mem_singleton.1 hd]
    exact .inr ⟨heq, he⟩

theorem oneLine_plain (value : Text) : ∀ c ∈ oneLine value, c ≠ '\n' ∧ c ≠ '\r' := by
  intro c hc
  rcases mem_replaceChar hc with hblank | ⟨hne, hc⟩
  · rw [List.mem_singleton.1 hblank]
    decide
  · rcases mem_replaceChar hc with hnil | ⟨hcr, -⟩
    · cases hnil
    · exact ⟨hne, hcr⟩

theorem parseSingle_yamlSingleQuote_iff (v : Yaml.Version) (value : Text) :
    Yaml.parseSingle v (yamlSingleQuote value) = some (oneLine value) ↔ Yaml.Kept v (oneLine value) :=
  Yaml.parseSingle_double_iff (oneLine_plain value)

/-! ### TOML -/

/-- What `_toml_escape` makes of a character. -/
def tomlPiece (c : Char) : Text :=
  if c = '\\' then ['\\', '\\'] else if c = '"' then ['\\', '"'] else if c = '\r' then ['\\', 'r'] else if c = '\n' then ['\\', 'n']
  else if c = '\t' then ['\\', 't'] else [c]

theorem replaceChar_append (c : Char) (new t u : Text) : replaceChar c new (t ++ u) = replaceChar c new t ++ replaceChar c new u :=
  List.flatMap_append

theorem tomlEscape_cons (c : Char) (t : Text) : tomlEscape (c :: t) = tomlPiece c ++ tomlEscape t := by
  have hone : tomlEscape [c] = tomlPiece c := by
    unfold tomlPiece
    split_ifs with h1 h2 h3 h4 h5
    · rw [h1]; rfl
    · rw [h2]; rfl
    · rw [h3]; rfl
    · rw [h4]; rfl
    · rw [h5]; rfl
    · simp [tomlEscape, replaceChar, h1, h2, h3, h4, h5]
  rw [← hone, ← List.singleton_append]
  unfold tomlEscape
  dsimp only
  simp only [replaceChar_append]

/-- The characters that come back. -/
def isTomlChar (c : Char) : Bool := c = '\t' || c = '\n' || c = '\r' || !isControlChar c

/-- A character is escaped, or it is left as it is. -/
theorem tomlPiece_cases (c : Char) : (∃ x, tomlPiece c = ['\\', x] ∧ Toml.escape x = some c ∧ isTomlChar c = true) ∨
    tomlPiece c = [c] ∧ c ≠ '"' ∧ c ≠ '\\' ∧ isTomlChar c = Toml.isUnescaped c := by
  unfold tomlPiece
  split_ifs with h1 h2 h3 h4 h5
  · rw [h1]
    exact .inl ⟨_, rfl, by decide, by decide⟩
  · rw [h2]
    exact .inl ⟨_, rfl, by decide, by decide⟩
  · rw [h3]
    exact .inl ⟨_, rfl, by decide, by decide⟩
  · rw [h4]
    exact .inl ⟨_, rfl, by decide, by decide⟩
  · rw [h5]
    exact .inl ⟨_, rfl, by decide, by decide⟩
  · refine .inr ⟨rfl, h2, h1, ?_⟩
    rw [isTomlChar, Toml.isUnescaped, decide_eq_false h3, decide_eq_false h4, decide_eq_false h5, isControlChar, Bool.eq_iff_iff]
    simp

theorem readString_tomlEscape_iff (t : Text) : Toml.readString (tomlEscape t ++ ['"']) = some (t, []) ↔ ∀ c ∈ t, isTomlChar c = true := by
  induction t with
  | nil => exact iff_of_true rfl fun c hc => nomatch hc
  | cons c t ih =>
    have hmap : (Toml.readString (tomlEscape t ++ ['"'])).map (fun p => (c :: p.1, p.2)) = some (c :: t, []) ↔ ∀ d ∈ t, isTomlChar d = true := by
      rw [← ih, Option.map_eq_some_iff]
      constructor
      · rintro ⟨p, hread, heq⟩
        obtain ⟨hcons, hrest⟩ := Prod.mk.inj heq
        rw [hread, ← (List.cons.inj hcons).2, ← hrest]
      · exact fun hread => ⟨_, hread, rfl⟩
    rw [tomlEscape_cons, List.forall_mem_cons, List.append_assoc]
    rcases tomlPiece_cases c with ⟨x, hpiece, hescape, hchar⟩ | ⟨hpiece, hquote, hbackslash, hchar⟩
    · rw [hpiece]
      change Toml.readString ('\\' :: x :: (tomlEscape t ++ ['"'])) = _ ↔ _
      rw [Toml.readString_escape hescape, hmap]
      exact (and_iff_right hchar).symm
    · rw [hpiece, List.singleton_append, Toml.readString_cons hquote hbackslash, hchar]
      split_ifs with hplain
      · rw [hmap]
        exact (and_iff_right hplain).symm
      · exact iff_of_false (fun hnone => nomatch hnone) fun hall => hplain hall.1

/-! ### Environment files -/

theorem renderEnvFile_eq {config : Dict Text Text} {text : Text} (h : renderEnvFile config = some text) :
    (∀ e ∈ config, envKeyMatches e.1 = true) ∧
      text = joinText ['\n'] (config.map fun e => e.1 ++ '=' :: Posix.quote e.2) ++ ['\n'] := by
  unfold renderEnvFile at h
  split_ifs at h with hall
  refine ⟨fun e he => ?_, (Option.some.inj h).symm⟩
  have hentry := List.all_eq_true.1 hall e he
  exact (Bool.and_eq_true_iff.1 hentry).1

theorem environment_renderEnvFile {rules : EnvFile.Rules} {config : Dict Text Text} (hnodup : (config.map Prod.fst).Nodup)
    (hnames : ∀ e ∈ config, EnvFile.isName e.1 = true) (hvalues : ∀ e ∈ config, ∀ c ∈ e.2, EnvFile.isValidChar rules c = true) :
    EnvFile.environment rules (joinText ['\n'] (config.map fun e => e.1 ++ '=' :: Posix.quote e.2) ++ ['\n']) = some config := by
  cases config with
  | nil => rfl
  | cons e config =>
    have hne : (e :: config).map (fun e => e.1 ++ '=' :: Posix.quote e.2) ≠ [] := by simp
    have hlines : printLines ((e :: config).map fun e => e.1 ++ '=' :: Posix.quote e.2) =
        (e :: config).flatMap fun e => e.1 ++ '=' :: (Posix.quote e.2 ++ ['\n']) := by
      rw [printLines, List.flatMap_map]
      refine List.flatMap_congr fun e' _ => ?_
      rw [List.append_assoc, List.cons_append]
    rw [← printLines_eq_joinText hne, hlines, EnvFile.environment_lines hnames hvalues hnodup]

/-- A name has no newline at its end. -/
theorem not_isName_of_newline {key : Text} (h : key.getLast? = some '\n') : EnvFile.isName key = false := by
  refine Bool.eq_false_iff.2 fun hname => ?_
  have hchar := List.all_eq_true.1 (Bool.and_eq_true_iff.1 hname).2 '\n' (List.mem_of_getLast? h)
  cases hchar

/-- The name has no newline behind it, and systemd allows the characters of the value. -/
def Loaded (rules : EnvFile.Rules) (e : Text × Text) : Prop := e.1.getLast? ≠ some '\n' ∧ ∀ c ∈ e.2, EnvFile.isValidChar rules c = true

theorem environment_eq_iff {rules : EnvFile.Rules} {config : Dict Text Text} (hnodup : (config.map Prod.fst).Nodup) {text : Text}
    (h : renderEnvFile config = some text) : EnvFile.environment rules text = some config ↔ ∀ e ∈ config, Loaded rules e := by
  obtain ⟨hkeys, rfl⟩ := renderEnvFile_eq h
  constructor
  · intro heq e he
    obtain ⟨hname, hvalue⟩ := EnvFile.mem_environment heq he
    refine ⟨fun hnewline => ?_, hvalue⟩
    rw [not_isName_of_newline hnewline] at hname
    cases hname
  · intro hloaded
    refine environment_renderEnvFile hnodup (fun e he => ?_) fun e he => (hloaded e he).2
    have hkey := hkeys e he
    rwa [envKeyMatches, if_neg (hloaded e he).1] at hkey

/-- A control character is no YAML and no TOML, a NEL is a blank for version 1.1 of YAML, a name with a newline behind it is lost, and so is the
whole file with a noncharacter. -/
theorem unusual_characters_lost :
    (∀ v, Yaml.parseSingle v (yamlSingleQuote ['\x07']) = none) ∧
    Yaml.parseSingle .v1_1 (yamlSingleQuote ['a', Char.ofNat 0x85, 'b']) = some ['a', ' ', 'b'] ∧
    Toml.parseString ('"' :: (tomlEscape ['\x07'] ++ ['"'])) = none ∧
    ∀ rules, (renderEnvFile [("FOO\n".toList, "bar".toList)]).map (EnvFile.environment rules) = some (some []) ∧
      (renderEnvFile [("FOO".toList, "a".toList), ("BAR".toList, [Char.ofNat 0xFFFF])]).map (EnvFile.environment rules) = some none := by
  refine ⟨fun v => ?_, by decide +kernel, by decide +kernel, fun rules => ?_⟩
  · cases v <;> decide +kernel
  · cases rules <;> decide +kernel

/-- What the three encoders write is read back as it was exactly if it has no characters that YAML (by either version), TOML or systemd (by the
manual or the program) does not allow, or folds, and no name with a newline at its end. -/
theorem encoders_iff (v : Yaml.Version) (rules : EnvFile.Rules) (value : Text) {config : Dict Text Text} (hnodup : (config.map Prod.fst).Nodup) :
    (Yaml.parseSingle v (yamlSingleQuote value) = some (oneLine value) ↔ Yaml.Kept v (oneLine value)) ∧
    (Toml.parseString ('"' :: (tomlEscape value ++ ['"'])) = some value ↔ ∀ c ∈ value, isTomlChar c = true) ∧
    ∀ text, renderEnvFile config = some text → (EnvFile.environment rules text = some config ↔ ∀ e ∈ config, Loaded rules e) := by
  refine ⟨parseSingle_yamlSingleQuote_iff v value, ?_, fun text h => environment_eq_iff hnodup h⟩
  rw [Toml.parseString_eq_some_iff, readString_tomlEscape_iff]

/-- Two variables. -/
def exporterConfig : Dict Text Text := [("DATA_SOURCE_USER".toList, "it's me".toList), ("DATA_SOURCE_URI".toList, "db:5432/x".toList)]

theorem exporterConfig_nodup : (exporterConfig.map Prod.fst).Nodup := by decide

theorem exporterConfig_read :
    (Yaml.parseSingle .v1_1 (yamlSingleQuote "it's me".toList) = some "it's me".toList ∧
      Toml.parseString ('"' :: (tomlEscape "it's me".toList ++ ['"'])) = some "it's me".toList) ∧
    ∃ text, renderEnvFile exporterConfig = some text ∧ EnvFile.environment .manual text = some exporterConfig := by
  obtain ⟨hyaml, htoml, henv⟩ := encoders_iff .v1_1 .manual "it's me".toList exporterConfig_nodup
  have htomlChars : "it's me".toList.all isTomlChar = true := by decide +kernel
  have hplain : exporterConfig.all (fun e => e.1.getLast? ≠ some '\n' && e.2.all (EnvFile.isValidChar .manual)) = true := by decide +kernel
  have hloaded : ∀ e ∈ exporterConfig, Loaded .manual e := by
    simpa [Loaded] using List.all_eq_true.1 hplain
  refine ⟨⟨?_, htoml.2 (List.all_eq_true.1 htomlChars)⟩, _, rfl, (henv _ rfl).2 hloaded⟩
  have honeLine : oneLine "it's me".toList = "it's me".toList := by decide +kernel
  rw [honeLine] at hyaml
  exact hyaml.2 (by decide +kernel)

end ProxmoxTool.ConfigText
