import ProxmoxTool.Lib.Base64
import ProxmoxTool.Lib.RubyLex
import ProxmoxTool.Moderation.Maintenance
import Mathlib.Data.List.Forall2

/-!
# The Ruby script for the posts of a report

The tokens of the script of `build_status_action_script`.  The script is made of fixed parts, two numerals and texts between quotes
(`scriptSlots`), and its tokens are those of the parts, whatever the values are (`lex_script`): no value ends a literal.  Two scripts with
the same action, the same flag and as many ids differ in nothing but their numerals and what stands between their quotes (`like_script`).
-/

namespace ProxmoxTool.Moderation.Admin

open Ruby (Token Runs)

/-! ### Base64 -/

theorem base64Digit_eq {n : Nat} (h : n < 64) : base64Digit n = Base64.digit n :=
  (by decide : ∀ n < 64, base64Digit n = Base64.digit n) n h

theorem base64_eq (bs : Utf8.Bytes) : base64 (bs.map UInt8.toNat) = Base64.encode bs := by
  induction bs using Base64.encode.induct with
  | case1 => rfl
  | case2 a =>
    have ha := a.toNat_lt
    rw [Base64.encode, List.map_singleton, base64, base64Digit_eq (by omega), base64Digit_eq (by omega)]
    rfl
  | case3 a b =>
    have ha := a.toNat_lt
    have hb := b.toNat_lt
    rw [Base64.encode, List.map_cons, List.map_singleton, base64, base64Digit_eq (by omega), base64Digit_eq (by omega),
      base64Digit_eq (by omega)]
    rfl
  | case4 a b c rest ih =>
    have ha := a.toNat_lt
    have hb := b.toNat_lt
    have hc := c.toNat_lt
    rw [Base64.encode, List.map_cons, List.map_cons, List.map_cons, base64, ih, base64Digit_eq (by omega), base64Digit_eq (by omega),
      base64Digit_eq (by omega), base64Digit_eq (by omega)]
    rfl

theorem base64Text_eq (t : Text) : base64Text t = Base64.encode (Utf8.encode t) := base64_eq _

/-! ### The parts of the script -/

/-- A fixed part has whole tokens; a numeral stands in front of a bracket. -/
inductive Slot
  | fixed (t : Text) (whole : Runs t ((Ruby.lex t).getD []))
  | number (n : Nat)
  | quoted (t : Text)

def Slot.text : Slot → Text
  | .fixed t _ => t
  | .number n => natText n ++ [')']
  | .quoted t => '\'' :: (t ++ ['\''])

def Slot.tokens : Slot → List Token
  | .fixed t _ => (Ruby.lex t).getD []
  | .number n => [.integer (natText n), .sign ')']
  | .quoted t => [.string t]

def comma : Slot := .fixed ", ".toList (by decide)

def newline : Slot := .fixed ['\n'] (by decide)

def idSlots : List Text → List Slot
  | [] => []
  | [id] => [.quoted id]
  | id :: ids => .quoted id :: comma :: idSlots ids

def frontSlots (report actor : Nat) : List Slot :=
  [.fixed ("require 'base64'".toList ++ ['\n']) (by rw [String.toList_ofList]; decide),
    .fixed "account = Account.find(".toList (by rw [String.toList_ofList]; decide), .number actor, newline,
    .fixed "report = Report.find(".toList (by rw [String.toList_ofList]; decide), .number report, newline,
    .fixed "ids = report.status_ids.map(&:to_s) & [".toList (by rw [String.toList_ofList]; decide)]

/-- The parameters up to the text, with the flag for the mail. -/
def paramSlots (action : StatusAction) (sendEmail : Bool) : List Slot :=
  [.fixed [']', '\n'] (by decide),
    .fixed ("raise 'none of the selected statuses belong to this report' if ids.empty?".toList ++ ['\n']) (by rw [String.toList_ofList]; decide),
    .fixed "params = \x7b type: ".toList (by rw [String.toList_ofList]; decide), .quoted action.text,
    .fixed ", current_account: account, report_id: report.id, send_email_notification: ".toList (by rw [String.toList_ofList]; decide),
    if sendEmail then .fixed ("true".toList ++ ", text: ".toList) (by decide)
    else .fixed ("false".toList ++ ", text: ".toList) (by decide),
    .fixed "Base64.strict_decode64(".toList (by rw [String.toList_ofList]; decide)]

def tailSlots : List Slot :=
  [.fixed (").force_encoding('UTF-8') \x7d".toList ++ ['\n']) (by rw [String.toList_ofList]; decide),
    .fixed ("if Admin.const_defined?(:ModerationAction)".toList ++ ['\n']) (by rw [String.toList_ofList]; decide),
    .fixed ("  selected = report.status_ids & ids.map(&:to_i)".toList ++ ['\n']) (by rw [String.toList_ofList]; decide),
    .fixed ("  action = Admin::ModerationAction.new(params)".toList ++ ['\n']) (by rw [String.toList_ofList]; decide),
    .fixed ("  action.define_singleton_method(:status_ids) \x7b selected \x7d".toList ++ ['\n']) (by rw [String.toList_ofList]; decide),
    .fixed ("  action.define_singleton_method(:collections) \x7b [] \x7d".toList ++ ['\n']) (by rw [String.toList_ofList]; decide),
    .fixed ("else".toList ++ ['\n']) (by rw [String.toList_ofList]; decide),
    .fixed ("  action = Admin::StatusBatchAction.new(params.merge(status_ids: ids))".toList ++ ['\n']) (by rw [String.toList_ofList]; decide),
    .fixed ("end".toList ++ ['\n']) (by rw [String.toList_ofList]; decide),
    .fixed ("raise \"Mastodon rejected the action: #\x7baction.errors.full_messages.join(', ')\x7d\" unless action.valid?".toList ++ ['\n'])
      (by rw [String.toList_ofList]; decide),
    .fixed ("action.save!".toList ++ ['\n']) (by rw [String.toList_ofList]; decide),
    .fixed ("puts \"OK #\x7bids.size\x7d\"".toList ++ ['\n']) (by rw [String.toList_ofList]; decide)]

def scriptSlots (action : StatusAction) (ids : List Text) (report actor : Nat) (text : Text) (sendEmail : Bool) : List Slot :=
  frontSlots report actor ++ (idSlots ids ++ (paramSlots action sendEmail ++ (.quoted (base64Text text) :: tailSlots)))

/-! ### Text and tokens -/

theorem text_idSlots (ids : List Text) :
    (idSlots ids).flatMap Slot.text = joinText ", ".toList (ids.map fun id => '\'' :: id ++ ['\'']) := by
  induction ids with
  | nil => rfl
  | cons id ids ih =>
    cases ids with
    | nil =>
      rw [List.map_singleton, joinText, List.intercalate_singleton]
      exact List.append_nil _
    | cons id' ids =>
      change ('\'' :: (id ++ ['\''])) ++ (", ".toList ++ List.flatMap Slot.text (idSlots (id' :: ids))) = _
      rw [ih, ← List.append_assoc]
      exact List.intercalate_cons_cons.symm

/-- The script is made of the parts. -/
theorem printLines_scriptLines (action : StatusAction) (ids : List Text) (report actor : Nat) (text : Text) (sendEmail : Bool) :
    printLines (scriptLines action ids (natText report) (natText actor) text sendEmail) =
      (scriptSlots action ids report actor text sendEmail).flatMap Slot.text := by
  -- a quote of the source begins or ends a text between quotes
  have htype : "params = \x7b type: '".toList = "params = \x7b type: ".toList ++ ['\''] := by
    rw [String.toList_ofList, String.toList_ofList]
    rfl
  have haccount : "', current_account: account, report_id: report.id, send_email_notification: ".toList =
      '\'' :: ", current_account: account, report_id: report.id, send_email_notification: ".toList := by
    rw [String.toList_ofList, String.toList_ofList]
  have hdecode : ", text: Base64.strict_decode64('".toList = ", text: ".toList ++ ("Base64.strict_decode64(".toList ++ ['\'']) := by
    rw [String.toList_ofList, String.toList_ofList, String.toList_ofList]
    rfl
  have hforce : "').force_encoding('UTF-8') \x7d".toList = '\'' :: ").force_encoding('UTF-8') \x7d".toList := by
    rw [String.toList_ofList, String.toList_ofList]
  unfold scriptSlots
  rw [List.flatMap_append, List.flatMap_append, List.flatMap_append, text_idSlots]
  unfold scriptLines frontSlots paramSlots printLines tailSlots
  cases sendEmail
  · simp only [-String.reduceToList, List.flatMap_cons, List.flatMap_nil, Slot.text, newline, htype, haccount, hdecode, hforce,
      List.append_assoc, List.cons_append, List.nil_append, Bool.false_eq_true, if_false]
  · simp only [-String.reduceToList, List.flatMap_cons, List.flatMap_nil, Slot.text, newline, htype, haccount, hdecode, hforce,
      List.append_assoc, List.cons_append, List.nil_append, if_true]

theorem runs_slot {s : Slot} (h : ∀ t, s = .quoted t → ∀ c ∈ t, c ≠ '\'' ∧ c ≠ '\\') : Runs s.text s.tokens := by
  cases s with
  | fixed t whole => exact whole
  | number n => exact Ruby.runs_integer (natText_ne_nil n) (List.all_eq_true.2 fun c hc => isDigit_of_mem_natText hc)
  | quoted t => exact Ruby.runs_string (h t rfl)

theorem mem_idSlots {ids : List Text} {s : Slot} (h : s ∈ idSlots ids) : s = comma ∨ ∃ id ∈ ids, s = .quoted id := by
  induction ids with
  | nil => cases h
  | cons id ids ih =>
    cases ids with
    | nil => exact Or.inr ⟨id, List.mem_cons_self, List.mem_singleton.1 h⟩
    | cons id' ids =>
      rcases List.mem_cons.1 h with rfl | h
      · exact Or.inr ⟨id, List.mem_cons_self, rfl⟩
      · rcases List.mem_cons.1 h with rfl | h
        · exact Or.inl rfl
        · rcases ih h with rfl | ⟨id'', hmem, rfl⟩
          · exact Or.inl rfl
          · exact Or.inr ⟨id'', List.mem_cons_of_mem _ hmem, rfl⟩

/-- No text between quotes ends its literal. -/
theorem quoted_slot {action : StatusAction} {ids : List Text} {report actor : Nat} {text : Text} {sendEmail : Bool}
    (hids : ∀ id ∈ ids, ∀ c ∈ id, c ≠ '\'' ∧ c ≠ '\\') {t : Text}
    (h : Slot.quoted t ∈ scriptSlots action ids report actor text sendEmail) : ∀ c ∈ t, c ≠ '\'' ∧ c ≠ '\\' := by
  have hbase64 : ∀ c ∈ base64Text text, c ≠ '\'' ∧ c ≠ '\\' := by
    intro c hc
    rw [base64Text_eq] at hc
    have hchar := List.all_eq_true.1 (Base64.all_isChar_encode (Utf8.encode text)) c hc
    constructor
    · rintro rfl
      exact absurd hchar (by decide)
    · rintro rfl
      exact absurd hchar (by decide)
  have haction : ∀ c ∈ action.text, c ≠ '\'' ∧ c ≠ '\\' := by
    have hall : (action.text.all fun c => c ≠ '\'' && c ≠ '\\') = true := by
      cases action <;> rfl
    intro c hc
    simpa using List.all_eq_true.1 hall c hc
  unfold scriptSlots at h
  rw [List.mem_append, List.mem_append, List.mem_append, List.mem_cons] at h
  rcases h with h | h | h | h | h
  · simp [-String.reduceToList, frontSlots, newline] at h
  · rcases mem_idSlots h with h | ⟨id, hid, h⟩
    · cases h
    · obtain rfl := Slot.quoted.inj h
      exact hids t hid
  · have haction' : t = action.text := by
      cases sendEmail <;> simpa [-String.reduceToList, paramSlots] using h
    exact haction' ▸ haction
  · obtain rfl := Slot.quoted.inj h
    exact hbase64
  · simp [-String.reduceToList, tailSlots] at h

/-- The tokens of the script are those of its parts, whatever the values are. -/
theorem lex_script {action : StatusAction} {ids : List Text} {report actor : Nat} {text : Text} {sendEmail : Bool}
    (hids : ∀ id ∈ ids, ∀ c ∈ id, c ≠ '\'' ∧ c ≠ '\\') :
    Ruby.lex (printLines (scriptLines action ids (natText report) (natText actor) text sendEmail)) =
      some ((scriptSlots action ids report actor text sendEmail).flatMap Slot.tokens) := by
  rw [printLines_scriptLines]
  exact (Runs.flatMap fun s hs => runs_slot fun t ht => quoted_slot hids (ht ▸ hs)).lex

/-! ### Two scripts -/

section

variable (u : TextTable)

/-- Tokens that are the same, but for a numeral, or for a text of digits or of base64 between quotes. -/
def like : Token → Token → Bool
  | .integer _, .integer _ => true
  | .string s, .string t => s = t || (s.all u.isDecimal && t.all u.isDecimal) || (s.all Base64.isChar && t.all Base64.isChar)
  | a, b => a = b

theorem like_refl (a : Token) : like u a a = true := by
  cases a <;> simp [like]

theorem forall₂_like_refl (ts : List Token) : List.Forall₂ (like u · ·) ts ts := List.forall₂_same.2 fun a _ => like_refl u a

/-- Parts that give the same tokens but for what may differ. -/
def Slot.Like (s t : Slot) : Prop := List.Forall₂ (like u · ·) s.tokens t.tokens

theorem Slot.like_refl (s : Slot) : s.Like u s := forall₂_like_refl u s.tokens

theorem forall₂_slot_refl (ss : List Slot) : List.Forall₂ (Slot.Like u) ss ss := List.forall₂_same.2 fun s _ => s.like_refl u

theorem like_number (m n : Nat) : (Slot.number m).Like u (.number n) := .cons rfl (forall₂_like_refl u [.sign ')'])

theorem like_quoted {s t : Text} (h : like u (.string s) (.string t) = true) : (Slot.quoted s).Like u (.quoted t) := .cons h .nil

theorem like_idSlots {ids ids' : List Text} (hlength : ids.length = ids'.length) (hids : ∀ id ∈ ids, id.all u.isDecimal = true)
    (hids' : ∀ id ∈ ids', id.all u.isDecimal = true) : List.Forall₂ (Slot.Like u) (idSlots ids) (idSlots ids') := by
  induction ids generalizing ids' with
  | nil =>
    rw [List.length_eq_zero_iff.1 hlength.symm]
    exact .nil
  | cons id ids ih =>
    obtain ⟨id', ids', rfl⟩ : ∃ id' rest, ids' = id' :: rest := by
      cases ids' with
      | nil => cases hlength
      | cons id' rest => exact ⟨id', rest, rfl⟩
    have hfirst : (Slot.quoted id).Like u (.quoted id') := like_quoted u (by
      simp [like, hids id List.mem_cons_self, hids' id' List.mem_cons_self])
    have hrest := ih (Nat.succ.inj hlength) (fun i hi => hids i (List.mem_cons_of_mem _ hi)) fun i hi => hids' i (List.mem_cons_of_mem _ hi)
    cases ids with
    | nil =>
      rw [List.length_eq_zero_iff.1 (Nat.succ.inj hlength).symm]
      exact .cons hfirst .nil
    | cons id₂ ids =>
      cases ids' with
      | nil => cases hlength
      | cons id₂' ids' => exact .cons hfirst (.cons (comma.like_refl u) hrest)

theorem like_base64 (s t : Text) : (Slot.quoted (base64Text s)).Like u (.quoted (base64Text t)) := by
  refine like_quoted u ?_
  rw [base64Text_eq, base64Text_eq]
  simp [like, Base64.all_isChar_encode]

/-- With the same action, the same flag and as many ids, only numerals, ids and texts in base64 differ. -/
theorem like_script (action : StatusAction) (sendEmail : Bool) {ids ids' : List Text} (hlength : ids.length = ids'.length)
    (hids : ∀ id ∈ ids, id.all u.isDecimal = true) (hids' : ∀ id ∈ ids', id.all u.isDecimal = true) (report report' actor actor' : Nat)
    (text text' : Text) :
    List.Forall₂ (like u · ·) ((scriptSlots action ids report actor text sendEmail).flatMap Slot.tokens)
      ((scriptSlots action ids' report' actor' text' sendEmail).flatMap Slot.tokens) := by
  have hfront : List.Forall₂ (Slot.Like u) (frontSlots report actor) (frontSlots report' actor') :=
    .cons (Slot.like_refl u _) (.cons (Slot.like_refl u _) (.cons (like_number u _ _) (.cons (Slot.like_refl u _)
      (.cons (Slot.like_refl u _) (.cons (like_number u _ _) (.cons (Slot.like_refl u _) (.cons (Slot.like_refl u _) .nil)))))))
  have hslots : List.Forall₂ (Slot.Like u) (scriptSlots action ids report actor text sendEmail)
      (scriptSlots action ids' report' actor' text' sendEmail) :=
    List.rel_append hfront (List.rel_append (like_idSlots u hlength hids hids')
      (List.rel_append (forall₂_slot_refl u (paramSlots action sendEmail)) (.cons (like_base64 u text text') (forall₂_slot_refl u tailSlots))))
  exact List.rel_flatMap hslots fun _ _ h => h

end

/-! ### The text -/

/-- What `Base64.strict_decode64` is given between quotes. -/
def decoded (ts : List Token) : Option Utf8.Bytes :=
  match ts.dropWhile (· ≠ .name "strict_decode64".toList) with
  | .name _ :: .sign '(' :: .string t :: .sign ')' :: _ => Base64.decode t
  | _ => none

/-- No token of the part is the name of the decoder. -/
def Slot.Silent (s : Slot) : Prop := ∀ a ∈ s.tokens, a ≠ .name "strict_decode64".toList

theorem silent_number (n : Nat) : (Slot.number n).Silent := by
  simp [Slot.Silent, Slot.tokens]

theorem silent_quoted (t : Text) : (Slot.quoted t).Silent := by
  simp [Slot.Silent, Slot.tokens]

theorem silent_fixed {t : Text} {whole : Runs t ((Ruby.lex t).getD [])}
    (h : ((Ruby.lex t).getD []).all (· ≠ .name "strict_decode64".toList) = true) : (Slot.fixed t whole).Silent := by
  intro a ha
  exact of_decide_eq_true (List.all_eq_true.1 h a ha)

theorem silent_front (report actor : Nat) : ∀ s ∈ frontSlots report actor, s.Silent := by
  unfold frontSlots
  simp only [List.forall_mem_cons]
  refine ⟨silent_fixed ?_, silent_fixed ?_, silent_number _, silent_fixed ?_, silent_fixed ?_, silent_number _, silent_fixed ?_,
    silent_fixed ?_, fun _ h => absurd h List.not_mem_nil⟩
  all_goals repeat rw [String.toList_ofList]
  all_goals decide

theorem silent_ids (ids : List Text) : ∀ s ∈ idSlots ids, s.Silent := by
  intro s hs
  rcases mem_idSlots hs with rfl | ⟨id, -, rfl⟩
  · exact silent_fixed (by decide)
  · exact silent_quoted id

theorem silent_params (action : StatusAction) (sendEmail : Bool) : ∀ s ∈ (paramSlots action sendEmail).take 6, s.Silent := by
  have hflag : (if sendEmail then Slot.fixed ("true".toList ++ ", text: ".toList) (by decide)
      else .fixed ("false".toList ++ ", text: ".toList) (by decide)).Silent := by
    cases sendEmail
    · exact silent_fixed (by decide)
    · exact silent_fixed (by decide)
  unfold paramSlots
  simp only [List.take_succ_cons, List.take_zero, List.forall_mem_cons]
  refine ⟨silent_fixed ?_, silent_fixed ?_, silent_fixed ?_, silent_quoted _, silent_fixed ?_, hflag, fun _ h => absurd h List.not_mem_nil⟩
  all_goals repeat rw [String.toList_ofList]
  all_goals decide

theorem dropWhile_silent {ss : List Slot} (h : ∀ s ∈ ss, s.Silent) (ts : List Token) :
    (ss.flatMap Slot.tokens ++ ts).dropWhile (· ≠ .name "strict_decode64".toList) = ts.dropWhile (· ≠ .name "strict_decode64".toList) := by
  refine List.dropWhile_append_of_pos fun a ha => ?_
  obtain ⟨s, hs, ha⟩ := List.mem_flatMap.1 ha
  exact decide_eq_true (h s hs a ha)

/-- The script decodes the text that it was given. -/
theorem decoded_script (action : StatusAction) (ids : List Text) (report actor : Nat) (text : Text) (sendEmail : Bool) :
    decoded ((scriptSlots action ids report actor text sendEmail).flatMap Slot.tokens) = some (Utf8.encode text) := by
  have hparams : paramSlots action sendEmail = (paramSlots action sendEmail).take 6 ++ (paramSlots action sendEmail).drop 6 :=
    (List.take_append_drop 6 _).symm
  have hdecoder : ((paramSlots action sendEmail).drop 6).flatMap Slot.tokens =
      [.name "Base64".toList, .sign '.', .name "strict_decode64".toList, .sign '('] := by
    change (Ruby.lex "Base64.strict_decode64(".toList).getD [] ++ [] = _
    decide
  have hclose : (Ruby.lex (").force_encoding('UTF-8') \x7d".toList ++ ['\n'])).getD [] =
      .sign ')' :: ((Ruby.lex (").force_encoding('UTF-8') \x7d".toList ++ ['\n'])).getD []).tail := by
    decide
  have htail : ∃ ts, tailSlots.flatMap Slot.tokens = .sign ')' :: ts := by
    unfold tailSlots
    rw [List.flatMap_cons, Slot.tokens, hclose]
    exact ⟨_, rfl⟩
  obtain ⟨ts, htail⟩ := htail
  unfold decoded scriptSlots
  rw [hparams, List.flatMap_append, List.flatMap_append, List.flatMap_append, List.flatMap_append, List.flatMap_cons, hdecoder, htail,
    dropWhile_silent (silent_front report actor), dropWhile_silent (silent_ids ids), List.append_assoc,
    dropWhile_silent (silent_params action sendEmail), base64Text_eq]
  exact Base64.decode_encode _

end ProxmoxTool.Moderation.Admin
