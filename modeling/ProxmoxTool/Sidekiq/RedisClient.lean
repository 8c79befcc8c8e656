import ProxmoxTool.Lib.Fields
import ProxmoxTool.Lib.Resp

/-!
# The Redis client of the inline scripts

`rc` and `rr` of `_REDIS_PRELUDE`.  The bytes come in parts as `recv` gives them; what is read too far stays in the buffer for the next call.

`rr` calls itself for the values in an array, and Python has only so many frames for that.  And it takes an integer with a plus sign for 0.  All
other replies are read as they are, however the bytes are cut (`rr_reads_replies`).
-/

namespace ProxmoxTool.Sidekiq

open Utf8 Resp

/-- `isdigit` and `int`: what is known of them is the first on ASCII, and the second on numerals as `str` writes them. -/
structure NumberTable where
  isDigit : Char → Bool
  isDigit_ascii : ∀ c : Char, c.toNat < 128 → isDigit c = c.isDigit
  int : Text → Option Int
  int_intText : ∀ i : Int, int (intText i) = some i

/-- `None` for errors and nulls. -/
inductive Value
  | none
  | text (t : Text)
  | int (i : Int)
  | list (vs : List Value)

inductive PyError
  | recursionError
  | valueError
  | indexError

/-- The list `bf` of one buffer, and what `recv` has not given yet. -/
structure Conn where
  buffer : Bytes
  incoming : List Bytes

def Conn.stream (c : Conn) : Bytes := c.buffer ++ c.incoming.flatten

/-- The loops of `recv`, which end when the buffer has what is looked for or the connection is closed. -/
def fill (ready : Bytes → Bool) (bf : Bytes) : List Bytes → Conn
  | [] => ⟨bf, []⟩
  | d :: ds => if ready bf then ⟨bf, d :: ds⟩ else if d = [] then ⟨bf, ds⟩ else fill ready (bf ++ d) ds

def Conn.fill (ready : Bytes → Bool) (c : Conn) : Conn := Sidekiq.fill ready c.buffer c.incoming

/-- `[read() for _ in range(n)]`. -/
def readAll (read : Conn → Except PyError (Value × Conn)) : Nat → Conn → Except PyError (List Value × Conn)
  | 0, c => .ok ([], c)
  | n + 1, c =>
    match read c with
    | .error e => .error e
    | .ok (v, c) =>
      match readAll read n c with
      | .error e => .error e
      | .ok (vs, c) => .ok (v :: vs, c)

section

variable (py : NumberTable)

/-- `rest.lstrip("-").isdigit()`. -/
def isNumeral (rest : Text) : Bool :=
  let digits := rest.dropWhile (· = '-')
  !digits.isEmpty && digits.all py.isDigit

/-- What `rr` does with the first character and the rest of the line; `read` is `rr` one call deeper. -/
def rrLine (read : Conn → Except PyError (Value × Conn)) (t : Char) (rest : Text) (c : Conn) : Except PyError (Value × Conn) :=
  if t = '+' then .ok (.text rest, c)
  else if t = '-' then .ok (.none, c)
  else if t = ':' then
    if isNumeral py rest then (py.int rest).elim (.error .valueError) fun i => .ok (.int i, c)
    else .ok (.int 0, c)
  else if t = '$' then
    (py.int rest).elim (.error .valueError) fun n =>
      if n < 0 then .ok (.none, c)
      else
        let c := c.fill fun b => n.toNat + 2 ≤ b.length
        .ok (.text (decodeReplace (c.buffer.take n.toNat)), { c with buffer := c.buffer.drop (n.toNat + 2) })
  else if t = '*' then
    (py.int rest).elim (.error .valueError) fun n => (readAll read n.toNat c).map fun p => (.list p.1, p.2)
  else .ok (.none, c)

/-- `rr`, with so many calls of itself left. -/
def rr : Nat → Conn → Except PyError (Value × Conn)
  | 0, _ => .error .recursionError
  | frames + 1, c =>
    let c := c.fill fun b => (splitCrlf b).isSome
    if c.buffer = [] then .ok (.none, c)
    else
      match splitCrlf c.buffer with
      | none => .error .valueError
      | some (l, behind) =>
        match decodeReplace l with
        | [] => .error .indexError
        | t :: rest => rrLine py (rr frames) t rest { c with buffer := behind }

end

/-- `rc`: the bytes that are sent. -/
def rc {α : Type} (str : α → Text) (args : List α) : Bytes :=
  Utf8.encode (joinText [] (('*' :: (natText args.length ++ ['\r', '\n'])) :: args.map fun a =>
    '$' :: (natText (Utf8.encode (str a)).length ++ (['\r', '\n'] ++ (str a ++ ['\r', '\n'])))))

mutual

/-- What a reply says. -/
def valueOf : Reply → Value
  | .simple l => .text l.text
  | .error _ => .none
  | .integer _ i => .int i.toInt
  | .bulk t => .text t
  | .nullBulk => .none
  | .array rs => .list (valuesOf rs)
  | .nullArray => .list []

def valuesOf : List Reply → List Value
  | [] => []
  | r :: rs => valueOf r :: valuesOf rs

end

/-! ### The loops of `recv` -/

/-- The loop stops as soon as the buffer has what is looked for. -/
theorem fill_spec {ready : Bytes → Bool} {bf : Bytes} {ds : List Bytes} (hne : ∀ d ∈ ds, d ≠ []) (hready : ready (bf ++ ds.flatten) = true) :
    ∃ n, fill ready bf ds = ⟨bf ++ (ds.take n).flatten, ds.drop n⟩ ∧ ready (bf ++ (ds.take n).flatten) = true := by
  induction ds generalizing bf with
  | nil => exact ⟨0, by simp [fill], hready⟩
  | cons d ds ih =>
    rw [List.flatten_cons, ← List.append_assoc] at hready
    obtain ⟨hd, hne⟩ := List.forall_mem_cons.1 hne
    cases hnow : ready bf with
    | true =>
      refine ⟨0, ?_, ?_⟩
      · rw [fill, if_pos hnow, List.take_zero, List.flatten_nil, List.append_nil, List.drop_zero]
      · rw [List.take_zero, List.flatten_nil, List.append_nil, hnow]
    | false =>
      obtain ⟨n, hfill, hthen⟩ := ih hne hready
      rw [List.append_assoc, ← List.flatten_cons, ← List.take_succ_cons] at hfill hthen
      refine ⟨n + 1, ?_, hthen⟩
      rw [fill, if_neg (by rw [hnow]; exact Bool.false_ne_true), if_neg hd, hfill, List.drop_succ_cons]

/-- From one state of the connection to a later one, which leaves `rest` to be read. -/
structure Leaves (c c' : Conn) (rest : Bytes) : Prop where
  incoming : ∃ n, c'.incoming = c.incoming.drop n
  stream : c'.stream = rest

theorem Leaves.trans {c c' c'' : Conn} {rest rest' : Bytes} (h : Leaves c c' rest) (h' : Leaves c' c'' rest') : Leaves c c'' rest' := by
  obtain ⟨m, hm⟩ := h.incoming
  obtain ⟨n, hn⟩ := h'.incoming
  exact ⟨⟨m + n, by rw [hn, hm, List.drop_drop]⟩, h'.stream⟩

theorem Leaves.nonempty {c c' : Conn} {rest : Bytes} (h : Leaves c c' rest) (hne : ∀ d ∈ c.incoming, d ≠ []) :
    ∀ d ∈ c'.incoming, d ≠ [] := by
  obtain ⟨n, hn⟩ := h.incoming
  intro d hd
  rw [hn] at hd
  exact hne d (List.mem_of_mem_drop hd)

theorem Conn.fill_spec (ready : Bytes → Bool) {c : Conn} (hne : ∀ d ∈ c.incoming, d ≠ []) (hready : ready c.stream = true) :
    Leaves c (c.fill ready) c.stream ∧ ready (c.fill ready).buffer = true := by
  obtain ⟨n, hfill, hthen⟩ := Sidekiq.fill_spec hne hready
  have hconn : c.fill ready = ⟨c.buffer ++ (c.incoming.take n).flatten, c.incoming.drop n⟩ := hfill
  rw [hconn]
  refine ⟨⟨⟨n, rfl⟩, ?_⟩, hthen⟩
  rw [Conn.stream, Conn.stream, List.append_assoc, ← List.flatten_append, List.take_append_drop]

/-- A line at the start of the stream gets into the buffer. -/
theorem fill_line {c : Conn} {t : Text} {rest : Bytes} (hne : ∀ d ∈ c.incoming, d ≠ []) (ht : '\r' ∉ t) (h : c.stream = line t ++ rest) :
    ∃ behind, splitCrlf (c.fill fun b => (splitCrlf b).isSome).buffer = some (encode t, behind) ∧
      Leaves c { c.fill (fun b => (splitCrlf b).isSome) with buffer := behind } rest := by
  have hline : splitCrlf c.stream = some (encode t, rest) := h ▸ splitCrlf_line ht rest
  obtain ⟨hleaves, hready⟩ := Conn.fill_spec (fun b => (splitCrlf b).isSome) hne (by rw [hline]; rfl)
  obtain ⟨⟨l, behind⟩, hsplit⟩ := Option.isSome_iff_exists.1 hready
  have hmore := splitCrlf_append hsplit (c.fill fun b => (splitCrlf b).isSome).incoming.flatten
  have hstream : (c.fill fun b => (splitCrlf b).isSome).buffer ++ (c.fill fun b => (splitCrlf b).isSome).incoming.flatten = c.stream :=
    hleaves.stream
  rw [hstream, hline] at hmore
  obtain ⟨rfl, hrest⟩ := Prod.mk.inj (Option.some.inj hmore)
  exact ⟨behind, hsplit, hleaves.incoming, hrest.symm⟩

/-! ### Numerals -/

section

variable {py : NumberTable}

theorem int_natText (n : Nat) : py.int (natText n) = some (n : Int) := py.int_intText (n : Int)

theorem int_minus_one : py.int ['-', '1'] = some (-1) := by
  have htext : intText (-1) = ['-', '1'] := by decide +kernel
  rw [← htext, py.int_intText]

theorem isNumeral_intText (i : Int) : isNumeral py (intText i) = true := by
  have hdigits : ∀ n : Nat, (natText n).dropWhile (· = '-') = natText n := by
    intro n
    refine List.dropWhile_eq_self_iff.2 fun hlength hminus => ?_
    have hmem := List.getElem_mem hlength
    rw [of_decide_eq_true hminus] at hmem
    exact not_mem_natText (by decide) hmem
  have hall : ∀ n : Nat, ((natText n).all py.isDigit) = true := by
    intro n
    refine List.all_eq_true.2 fun c hc => ?_
    have hdigit : c.isDigit = true := isDigit_of_mem_natText hc
    rw [py.isDigit_ascii c (Nat.lt_of_le_of_lt (toNat_of_isDigit hdigit).2 (by decide)), hdigit]
  have hdrop : (intText i).dropWhile (· = '-') = natText i.natAbs := by
    unfold intText
    split
    · rw [List.dropWhile_cons_of_pos (by simp), hdigits]
    · exact hdigits _
  unfold isNumeral
  dsimp only
  rw [hdrop, hall, Bool.and_true, Bool.not_eq_true', List.isEmpty_eq_false_iff]
  exact natText_ne_nil _

/-! ### Replies -/

/-- The line of a reply is read, and what follows is left to the frame. -/
theorem rr_line (py : NumberTable) (frames : Nat) {c : Conn} {t : Char} {rest : Text} {behind : Bytes} (hne : ∀ d ∈ c.incoming, d ≠ [])
    (hline : '\r' ∉ t :: rest) (h : c.stream = line (t :: rest) ++ behind) :
    ∃ c', Leaves c c' behind ∧ rr py (frames + 1) c = rrLine py (rr py frames) t rest c' := by
  obtain ⟨b, hsplit, hleaves⟩ := fill_line hne hline h
  refine ⟨_, hleaves, ?_⟩
  have hbuffer : (c.fill fun b => (splitCrlf b).isSome).buffer ≠ [] := by
    intro hnil
    rw [hnil] at hsplit
    cases hsplit
  rw [rr]
  dsimp only
  rw [if_neg hbuffer, hsplit]
  dsimp only
  rw [decodeReplace_encode]

/-- A bulk string is read by its bytes, whatever these are. -/
theorem rrLine_bulk (py : NumberTable) (read : Conn → Except PyError (Value × Conn)) {c : Conn} {t : Text} {rest : Bytes} (hne : ∀ d ∈ c.incoming, d ≠ [])
    (h : c.stream = Utf8.encode t ++ (crlf ++ rest)) :
    ∃ c', Leaves c c' rest ∧ rrLine py read '$' (natText (Utf8.encode t).length) c = .ok (.text t, c') := by
  have hlong : decide ((Utf8.encode t).length + 2 ≤ c.stream.length) = true := by
    rw [h, decide_eq_true_iff, List.length_append, List.length_append]
    exact Nat.add_le_add_left (Nat.le_add_right 2 _) _
  obtain ⟨hleaves, hready⟩ := Conn.fill_spec (fun b => decide ((Utf8.encode t).length + 2 ≤ b.length)) hne hlong
  have henough := of_decide_eq_true hready
  have hstream := hleaves.stream.trans h
  refine ⟨{ c.fill (fun b => decide ((Utf8.encode t).length + 2 ≤ b.length)) with
    buffer := (c.fill fun b => decide ((Utf8.encode t).length + 2 ≤ b.length)).buffer.drop ((Utf8.encode t).length + 2) }, ?_, ?_⟩
  · refine ⟨hleaves.incoming, ?_⟩
    have hdrop := congrArg (List.drop ((Utf8.encode t).length + 2)) hstream
    rw [Conn.stream, List.drop_append_of_le_length henough, ← List.append_assoc,
      List.drop_left' (by rw [List.length_append]; rfl)] at hdrop
    exact hdrop
  · have htake := congrArg (List.take (Utf8.encode t).length) hstream
    rw [Conn.stream, List.take_append_of_le_length (Nat.le_of_add_right_le henough), List.take_left' rfl] at htake
    unfold rrLine
    rw [if_neg (by decide), if_neg (by decide), if_neg (by decide), if_pos rfl, int_natText, Option.elim_some,
      if_neg (Int.not_lt.2 (Int.natCast_nonneg _))]
    dsimp only
    rw [Int.toNat_natCast, htake, decodeReplace_encode]

/-- The values of an array one after the other. -/
theorem readAll_spec {read : Conn → Except PyError (Value × Conn)} {rs : List Reply}
    (hread : ∀ r ∈ rs, ∀ (c : Conn) (rest : Bytes), (∀ d ∈ c.incoming, d ≠ []) → c.stream = r.encode ++ rest →
      ∃ c', Leaves c c' rest ∧ read c = .ok (valueOf r, c'))
    {c : Conn} {rest : Bytes} (hne : ∀ d ∈ c.incoming, d ≠ []) (h : c.stream = encodeAll rs ++ rest) :
    ∃ c', Leaves c c' rest ∧ readAll read rs.length c = .ok (valuesOf rs, c') := by
  induction rs generalizing c with
  | nil => exact ⟨c, ⟨⟨0, rfl⟩, h⟩, rfl⟩
  | cons r rs ih =>
    obtain ⟨hfirst, hlater⟩ := List.forall_mem_cons.1 hread
    rw [encodeAll, List.append_assoc] at h
    obtain ⟨c', hleaves, hr⟩ := hfirst c _ hne h
    obtain ⟨c'', hleaves', hrs⟩ := ih hlater (hleaves.nonempty hne) hleaves.stream
    refine ⟨c'', hleaves.trans hleaves', ?_⟩
    rw [List.length_cons, readAll, hr]
    dsimp only
    rw [hrs]
    rfl

theorem not_mem_natLine {k : Char} (hk : k ≠ '\r') (n : Nat) : '\r' ∉ k :: natText n := by
  rw [List.mem_cons, not_or]
  exact ⟨hk.symm, not_mem_natText (by decide)⟩

/-- With frames for its arrays, a reply without plus signs is read as it is. -/
theorem rr_spec (py : NumberTable) {frames : Nat} {r : Reply} {c : Conn} {rest : Bytes} (hframes : r.depth ≤ frames) (hunsigned : r.unsigned = true)
    (hne : ∀ d ∈ c.incoming, d ≠ []) (h : c.stream = r.encode ++ rest) : ∃ c', Leaves c c' rest ∧ rr py frames c = .ok (valueOf r, c') := by
  induction frames generalizing r c rest with
  | zero => cases r <;> exact absurd hframes (by simp [Reply.depth])
  | succ frames ih =>
    cases r with
    | simple l =>
      have hline : '\r' ∉ '+' :: l.text := by simp [l.oneLine.1]
      obtain ⟨c', hleaves, hrr⟩ := rr_line py frames hne hline h
      exact ⟨c', hleaves, hrr⟩
    | error l =>
      have hline : '\r' ∉ '-' :: l.text := by simp [l.oneLine.1]
      obtain ⟨c', hleaves, hrr⟩ := rr_line py frames hne hline h
      exact ⟨c', hleaves, hrr⟩
    | integer plus i =>
      have hplus : plus = false := Bool.not_eq_true' _ ▸ hunsigned
      have htext : integerText plus i.toInt = intText i.toInt := by simp [integerText, hplus]
      have hline : '\r' ∉ ':' :: intText i.toInt := by
        rw [List.mem_cons, not_or]
        refine ⟨by decide, fun hmem => ?_⟩
        rcases mem_intText hmem with heq | hdigit
        · cases heq
        · cases hdigit
      rw [Reply.encode, htext] at h
      obtain ⟨c', hleaves, hrr⟩ := rr_line py frames hne hline h
      refine ⟨c', hleaves, hrr.trans ?_⟩
      unfold rrLine
      rw [if_neg (by decide), if_neg (by decide), if_pos rfl, if_pos (isNumeral_intText _), py.int_intText]
      rfl
    | bulk t =>
      rw [Reply.encode, List.append_assoc, List.append_assoc] at h
      obtain ⟨c', hleaves, hrr⟩ := rr_line py frames hne (not_mem_natLine (by decide) _) h
      obtain ⟨c'', hleaves', hbulk⟩ := rrLine_bulk py (rr py frames) (hleaves.nonempty hne) hleaves.stream
      exact ⟨c'', hleaves.trans hleaves', hrr.trans hbulk⟩
    | nullBulk =>
      obtain ⟨c', hleaves, hrr⟩ := rr_line py frames hne (by decide) h
      refine ⟨c', hleaves, hrr.trans ?_⟩
      unfold rrLine
      rw [if_neg (by decide), if_neg (by decide), if_neg (by decide), if_pos rfl, int_minus_one]
      rfl
    | array rs =>
      rw [Reply.encode, List.append_assoc] at h
      obtain ⟨c', hleaves, hrr⟩ := rr_line py frames hne (not_mem_natLine (by decide) _) h
      have hread : ∀ r ∈ rs, ∀ (c : Conn) (rest : Bytes), (∀ d ∈ c.incoming, d ≠ []) → c.stream = r.encode ++ rest →
          ∃ c', Leaves c c' rest ∧ rr py frames c = .ok (valueOf r, c') := by
        intro r hr c rest hne h
        rw [Reply.depth] at hframes
        have hdepth : r.depth ≤ depths rs := depth_le_depths hr
        exact ih (by omega) (unsigned_of_mem hunsigned hr) hne h
      obtain ⟨c'', hleaves', hall⟩ := readAll_spec hread (hleaves.nonempty hne) hleaves.stream
      refine ⟨c'', hleaves.trans hleaves', hrr.trans ?_⟩
      unfold rrLine
      rw [if_neg (by decide), if_neg (by decide), if_neg (by decide), if_neg (by decide), if_pos rfl, int_natText, Option.elim_some,
        Int.toNat_natCast, hall]
      rfl
    | nullArray =>
      obtain ⟨c', hleaves, hrr⟩ := rr_line py frames hne (by decide) h
      refine ⟨c', hleaves, hrr.trans ?_⟩
      unfold rrLine
      rw [if_neg (by decide), if_neg (by decide), if_neg (by decide), if_neg (by decide), if_pos rfl, int_minus_one]
      rfl

/-- An array in an array, and so on. -/
def nested : Nat → Reply
  | 0 => .nullArray
  | n + 1 => .array [nested n]

/-- A level more than there are frames. -/
theorem rr_nested {n : Nat} {c : Conn} {rest : Bytes} (hne : ∀ d ∈ c.incoming, d ≠ []) (h : c.stream = (nested n).encode ++ rest) :
    rr py n c = .error .recursionError := by
  induction n generalizing c with
  | zero => rfl
  | succ n ih =>
    rw [nested, Reply.encode, List.append_assoc, encodeAll, encodeAll, List.append_nil] at h
    obtain ⟨c', hleaves, hrr⟩ := rr_line py n hne (not_mem_natLine (by decide) _) h
    rw [hrr]
    unfold rrLine
    rw [if_neg (by decide), if_neg (by decide), if_neg (by decide), if_neg (by decide), if_pos rfl, int_natText, Option.elim_some,
      Int.toNat_natCast, List.length_singleton, readAll, ih (hleaves.nonempty hne) hleaves.stream]
    rfl

/-! ### The client -/

/-- The bytes of `rc` are an array of bulk strings. -/
theorem rc_eq {α : Type} (str : α → Text) (args : List α) : rc str args = (Reply.array (args.map fun a => .bulk (str a))).encode := by
  have hcrlf : Utf8.encode ['\r', '\n'] = crlf := rfl
  have hall : Utf8.encode (args.map fun a =>
      '$' :: (natText (Utf8.encode (str a)).length ++ (['\r', '\n'] ++ (str a ++ ['\r', '\n'])))).flatten =
        encodeAll (args.map fun a => .bulk (str a)) := by
    induction args with
    | nil => rfl
    | cons a args ih =>
      rw [List.map_cons, List.map_cons, List.flatten_cons, encode_append, ih, encodeAll, Reply.encode, line, ← List.cons_append,
        encode_append, encode_append, encode_append, hcrlf]
      simp only [List.append_assoc]
  unfold rc
  rw [joinText_nil, List.flatten_cons, encode_append, hall, Reply.encode, line, List.length_map, ← List.cons_append,
    encode_append, hcrlf]

end

/-- However the bytes are cut, `rr` reads a reply that is nested no deeper than there are frames and has no plus signs as what it says, and
the buffer then has what was received behind it; and `rc` sends its arguments as an array of bulk strings. -/
theorem rr_reads_replies (py : NumberTable) :
    (∀ (r : Reply) (frames : Nat) (c : Conn) (rest : Bytes), r.depth ≤ frames → r.unsigned = true → (∀ d ∈ c.incoming, d ≠ []) →
      c.stream = r.encode ++ rest →
      ∃ c' n, rr py frames c = .ok (valueOf r, c') ∧ c'.incoming = c.incoming.drop n ∧
        c.buffer ++ (c.incoming.take n).flatten = r.encode ++ c'.buffer) ∧
    ∀ (α : Type) (str : α → Text) (args : List α), ∃ r : Reply, rc str args = r.encode ∧
      valueOf r = .list (args.map fun a => .text (str a)) := by
  constructor
  · intro r frames c rest hframes hunsigned hne h
    obtain ⟨c', ⟨⟨n, hn⟩, hrest⟩, hrr⟩ := rr_spec py hframes hunsigned hne h
    refine ⟨c', n, hrr, hn, ?_⟩
    have hstream : c.buffer ++ (c.incoming.take n).flatten ++ (c.incoming.drop n).flatten =
        r.encode ++ c'.buffer ++ (c.incoming.drop n).flatten := by
      rw [List.append_assoc, ← List.flatten_append, List.take_append_drop, List.append_assoc, ← hn]
      exact h.trans (congrArg (r.encode ++ ·) hrest.symm)
    exact List.append_cancel_right hstream
  · intro α str args
    refine ⟨_, rc_eq str args, ?_⟩
    have hvalues : valuesOf (args.map fun a => .bulk (str a)) = args.map fun a => .text (str a) := by
      induction args with
      | nil => rfl
      | cons a args ih =>
        rw [List.map_cons, List.map_cons, valuesOf, valueOf, ih]
    exact congrArg Value.list hvalues

/-- The digits of ASCII, and no others. -/
def asciiNumbers : NumberTable where
  isDigit := Char.isDigit
  isDigit_ascii _ _ := rfl
  int := parseInt
  int_intText := parseInt_intText

/-- A text with an end of line, and a number. -/
def pair : Reply := .array [.bulk "ö\r\n".toList, .integer false (-3)]

theorem pair_read : ∃ c' n, rr asciiNumbers 2 ⟨[], [pair.encode.take 9, pair.encode.drop 9 ++ [43]]⟩ = .ok (valueOf pair, c') ∧
    c'.incoming = [pair.encode.take 9, pair.encode.drop 9 ++ [43]].drop n ∧
      [] ++ ([pair.encode.take 9, pair.encode.drop 9 ++ [43]].take n).flatten = pair.encode ++ c'.buffer :=
  (rr_reads_replies asciiNumbers).1 pair 2 ⟨[], [pair.encode.take 9, pair.encode.drop 9 ++ [43]]⟩ [43] (by decide) (by decide)
    (by decide +kernel) (by decide +kernel)

/-- `:+5` is read as 0, and a thousand frames are too few for a reply that is nested deeper. -/
theorem plus_sign_and_depth_lost : rr asciiNumbers 1000 ⟨(Reply.integer true 5).encode, []⟩ = .ok (.int 0, ⟨[], []⟩) ∧
    valueOf (.integer true 5) = .int 5 ∧ rr asciiNumbers 1000 ⟨(nested 1000).encode, []⟩ = .error .recursionError := by
  have hstream : (⟨(nested 1000).encode, []⟩ : Conn).stream = (nested 1000).encode ++ [] := by
    rw [Conn.stream, List.flatten_nil]
  exact ⟨rfl, rfl, rr_nested (fun d hd => absurd hd List.not_mem_nil) hstream⟩

end ProxmoxTool.Sidekiq
