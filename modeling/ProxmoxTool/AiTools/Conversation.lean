import Mathlib
import ProxmoxTool.Lib.Dict
import ProxmoxTool.Lib.Text

/-!
# The messages of a tool round

`generate` of `routes/ai_chat.py` and `stream_chat` of `clients/claude_client.py`, as far as the messages go that are sent to the model.  After
a round with tool calls the turn of the model is sent back as it came, with the results of its calls behind it.  The model may be replaced in
the middle of an answer: a `fallback` block separates what the declined model has written from what the model that served the request has.

Whatever the model answers, every turn that is sent back is followed by one result for each of its calls, under the ids of the calls and in
their order, and a call is executed once (`generate_replays`); and no call of a model that declined is executed (`executed_served`).
-/

namespace ProxmoxTool.AiTools.Conversation

structure ToolUse (J : Type) where
  id : Text
  name : Text
  input : J

/-- A content block of the model; `other` is a thinking block or one that the SDK does not know. -/
inductive Block (J : Type)
  | text (content : Text)
  | toolUse (use : ToolUse J)
  | fallback
  | other (type : Text) (content : J)

structure ToolResult where
  toolUseId : Text
  content : Text

/-- A message of a request: a text of the history, a turn of the model, or the results of its calls. -/
inductive Message (J : Type)
  | text (fromUser : Bool) (content : Text)
  | assistant (content : List (Block J))
  | results (results : List ToolResult)

/-- The final message of a stream. -/
structure Final (J : Type) where
  content : List (Block J)
  refusal : Bool
  inputTokens : Nat
  outputTokens : Nat

/-- What arrives before the final message. -/
inductive Delta
  | text (content : Text)
  | toolUseStart (id name : Text)
  | other

/-- The answer to a request; `failed` is an exception of the SDK, after some deltas. -/
inductive Answer (J : Type)
  | completed (deltas : List Delta) (final : Final J)
  | failed (deltas : List Delta) (message : Text)

inductive Event (J : Type)
  | text (content : Text)
  | toolUseStart (id name : Text)
  | toolUse (use : ToolUse J)
  | refusal
  | done (inputTokens outputTokens : Nat) (content : List (Block J))
  | error (message : Text)

section

variable {J : Type}

/-! ### `clients/claude_client.py` -/

def Block.isText : Block J → Bool
  | .text _ => true
  | _ => false

def Block.isFallback : Block J → Bool
  | .fallback => true
  | _ => false

def Block.toolUse? : Block J → Option (ToolUse J)
  | .toolUse use => some use
  | _ => none

/-- `max((i for i, b in enumerate(blocks) if b.get("type") == "fallback"), default=-1)`. -/
def fallbackBoundary (blocks : List (Block J)) : Int :=
  ((blocks.zipIdx.filter fun e => e.1.isFallback).map fun e => (e.2 : Int)).foldl max (-1)

def replayableContent (blocks : List (Block J)) : List (Block J) :=
  (blocks.zipIdx.filter fun e => !e.1.isFallback && (decide (fallbackBoundary blocks < e.2) || e.1.isText)).map Prod.fst

def deltaEvent : Delta → Option (Event J)
  | .text content => some (.text content)
  | .toolUseStart id name => some (.toolUseStart id name)
  | .other => none

def streamChat : Answer J → List (Event J)
  | .completed deltas final =>
    let content := replayableContent final.content
    deltas.filterMap deltaEvent ++ (if final.refusal then [.refusal] else (content.filterMap Block.toolUse?).map .toolUse) ++
      [.done final.inputTokens final.outputTokens content]
  | .failed deltas message => deltas.filterMap deltaEvent ++ [.error message]

/-! ### `routes/ai_chat.py` -/

/-- A call that has been executed, with its result. -/
abbrev Execution (J : Type) := ToolUse J × Text

/-- The variables of a round. -/
structure Round (J : Type) where
  roundText : Text := []
  toolCalls : List (ToolUse J) := []
  toolResultsById : Dict Text Text := []
  roundContent : Option (List (Block J)) := none
  refused : Bool := false

/-- The events of a round, after the executions so far; nothing is left of a round that ends in an error.  `execute k` is `execute_tool` for the
`k`-th call of the request: it answers with a text whatever happens. -/
def runRound (execute : Nat → ToolUse J → Text) : List (Event J) → Round J → List (Execution J) → List (Execution J) × Option (Round J)
  | [], round, executed => (executed, some round)
  | .text content :: es, round, executed => runRound execute es { round with roundText := round.roundText ++ content } executed
  | .toolUseStart _ _ :: es, round, executed => runRound execute es round executed
  | .toolUse use :: es, round, executed =>
    let result := execute executed.length use
    runRound execute es { round with
      toolCalls := round.toolCalls ++ [use]
      toolResultsById := round.toolResultsById.set use.id result } (executed ++ [(use, result)])
  | .refusal :: es, round, executed => runRound execute es { round with refused := true } executed
  | .done _ _ content :: es, round, executed => runRound execute es { round with roundContent := some content } executed
  | .error _ :: _, _, executed => (executed, none)

/-- The turn that is sent back; it is rebuilt if the client did not supply the blocks. -/
def Round.assistantContent (round : Round J) : List (Block J) :=
  match round.roundContent with
  | some (b :: bs) => b :: bs
  | _ => (if round.roundText = [] then [] else [.text round.roundText]) ++ round.toolCalls.map .toolUse

def Round.results (round : Round J) : List ToolResult :=
  round.toolCalls.map fun use => ⟨use.id, (round.toolResultsById.get? use.id).getD []⟩

/-- The requests of a chat request to the model, the messages for the next one, and the calls executed so far. -/
structure Trace (J : Type) where
  requests : List (List (Message J)) := []
  messages : List (Message J)
  executed : List (Execution J) := []

def maxIterations : Nat := 5

/-- The loop, where `answers k` is the answer to the `k`-th request. -/
def generate (execute : Nat → ToolUse J → Text) (answers : Nat → Answer J) : Nat → Trace J → Trace J
  | 0, t => t
  | n + 1, t =>
    match runRound execute (streamChat (answers t.requests.length)) {} t.executed with
    | (executed, none) => { t with requests := t.requests ++ [t.messages], executed := executed }
    | (executed, some round) =>
      if round.refused || round.toolCalls.isEmpty then
        { t with requests := t.requests ++ [t.messages], executed := executed }
      else generate execute answers n {
        requests := t.requests ++ [t.messages]
        messages := t.messages ++ [.assistant round.assistantContent, .results round.results]
        executed := executed }

def chatRequest (execute : Nat → ToolUse J → Text) (answers : Nat → Answer J) (history : List (Bool × Text)) : Trace J :=
  generate execute answers maxIterations { messages := history.map fun e => .text e.1 e.2 }

/-! ### What is sent back -/

/-- The calls of an answer that is not declined. -/
def Answer.calls : Answer J → List (ToolUse J)
  | .completed _ final => if final.refusal then [] else (replayableContent final.content).filterMap Block.toolUse?
  | .failed _ _ => []

/-- One result for each call, in order, each the result of a call with its id: the call's own one, if no two calls have the same id. -/
structure Answered (calls : List (Execution J)) (results : List ToolResult) : Prop where
  ids : results.map ToolResult.toolUseId = calls.map fun e => e.1.id
  own : ∀ r ∈ results, ∃ e ∈ calls, e.1.id = r.toolUseId ∧ e.2 = r.content
  each : (calls.map fun e => e.1.id).Nodup → results = calls.map fun e => ⟨e.1.id, e.2⟩

/-- The messages after the answers: each of them has been sent back as it came, with the results of its calls, all of them executed for it. -/
inductive Replays (history : List (Message J)) : List (Answer J) → List (Message J) → List (Execution J) → Prop
  | start : Replays history [] history []
  | round {answers : List (Answer J)} {messages : List (Message J)} {executed calls : List (Execution J)} {deltas : List Delta}
      {final : Final J} {results : List ToolResult} : Replays history answers messages executed → final.refusal = false → calls ≠ [] →
      calls.map Prod.fst = (replayableContent final.content).filterMap Block.toolUse? → Answered calls results →
      Replays history (answers ++ [.completed deltas final])
        (messages ++ [.assistant (replayableContent final.content), .results results]) (executed ++ calls)

/-! ### One round -/

/-- The executions of calls, the first of them the `k`-th of the request. -/
def executions (execute : Nat → ToolUse J → Text) : Nat → List (ToolUse J) → List (Execution J)
  | _, [] => []
  | k, use :: uses => (use, execute k use) :: executions execute (k + 1) uses

theorem map_fst_executions (execute : Nat → ToolUse J → Text) (k : Nat) (uses : List (ToolUse J)) :
    (executions execute k uses).map Prod.fst = uses := by
  induction uses generalizing k with
  | nil => rfl
  | cons use uses ih => exact congrArg (use :: ·) (ih (k + 1))

variable (execute : Nat → ToolUse J → Text)

theorem runRound_deltas (deltas : List Delta) (es : List (Event J)) (round : Round J) (executed : List (Execution J)) :
    ∃ text, runRound execute (deltas.filterMap deltaEvent ++ es) round executed =
      runRound execute es { round with roundText := text } executed := by
  induction deltas generalizing round with
  | nil => exact ⟨round.roundText, rfl⟩
  | cons d deltas ih =>
    cases d with
    | text content => exact ih _
    | toolUseStart id name => exact ih round
    | other => exact ih round

theorem runRound_toolUses (uses : List (ToolUse J)) (es : List (Event J)) (round : Round J) (executed : List (Execution J)) :
    runRound execute (uses.map .toolUse ++ es) round executed =
      runRound execute es { round with
        toolCalls := round.toolCalls ++ uses
        toolResultsById := round.toolResultsById.setAll ((executions execute executed.length uses).map fun e => (e.1.id, e.2)) }
        (executed ++ executions execute executed.length uses) := by
  induction uses generalizing round executed with
  | nil =>
    simp only [executions, List.append_nil, List.map_nil]
    rfl
  | cons use uses ih =>
    refine (ih _ _).trans ?_
    rw [List.length_append, List.append_assoc, List.append_assoc]
    rfl

/-- What a round leaves. -/
theorem runRound_streamChat (answer : Answer J) (executed : List (Execution J)) :
    (runRound execute (streamChat answer) {} executed).1 = executed ++ executions execute executed.length answer.calls ∧
      ∀ round, (runRound execute (streamChat answer) {} executed).2 = some round → round.refused = false → round.toolCalls ≠ [] →
        ∃ deltas final, answer = .completed deltas final ∧ final.refusal = false ∧ round.toolCalls = answer.calls ∧
          round.toolResultsById = Dict.setAll [] ((executions execute executed.length answer.calls).map fun e => (e.1.id, e.2)) ∧
          round.roundContent = some (replayableContent final.content) := by
  cases answer with
  | failed deltas message =>
    obtain ⟨text, htext⟩ := runRound_deltas execute deltas [.error message] {} executed
    unfold streamChat
    rw [htext]
    refine ⟨(List.append_nil executed).symm, fun round hround => ?_⟩
    cases hround
  | completed deltas final =>
    obtain ⟨text, htext⟩ := runRound_deltas execute deltas
      ((if final.refusal then [.refusal] else ((replayableContent final.content).filterMap Block.toolUse?).map .toolUse) ++
        [.done final.inputTokens final.outputTokens (replayableContent final.content)]) {} executed
    unfold streamChat
    simp only
    rw [List.append_assoc, htext]
    cases hrefusal : final.refusal with
    | true =>
      have hcalls : (Answer.completed deltas final).calls = [] := if_pos hrefusal
      rw [hcalls]
      refine ⟨(List.append_nil executed).symm, fun round hround hrefused => ?_⟩
      cases hround
      cases hrefused
    | false =>
      have hcalls : (Answer.completed deltas final).calls = (replayableContent final.content).filterMap Block.toolUse? :=
        if_neg (Bool.eq_false_iff.1 hrefusal)
      rw [if_neg Bool.false_ne_true, runRound_toolUses, hcalls]
      refine ⟨rfl, fun round hround _ _ => ?_⟩
      cases hround
      exact ⟨deltas, final, rfl, hrefusal, rfl, rfl, rfl⟩

/-! ### The results -/

theorem get?_setAll_mem {κ ν : Type} [DecidableEq κ] {entries : List (κ × ν)} {k : κ} (hk : k ∈ entries.map Prod.fst) (d : Dict κ ν) :
    ∃ v, (d.setAll entries).get? k = some v ∧ (k, v) ∈ entries := by
  induction entries using List.reverseRecOn with
  | nil => cases hk
  | append_singleton entries e ih =>
    have hset : d.setAll (entries ++ [e]) = (d.setAll entries).set e.1 e.2 := List.foldl_concat ..
    rw [hset]
    by_cases heq : k = e.1
    · exact ⟨e.2, by rw [heq, Dict.get?_set_self], heq ▸ List.mem_append_right entries List.mem_cons_self⟩
    · rw [List.map_append, List.mem_append] at hk
      obtain ⟨v, hget, hmem⟩ := ih (hk.resolve_right fun h => heq (List.mem_singleton.1 h))
      exact ⟨v, by rw [Dict.get?_set_of_ne heq, hget], List.mem_append_left _ hmem⟩

theorem answered_results {round : Round J} {calls : List (Execution J)} (huses : round.toolCalls = calls.map Prod.fst)
    (hresults : round.toolResultsById = Dict.setAll [] (calls.map fun e => (e.1.id, e.2))) : Answered calls round.results := by
  have heach : round.results = calls.map fun e => ⟨e.1.id, (round.toolResultsById.get? e.1.id).getD []⟩ := by
    unfold Round.results
    rw [huses, List.map_map]
    rfl
  have hown : ∀ e ∈ calls, ∃ e' ∈ calls, e'.1.id = e.1.id ∧ e'.2 = (round.toolResultsById.get? e.1.id).getD [] := fun e he => by
    have hkey : e.1.id ∈ (calls.map fun e => (e.1.id, e.2)).map Prod.fst := by
      rw [List.map_map]
      exact List.mem_map.2 ⟨e, he, rfl⟩
    obtain ⟨v, hget, hmem⟩ := get?_setAll_mem hkey []
    obtain ⟨e', he', heq⟩ := List.mem_map.1 hmem
    obtain ⟨hid, hv⟩ := Prod.mk.inj heq
    exact ⟨e', he', hid, by rw [hresults, hget, hv]; rfl⟩
  rw [heach]
  refine ⟨List.map_map, fun r hr => ?_, fun hnodup => List.map_congr_left fun e he => ?_⟩
  · obtain ⟨e, he, rfl⟩ := List.mem_map.1 hr
    exact hown e he
  · obtain ⟨e', he', hid, hv⟩ := hown e he
    rw [← hv, List.inj_on_of_nodup_map hnodup he' he hid]

/-! ### Runs -/

variable (answers : Nat → Answer J) (history : List (Message J))

/-- What holds of the requests and executions at every time. -/
structure Kept (t : Trace J) : Prop where
  executed : t.executed.map Prod.fst = (List.range t.requests.length).flatMap fun k => (answers k).calls
  own : ∀ k use result, t.executed[k]? = some (use, result) → result = execute k use
  requests : ∀ k request, t.requests[k]? = some request →
    ∃ executed, executed <+: t.executed ∧ Replays history ((List.range k).map answers) request executed

theorem getElem?_executions {k i : Nat} {uses : List (ToolUse J)} {use : ToolUse J} {result : Text}
    (h : (executions execute k uses)[i]? = some (use, result)) : result = execute (k + i) use := by
  induction uses generalizing k i with
  | nil => cases h
  | cons u uses ih =>
    cases i with
    | zero =>
      cases h
      rfl
    | succ i =>
      have hrest := ih h
      rwa [Nat.add_right_comm] at hrest

/-- One request more, and the executions for its answer. -/
theorem Kept.ask {t : Trace J} (h : Kept execute answers history t)
    (hmessages : Replays history ((List.range t.requests.length).map answers) t.messages t.executed) (messages : List (Message J)) :
    Kept execute answers history {
      requests := t.requests ++ [t.messages]
      messages := messages
      executed := t.executed ++ executions execute t.executed.length (answers t.requests.length).calls } := by
  refine ⟨?_, fun k use result hk => ?_, fun k request hk => ?_⟩
  · simp only [List.map_append, List.length_append, List.length_singleton]
    rw [h.executed, map_fst_executions, List.range_succ, List.flatMap_append, List.flatMap_singleton]
  · simp only at hk
    rcases Nat.lt_or_ge k t.executed.length with hlt | hge
    · rw [List.getElem?_append_left hlt] at hk
      exact h.own k use result hk
    · rw [List.getElem?_append_right hge] at hk
      have hresult := getElem?_executions execute hk
      rwa [Nat.add_sub_cancel' hge] at hresult
  · simp only at hk
    rcases Nat.lt_or_ge k t.requests.length with hlt | hge
    · rw [List.getElem?_append_left hlt] at hk
      obtain ⟨executed, hbefore, hreplays⟩ := h.requests k request hk
      exact ⟨executed, hbefore.trans (List.prefix_append _ _), hreplays⟩
    · rw [List.getElem?_append_right hge] at hk
      obtain ⟨hk0, rfl⟩ : k - t.requests.length = 0 ∧ t.messages = request := by
        simpa [List.getElem?_singleton] using hk
      obtain rfl : k = t.requests.length := Nat.le_antisymm (Nat.sub_eq_zero_iff_le.1 hk0) hge
      exact ⟨t.executed, List.prefix_append _ _, hmessages⟩

theorem kept_generate (n : Nat) {t : Trace J} (h : Kept execute answers history t)
    (hmessages : Replays history ((List.range t.requests.length).map answers) t.messages t.executed) :
    Kept execute answers history (generate execute answers n t) ∧
      (generate execute answers n t).requests.length ≤ t.requests.length + n := by
  induction n generalizing t with
  | zero => exact ⟨h, le_rfl⟩
  | succ n ih =>
    obtain ⟨hexecuted, hround⟩ := runRound_streamChat execute (answers t.requests.length) t.executed
    have hone : (t.requests ++ [t.messages]).length = t.requests.length + 1 := List.length_append
    unfold generate
    cases hrun : runRound execute (streamChat (answers t.requests.length)) {} t.executed with
    | mk executed round =>
      rw [hrun] at hexecuted hround
      simp only at hexecuted hround
      subst hexecuted
      cases round with
      | none => exact ⟨h.ask execute answers history hmessages t.messages, hone.le.trans (by omega)⟩
      | some round =>
        simp only
        split
        · exact ⟨h.ask execute answers history hmessages t.messages, hone.le.trans (by omega)⟩
        · rename_i hgoes
          rw [Bool.or_eq_true, not_or, Bool.not_eq_true, Bool.not_eq_true, List.isEmpty_eq_false_iff] at hgoes
          obtain ⟨deltas, final, hanswer, hserved, hcalls, hresults, hcontent⟩ := hround round rfl hgoes.1 hgoes.2
          have huses := map_fst_executions execute t.executed.length (answers t.requests.length).calls
          have hfst : (executions execute t.executed.length (answers t.requests.length).calls).map Prod.fst =
              (replayableContent final.content).filterMap Block.toolUse? := by
            rw [huses, hanswer]
            exact if_neg (Bool.eq_false_iff.1 hserved)
          have hsome : executions execute t.executed.length (answers t.requests.length).calls ≠ [] := by
            intro hnil
            rw [hnil] at huses
            exact hgoes.2 (hcalls.trans huses.symm)
          have hturn : round.assistantContent = replayableContent final.content := by
            unfold Round.assistantContent
            rw [hcontent]
            cases hblocks : replayableContent final.content with
            | nil =>
              rw [hblocks] at hfst
              exact absurd (List.map_eq_nil_iff.1 hfst) hsome
            | cons b bs => rfl
          have hanswered := answered_results (hcalls.trans huses.symm) hresults
          have hnext : Replays history (_ ++ [.completed deltas final]) _ _ := hmessages.round hserved hsome hfst hanswered
          rw [← hturn, ← hanswer] at hnext
          have hrange : (List.range (t.requests ++ [t.messages]).length).map answers =
              (List.range t.requests.length).map answers ++ [answers t.requests.length] := by
            rw [hone, List.range_succ, List.map_append]
            rfl
          obtain ⟨hkept, hlength⟩ := ih (h.ask execute answers history hmessages _) (hrange ▸ hnext)
          exact ⟨hkept, hlength.trans (by simp only [hone]; omega)⟩

theorem kept_chatRequest (history : List (Bool × Text)) :
    Kept execute answers (history.map fun e => .text e.1 e.2) (chatRequest execute answers history) ∧
      (chatRequest execute answers history).requests.length ≤ maxIterations := by
  have hkept := kept_generate execute answers (history.map fun e => .text e.1 e.2) maxIterations
    (t := { messages := history.map fun e => .text e.1 e.2 })
    ⟨rfl, fun k use result hk => (by cases hk), fun k request hk => (by cases hk)⟩ .start
  rwa [List.length_nil, Nat.zero_add] at hkept

/-- A chat request asks the model at most five times; each call of an answer is executed once, in order, and answered with the result of its
execution; and each request consists of the history and the turns so far, each as it came and with the results of its calls behind it. -/
theorem generate_replays (history : List (Bool × Text)) :
    (chatRequest execute answers history).requests.length ≤ maxIterations ∧
      (chatRequest execute answers history).executed.map Prod.fst =
        (List.range (chatRequest execute answers history).requests.length).flatMap (fun k => (answers k).calls) ∧
      (∀ k use result, (chatRequest execute answers history).executed[k]? = some (use, result) → result = execute k use) ∧
      ∀ k request, (chatRequest execute answers history).requests[k]? = some request →
        ∃ executed, executed <+: (chatRequest execute answers history).executed ∧
          Replays (history.map fun e => .text e.1 e.2) ((List.range k).map answers) request executed := by
  obtain ⟨hkept, hlength⟩ := kept_chatRequest execute answers history
  exact ⟨hlength, hkept.executed, hkept.own, hkept.requests⟩

/-! ### Nothing of a model that declined -/

theorem le_fallbackBoundary {blocks : List (Block J)} {i : Nat} {b : Block J} (hi : blocks[i]? = some b) (hb : b.isFallback = true) :
    (i : Int) ≤ fallbackBoundary blocks := by
  have hmem : (i : Int) ∈ (blocks.zipIdx.filter fun e => e.1.isFallback).map fun e => (e.2 : Int) :=
    List.mem_map.2 ⟨(b, i), List.mem_filter.2 ⟨List.mem_zipIdx_iff_getElem?.2 hi, hb⟩, rfl⟩
  unfold fallbackBoundary
  rw [List.foldl_max_eq_max (List.ne_nil_of_mem hmem)]
  exact (List.le_max_of_mem hmem).trans (le_max_right _ _)

/-- A block of the final message that no `fallback` follows. -/
def Served (final : Final J) (b : Block J) : Prop :=
  ∃ before after, final.content = before ++ b :: after ∧ ∀ b' ∈ after, b'.isFallback = false

theorem served_of_mem {final : Final J} {b : Block J} (h : b ∈ replayableContent final.content) : b.isText = true ∨ Served final b := by
  unfold replayableContent at h
  obtain ⟨⟨b, i⟩, hmem, rfl⟩ := List.mem_map.1 h
  obtain ⟨hzip, hkeep⟩ := List.mem_filter.1 hmem
  have hi : final.content[i]? = some b := List.mem_zipIdx_iff_getElem?.1 hzip
  rw [Bool.and_eq_true, Bool.or_eq_true] at hkeep
  rcases hkeep.2 with hafter | htext
  · refine .inr ⟨final.content.take i, final.content.drop (i + 1), ?_, fun b' hb' => ?_⟩
    · obtain ⟨hlt, hget⟩ := List.getElem?_eq_some_iff.1 hi
      rw [← hget, List.cons_getElem_drop_succ, List.take_append_drop]
    · by_contra hfallback
      obtain ⟨j, hj⟩ := List.mem_iff_getElem?.1 hb'
      rw [List.getElem?_drop] at hj
      have hle := le_fallbackBoundary hj (Bool.not_eq_false _ ▸ hfallback)
      have hlt := of_decide_eq_true hafter
      push_cast at hle
      simp only at hlt
      omega
  · exact .inl htext

theorem Replays.assistant {history messages : List (Message J)} {asked : List (Answer J)} {executed : List (Execution J)}
    (h : Replays history asked messages executed) {content : List (Block J)} (hmem : .assistant content ∈ messages) :
    .assistant content ∈ history ∨
      ∃ deltas final, .completed deltas final ∈ asked ∧ final.refusal = false ∧ content = replayableContent final.content := by
  induction h with
  | start => exact .inl hmem
  | round hbefore hserved hsome hcalls hanswered ih =>
    rename_i asked messages executed calls deltas final results
    rcases List.mem_append.1 hmem with hmem | hmem
    · refine (ih hmem).imp_right fun hex => ?_
      obtain ⟨deltas', final', hasked, hrest⟩ := hex
      exact ⟨deltas', final', List.mem_append_left _ hasked, hrest⟩
    · rcases List.mem_cons.1 hmem with heq | hmem
      · exact .inr ⟨deltas, final, List.mem_append_right asked List.mem_cons_self, hserved, Message.assistant.inj heq⟩
      · cases List.mem_singleton.1 hmem

/-- No call that stands before a `fallback`, or in an answer that was declined, is executed, and of such an answer only text is sent back. -/
theorem executed_served (history : List (Bool × Text)) :
    (∀ e ∈ (chatRequest execute answers history).executed, ∃ k < (chatRequest execute answers history).requests.length, ∃ deltas final,
      answers k = .completed deltas final ∧ final.refusal = false ∧ Served final (.toolUse e.1)) ∧
    ∀ request ∈ (chatRequest execute answers history).requests, ∀ content, .assistant content ∈ request →
      ∃ k < (chatRequest execute answers history).requests.length, ∃ deltas final,
        answers k = .completed deltas final ∧ final.refusal = false ∧ ∀ b ∈ content, b.isText = true ∨ Served final b := by
  obtain ⟨hkept, -⟩ := kept_chatRequest execute answers history
  constructor
  · intro e he
    have hfst := List.mem_map_of_mem (f := Prod.fst) he
    rw [hkept.executed] at hfst
    obtain ⟨k, hk, hcall⟩ := List.mem_flatMap.1 hfst
    refine ⟨k, List.mem_range.1 hk, ?_⟩
    cases hanswer : answers k with
    | failed deltas message =>
      rw [hanswer] at hcall
      cases hcall
    | completed deltas final =>
      rw [hanswer] at hcall
      by_cases hrefusal : final.refusal = true
      · rw [show (Answer.completed deltas final).calls = [] from if_pos hrefusal] at hcall
        cases hcall
      · rw [show (Answer.completed deltas final).calls = _ from if_neg hrefusal] at hcall
        obtain ⟨b, hb, huse⟩ := List.mem_filterMap.1 hcall
        cases b with
        | toolUse use =>
          cases huse
          exact ⟨deltas, final, rfl, Bool.eq_false_iff.2 hrefusal, (served_of_mem hb).resolve_left Bool.false_ne_true⟩
        | text content => cases huse
        | fallback => cases huse
        | other type content => cases huse
  · intro request hrequest content hcontent
    obtain ⟨k, hk⟩ := List.mem_iff_getElem?.1 hrequest
    obtain ⟨executed, -, hreplays⟩ := hkept.requests k request hk
    rcases hreplays.assistant hcontent with hmem | ⟨deltas, final, hasked, hserved, rfl⟩
    · obtain ⟨text, -, heq⟩ := List.mem_map.1 hmem
      cases heq
    · obtain ⟨i, hi, hanswer⟩ := List.mem_map.1 hasked
      have hlt : i < (chatRequest execute answers history).requests.length :=
        (List.mem_range.1 hi).trans (List.getElem?_eq_some_iff.1 hk).1
      exact ⟨i, hlt, deltas, final, hanswer, hserved, fun b hb => served_of_mem hb⟩

end

end ProxmoxTool.AiTools.Conversation
