import ProxmoxTool.Lib.Utf8Cut
import ProxmoxTool.Ssh.Capture

/-!
# Streamed and collected output

`SSHClient.execute_streaming` decodes every chunk of a stream on its own, as it comes; `SSHClient.execute` collects the bytes and decodes
them once.  How the output is cut into chunks depends on the network: `streamed_eq_executed_iff` says for which cuts the two agree.
-/

namespace ProxmoxTool.Ssh

open Utf8

/-- The texts that `_emit` hands to the callback for one stream, of the chunks that `_drain_channel` hands on. -/
def emitted (chunks : List Bytes) : List Text := ((chunks.filter (· ≠ [])).map decodeReplace).filter (· ≠ [])

theorem flatten_emitted (chunks : List Bytes) : (emitted chunks).flatten = chunks.flatMap decodeReplace := by
  induction chunks with
  | nil => rfl
  | cons chunk chunks ih =>
    unfold emitted at *
    rw [List.flatMap_cons, ← ih]
    by_cases hchunk : chunk = []
    · subst hchunk
      rfl
    · rw [List.filter_cons_of_pos (by simpa using hchunk), List.map_cons]
      by_cases htext : decodeReplace chunk = []
      · rw [List.filter_cons_of_neg (by simpa using htext), htext, List.nil_append]
      · rw [List.filter_cons_of_pos (by simpa using htext), List.flatten_cons]

/-- What `execute` returns of a standard output that fits, however it is cut. -/
theorem execute_of_fits (timeout : Nat) {out : List Bytes} (err : List Bytes) (code : Int) (h : out.flatten.length ≤ maxOutputBytes) :
    (execute timeout (.finished out err code)).1 = decodeReplace out.flatten := by
  show (capture maxOutputBytes out).text = _
  rw [text_capture, List.take_of_length_le h, if_neg (not_lt.2 h), List.append_nil]

/-- For an output that fits, cut in two ways: the streamed texts together are the text that `execute` returns if and only if no chunk
of the stream ends inside a character. -/
theorem streamed_eq_executed_iff (timeout : Nat) (chunks out err : List Bytes) (code : Int) (hout : out.flatten = chunks.flatten)
    (hfits : chunks.flatten.length ≤ maxOutputBytes) :
    (emitted chunks).flatten = (execute timeout (.finished out err code)).1 ↔ ¬ CutInside chunks := by
  rw [execute_of_fits timeout err code (hout ▸ hfits), hout, flatten_emitted, flatMap_decodeReplace_eq_iff]

/-- Two chunks of whole characters. -/
theorem streamed_eq_executed_ascii :
    (emitted [[97], [98]]).flatten = (execute 120 (.finished [[97, 98]] [] 0)).1 ↔ ¬ CutInside [[97], [98]] :=
  streamed_eq_executed_iff 120 [[97], [98]] [[97, 98]] [] 0 rfl (by decide)

/-- An `é` that arrives in two chunks is streamed as two replacement characters. -/
theorem streamed_ne_executed : ¬ ∀ (timeout : Nat) (chunks out err : List Bytes) (code : Int), out.flatten = chunks.flatten →
    chunks.flatten.length ≤ maxOutputBytes → (emitted chunks).flatten = (execute timeout (.finished out err code)).1 := by
  intro h
  have hsame := h 120 [[0xC3], [0xA9]] [[0xC3, 0xA9]] [] 0 rfl (by decide)
  have hlength := congrArg List.length hsame
  revert hlength
  decide +kernel

end ProxmoxTool.Ssh
