import ProxmoxTool.Lib.Lines

/-!
# The output of a command

`SSHClient.execute` drains both streams of a command in chunks and keeps of each the first `MAX_OUTPUT_BYTES` bytes, as text;
what was thrown away is said in a last line of the text itself.  The exit code is handed on as it came, so a caller that looks
at the code alone takes a part of the output for all of it (`text_capture`).
-/

namespace ProxmoxTool.Ssh

open Utf8

/-- `MAX_OUTPUT_BYTES`. -/
def maxOutputBytes : Nat := 8 * 1024 * 1024

/-- `_CappedBuffer`. -/
structure CappedBuffer where
  limit : Nat
  chunks : List Bytes := []
  size : Nat := 0
  truncated : Bool := false

namespace CappedBuffer

def append (b : CappedBuffer) (data : Bytes) : CappedBuffer :=
  if b.limit ≤ b.size then { b with truncated := true }
  else
    let room := b.limit - b.size
    { b with
      chunks := b.chunks ++ [data.take room]
      size := b.size + (data.take room).length
      truncated := b.truncated || decide (room < data.length) }

/-- The line that stands for what was thrown away. -/
def mark (limit : Nat) : Text := "[output truncated after ".toList ++ natText limit ++ " bytes]".toList

def text (b : CappedBuffer) : Text :=
  decodeReplace b.chunks.flatten ++ if b.truncated then '\n' :: mark b.limit else []

/-- What `append` keeps true: the buffer holds the beginning of what it was given. -/
structure Holds (b : CappedBuffer) (given : Bytes) : Prop where
  kept : b.chunks.flatten = given.take b.limit
  size_eq : b.size = min given.length b.limit
  truncated_iff : b.truncated = true ↔ b.limit < given.length

theorem limit_append (b : CappedBuffer) (data : Bytes) : (b.append data).limit = b.limit := by
  unfold append
  split <;> rfl

theorem Holds.append {b : CappedBuffer} {given : Bytes} (h : b.Holds given) {data : Bytes} (hdata : data ≠ []) :
    (b.append data).Holds (given ++ data) := by
  have hpos : 0 < data.length := List.length_pos_iff.2 hdata
  have hsize := h.size_eq
  unfold CappedBuffer.append
  split
  · rename_i hfull
    have hlimit : b.limit ≤ given.length := by omega
    refine ⟨?_, ?_, ?_⟩
    · rw [List.take_append_of_le_length hlimit]
      exact h.kept
    · rw [List.length_append]
      change b.size = min _ b.limit
      omega
    · rw [List.length_append]
      exact ⟨fun _ => by dsimp only; omega, fun _ => rfl⟩
  · rename_i hroom
    have hfit : given.length ≤ b.limit := by omega
    have hgiven : b.size = given.length := by omega
    refine ⟨?_, ?_, ?_⟩
    · dsimp only
      rw [List.flatten_append, h.kept, List.flatten_singleton, hgiven, List.take_of_length_le hfit, List.take_append,
        List.take_of_length_le hfit]
    · dsimp only
      rw [List.length_append, List.length_take]
      omega
    · dsimp only
      rw [Bool.or_eq_true, h.truncated_iff, decide_eq_true_eq, List.length_append]
      omega

end CappedBuffer

/-- One stream: `_drain_channel` hands on what is not empty. -/
def capture (limit : Nat) (chunks : List Bytes) : CappedBuffer :=
  (chunks.filter (· ≠ [])).foldl CappedBuffer.append { limit }

theorem capture_holds (limit : Nat) (chunks : List Bytes) :
    (capture limit chunks).limit = limit ∧ (capture limit chunks).Holds chunks.flatten := by
  unfold capture
  induction chunks using List.reverseRecOn with
  | nil => exact ⟨rfl, ⟨by simp, by simp, by simp⟩⟩
  | append_singleton chunks data ih =>
    rw [List.filter_append, List.flatten_append, List.flatten_singleton]
    by_cases hdata : data = []
    · simpa [hdata] using ih
    · rw [List.filter_cons_of_pos (by simpa using hdata), List.filter_nil, List.foldl_append]
      exact ⟨(CappedBuffer.limit_append _ _).trans ih.1, ih.2.append hdata⟩

/-- The text of a stream: its beginning up to the limit, and the mark if there is more. -/
theorem text_capture (limit : Nat) (chunks : List Bytes) :
    (capture limit chunks).text = decodeReplace (chunks.flatten.take limit) ++
      if limit < chunks.flatten.length then '\n' :: CappedBuffer.mark limit else [] := by
  obtain ⟨hlimit, hholds⟩ := capture_holds limit chunks
  have htruncated := hholds.truncated_iff
  unfold CappedBuffer.text
  rw [hholds.kept]
  rw [hlimit] at htruncated ⊢
  simp only [htruncated]

/-- What becomes of a command: it ends with an exit code, the time for it is over, or something raises on the way. -/
inductive Exec
  | finished (out err : List Bytes) (code : Int)
  | expired (out err : List Bytes)
  | failed (message : Text)

/-- `SSHClient.execute`: standard output, standard error and the exit code. -/
def execute (timeout : Nat) : Exec → Text × Text × Int
  | .finished out err code => ((capture maxOutputBytes out).text, (capture maxOutputBytes err).text, code)
  | .expired out err =>
    ((capture maxOutputBytes out).text,
      (capture maxOutputBytes err).text ++ "\n[timeout after ".toList ++ natText timeout ++ " s]".toList, -1)
  | .failed message => ([], "SSH command failed: ".toList ++ message, -1)

end ProxmoxTool.Ssh
