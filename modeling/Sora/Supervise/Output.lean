import Sora.Lib.Bytes

/-!
# The output of a child process

`lineWriter` gets the output in pieces of any size and emits its lines.  As long as no line is longer
than the limit of the buffer, these are the lines of the whole output, however it was cut.
-/

namespace Sora.Supervise

open Sora.Lib List

def maxLine : Nat := 64 * 1024

/-- `lineWriter`, with the lines that it has emitted. -/
structure LineWriter where
  buf : Bytes := []
  emitted : List Bytes := []

/-- `bytes.TrimRight` with a carriage return. -/
def trimReturns (line : Bytes) : Bytes := line.rdropWhile (· == 13)

namespace LineWriter

/-- The loop of `Write`. -/
def drain (w : LineWriter) : LineWriter :=
  match w.buf.finIdxOf? 10 with
  | none => w
  | some i => drain ⟨w.buf.drop (i + 1), w.emitted ++ [trimReturns (w.buf.take i)]⟩
termination_by w.buf.length
decreasing_by
  simp only [length_drop]
  omega

def write (w : LineWriter) (p : Bytes) : LineWriter :=
  let w := drain { w with buf := w.buf ++ p }
  if maxLine < w.buf.length then ⟨[], w.emitted ++ [w.buf]⟩ else w

def flush (w : LineWriter) : LineWriter :=
  if w.buf = [] then w else ⟨[], w.emitted ++ [w.buf]⟩

end LineWriter

/-- The lines of an output: what newlines end, without the carriage returns before them, and what
stands after the last newline, unless it is empty. -/
def linesOf (output : Bytes) : List Bytes :=
  let parts := output.splitOn 10
  parts.dropLast.map trimReturns ++ parts.getLast?.toList.filter (· ≠ [])

variable {line rest : Bytes}

theorem linesOf_newline (whole : 10 ∉ line) (rest : Bytes) :
    linesOf (line ++ 10 :: rest) = trimReturns line :: linesOf rest := by
  have more : rest.splitOn 10 ≠ [] := splitOn_ne_nil 10 rest
  simp only [linesOf, splitOn_append_cons_self_of_not_mem whole, dropLast_cons_of_ne_nil more,
    getLast?_cons_of_ne_nil more, map_cons, cons_append]

theorem linesOf_rest (whole : 10 ∉ rest) : linesOf rest = [rest].filter (· ≠ []) := by
  rw [linesOf, splitOn_eq_singleton whole]
  rfl

namespace LineWriter

/-- The loop takes complete lines off the buffer, and leaves no newline in it. -/
theorem drain_spec (w : LineWriter) (later : Bytes) :
    10 ∉ w.drain.buf ∧ w.drain.buf <:+ w.buf ∧
      w.drain.emitted ++ linesOf (w.drain.buf ++ later) = w.emitted ++ linesOf (w.buf ++ later) := by
  fun_induction drain w with
  | case1 w found => exact ⟨finIdxOf?_eq_none_iff.mp found, suffix_rfl, rfl⟩
  | case2 w i found ih =>
    obtain ⟨unended, suffix, lines⟩ := ih
    refine ⟨unended, suffix.trans (drop_suffix ..), lines.trans ?_⟩
    obtain ⟨newline, first⟩ := finIdxOf?_eq_some_iff.mp found
    have whole : 10 ∉ w.buf.take i := by
      intro inside
      obtain ⟨j, below, here⟩ := mem_take_iff_getElem.mp inside
      have before : j < i := by omega
      exact first ⟨j, by omega⟩ before here
    have cut : w.buf = w.buf.take i ++ 10 :: w.buf.drop (i + 1) := by
      rw [← newline, Fin.getElem_fin, getElem_cons_drop, take_append_drop]
    conv_rhs => rw [cut, append_assoc, cons_append, linesOf_newline whole]
    simp

end LineWriter

/-- Every output without a line that is longer than the limit, in any pieces. -/
theorem lines_of_pieces (pieces : List Bytes)
    (short : ∀ line, line <:+: pieces.flatten → 10 ∉ line → line.length ≤ maxLine) :
    (pieces.foldl LineWriter.write {}).flush.emitted = linesOf pieces.flatten := by
  suffices all : ∀ w : LineWriter, 10 ∉ w.buf →
      (∀ line, line <:+: w.buf ++ pieces.flatten → 10 ∉ line → line.length ≤ maxLine) →
      (pieces.foldl LineWriter.write w).flush.emitted = w.emitted ++ linesOf (w.buf ++ pieces.flatten)
    from all {} not_mem_nil short
  clear short
  induction pieces with
  | nil =>
    intro w unended _
    rw [flatten_nil, append_nil, linesOf_rest unended, foldl_nil, LineWriter.flush]
    split <;> simp [*]
  | cons piece pieces ih =>
    intro w _ short
    obtain ⟨unended, suffix, lines⟩ :=
      LineWriter.drain_spec { w with buf := w.buf ++ piece } pieces.flatten
    rw [flatten_cons, ← append_assoc] at short ⊢
    -- what is left in the buffer is a part of a line
    have within := short _ (suffix.isInfix.trans (prefix_append ..).isInfix) unended
    rw [foldl_cons, LineWriter.write, if_neg (Nat.not_lt_of_le within), ← lines]
    refine ih _ unended fun line inside => short line (inside.trans ?_)
    obtain ⟨gone, taken : gone ++ _ = w.buf ++ piece⟩ := suffix
    exact ⟨gone, [], by rw [append_nil, ← append_assoc, taken]⟩

/-- A line in two pieces, cut inside its line end, and a last line without one. -/
theorem cut_line_whole :
    ([ascii "a\r", ascii "\nb"].foldl LineWriter.write {}).flush.emitted = [ascii "a", ascii "b"] := by
  rw [lines_of_pieces _ fun line inside _ => inside.length_le.trans (by decide)]
  decide

end Sora.Supervise
