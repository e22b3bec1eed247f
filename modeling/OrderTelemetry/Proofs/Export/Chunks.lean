import Mathlib.Data.List.Basic
import OrderTelemetry.Export.Chunks

/-! # The text of an export

An export is written chunk by chunk, and the number of rows in a chunk is up to whoever asks for it.
All chunks together are the names of the columns and the rows of the records, as if they had been
written at once (`Export.text_ofRecords`). -/

namespace OrderTelemetry.Export

/-- The text that an export still has to write once `position` of its records are written. -/
def remainder (e : Export) : String :=
  (if e.headerWritten then "" else Csv.row columns) ++
    String.join ((e.records.toList.drop e.position).map fun r => Csv.row (rowFields e.format r))

theorem toList_pending (e : Export) :
    e.pending = (e.records.toList.drop e.position).take e.format.rowsPerChunk := by
  unfold pending
  rw [Array.toList_extract, List.extract_eq_take_drop, Nat.add_sub_cancel_left]

theorem remainder_of_finished {e : Export} (h : e.finished = true) : e.remainder = "" := by
  simp only [finished, Bool.and_eq_true, decide_eq_true_eq] at h
  unfold remainder
  rw [if_pos h.1, List.drop_eq_nil_of_le (by simpa using h.2)]
  rfl

theorem drop_position_advance (e : Export) :
    e.records.toList.drop e.advance.position =
      (e.records.toList.drop e.position).drop e.format.rowsPerChunk := by
  rw [List.drop_drop]
  show e.records.toList.drop (min (e.position + e.format.rowsPerChunk) e.records.size) = _
  rcases Nat.le_total (e.position + e.format.rowsPerChunk) e.records.size with hle | hle
  · rw [Nat.min_eq_left hle]
  · rw [Nat.min_eq_right hle, List.drop_eq_nil_of_le (by simp), List.drop_eq_nil_of_le (by simpa)]

/-- Behind the first chunk only rows remain. -/
theorem remainder_advance (e : Export) :
    e.advance.remainder =
      String.join ((e.records.toList.drop e.advance.position).map
        fun r => Csv.row (rowFields e.format r)) :=
  String.empty_append

/-- The next chunk is the front of what remains. -/
theorem remainder_eq_chunk_append (e : Export) : e.remainder = e.chunk ++ e.advance.remainder := by
  rw [remainder_advance, drop_position_advance]
  unfold chunk remainder
  rw [toList_pending, String.append_assoc, ← String.join_append, ← List.map_append,
    List.take_append_drop]

/-- All chunks together are what remains to be written. -/
theorem text_eq_remainder (e : Export) : e.text = e.remainder := by
  unfold text
  fun_induction chunks e with
  | case1 e hfinished => rw [remainder_of_finished hfinished]; rfl
  | case2 e hopen ih => rw [String.join_cons, ih, ← remainder_eq_chunk_append]

/-- **The text of an export** is the names of the columns and then a row for every record, whatever
the size of its chunks. -/
theorem text_ofRecords (records : Array Record) (format : ExportFormat) :
    (ofRecords records format).text =
      String.join ((columns :: records.toList.map (rowFields format)).map Csv.row) := by
  rw [text_eq_remainder]
  unfold remainder ofRecords
  simp [String.join_cons, Function.comp_def]

end OrderTelemetry.Export
