import LinkState.Database
import LinkState.Pdu.Snp

/-!
# Pages of a database

Complete sequence numbers PDUs describe a database page by page.  The pages
cover the LSP IDs from the least to the greatest without gap or overlap, and
are built as they are asked for.  Each page but the last one ends at the last
LSP it describes.
-/

namespace LinkState

/-- A page: the LSP IDs it covers, the summaries of the LSPs among them, and
the octets that are sent. -/
structure Page where
  start : LspId
  stop : LspId
  entries : List LspSummary
  octets : Octets
  deriving DecidableEq, Repr

namespace Page

/-- Whether the last page is among the given ones. -/
def complete (pages : List Page) : Bool :=
  match pages.getLast? with
  | some page => page.stop = LspId.last
  | none => false

/-- Where the page after the given ones starts. -/
def nextStart (pages : List Page) : LspId :=
  match pages.getLast? with
  | some page => page.stop.successor?.getD LspId.last
  | none => LspId.first

/-- The page that starts at an LSP ID, with the given number of summaries at
most. -/
def build (level : Level) (source : NodeId) (capacity : Nat) (database : Database) (now : Nat)
    (start : LspId) : Page :=
  let limit := max capacity 1
  let summaries := ((database.since start).take (limit + 1)).map fun entry =>
    entry.lsp.summary now
  let entries := summaries.take limit
  let stop :=
    if limit < summaries.length then (entries.getLast?.map (·.id)).getD LspId.last
    else LspId.last
  let snp := Snp.make level source (some (start, stop)) (SnpTlvs.ofSummaries entries)
  ⟨start, stop, entries, snp.toOctets⟩

/-- The pages before the one that covers an LSP ID. -/
def keepBefore (pages : List Page) (id : LspId) : List Page :=
  pages.takeWhile fun page => page.stop < id

end Page

end LinkState
