import LintCorpus.Json.Limits
import LintCorpus.Record
import LintCorpus.Stream.Scanner
import LintCorpus.Text.Lines
import LintCorpus.Text.Utf8

/-!
Records in the output of a build. The output holds one record a line, but plain text may stand
between records, a record may be cut off or may take several lines. A record starts at a line that
begins with a brace and ends where its braces are closed. When it cannot be decoded, the reader
goes on at the next line that begins a record; a line that begins with a brace and a quote does so
even inside another record. A record beyond the limits of JSON texts is no issue: the reader stops.
-/
namespace LintCorpus

inductive StreamMode where
  | seeking
  | inRecord
  | recovering
deriving DecidableEq, Repr

def StreamMode.name : StreamMode → Text
  | .seeking => "seeking_record_start"
  | .inRecord => "in_record"
  | .recovering => "recovering_from_error"

inductive StreamEvent where
  | started (line : Nat)
  | decoded (record : Members)
  | skipped (issue : Issue)
  | stopped (excess : Json.Excess)

namespace StreamEvent

def records (events : List StreamEvent) : List Members :=
  events.filterMap fun
    | .decoded record => some record
    | _ => none

def issues (events : List StreamEvent) : List Issue :=
  events.filterMap fun
    | .skipped issue => some issue
    | _ => none

def starts (events : List StreamEvent) : List Nat :=
  events.filterMap fun
    | .started line => some line
    | _ => none

def stops (events : List StreamEvent) : List Json.Excess :=
  events.filterMap fun
    | .stopped excess => some excess
    | _ => none

end StreamEvent

/-- The limits of the text of a record, and the size that records of several lines may have. -/
structure StreamLimits extends Json.Limits where
  size : Int := 4 * 1024 * 1024

/-- The reader between two lines: the lines of the open record, newest first, with their size when
joined, the number of the first one, and the state of the braces. -/
structure StreamReader where
  mode : StreamMode := .seeking
  buffer : List Text := []
  size : Nat := 0
  startLine : Nat := 0
  scanner : Scanner := {}

namespace StreamReader

def excerptLength : Nat := 120

def excerpt (fragment : Text) : Text :=
  let t := fragment.strip
  if t.length ≤ excerptLength then t else t.take excerptLength ++ "..."

def issue (line : Nat) (reason fragment : Text) : StreamEvent :=
  .skipped ⟨line, reason, excerpt fragment⟩

/-- The record that a text denotes, or the issue of the text. -/
def decode (limits : StreamLimits) (fragment : Text) (line : Nat) : StreamEvent :=
  match Json.load limits.toLimits fragment with
  | .error (.exceeding excess) => .stopped excess
  | .error (.malformed e) => issue line ("invalid JSON: " ++ e.cause.message) fragment
  | .ok (.object members) => .decoded members
  | .ok _ => issue line "record is not a JSON object" fragment

def buffered (r : StreamReader) : Text := Text.join [0x0A] r.buffer.reverse

def begin (limits : StreamLimits) (line : Text) (number : Nat) :
    StreamReader × List StreamEvent :=
  let scanner := Scanner.feed {} line
  if scanner.depth = 0 then ({ mode := .seeking }, [.started number, decode limits line number])
  else if scanner.depth < 0 then
    ({ mode := .recovering }, [.started number, issue number "unbalanced closing brace" line])
  else
    ({ mode := .inRecord, buffer := [line], size := line.length, startLine := number, scanner },
      [.started number])

def extend (limits : StreamLimits) (r : StreamReader) (line : Text) (number : Nat) :
    StreamReader × List StreamEvent :=
  if line.startsWith "\x7b\"" then
    let (next, events) := begin limits line number
    (next, issue r.startLine "truncated record" r.buffered :: events)
  else
    let grown := { r with
      buffer := line :: r.buffer
      size := r.size + line.length + 1
      scanner := r.scanner.feed line }
    if limits.size < grown.size then
      ({ mode := .recovering },
        [issue r.startLine ("record exceeds " ++ Text.ofInt limits.size ++ " characters")
          (grown.buffer.getLast?.getD [])])
    else if 0 < grown.scanner.depth then (grown, [])
    else if grown.scanner.depth < 0 then
      ({ mode := .recovering }, [issue r.startLine "unbalanced closing brace" grown.buffered])
    else ({ mode := .seeking }, [decode limits grown.buffered r.startLine])

def step (limits : StreamLimits) (r : StreamReader) (number : Nat) (line : Text) :
    StreamReader × List StreamEvent :=
  if r.mode = .inRecord then extend limits r line number
  else if line.startsWith "\x7b" then begin limits line number
  else (r, [])

/-- Takes lines numbered from `number` on, up to the one that stops the reader if there is one, and
tells what they brought about. -/
def run (limits : StreamLimits) (r : StreamReader) (number : Nat) :
    List Text → List StreamEvent → StreamReader × List StreamEvent
  | [], events => (r, events.reverse)
  | line :: rest, events =>
    let (next, more) := step limits r number line
    let events := more.reverse ++ events
    if (StreamEvent.stops more).isEmpty then run limits next (number + 1) rest events
    else (next, events.reverse)

/-- Ends a stream; a record still open is cut off. A reader that has stopped has none open. -/
def finish (r : StreamReader) : StreamReader × List StreamEvent :=
  if r.mode = .inRecord then
    ({ mode := .seeking }, [issue r.startLine "truncated record at end of input" r.buffered])
  else (r, [])

def read (limits : StreamLimits) (r : StreamReader) (stream : Bytes) :
    StreamReader × List StreamEvent :=
  let (last, events) := run limits r 1 (Utf8.decode stream).lines []
  let (final, more) := last.finish
  (final, events ++ more)

end StreamReader

namespace Parsed

def ofEvents (events : List StreamEvent) (package : Text) : Parsed :=
  let records := StreamEvent.records events
  let issues := StreamEvent.issues events
  { diagnostics := records.filterMap (Record.diagnostic? · package)
    issues
    records := records.length
    unparsed := !(StreamEvent.starts events).isEmpty && records.isEmpty && !issues.isEmpty }

def ofStream (limits : StreamLimits) (stream : Bytes) (package : Text) :
    Except Json.Excess Parsed :=
  let events := (StreamReader.read limits {} stream).2
  match StreamEvent.stops events with
  | excess :: _ => .error excess
  | [] => .ok (ofEvents events package)

end Parsed
end LintCorpus
