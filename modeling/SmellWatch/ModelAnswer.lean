import SmellWatch.Decimal.Reading
import SmellWatch.Finding
import SmellWatch.Json.Record
import SmellWatch.RemoteError
import SmellWatch.Text.Lines
/-! Findings in the answer of a model.

A model is asked for a JSON array and often wraps it in a fence or in prose, or in
an object with a field `findings`. Each element is read on its own: one that is no
record, or that has neither title nor message, is passed over. -/

namespace SmellWatch.ModelAnswer

open Decimal

/-! ## Finding the JSON in an answer -/

def fence : List Char := "```".toList

/-- The list without `affix` in front, if it starts with it. -/
def dropFront? (affix cs : List Char) : Option (List Char) :=
  if affix.isPrefixOf cs then some (cs.drop affix.length) else none

/-- The list without `affix` behind, if it ends with it. -/
def dropBack? (affix cs : List Char) : Option (List Char) :=
  if affix.isSuffixOf cs then some (cs.take (cs.length - affix.length)) else none

/-- The text inside a fence that starts in front of everything; the rest of the
line of the fence does not belong to it. -/
def unfence (cs : List Char) : List Char :=
  match dropFront? fence cs with
  | none => cs
  | some rest =>
    let body := match rest.dropWhile (· ≠ '\n') with
      | [] => rest
      | _ :: r => r
    Text.trimChars ((dropBack? fence (Text.dropBlankEnd body)).getD body)

/-- From the first opening bracket to the last closing one. -/
def bracketed? (cs : List Char) : Option (List Char) :=
  let opened := cs.dropWhile (· ≠ '[')
  let closed := (opened.reverse.dropWhile (· ≠ ']')).reverse
  if closed.isEmpty then none else some closed

def valueOf? (cs : List Char) : Option Json :=
  (JsonSource.ofChars? cs).bind (JsonSource.value? JsonSource.depthLimit)

/-- The JSON value in an answer: the whole of it, or what stands in brackets. -/
def payload? (text : String) : Option Json :=
  let cs := unfence (Text.trimChars text.toList)
  match valueOf? cs with
  | some v => some v
  | none => (bracketed? cs).bind valueOf?

/-! ## Records -/

/-- A finding as a model writes it; lines and columns count from one. -/
structure Record where
  id : Option String
  title : Option String
  severity : Option String
  message : Option String
  suggestion : Option String
  category : Option String
  confidence : Option JsonSource
  line : Option Nat
  column : Option Nat
  endLine : Option Nat
  endColumn : Option Nat

namespace Record

def fields : List RecordField :=
  [.defaulted "id", .defaulted "title", .defaulted "severity", .defaulted "message",
    .defaulted "suggestion", .defaulted "category", .defaulted "confidence", .defaulted "line",
    .defaulted "column", .defaulted "end_line", .defaulted "end_column"]

def ofJson? (v : Json) : Option Record :=
  match (JsonSource.ofValue v).parts? fields with
  | some [id, title, severity, message, suggestion, category, confidence, line, column, endLine,
      endColumn] => do
    let id ← JsonSource.optionPart? JsonSource.text? id
    let title ← JsonSource.optionPart? JsonSource.text? title
    let severity ← JsonSource.optionPart? JsonSource.text? severity
    let message ← JsonSource.optionPart? JsonSource.text? message
    let suggestion ← JsonSource.optionPart? JsonSource.text? suggestion
    let category ← JsonSource.optionPart? JsonSource.text? category
    let confidence ← JsonSource.optionPart? some confidence
    let line ← JsonSource.optionPart? JsonSource.word? line
    let column ← JsonSource.optionPart? JsonSource.word? column
    let endLine ← JsonSource.optionPart? JsonSource.word? endLine
    let endColumn ← JsonSource.optionPart? JsonSource.word? endColumn
    return { id, title, severity, message, suggestion, category, confidence, line, column,
             endLine, endColumn }
  | _ => none

def titleLimit : Nat := 60

/-- The first line of a message, cut to the length of a title. -/
def summary (message : String) : String :=
  let line := Text.firstLine message
  if line.length ≤ titleLimit then line
  else String.ofList (line.toList.take titleLimit) ++ "..."

/-- Title and message; one of them stands in for the other. -/
def texts? (r : Record) : Option (String × String) :=
  match r.title.bind Text.nonBlank?, r.message.bind Text.nonBlank? with
  | none, none => none
  | some t, none => some (t, t)
  | none, some m => some (summary m, m)
  | some t, some m => some (t, m)

/-- The id of the element at a place, for a record without one. -/
def placeId (index : Nat) : String :=
  let ds := toString (index + 1)
  "W" ++ String.ofList (List.replicate (3 - ds.length) '0') ++ ds

/-- A number, a word, or a text of a number. -/
def confidenceOf? : JsonSource → Option Single
  | .number (some (.natural n)) => some (Double.ofNat n).toSingle
  | .number (some (.negative n)) => some (Double.ofQuotient true n 1).toSingle
  | .number (some (.double x)) => some x.toSingle
  | .string (some s) =>
    let word := Text.asciiLower (Text.trim s)
    if word = "high" then Decimal.single? "0.9"
    else if word = "medium" then Decimal.single? "0.6"
    else if word = "low" then Decimal.single? "0.3"
    else Decimal.single? word
  | _ => none

/-- Where the finding is. An end before the start is replaced by the end of the
first line. -/
def range? (r : Record) : Option SourceRange :=
  (r.line.filter (0 < ·)).map fun line =>
    let start : Position := ⟨line - 1, r.column.getD 1 - 1⟩
    let lineEnd : Position := ⟨line, 0⟩
    let stop := match r.endLine.filter (line ≤ ·) with
      | some endLine => ⟨endLine - 1, r.endColumn.getD 1 - 1⟩
      | none => lineEnd
    ⟨start, if stop.before start then lineEnd else stop⟩

/-- The finding of the record at a place. -/
def finding? (index : Nat) (r : Record) : Option Finding :=
  r.texts?.map fun (title, message) =>
    { id := (r.id.bind Text.nonBlank?).getD (placeId index)
      title
      severity := (r.severity.bind Severity.parse?).getD .warning
      message
      suggestion := (r.suggestion.bind Text.nonBlank?).getD ""
      category := Text.asciiLower ((r.category.bind Text.nonBlank?).getD "")
      confidence := ((r.confidence.bind confidenceOf?).getD Single.half).clampUnit
      range := r.range? }

end Record

/-! ## Answers -/

/-- What one element of the array yields. -/
def elementFinding? (index : Nat) (v : Json) : Option Finding :=
  (Record.ofJson? v).bind (Record.finding? index)

/-- What all elements yield, in their order. -/
def elementFindings (items : List Json) : List Finding :=
  (items.mapIdx elementFinding?).filterMap id

/-- The elements in an answer. -/
def elements (text : String) : Except RemoteError (List Json) :=
  match payload? text with
  | none =>
    .error (.malformed s!"no JSON array in model output ({text.utf8ByteSize} bytes)")
  | some (.array items) => .ok items
  | some (.object fields) =>
    match Json.find? "findings" fields with
    | some (.array items) => .ok items
    | _ => .error (.malformed "object without a findings array")
  | some _ => .error (.malformed "expected a JSON array of findings")

/-- The findings in an answer. -/
def findings (text : String) : Except RemoteError (List Finding) :=
  (elements text).map elementFindings

end SmellWatch.ModelAnswer
