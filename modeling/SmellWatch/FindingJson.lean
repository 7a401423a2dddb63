import SmellWatch.Finding
import SmellWatch.Json.Record
/-! Findings as JSON records.

An empty suggestion or category and a missing range are left out. Reading takes the
confidence as it is written. -/

namespace SmellWatch

namespace Position

def toJson (p : Position) : Json :=
  .object [("line", .nat p.line), ("column", .nat p.column)]

def fields : List RecordField := [.required "line", .required "column"]

def ofJson? (s : JsonSource) : Option Position :=
  match s.parts? fields with
  | some [line, column] => do
    let line ← JsonSource.requiredPart? JsonSource.word? line
    let column ← JsonSource.requiredPart? JsonSource.word? column
    return ⟨line, column⟩
  | _ => none

end Position

namespace SourceRange

def toJson (r : SourceRange) : Json :=
  .object [("start", r.start.toJson), ("end", r.stop.toJson)]

def fields : List RecordField := [.required "start", .required "end"]

def ofJson? (s : JsonSource) : Option SourceRange :=
  match s.parts? fields with
  | some [start, stop] => do
    let start ← JsonSource.requiredPart? Position.ofJson? start
    let stop ← JsonSource.requiredPart? Position.ofJson? stop
    return ⟨start, stop⟩
  | _ => none

end SourceRange

namespace Severity

/-- The severity with the label that is given. -/
def ofJson? (s : JsonSource) : Option Severity := (s.choice? .json).bind ofLabel?

end Severity

namespace Finding

def textField (name value : String) : Json.Fields :=
  if value.isEmpty then [] else [(name, .string value)]

def toJson (f : Finding) : Json :=
  .object <|
    [("id", .string f.id), ("title", .string f.title), ("severity", .string f.severity.label),
      ("message", .string f.message)] ++
    textField "suggestion" f.suggestion ++ textField "category" f.category ++
    [("confidence", .ofSingle f.confidence)] ++
    match f.range with
    | none => []
    | some r => [("range", r.toJson)]

def fields : List RecordField :=
  [.required "id", .required "title", .required "severity", .required "message",
    .defaulted "suggestion", .defaulted "category", .required "confidence", .defaulted "range"]

def ofJson? (s : JsonSource) : Option Finding :=
  match s.parts? fields with
  | some [id, title, severity, message, suggestion, category, confidence, range] => do
    let id ← JsonSource.requiredPart? JsonSource.text? id
    let title ← JsonSource.requiredPart? JsonSource.text? title
    let severity ← JsonSource.requiredPart? Severity.ofJson? severity
    let message ← JsonSource.requiredPart? JsonSource.text? message
    let suggestion ← JsonSource.defaultPart? JsonSource.text? "" suggestion
    let category ← JsonSource.defaultPart? JsonSource.text? "" category
    let confidence ← JsonSource.requiredPart? JsonSource.single? confidence
    let range ← JsonSource.optionPart? SourceRange.ofJson? range
    return { id, title, severity, message, suggestion, category, confidence, range }
  | _ => none

/-- The finding in a JSON text. -/
def parse? (s : String) : Option Finding := (JsonSource.ofText? s).bind ofJson?

end Finding

end SmellWatch
