import SmellWatch.Finding
import SmellWatch.Json.Value
import SmellWatch.Product
/-! Findings as an editor shows them. A finding without a place stands at the top of
its file. -/

namespace SmellWatch

namespace Position

def toEditor (p : Position) : Json :=
  .ofFields [("line", .nat p.line), ("character", .nat p.column)]

end Position

namespace SourceRange

/-- The empty range at the start of a file. -/
def top : SourceRange := ⟨⟨0, 0⟩, ⟨0, 0⟩⟩

def toEditor (r : SourceRange) : Json :=
  .ofFields [("start", r.start.toEditor), ("end", r.stop.toEditor)]

end SourceRange

namespace Finding

/-- Title and message, and the suggestion in a line of its own. -/
def editorText (f : Finding) : String :=
  f.title ++ ": " ++ f.message ++ if f.suggestion.isEmpty then "" else "\n" ++ f.suggestion

def toDiagnostic (f : Finding) : Json :=
  .ofFields
    [("range", (f.range.getD .top).toEditor),
      ("severity", .nat f.severity.editorCode),
      ("code", .string f.id),
      ("source", .string Product.name),
      ("message", .string f.editorText)]

/-- All diagnostics of a document. -/
def diagnostics (uri : String) (findings : List Finding) : Json :=
  .ofFields [("uri", .string uri), ("diagnostics", .array (findings.map toDiagnostic))]

end Finding

end SmellWatch
