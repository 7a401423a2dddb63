import SmellWatch.FindingJson
import SmellWatch.Json.Printer
/-! What a check found, file by file, for a reader or for a program. -/

namespace SmellWatch

structure FileReport where
  path : String
  findings : List Finding
deriving DecidableEq, Repr

structure Report where
  files : List FileReport
deriving DecidableEq, Repr

inductive Report.Format
  | human
  | json
deriving DecidableEq, Repr

namespace FileReport

def toJson (f : FileReport) : Json :=
  .object [("path", .string f.path), ("findings", .array (f.findings.map Finding.toJson))]

/-- The lines about one file. -/
def text (f : FileReport) : String :=
  String.join <| f.findings.map fun x =>
    x.display f.path ++ "\n    " ++ x.message ++ "\n" ++
      if x.suggestion.isEmpty then "" else "    suggestion: " ++ x.suggestion ++ "\n"

end FileReport

namespace Report

def findings (r : Report) : List Finding := r.files.flatMap (·.findings)

def hasErrors (r : Report) : Bool := r.findings.any (·.severity.isError)

def count (r : Report) (s : Severity) : Nat := (r.findings.filter (·.severity = s)).length

/-- A number with the singular or the plural of a word. -/
def counted (n : Nat) (word : String) : String := s!"{n} {word}" ++ if n = 1 then "" else "s"

/-- The last line. -/
def summary (r : Report) : String :=
  let files := counted r.files.length "file"
  if r.findings.isEmpty then s!"No findings in {files}\n"
  else
    counted r.findings.length "finding" ++
      s!" ({r.count .error} errors, {r.count .warning} warnings, {r.count .info} info, " ++
      s!"{r.count .hint} hints) in {files}\n"

/-- All findings, and a summary below an empty line. -/
def text (r : Report) : String :=
  let body := String.join (r.files.map FileReport.text)
  body ++ (if body.isEmpty then "" else "\n") ++ r.summary

def toJson (r : Report) : Json := .array (r.files.map FileReport.toJson)

def render (r : Report) : Format → String
  | .human => r.text
  | .json => r.toJson.pretty 0 ++ "\n"

end Report

end SmellWatch
