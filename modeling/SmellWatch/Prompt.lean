import SmellWatch.Document
import SmellWatch.Text.Lines
/-! What a model is asked.

The question names the file and shows its lines with their numbers. Lines are shown
as long as the bytes of those before, each with its line end, and of the line itself
stay within 96 KiB; a line that no longer fits is replaced, with all that follow, by
a mark. -/

namespace SmellWatch

/-- One document to analyze. -/
structure AnalysisRequest where
  document : DocumentId
  language : String
  content : String
  rules : List String
deriving DecidableEq, Repr

namespace AnalysisRequest

def ofDocument (document : DocumentId) (content : String) (rules : List String) :
    AnalysisRequest :=
  { document, language := languageOf document.name, content, rules }

end AnalysisRequest

namespace Prompt

/-- The most bytes of content in a question. -/
def contentLimit : Nat := 96 * 1024

/-- The task, the same for every document. -/
def task : String :=
  "You are a senior code reviewer. You report code smells, bug risks and maintainability " ++
  "problems in a single source file. Respond with ONLY a JSON array. Each element is an object " ++
  "with the keys: id (short stable string), title, severity (\"error\" | \"warning\" | " ++
  "\"info\" | \"hint\"), message, suggestion, category, confidence (number between 0 and 1), " ++
  "line (1-based), column (1-based), end_line, end_column. Return [] when the file has no " ++
  "problems."

def truncationMark : String := "// ... (truncated)\n"

/-- A number with blanks in front, four characters at least. -/
def lineNumber (n : Nat) : String :=
  let ds := toString n
  String.ofList (List.replicate (4 - ds.length) ' ') ++ ds

/-- One shown line. -/
def numbered (n : Nat) (line : String) : String := lineNumber n ++ " | " ++ line ++ "\n"

/-- How many lines are shown; `used` counts the bytes of the lines before. -/
def shownCount (used : Nat) : List String → Nat
  | [] => 0
  | line :: r =>
    if contentLimit < used + line.utf8ByteSize then 0
    else shownCount (used + line.utf8ByteSize + 1) r + 1

/-- The lines that are shown, with the mark if there are more. -/
def listing (content : String) : String :=
  let ls := Text.lines content
  let k := shownCount 0 ls
  let shown := (ls.take k).mapIdx fun i line => numbered (i + 1) line
  String.join shown ++ if k < ls.length then truncationMark else ""

/-- The question about one document. -/
def question (r : AnalysisRequest) : String :=
  s!"File: {r.document.name}\nLanguage: {r.language}\n" ++
  (if r.rules.isEmpty then "" else "Focus on: " ++ ", ".intercalate r.rules ++ "\n") ++
  "\n```" ++ r.language ++ "\n" ++ listing r.content ++ "```\n"

end Prompt

end SmellWatch
