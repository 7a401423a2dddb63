import SmellWatch.Path
/-! Documents and the languages they are written in. -/

namespace SmellWatch

/-- The path or the address by which a document is known. -/
structure DocumentId where
  name : String
deriving DecidableEq, Repr

/-- The language of a document, from the extension of its name. -/
def languageOf (name : String) : String :=
  match Text.asciiLower ((Path.extension? name).getD "") with
  | "go" => "go"
  | "rs" => "rust"
  | "py" | "pyi" => "python"
  | "ts" | "tsx" => "typescript"
  | "js" | "jsx" | "mjs" | "cjs" => "javascript"
  | "java" => "java"
  | "c" | "h" => "c"
  | "cc" | "cpp" | "cxx" | "hpp" => "cpp"
  | "rb" => "ruby"
  | _ => "text"

end SmellWatch
