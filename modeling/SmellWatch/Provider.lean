import SmellWatch.Text.Blank
/-! Who analyzes: the remote services and their defaults. -/

namespace SmellWatch

inductive Provider
  | claude
  | openai
  | ollama
deriving DecidableEq, Repr

namespace Provider

def default : Provider := openai

/-- The name in settings. -/
def name : Provider → String
  | claude => "claude"
  | openai => "openai"
  | ollama => "ollama"

/-- The name for a reader. -/
def display : Provider → String
  | claude => "Claude"
  | openai => "OpenAI"
  | ollama => "Ollama"

/-- The variable that holds the key; a service on the own machine needs none. -/
def keyVariable? : Provider → Option String
  | claude => some "ANTHROPIC_API_KEY"
  | openai => some "OPENAI_API_KEY"
  | ollama => none

def requiresKey (p : Provider) : Bool := p.keyVariable?.isSome

def defaultModel : Provider → String
  | claude => "claude-sonnet-4-5-20250929"
  | openai => "gpt-4o-mini"
  | ollama => "qwen2.5-coder:7b"

def defaultBaseUrl : Provider → String
  | claude => "https://api.anthropic.com/v1"
  | openai => "https://api.openai.com/v1"
  | ollama => "http://localhost:11434/v1"

/-- The provider with exactly this name. -/
def ofName? (s : String) : Option Provider :=
  if s = "claude" then some claude
  else if s = "openai" then some openai
  else if s = "ollama" then some ollama
  else none

/-- Every word for a provider. -/
def words : List (String × Provider) :=
  [("claude", claude), ("anthropic", claude), ("openai", openai), ("gpt", openai),
    ("ollama", ollama), ("local", ollama)]

/-- No provider goes by this word. -/
structure Unknown where
  raw : String
deriving DecidableEq, Repr

def Unknown.message (e : Unknown) : String :=
  let known := ", ".intercalate (words.map fun w => "\"" ++ w.1 ++ "\"")
  s!"invalid provider '{e.raw}'; expected one of: [{known}]"

/-- The provider that a word means, in any case, with blanks around it. -/
def parse (raw : String) : Except Unknown Provider :=
  match words.lookup (Text.asciiLower (Text.trim raw)) with
  | some p => .ok p
  | none => .error ⟨raw⟩

theorem ofName?_name (p : Provider) : ofName? p.name = some p := by
  cases p <;> decide

end Provider

end SmellWatch
