import SmellWatch.Config.IncludeFilter
import SmellWatch.Config.Json
import SmellWatch.Toml.Reader
/-! Settings in a TOML text. -/

namespace SmellWatch.Config

/-- The settings in a text, references to variables replaced. -/
def parse? (env : Environment) (text : String) : Option Config :=
  ((Toml.document? text).bind (ofSource? .toml)).map (expand env)

/-- The filter of the globs that are set. -/
def includeFilter (c : Config) : Except BadGlob IncludeFilter :=
  IncludeFilter.ofGlobs c.analysis.globs

end SmellWatch.Config
