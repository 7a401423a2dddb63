import SmellWatch.Glob.Glob
/-! Which files are analyzed: those whose path matches one of some globs, or all of
them if there are no globs. -/

namespace SmellWatch

/-- A glob that cannot be read. -/
structure BadGlob where
  glob : String
  fault : Glob.SyntaxFault
deriving DecidableEq, Repr

def BadGlob.message (e : BadGlob) : String :=
  s!"invalid include pattern '{e.glob}': error parsing glob '{e.glob}': {e.fault.message}"

/-- The compiled globs; none of them lets every path through. -/
structure IncludeFilter where
  patterns : List Glob.BytePattern
deriving DecidableEq, Repr

namespace IncludeFilter

def all : IncludeFilter := ⟨[]⟩

def compile (glob : String) : Except BadGlob Glob.BytePattern :=
  match Glob.tokens false glob with
  | .ok ts => .ok (Glob.pattern true ts)
  | .error fault => .error ⟨glob, fault⟩

/-- The filter of some globs, or the first one that cannot be read. -/
def ofGlobs (globs : List String) : Except BadGlob IncludeFilter :=
  (globs.mapM compile).map IncludeFilter.mk

/-- Whether a path, given by its bytes, is let through. -/
def allowsBytes (f : IncludeFilter) (path : List UInt8) : Bool :=
  f.patterns.isEmpty || f.patterns.any fun p => p.isMatch path

def allows (f : IncludeFilter) (path : String) : Bool := f.allowsBytes (Text.encode path)

end IncludeFilter

end SmellWatch
