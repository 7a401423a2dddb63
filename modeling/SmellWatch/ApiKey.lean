import SmellWatch.Text.Blank
/-! Keys for remote services. A key is never blank, and no text for a reader shows
it. -/

namespace SmellWatch

structure ApiKey where
  secret : String
deriving DecidableEq

namespace ApiKey

/-- The key in a text, without the blanks around it. -/
def ofText? (raw : String) : Option ApiKey := (Text.nonBlank? raw).map ApiKey.mk

/-- What a reader sees of a key. -/
def shown (_ : ApiKey) : String := "ApiKey(<redacted>)"

instance : Repr ApiKey := ⟨fun k _ => k.shown⟩

end ApiKey

end SmellWatch
