import SmellWatch.Sha256
import SmellWatch.Text.Utf8
/-! Fingerprints: a short name for a content, equal for equal contents. A
fingerprint is written as the first eight bytes of the SHA-256 digest, in
hexadecimal. -/

namespace SmellWatch

/-- The name of a content. -/
structure Fingerprint where
  hex : String
deriving DecidableEq, Repr

namespace Fingerprint

def hexByte (b : UInt8) : List Char :=
  [Nat.digitChar (b.toNat / 16), Nat.digitChar (b.toNat % 16)]

def ofBytes (bytes : List UInt8) : Fingerprint :=
  ⟨String.ofList (((Sha256.digest bytes).take 8).flatMap hexByte)⟩

def ofText (s : String) : Fingerprint := ofBytes (Text.encode s)

end Fingerprint

end SmellWatch
