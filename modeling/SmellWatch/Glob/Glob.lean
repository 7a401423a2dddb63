import SmellWatch.Glob.BytePattern
import SmellWatch.Glob.Token
import SmellWatch.Text.Utf8
/-! Globs as patterns over the bytes of a path.

With `slashes` set, `?` and `*` match slashes too. A character outside ASCII is its
UTF-8 bytes, also inside a class, which always matches one byte. -/

namespace SmellWatch.Glob

/-- The bytes of a character. -/
def charBytes (c : Char) : List UInt8 := Text.encode (String.singleton c)

/-- A range of a class as ranges of bytes: its ends are written out, and the range
runs from the last byte of the first to the first byte of the last. -/
def rangeBytes (r : Char × Char) : List (Nat × Nat) :=
  let single := fun b : UInt8 => (b.toNat, b.toNat)
  let first := charBytes r.1
  let last := charBytes r.2
  if r.1 = r.2 then first.map single
  else
    first.dropLast.map single ++
      [((first.getLastD 0).toNat, (last.headD 0).toNat)] ++ (last.drop 1).map single

def slash : BytePattern := .byte (.only 0x2F)

/-- Any text. -/
def anything : BytePattern := .many (.byte .any)

/-- A star or a question mark. -/
def wildcard (slashes : Bool) : BytePattern := .byte (if slashes then .any else .noSlash)

mutual

def tokenPattern (slashes : Bool) : Token → BytePattern
  | .literal c => .ofBytes (charBytes c)
  | .any => wildcard slashes
  | .many => .many (wildcard slashes)
  | .componentsBefore =>
    .eitherOf .nothing (.eitherOf slash (.seqOf anything slash))
  | .anythingBelow => .seqOf slash anything
  | .componentsBetween => .eitherOf slash (.seqOf slash (.seqOf anything slash))
  | .oneOf negated ranges => .byte ⟨negated, ranges.flatMap rangeBytes⟩
  | .alternatives globs =>
    -- braces with nothing in them match nothing
    match branchPatterns slashes globs with
    | [] => .nothing
    | ps => .eitherAll ps

def tokensPattern (slashes : Bool) : List Token → BytePattern
  | [] => .nothing
  | t :: r => .seqOf (tokenPattern slashes t) (tokensPattern slashes r)

/-- The branches that are not empty. -/
def branchPatterns (slashes : Bool) : List (List Token) → List BytePattern
  | [] => []
  | g :: r =>
    match tokensPattern slashes g with
    | .nothing => branchPatterns slashes r
    | p => p :: branchPatterns slashes r

end

/-- The pattern of a whole glob; `**` alone matches everything. -/
def pattern (slashes : Bool) : List Token → BytePattern
  | [.componentsBefore] => anything
  | ts => tokensPattern slashes ts

end SmellWatch.Glob
