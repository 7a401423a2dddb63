/-! Patterns over bytes, matched by taking one byte at a time off what is still to
be matched.

`after b p` is what a text must match after its first byte `b` if the whole text is
to match `p`; `isMatch` follows a text to its end and asks whether nothing may be
left. -/

namespace SmellWatch.Glob

/-- Bytes in, or outside of, some ranges. -/
structure ByteClass where
  negated : Bool
  ranges : List (Nat × Nat)
deriving DecidableEq, Repr

namespace ByteClass

def holds (c : ByteClass) (b : UInt8) : Bool :=
  c.negated != c.ranges.any fun r => r.1 ≤ b.toNat && b.toNat ≤ r.2

def any : ByteClass := ⟨true, []⟩

def only (b : UInt8) : ByteClass := ⟨false, [(b.toNat, b.toNat)]⟩

/-- Every byte but the slash. -/
def noSlash : ByteClass := ⟨true, [(0x2F, 0x2F)]⟩

end ByteClass

inductive BytePattern
  | never
  | nothing
  | byte (c : ByteClass)
  | seq (p q : BytePattern)
  | either (p q : BytePattern)
  | many (p : BytePattern)
deriving DecidableEq, Repr

namespace BytePattern

/-! ## Simplified constructors -/

def seqOf (p q : BytePattern) : BytePattern :=
  match p, q with
  | never, _ => never
  | _, never => never
  | nothing, q => q
  | p, nothing => p
  | p, q => seq p q

/-- Whether `p` is one of the alternatives of `q`. -/
def isAlternative (p : BytePattern) : BytePattern → Bool
  | either a b => p == a || isAlternative p b
  | q => p == q

def eitherOf (p q : BytePattern) : BytePattern :=
  match p, q with
  | never, q => q
  | p, never => p
  | either a b, q =>
    let r := eitherOf b q
    if isAlternative a r then r else either a r
  | p, q => if isAlternative p q then q else either p q

def ofBytes (bs : List UInt8) : BytePattern :=
  bs.foldr (fun b p => seqOf (byte (.only b)) p) nothing

def eitherAll (ps : List BytePattern) : BytePattern := ps.foldr eitherOf never

/-! ## Matching -/

/-- Whether the empty text matches. -/
def acceptsEmpty : BytePattern → Bool
  | never => false
  | nothing => true
  | byte _ => false
  | seq p q => p.acceptsEmpty && q.acceptsEmpty
  | either p q => p.acceptsEmpty || q.acceptsEmpty
  | many _ => true

def after (b : UInt8) : BytePattern → BytePattern
  | never => never
  | nothing => never
  | byte c => if c.holds b then nothing else never
  | seq p q =>
    let front := seqOf (p.after b) q
    if p.acceptsEmpty then eitherOf front (q.after b) else front
  | either p q => eitherOf (p.after b) (q.after b)
  | many p => seqOf (p.after b) (many p)

def isMatch (p : BytePattern) (bs : List UInt8) : Bool :=
  (bs.foldl (fun p b => p.after b) p).acceptsEmpty

end BytePattern

end SmellWatch.Glob
