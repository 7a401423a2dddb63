/-! Reading bytes as UTF-8.

The decoder takes one byte at a time, so where a stream of bytes was cut makes
no difference. A byte that no character can continue with replaces what was
begun by U+FFFD and is then read again as a first byte; a character that the
end cuts off becomes one U+FFFD as well. `decode?` accepts only bytes that need
no replacement.

* `Decoder.feedAll_append`: feeding two pieces is feeding their concatenation. -/

namespace SmellWatch.Text

/-- What the decoder holds of an unfinished character: its value so far, how many
bytes it still needs, and the least and greatest byte that may come next. -/
structure Begun where
  value : Nat
  missing : Nat
  least : Nat
  greatest : Nat
deriving DecidableEq, Repr

/-- A decoder between two bytes: the characters read so far, backwards, what is
begun, and whether anything had to be replaced. -/
structure Decoder where
  read : List Char
  begun : Option Begun
  replaced : Bool
deriving DecidableEq, Repr

namespace Decoder

def start : Decoder := ⟨[], none, false⟩

def replacement : Char := Char.ofNat 0xFFFD

/-- One byte between two characters. -/
def lead (d : Decoder) (b : Nat) : Decoder :=
  if b < 0x80 then ⟨Char.ofNat b :: d.read, none, d.replaced⟩
  else if 0xC2 ≤ b ∧ b ≤ 0xDF then ⟨d.read, some ⟨b - 0xC0, 1, 0x80, 0xBF⟩, d.replaced⟩
  else if b = 0xE0 then ⟨d.read, some ⟨0, 2, 0xA0, 0xBF⟩, d.replaced⟩
  else if b = 0xED then ⟨d.read, some ⟨0xD, 2, 0x80, 0x9F⟩, d.replaced⟩
  else if 0xE1 ≤ b ∧ b ≤ 0xEF then ⟨d.read, some ⟨b - 0xE0, 2, 0x80, 0xBF⟩, d.replaced⟩
  else if b = 0xF0 then ⟨d.read, some ⟨0, 3, 0x90, 0xBF⟩, d.replaced⟩
  else if 0xF1 ≤ b ∧ b ≤ 0xF3 then ⟨d.read, some ⟨b - 0xF0, 3, 0x80, 0xBF⟩, d.replaced⟩
  else if b = 0xF4 then ⟨d.read, some ⟨4, 3, 0x80, 0x8F⟩, d.replaced⟩
  else ⟨replacement :: d.read, none, true⟩

/-- One byte. -/
def feed (d : Decoder) (byte : UInt8) : Decoder :=
  let b := byte.toNat
  match d.begun with
  | none => d.lead b
  | some g =>
    if g.least ≤ b ∧ b ≤ g.greatest then
      let value := g.value * 64 + (b - 0x80)
      if g.missing ≤ 1 then ⟨Char.ofNat value :: d.read, none, d.replaced⟩
      else ⟨d.read, some ⟨value, g.missing - 1, 0x80, 0xBF⟩, d.replaced⟩
    else lead ⟨replacement :: d.read, none, true⟩ b

def feedAll (d : Decoder) (bytes : List UInt8) : Decoder := bytes.foldl feed d

/-- The end of the bytes: an unfinished character is replaced. -/
def finish (d : Decoder) : Decoder :=
  match d.begun with
  | none => d
  | some _ => ⟨replacement :: d.read, none, true⟩

def text (d : Decoder) : String := String.ofList d.read.reverse

theorem feedAll_append (d : Decoder) (xs ys : List UInt8) :
    d.feedAll (xs ++ ys) = (d.feedAll xs).feedAll ys := by
  simp [feedAll]

end Decoder

/-- The text of the bytes, with U+FFFD for what is no character. -/
def decodeLossy (bytes : List UInt8) : String := (Decoder.start.feedAll bytes).finish.text

/-- The text of the bytes, if they are UTF-8. -/
def decode? (bytes : List UInt8) : Option String :=
  let d := (Decoder.start.feedAll bytes).finish
  if d.replaced then none else some d.text

/-- The UTF-8 bytes of a text. -/
def encode (s : String) : List UInt8 := s.toUTF8.toList

end SmellWatch.Text
