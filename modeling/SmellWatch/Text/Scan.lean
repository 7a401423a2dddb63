import SmellWatch.Text.WordCharacter
/-! Recognizers: each takes something off the front of a list of characters and
gives the rest, or fails. None of them ever needs to go back: what may follow a run
of characters is never a character of the run. -/

namespace SmellWatch.Text

/-- What a recognizer leaves of its input. -/
abbrev Scan := List Char → Option (List Char)

namespace Scan

def literal (s : String) : Scan := fun cs =>
  if s.toList.isPrefixOf cs then some (cs.drop s.toList.length) else none

/-- One character of a class. -/
def one (p : Char → Bool) : Scan
  | [] => none
  | c :: r => if p c then some r else none

/-- As many characters of a class as there are. -/
def many (p : Char → Bool) : Scan := fun cs => some (cs.dropWhile p)

/-- At least one character of a class. -/
def many1 (p : Char → Bool) : Scan := fun cs => (one p cs).bind (many p)

def blanks : Scan := many isBlank

def blanks1 : Scan := many1 isBlank

def word : Scan := many1 isWord

/-- One after the other. -/
def both (a b : Scan) : Scan := fun cs => (a cs).bind b

def all (ss : List Scan) : Scan := ss.foldr both some

/-- Nothing, if the recognizer fails. -/
def optional (a : Scan) : Scan := fun cs => some ((a cs).getD cs)

def matchesFront (a : Scan) (cs : List Char) : Bool := (a cs).isSome

/-- Somewhere in the text. -/
def matchesInside (a : Scan) : List Char → Bool
  | [] => a.matchesFront []
  | c :: r => a.matchesFront (c :: r) || a.matchesInside r

end Scan

/-- Whether `needle` stands somewhere in the text. -/
def contains (needle : String) (cs : List Char) : Bool := (Scan.literal needle).matchesInside cs

def startsWith (front : String) (cs : List Char) : Bool := (Scan.literal front).matchesFront cs

end SmellWatch.Text
