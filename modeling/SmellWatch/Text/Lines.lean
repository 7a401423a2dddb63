/-! Lines of a text.

A line ends at a line feed or at the end of the text; a carriage return right
before the line feed belongs to the line end. A text that ends in a line feed
has no further empty line after it. -/

namespace SmellWatch.Text

/-- A line without the carriage return of its line end. -/
def dropCarriageReturn (line : List Char) : List Char :=
  match line.getLast? with
  | some '\r' => line.dropLast
  | _ => line

/-- The lines of `cs`; `acc` holds, backwards, what was read of the current line. -/
def linesFrom (acc : List Char) : List Char → List (List Char)
  | [] => if acc.isEmpty then [] else [acc.reverse]
  | c :: r =>
    if c = '\n' then dropCarriageReturn acc.reverse :: linesFrom [] r
    else linesFrom (c :: acc) r

def charLines (cs : List Char) : List (List Char) := linesFrom [] cs

def lines (s : String) : List String := (charLines s.toList).map String.ofList

/-- The first line, empty for an empty text. -/
def firstLine (s : String) : String := (lines s).headD ""

end SmellWatch.Text
