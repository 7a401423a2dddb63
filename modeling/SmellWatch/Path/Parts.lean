import SmellWatch.Path
/-! Paths by their parts: which paths are the same, and which goes first.

A point counts only at the very front. Paths are compared part by part; the root goes
before the point, that before two points, and those before names, which go by their
characters.

* `comesBefore_refl`: every path comes before itself, so that sorting may keep what is
  equal in its order. -/

namespace SmellWatch.Path

inductive Part
  | root
  | current
  | parent
  | name (s : String)
deriving DecidableEq, Repr

namespace Part

def rank : Part → Nat
  | root => 0
  | current => 1
  | parent => 2
  | name _ => 3

def text : Part → String
  | name s => s
  | _ => ""

/-- How a part compares with another. -/
def order (a b : Part) : Ordering := (compare a.rank b.rank).then (compare a.text b.text)

end Part

/-- What a piece says that does not stand in front. -/
def partOf? (piece : String) : Option Part :=
  if piece = "" ∨ piece = "." then none
  else if piece = ".." then some .parent
  else some (.name piece)

def parts (path : String) : List Part :=
  match split path with
  | [] => []
  | first :: rest =>
    let front : List Part :=
      if isAbsolute path then [.root]
      else if first = "." then [.current]
      else (partOf? first).toList
    front ++ rest.filterMap partOf?

/-- Whether some parts come before others, or are the same. -/
def comesBefore : List Part → List Part → Bool
  | [], _ => true
  | _ :: _, [] => false
  | a :: r, b :: s =>
    match a.order b with
    | .lt => true
    | .eq => comesBefore r s
    | .gt => false

/-- A path without the point in front of it. -/
def withoutPoint (path : String) : String :=
  if (parts path).head? = some .current then
    "/".intercalate ((split path).dropWhile fun p => p == "" || p == ".")
  else path

theorem Part.order_self (a : Part) : a.order a = .eq := by
  simp [Part.order]

theorem comesBefore_refl (ps : List Part) : comesBefore ps ps = true := by
  induction ps with
  | nil => rfl
  | cons a r ih => simp [comesBefore, Part.order_self, ih]

end SmellWatch.Path
