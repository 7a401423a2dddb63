import SmellWatch.Text.Blank
import SmellWatch.Url.Host
/-! Addresses of resources.

An address is read as a browser reads it: blanks around it and line breaks within it
do not count, a backslash is a slash in the schemes that the web knows, and a path is
put in its shortest form. -/

namespace SmellWatch

structure Url where
  scheme : String
  host : Option Url.Host
  /-- The port that is given. -/
  port : Option Nat
  /-- The pieces of the path between slashes, without the slash in front; none if the
  path has no such pieces. -/
  segments : Option (List String)
  query : Option String
deriving DecidableEq, Repr

namespace Url

/-- The kinds of schemes that are read differently. -/
inductive Kind
  | file
  /-- A scheme of the web, which has a host. -/
  | web
  | other
deriving DecidableEq, Repr

def kindOf (scheme : String) : Kind :=
  if scheme = "file" then .file
  else if scheme ∈ ["http", "https", "ws", "wss", "ftp"] then .web
  else .other

def isWeb (k : Kind) : Bool := k ≠ .other

/-- Whether a character separates the pieces of a path. -/
def isSlash (k : Kind) (c : Char) : Bool := c = '/' || (isWeb k && c = '\\')

/-- Whether the text before a character belongs to host and path. -/
def beforeQuery (c : Char) : Bool := c ≠ '?' && c ≠ '#'

/-! ## Cleaning and the scheme -/

def isControlOrSpace (c : Char) : Bool := c.toNat ≤ 0x20

/-- The text that counts. -/
def clean (s : String) : List Char :=
  let front := s.toList.dropWhile isControlOrSpace
  let both := (front.reverse.dropWhile isControlOrSpace).reverse
  both.filter fun c => c ≠ '\t' && c ≠ '\n' && c ≠ '\r'

/-- The scheme, in lower case, and what follows its colon. -/
def scheme? (cs : List Char) : Option (String × List Char) :=
  let name := cs.takeWhile (· ≠ ':')
  match name, cs.drop name.length with
  | c :: r, _ :: rest =>
    if c.isAlpha && r.all (fun x => x.isAlphanum || x = '+' || x = '-' || x = '.') then
      some (Text.asciiLower (String.ofList name), rest)
    else none
  | _, _ => none

/-! ## Paths -/

def isDot (s : String) : Bool := s = "." || Text.asciiLower s = "%2e"

def isDoubleDot (s : String) : Bool :=
  Text.asciiLower s ∈ ["..", ".%2e", "%2e.", "%2e%2e"]

/-- A letter and a colon, or a bar that stands for one. -/
def isDrive : List Char → Bool
  | [c, m] => c.isAlpha && (m = ':' || m = '|')
  | _ => false

/-- Takes the last piece away, unless it is a drive. -/
def shorten (k : Kind) (pieces : List String) : List String :=
  match k, pieces with
  | .file, [p] => if isDrive p.toList && p.toList.getLast? = some ':' then pieces else []
  | _, _ => pieces.dropLast

/-- Adds a piece to a path. Of a last piece that is a dot an empty one is left. -/
def addPiece (k : Kind) (pieces : List String) (piece : String) (last : Bool) : List String :=
  if isDoubleDot piece then shorten k pieces ++ if last then [""] else []
  else if isDot piece then pieces ++ if last then [""] else []
  else if k = .file && pieces.isEmpty && isDrive piece.toList then
    [String.ofList [piece.toList.headD 'c', ':']]
  else pieces ++ [piece]

def addPieces (k : Kind) (pieces : List String) : List String → List String
  | [] => pieces
  | [p] => addPiece k pieces p true
  | p :: r => addPieces k (addPiece k pieces p false) r

/-- The characters of a path that are written with percent signs. -/
def reservedInPath : List Char := [' ', '"', '#', '<', '>', '?', Char.ofNat 0x60, '\x7b', '\x7d']

def reservedInQuery (k : Kind) : List Char :=
  [' ', '"', '#', '<', '>'] ++ if isWeb k then [Char.ofNat 0x27] else []

/-- The pieces of a path, given without the slash in front. -/
def pathPieces (k : Kind) (cs : List Char) : List String :=
  let slashed := cs.map fun c => if isSlash k c then '/' else c
  let raw := (splitAt '/' slashed).map fun p => String.ofList (percentEncode reservedInPath p)
  let pieces := addPieces k [] raw
  match k with
  | .file =>
    match pieces.dropWhile String.isEmpty with
    | [] => [""]
    | ps => ps
  | _ => pieces

/-- What follows a question mark, up to a hash. -/
def queryOf (k : Kind) (cs : List Char) : Option String :=
  match cs.dropWhile beforeQuery with
  | '?' :: r => some (String.ofList (percentEncode (reservedInQuery k) (r.takeWhile (· ≠ '#'))))
  | _ => none

/-- A path behind a host. Only other schemes may do without one. -/
def pathBehindHost (k : Kind) (cs : List Char) : Option (List String) :=
  let path := cs.takeWhile beforeQuery
  match path with
  | [] => if isWeb k then some [""] else none
  | c :: r => some (pathPieces k (if isSlash k c then r else path))

/-! ## Hosts -/

/-- The text behind the last at sign of a user part; none if nothing follows it. -/
def dropUser? (authority : List Char) : Option (List Char) :=
  let host := (authority.reverse.takeWhile (· ≠ '@')).reverse
  let user := authority.length - host.length
  if user = 1 ∧ host.isEmpty then none else some host

/-- The host proper and what follows it; colons within brackets belong to it. -/
def splitPort (inside : Bool) : List Char → List Char × List Char
  | [] => ([], [])
  | c :: r =>
    if c = ':' ∧ !inside then ([], c :: r)
    else
      let inside := if c = '[' then true else if c = ']' then false else inside
      let (host, rest) := splitPort inside r
      (c :: host, rest)

/-- Whether the text behind a host is a port, or nothing. -/
def isPort : List Char → Bool
  | [] => true
  | _ :: digits =>
    digits.all Char.isDigit && (digits.isEmpty || (digitsIn? 10 digits).any (· < Nat.pow 2 16))

def portOf (cs : List Char) : Option Nat :=
  match cs.drop 1 with
  | [] => none
  | digits => digitsIn? 10 digits

/-- A host that is not of the web: an address in brackets, or any text without the
characters that end a host. -/
def otherHost? (cs : List Char) : Option (Option Host) :=
  if cs.head? = some '[' then (Host.parse? cs).map some
  else if cs.any fun c => c.toNat = 0 || c ∈ " #/<>?@[\\]^|".toList then none
  else if cs.isEmpty then some none
  else some (some (.name (String.ofList (percentEncode [] cs))))

/-- What stands between the scheme and the query. -/
structure Parts where
  host : Option Host
  port : Option Nat
  segments : Option (List String)

/-- The parts of what follows two slashes. -/
def behindSlashes? (k : Kind) (cs : List Char) : Option Parts :=
  let ends := fun c : Char => isSlash k c || !beforeQuery c
  let authority := cs.takeWhile (!ends ·)
  let rest := cs.drop authority.length
  match dropUser? authority with
  | none => none
  | some hostPort =>
    let (host, port) := splitPort false hostPort
    if !isPort port ∨ (host.isEmpty ∧ (isWeb k ∨ !port.isEmpty ∨ hostPort.length < authority.length))
    then none
    else
      let found := if isWeb k then (Host.parse? host).map some else otherHost? host
      found.map fun h => ⟨h, portOf port, pathBehindHost k rest⟩

/-- The parts of the address of a file, behind the scheme. -/
def fileParts? (cs : List Char) : Option Parts :=
  let onMachine := fun path : Option (List String) => some (Parts.mk none none path)
  let inPath := fun cs : List Char => onMachine (some (pathPieces .file (cs.takeWhile beforeQuery)))
  match cs with
  | a :: b :: r =>
    if isSlash .file a && isSlash .file b then
      let host := r.takeWhile fun c => !isSlash .file c && beforeQuery c
      if isDrive host then inPath r
      else
        let path := pathBehindHost .file (r.drop host.length)
        if host.isEmpty then onMachine path
        else
          match Host.parse? host with
          | none => none
          | some (.name "localhost") => onMachine path
          | some h => some ⟨some h, none, path⟩
    else inPath (if isSlash .file a then b :: r else cs)
  | [a] => inPath (if isSlash .file a then [] else cs)
  | [] => inPath []

/-! ## Addresses -/

/-- The parts of what follows a scheme. -/
def parts? (k : Kind) (cs : List Char) : Option Parts :=
  match k with
  | .file => fileParts? cs
  | .web => behindSlashes? k (cs.dropWhile (isSlash k))
  | .other =>
    match cs with
    | '/' :: '/' :: r => behindSlashes? k r
    | '/' :: r => some ⟨none, none, some (pathPieces k (r.takeWhile beforeQuery))⟩
    | _ => some ⟨none, none, none⟩

def parse? (s : String) : Option Url :=
  match scheme? (clean s) with
  | none => none
  | some (scheme, rest) =>
    let k := kindOf scheme
    (parts? k rest).map fun p =>
      { scheme, host := p.host, port := p.port, segments := p.segments, query := queryOf k rest }

/-- What a server is asked for: path and query. -/
def target (u : Url) : String :=
  "/" ++ "/".intercalate (u.segments.getD []) ++
    match u.query with
    | some q => "?" ++ q
    | none => ""

/-- A path that ends in a drive gets a slash behind it. -/
def closeDrive (path : List UInt8) : List UInt8 :=
  match path.reverse with
  | m :: c :: _ :: _ =>
    if isDrive [Char.ofNat c.toNat, Char.ofNat m.toNat] then path ++ [0x2F] else path
  | _ => path

/-- The bytes of the path of a file on this machine. -/
def filePath? (u : Url) : Option (List UInt8) :=
  if u.host.isNone ∨ u.host = some (.name "localhost") then
    u.segments.map fun ps =>
      closeDrive (ps.flatMap fun p => 0x2F :: percentDecode (Text.encode p))
  else none

end Url

end SmellWatch
