import SmellWatch.Http.Head
import SmellWatch.Json.Value
import SmellWatch.Text.Utf8
import SmellWatch.Url
/-! What is sent to a server, and what comes back.

The body of a reply comes in pieces. `cappedText` reads piece by piece and stops when there is
more than it keeps. Only the bytes count, not where the pieces end: a character may be cut by
the end of a piece. -/

namespace SmellWatch.Http

/-- A request with a JSON body. -/
structure Request where
  url : Url
  headers : List Header
  body : Json
deriving Repr

structure Reply where
  status : Nat := 200
  headers : List Header := []
  /-- The body, piece by piece as it came. -/
  pieces : List (List UInt8) := []
  /-- The connection broke before all of the body had come. -/
  broken : Bool := false
deriving Repr

/-- How sending a request ends. -/
inductive Exchange
  | replied (reply : Reply)
  /-- Nothing came in time. -/
  | silent
  | failed (reason : String)
deriving Repr

/-- A reply that only announces another one. -/
def isInterim (code : Nat) : Bool := 100 ≤ code && code < 200 && code ≠ 101

/-- Whether replies with this status have a body. -/
def hasBody (code : Nat) : Bool := code ≠ 101 && code ≠ 204 && code ≠ 304

/-- A reply without the body that its status does not allow. -/
def Reply.proper (r : Reply) : Reply :=
  if hasBody r.status then r else { r with pieces := [], broken := false }

/-- Whether a text can be sent as the value of a header: it has no control characters
but tabs. -/
def isSendable (value : String) : Bool :=
  value.toList.all fun c => c = '\t' || (0x20 ≤ c.toNat && c.toNat ≠ 0x7F)

/-! ## The text of a body -/

/-- The most bytes of a body that are kept. -/
def bodyLimit : Nat := 32 * 1024

/-- The first bytes of a body, of which `read` were read before, and whether there are
more than are kept. -/
def readCapped (read : List UInt8) : List (List UInt8) → List UInt8 × Bool
  | [] => (read, false)
  | piece :: rest =>
    let read := read ++ piece
    if bodyLimit < read.length then (read.take bodyLimit, true) else readCapped read rest

def truncationMark : String := "...(truncated)"

/-- The text of the bytes that are kept, with a mark if there are more. -/
def cappedText (pieces : List (List UInt8)) : String :=
  let (bytes, more) := readCapped [] pieces
  Text.decodeLossy bytes ++ if more then truncationMark else ""

/-- The text of all bytes. -/
def text (pieces : List (List UInt8)) : String := Text.decodeLossy pieces.flatten

end SmellWatch.Http
