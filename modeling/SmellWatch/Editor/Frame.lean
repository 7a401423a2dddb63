import SmellWatch.Decimal.Reading
import SmellWatch.Json.Printer
import SmellWatch.Json.Source
import SmellWatch.Text.Quoted
import SmellWatch.Text.Utf8
/-! Frames: JSON values on a stream of bytes.

A frame is a block of header lines, an empty line, and a body of exactly as many bytes
as the header `Content-Length` says. `Frame.read` takes the first frame off a stream;
while the stream is open, it may have to wait for more. -/

namespace SmellWatch

/-- Why no frame can be read. -/
inductive FrameError
  /-- A header line is no text. -/
  | header
  /-- The length is no number. -/
  | badLength (written : String)
  /-- No header gives the length. -/
  | noLength
  /-- The stream ended among the headers. -/
  | cutHeader
  | tooLong (length : Nat)
  /-- The stream ended within the body. -/
  | cutBody
  /-- The body is no JSON. -/
  | badBody
deriving DecidableEq, Repr

namespace Frame

/-- The greatest length of a body. -/
def bodyLimit : Nat := 4 * 1024 * 1024

end Frame

namespace FrameError

def message : FrameError → String
  | header => "reading message header"
  | badLength written => "invalid Content-Length " ++ Text.quoted written
  | noLength => "header block without Content-Length"
  | cutHeader => "stream closed inside a header block"
  | tooLong length => s!"message of {length} bytes exceeds the {Frame.bodyLimit} byte limit"
  | cutBody => "reading message body"
  | badBody => "message body is not JSON"

end FrameError

namespace Frame

/-! ## Headers -/

/-- What one header line says. -/
inductive Line
  /-- It is blank: the headers end here. -/
  | blank
  | length (n : Nat)
  /-- Something that does not matter. -/
  | other
deriving DecidableEq, Repr

/-- The name before the first colon, and the value behind it. -/
def nameValue? (line : List Char) : Option (String × String) :=
  match line.dropWhile (· ≠ ':') with
  | [] => none
  | _ :: value =>
    some (Text.trim (String.ofList (line.takeWhile (· ≠ ':'))), Text.trim (String.ofList value))

def readLine (bytes : List UInt8) : Except FrameError Line :=
  match Text.decode? bytes with
  | none => .error .header
  | some text =>
    let line := Text.trim text
    if line.isEmpty then .ok .blank
    else
      match nameValue? line.toList with
      | none => .ok .other
      | some (name, value) =>
        if Text.eqIgnoringAsciiCase name "content-length" then
          match Decimal.naturalBelow? (Nat.pow 2 64) value with
          | some n => .ok (.length n)
          | none => .error (.badLength value)
        else .ok .other

/-- A stretch of the stream, taken off. -/
inductive Taken (α : Type)
  | found (value : α) (rest : List UInt8)
  /-- More bytes have to come. -/
  | wait
  /-- The stream ended between two frames. -/
  | stop
  | failed (error : FrameError)
deriving Repr

/-- The length that the headers give. `line` is the line so far, last byte first;
`length` what lines before it said, and `begun` whether there were any. -/
def takeHeaders (closed : Bool) (line : List UInt8) (length : Option Nat) (begun : Bool) :
    List UInt8 → Taken (Option Nat)
  | [] =>
    if !closed then .wait
    else if line.isEmpty then if begun then .failed .cutHeader else .stop
    else
      match readLine line.reverse with
      | .error e => .failed e
      | .ok .blank => .found length []
      | .ok _ => .failed .cutHeader
  | b :: r =>
    if b = 10 then
      match readLine (b :: line).reverse with
      | .error e => .failed e
      | .ok .blank => .found length r
      | .ok (.length n) => takeHeaders closed [] (some n) true r
      | .ok .other => takeHeaders closed [] length true r
    else takeHeaders closed (b :: line) length begun r

/-! ## Bodies -/

def readBody? (bytes : List UInt8) : Option Json := (Text.decode? bytes).bind Json.parse?

def takeBody (closed : Bool) (length : Nat) (bytes : List UInt8) : Taken Json :=
  if bodyLimit < length then .failed (.tooLong length)
  else
    let body := bytes.take length
    if body.length < length then if closed then .failed .cutBody else .wait
    else
      match readBody? body with
      | some value => .found value (bytes.drop length)
      | none => .failed .badBody

/-! ## Frames -/

/-- The first frame of a stream. -/
def read (closed : Bool) (bytes : List UInt8) : Taken Json :=
  match takeHeaders closed [] none false bytes with
  | .wait => .wait
  | .stop => .stop
  | .failed e => .failed e
  | .found none _ => .failed .noLength
  | .found (some length) rest => takeBody closed length rest

/-- Reads frames until the stream ends or fails; every frame has a byte at least. -/
def readAllFor : Nat → List UInt8 → List Json × Option FrameError
  | 0, _ => ([], none)
  | fuel + 1, bytes =>
    match read true bytes with
    | .found value rest =>
      let (values, e) := readAllFor fuel rest
      (value :: values, e)
    | .wait | .stop => ([], none)
    | .failed e => ([], some e)

/-- The values of a stream that has ended, and why it cannot be read any further, if it
cannot. -/
def readAll (bytes : List UInt8) : List Json × Option FrameError :=
  readAllFor (bytes.length + 1) bytes

/-- The frame of a value. -/
def write (value : Json) : String :=
  let body := value.compact
  s!"Content-Length: {body.utf8ByteSize}\r\n\r\n" ++ body

def writeAll (values : List Json) : String := String.join (values.map write)

end Frame

end SmellWatch
