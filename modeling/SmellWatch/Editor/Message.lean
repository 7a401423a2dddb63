import SmellWatch.Json.Record
import SmellWatch.Product
/-! What an editor sends, and what it is answered.

A message with a method is a request if it has an id, and a notification otherwise. A
message without a method that carries a result or an error answers something that was
never asked. Everything else is no message. -/

namespace SmellWatch

inductive Message
  | request (id : Json) (method : String) (params : Json)
  | notification (method : String) (params : Json)
  | response
deriving Repr

namespace Message

def ofJson? (m : Json) : Option Message :=
  let method := (m.get? "method").bind Json.string?
  let params := (m.get? "params").getD .null
  match m.get? "id", method with
  | some id, some method => some (.request id method params)
  | none, some method => some (.notification method params)
  | some _, none =>
    if (m.get? "result").isSome || (m.get? "error").isSome then some .response else none
  | none, none => none

end Message

/-! ## Answers -/

namespace Reply

/-- Why a request is refused. -/
inductive Refusal
  | invalidRequest
  | unknownMethod
  | invalidParams
  | notInitialized
deriving DecidableEq, Repr

def Refusal.code : Refusal → Int
  | .invalidRequest => -32600
  | .unknownMethod => -32601
  | .invalidParams => -32602
  | .notInitialized => -32002

def result (id value : Json) : Json :=
  .ofFields [("jsonrpc", .string "2.0"), ("id", id), ("result", value)]

def refusal (id : Json) (r : Refusal) (message : String) : Json :=
  .ofFields
    [("jsonrpc", .string "2.0"), ("id", id),
      ("error", .ofFields [("code", .int r.code), ("message", .string message)])]

def notification (method : String) (params : Json) : Json :=
  .ofFields [("jsonrpc", .string "2.0"), ("method", .string method), ("params", params)]

def warning (text : String) : Json :=
  notification "window/showMessage" (.ofFields [("type", .nat 2), ("message", .string text)])

/-- Documents are sent as a whole. -/
def fullSync : Nat := 1

/-- What the server can do. -/
def capabilities : Json :=
  .ofFields
    [("capabilities", .ofFields
      [("textDocumentSync", .ofFields
        [("openClose", .bool true), ("change", .nat fullSync),
          ("save", .ofFields [("includeText", .bool true)])])]),
      ("serverInfo", .ofFields [("name", .string Product.name), ("version", .string Product.version)])]

end Reply

/-! ## Parameters -/

namespace Params

open JsonSource

def requireOnly (name : String) (s : JsonSource) : Option JsonSource :=
  match s.parts? [.required name] with
  | some [some v] => some v
  | _ => none

/-- The address in a record with that one field. -/
def uri? (s : JsonSource) : Option String := (requireOnly "uri" s).bind JsonSource.text?

/-- The options of the first request, if there are any. -/
def initialize? (params : Json) : Option (Option Json) :=
  match params with
  | .null => some none
  | _ =>
    match (JsonSource.ofValue params).parts? [.defaulted "initializationOptions"] with
    | some [none] => some none
    | some [some v] =>
      match v.value? depthLimit with
      | some .null => some none
      | some v => some (some v)
      | none => none
    | _ => none

/-- Address and text of a document that was opened. -/
def opened? (params : Json) : Option (String × String) := do
  let item ← requireOnly "textDocument" (.ofValue params)
  match item.parts? [.required "uri", .required "text"] with
  | some [uri, text] =>
    return (← requiredPart? JsonSource.text? uri, ← requiredPart? JsonSource.text? text)
  | _ => none

/-- The address of a document that was changed, and the texts of the changes. -/
def changed? (params : Json) : Option (String × List String) :=
  match (JsonSource.ofValue params).parts? [.required "textDocument", .required "contentChanges"] with
  | some [document, changes] => do
    let uri ← requiredPart? uri? document
    let texts ← requiredPart?
      (JsonSource.list? fun c => (requireOnly "text" c).bind JsonSource.text?) changes
    return (uri, texts)
  | _ => none

/-- The address of a document that was saved, and its text if that was sent too. -/
def saved? (params : Json) : Option (String × Option String) :=
  match (JsonSource.ofValue params).parts? [.required "textDocument", .defaulted "text"] with
  | some [document, text] => do
    let uri ← requiredPart? uri? document
    let text ← optionPart? JsonSource.text? text
    return (uri, text)
  | _ => none

def closed? (params : Json) : Option String :=
  (requireOnly "textDocument" (.ofValue params)).bind uri?

/-- The settings that were sent; `null` if there are none. -/
def settings? (params : Json) : Option Json :=
  match (JsonSource.ofValue params).parts? [.defaulted "settings"] with
  | some [none] => some .null
  | some [some v] => v.value? depthLimit
  | _ => none

/-- The settings proper, which may stand under a name of their own. -/
def overlay? (settings : Json) : Option Json :=
  let overlay := (settings.get? Product.name).getD settings
  if overlay.isObject then some overlay else none

end Params

end SmellWatch
