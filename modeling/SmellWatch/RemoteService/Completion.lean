import SmellWatch.Json.Record
import SmellWatch.RemoteError
import SmellWatch.Text.Blank
/-! The answer of a model in the reply of its service.

One kind of service sends a list of content blocks, of which those of text count; the
other sends a list of choices, of which the first counts. -/

namespace SmellWatch.Completion

open JsonSource

/-! ## Content blocks -/

structure Block where
  kind : String
  text : Option String
deriving DecidableEq, Repr

def Block.ofJson? (s : JsonSource) : Option Block :=
  match s.parts? [.required "type", .defaulted "text"] with
  | some [kind, text] => do
    let kind ← requiredPart? JsonSource.text? kind
    let text ← optionPart? JsonSource.text? text
    return ⟨kind, text⟩
  | _ => none

/-- The blocks in a reply. -/
def blocks? (s : JsonSource) : Option (List Block) :=
  match s.parts? [.defaulted "content"] with
  | some [content] => defaultPart? (JsonSource.list? Block.ofJson?) [] content
  | _ => none

/-- The texts of the blocks of text, one behind the other. -/
def joined (blocks : List Block) : String :=
  String.join ((blocks.filter (·.kind = "text")).filterMap (·.text))

/-- The answer in a reply that has content blocks. -/
def ofBlocks (reply : String) : Except RemoteError String :=
  match (JsonSource.ofText? reply).bind blocks? with
  | none => .error (.malformed "Messages response: unexpected JSON")
  | some blocks =>
    let text := joined blocks
    if (Text.nonBlank? text).isSome then .ok text
    else .error (.malformed "Messages response has no text content")

/-! ## Choices -/

/-- The content of the message of a choice. -/
def content? (s : JsonSource) : Option (Option String) :=
  match s.parts? [.defaulted "content"] with
  | some [content] => optionPart? JsonSource.text? content
  | _ => none

def choice? (s : JsonSource) : Option (Option String) :=
  match s.parts? [.required "message"] with
  | some [message] => requiredPart? content? message
  | _ => none

/-- What each choice says, if it says something. -/
def choices? (s : JsonSource) : Option (List (Option String)) :=
  match s.parts? [.defaulted "choices"] with
  | some [choices] => defaultPart? (JsonSource.list? choice?) [] choices
  | _ => none

/-- The answer in a reply that has choices. -/
def ofChoices (reply : String) : Except RemoteError String :=
  match (JsonSource.ofText? reply).bind choices? with
  | none => .error (.malformed "chat completion response: unexpected JSON")
  | some choices =>
    match choices.head?.join.filter fun text => (Text.nonBlank? text).isSome with
    | some text => .ok text
    | none => .error (.malformed "chat completion has no content")

end SmellWatch.Completion
