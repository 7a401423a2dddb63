import SmellWatch.Document
import SmellWatch.Duration
import SmellWatch.Finding
import SmellWatch.Fingerprint
/-! The open documents and what is known about them.

A result belongs to a document, the text it was found in and the settings it was found
under. Results are kept in a cache, so that a text that comes back is not analyzed
again. The store knows one fingerprint of the settings at a time and forgets the whole
cache when it changes; it forgets what it has of a document when the document is
removed. -/

namespace SmellWatch

/-- What is known about an open document. -/
structure DocumentEntry where
  id : DocumentId
  content : String
  fingerprint : Fingerprint
  /-- The result that was last delivered, perhaps for an older text. -/
  result : List Finding := []
  /-- The text that the result is about. -/
  resultFingerprint : Option Fingerprint := none
  analyzedAt : Option Duration := none
  /-- An analysis of the text is under way. -/
  inFlight : Bool := false
  /-- How many analyses were begun. -/
  seq : Nat := 0
deriving DecidableEq, Repr

namespace DocumentEntry

/-- Whether the result is about the text as it is. -/
def hasCurrentResult (e : DocumentEntry) : Bool := e.resultFingerprint == some e.fingerprint

end DocumentEntry

/-- What a cached result belongs to. -/
structure CacheKey where
  document : DocumentId
  content : Fingerprint
  config : Fingerprint
deriving DecidableEq, Repr

structure CacheEntry where
  key : CacheKey
  findings : List Finding
  storedAt : Duration
deriving DecidableEq, Repr

structure DocumentStore where
  documents : List DocumentEntry := []
  cache : List CacheEntry := []
  config : Fingerprint
  maxCacheAge : Duration
deriving DecidableEq, Repr

namespace DocumentStore

def get? (s : DocumentStore) (id : DocumentId) : Option DocumentEntry :=
  s.documents.find? (·.id = id)

/-- Changes the entry of a document, if it is open. -/
def modify (s : DocumentStore) (id : DocumentId) (f : DocumentEntry → DocumentEntry) :
    DocumentStore :=
  { s with documents := s.documents.map fun e => if e.id = id then f e else e }

/-- Takes in the text of a document; tells whether it is another than before. The old
result stays until there is a new one; an analysis of the old text no longer counts as
under way. -/
def upsert (s : DocumentStore) (id : DocumentId) (content : String) : Bool × DocumentStore :=
  let fingerprint := Fingerprint.ofText content
  match s.get? id with
  | none => (true, { s with documents := s.documents ++ [{ id, content, fingerprint }] })
  | some e =>
    if e.fingerprint = fingerprint then (false, s)
    else (true, s.modify id fun e => { e with content, fingerprint, inFlight := false })

/-- Takes in a result, if it is about the text as it is; tells whether it was. -/
def recordResult (now : Duration) (s : DocumentStore) (id : DocumentId) (fp : Fingerprint)
    (findings : List Finding) : Bool × DocumentStore :=
  match s.get? id with
  | none => (false, s)
  | some e =>
    if e.fingerprint = fp then
      (true, s.modify id fun e =>
        { e with
          result := findings
          resultFingerprint := some fp
          analyzedAt := some now
          inFlight := false })
    else (false, s)

def isExpired (s : DocumentStore) (now : Duration) (c : CacheEntry) : Bool :=
  s.maxCacheAge < now - c.storedAt

/-- Takes in a result and caches it; results that have expired are forgotten. -/
def setResult (now : Duration) (s : DocumentStore) (id : DocumentId) (fp : Fingerprint)
    (findings : List Finding) : Bool × DocumentStore :=
  match s.recordResult now id fp findings with
  | (false, s) => (false, s)
  | (true, s) =>
    let key : CacheKey := ⟨id, fp, s.config⟩
    let cache := s.cache.filter (·.key ≠ key) ++ [⟨key, findings, now⟩]
    (true, { s with cache := cache.filter (!s.isExpired now ·) })

/-- Says whether an analysis is under way; tells what was said before. -/
def setInFlight (s : DocumentStore) (id : DocumentId) (inFlight : Bool) : Bool × DocumentStore :=
  ((s.get? id).any (·.inFlight), s.modify id ({ · with inFlight }))

/-- Begins an analysis, unless one is under way; gives the entry to analyze. -/
def beginAnalysis (s : DocumentStore) (id : DocumentId) : Option DocumentEntry × DocumentStore :=
  match s.get? id with
  | none => (none, s)
  | some e =>
    if e.inFlight then (none, s)
    else
      let begun := fun e : DocumentEntry => { e with inFlight := true, seq := e.seq + 1 }
      (some (begun e), s.modify id begun)

/-- The analysis of that number is no longer under way, if it was the last one. -/
def finishAnalysis (s : DocumentStore) (id : DocumentId) (seq : Nat) : Bool × DocumentStore :=
  if (s.get? id).any fun e => e.seq = seq && e.inFlight then
    (true, s.modify id ({ · with inFlight := false }))
  else (false, s)

/-- The cached result for the text as it is, under the settings as they are, if it has
not expired. -/
def getCached? (now : Duration) (s : DocumentStore) (id : DocumentId) : Option (List Finding) := do
  let e ← s.get? id
  let c ← s.cache.find? (·.key = ⟨id, e.fingerprint, s.config⟩)
  if s.isExpired now c then none else some c.findings

/-- Adopts other settings; tells whether they are others. -/
def setConfig (s : DocumentStore) (config : Fingerprint) : Bool × DocumentStore :=
  if s.config = config then (false, s) else (true, { s with config, cache := [] })

/-- Forgets a document and its cached results; gives what was known about it. -/
def remove (s : DocumentStore) (id : DocumentId) : Option DocumentEntry × DocumentStore :=
  (s.get? id,
    { s with
      documents := s.documents.filter (·.id ≠ id)
      cache := s.cache.filter (·.key.document ≠ id) })

def size (s : DocumentStore) : Nat := s.documents.length

def cacheSize (s : DocumentStore) : Nat := s.cache.length

end DocumentStore

end SmellWatch
