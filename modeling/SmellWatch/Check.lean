import SmellWatch.Check.Selection
import SmellWatch.Config.Load
import SmellWatch.Heuristics.Scan
import SmellWatch.RemoteService.Call
import SmellWatch.Report
/-! One check of some files: by the heuristics alone, or with the help of the remote
service.

With the service, every file is opened and saved in a watch, and what is published
first about a document is its result. The files are all queued at once, so they may
wait in the queue for a day. -/

namespace SmellWatch

namespace Check

/-- What a check is to do. -/
structure Options where
  paths : List String
  format : Report.Format
  /-- The file with the settings. -/
  config : Option String
  /-- The remote service is left alone. -/
  offline : Bool
deriving DecidableEq, Repr

/-- Why there is no report. -/
inductive Error
  | settings (e : LoadError)
  | glob (e : BadGlob)
  /-- Some path leads nowhere, or rules about files to skip cannot be read. -/
  | files
  | service (e : RemoteError)
deriving DecidableEq, Repr

namespace Error

/-- What stands for a failure as a whole. -/
def headline : Error → String
  | settings e => e.message
  | glob e => e.message
  | files => "walking input paths"
  | service _ => "request failed"

end Error

/-- What was found out about documents. -/
abbrev Results := List (DocumentId × List Finding)

/-! ## Heuristics -/

/-- What the heuristics find in the sources. Of two with one path the later counts. -/
def offline (c : Config) (sources : List Source) : Results :=
  let o := WatchOptions.ofConfig c
  (sources.map fun s => (s.document, o.filter (Heuristics.scan s.document s.content))).reverse

/-! ## The remote service -/

/-- How long a source may wait in the queue, in seconds. -/
def maxQueueAgeSeconds : Nat := 24 * 60 * 60

/-- Where the run of a check is cut off, in milliseconds, so that there is an end to it. A
check as such has no limit: it waits for a result about every source, however long that
takes. No analysis starts after a day in the queue, and ten days leave time for the last
one, unless the limits of its retries are in the thousands. -/
def horizon : Nat := 10 * maxQueueAgeSeconds * 1000

/-- The settings of a check. -/
def batched (c : Config) : Config := { c with analysis := { c.analysis with maxQueueAgeSeconds } }

/-- A source is opened and saved. -/
def submit {σ : Type} (r : Rehearsal σ) (s : Source) : Rehearsal σ :=
  (r.happen (.opened s.document s.content)).happen (.saved s.document)

/-- What is published about the sources, and the network afterwards. -/
def remote {σ : Type} (network : Http.Network σ) (state : σ) (s : RemoteService) (c : Config)
    (sources : List Source) : Results × σ :=
  let watch := Watch.ofOptions (.ofConfig c) c.fingerprint 0
  let begun : Rehearsal σ := { watch, service := state, serve := s.call network }
  let r := (sources.foldl submit begun).runUntil horizon
  (r.log.published.map (·.2), r.service)

/-! ## The report -/

/-- Every result goes to the first source with its path. -/
def assign (results : Results) : List Source → List FileReport
  | [] => []
  | s :: r =>
    let id := s.document
    ⟨s.path, (results.lookup id).getD []⟩ :: assign (results.filter (·.1 ≠ id)) r

/-- The sources of a check, and the settings for it. -/
def prepare (env : Environment) (d : Disk) (o : Options) :
    Except Error (Config × List Source) := do
  let (c, _) ← (Config.load env d o.config).mapError .settings
  let filter ← c.includeFilter.mapError .glob
  match Selection.files? env d filter o.paths with
  | some files => return (c, Selection.sources d files)
  | none => throw .files

/-- The report of a check, and the network afterwards. -/
def report {σ : Type} (env : Environment) (d : Disk) (network : Http.Network σ) (state : σ)
    (o : Options) : Except Error Report × σ :=
  match prepare env d o with
  | .error e => (.error e, state)
  | .ok (c, sources) =>
    if o.offline then (.ok ⟨assign (offline c sources) sources⟩, state)
    else
      let c := batched c
      match RemoteService.ofSettings (.ofConfig env c) with
      | .error e => (.error (.service e), state)
      | .ok s =>
        let (results, state) := remote network state s c sources
        (.ok ⟨assign results sources⟩, state)

end Check

end SmellWatch
