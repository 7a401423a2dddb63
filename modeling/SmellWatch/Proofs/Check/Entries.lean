import SmellWatch.Proofs.Check.Results
import SmellWatch.Proofs.Check.Selection
import SmellWatch.Proofs.Watch.OneText
/-! What a report shows of each source.

Results go by the path that is shown, and each goes to one source only.  So of sources that are
shown under one path the first one has their findings, and the others are shown without any
(`shows_assign`).  A report shows each source with its own findings exactly if no source that
has findings comes behind one with its path (`NoneHidden`): if no file that has findings is
checked once more with a point in front of its path (`noneHidden_iff_noneTwice`).

What is a source's own is what is computed for its path and its content: what the heuristics
find (`scanned`), or what is told of its document first when the service is asked
(`Run.firstTold`).  `shows_own` says this of whole checks. -/

namespace SmellWatch

/-- What was told of a document first; nothing, if it was never told of. -/
def Watch.Run.firstTold (r : Watch.Run) (id : DocumentId) : List Finding :=
  (r.tidings.reverse.lookup id).getD []

namespace Check

open Watch

variable {env : Environment} {d : Disk} {o : Options} {c : Config} {sources : List Source}
  {files : List FileReport} {own : Source → List Finding} {results : Results} {r : Watch.Run}
  {s : Source} {id : DocumentId}

/-! ## Entries -/

/-- One entry for each source, with its findings. -/
def entries (own : Source → List Finding) (sources : List Source) : List FileReport :=
  sources.map fun s => ⟨s.path, own s⟩

/-- No source that has findings comes behind one with its path. -/
def NoneHidden (own : Source → List Finding) (sources : List Source) : Prop :=
  sources.Pairwise fun s t => s.path = t.path → own t = []

/-- What the entries of a report show of sources that have findings of their own. -/
structure Shows (own : Source → List Finding) (sources : List Source)
    (files : List FileReport) : Prop where
  /-- There is an entry for each source, in their order. -/
  paths : files.map (·.path) = sources.map (·.path)
  /-- A source is shown with its findings, unless its path has been shown before. -/
  findings : ∀ front s rest, sources = front ++ s :: rest → files[front.length]? =
    some ⟨s.path, if s.path ∈ front.map (·.path) then [] else own s⟩
  /-- Each is shown with its own findings exactly if none is hidden. -/
  exactly : files = entries own sources ↔ NoneHidden own sources

theorem document_eq_iff {s t : Source} : s.document = t.document ↔ s.path = t.path := by
  unfold Source.document
  rw [DocumentId.mk.injEq]

theorem split_at_eq (sources : List Source) {i : Nat} (hi : i < sources.length) :
    sources = sources.take i ++ sources[i] :: sources.drop (i + 1) := by
  rw [List.getElem_cons_drop, List.take_append_drop]

/-- No source is hidden exactly if each one is without findings whose path stands before. -/
theorem noneHidden_iff :
    NoneHidden own sources ↔ ∀ front s rest, sources = front ++ s :: rest →
      s.path ∈ front.map (·.path) → own s = [] := by
  constructor
  · rintro h front s rest rfl hin
    obtain ⟨x, hx, hpath⟩ := List.mem_map.mp hin
    exact (List.pairwise_append.mp h).2.2 x hx s List.mem_cons_self hpath
  · intro h
    refine List.pairwise_iff_getElem.mpr fun i j hi hj hlt hpath => ?_
    refine h _ _ _ (split_at_eq sources hj) (List.mem_map.mpr ⟨sources[i], ?_, hpath⟩)
    exact List.mem_take_iff_getElem.mpr ⟨i, by omega, rfl⟩

/-- The entries of a report are told by what stands at each place. -/
theorem eq_entries_iff (hpaths : files.map (·.path) = sources.map (·.path)) :
    files = entries own sources ↔ ∀ front s rest, sources = front ++ s :: rest →
      files[front.length]? = some ⟨s.path, own s⟩ := by
  constructor
  · rintro rfl front s rest rfl
    simp [entries]
  · intro h
    have hlength : files.length = sources.length := by
      simpa using congrArg List.length hpaths
    refine List.ext_getElem (by simpa [entries] using hlength) fun i hi hi' => ?_
    have hi : i < sources.length := hlength ▸ hi
    have hat := h _ _ _ (split_at_eq sources hi)
    rw [List.length_take_of_le (Nat.le_of_lt hi), List.getElem?_eq_getElem (hlength ▸ hi)] at hat
    simpa [entries] using hat

/-- What stands at each place tells when the report shows each source with its findings. -/
theorem Shows.of_findings (hpaths : files.map (·.path) = sources.map (·.path))
    (h : ∀ front s rest, sources = front ++ s :: rest → files[front.length]? =
      some ⟨s.path, if s.path ∈ front.map (·.path) then [] else own s⟩) :
    Shows own sources files := by
  refine ⟨hpaths, h, ?_⟩
  rw [eq_entries_iff hpaths, noneHidden_iff]
  refine forall₃_congr fun front s rest => forall_congr' fun hsources => ?_
  rw [h front s rest hsources, Option.some.injEq, FileReport.mk.injEq, and_iff_right rfl]
  split
  · rename_i hin
    exact ⟨fun heq _ => heq.symm, fun heq => (heq hin).symm⟩
  · rename_i hnotin
    exact ⟨fun _ hin => absurd hin hnotin, fun _ => rfl⟩

/-- A document that has results has the first of them. -/
theorem exists_lookup (h : ∃ p ∈ results, p.1 = id) :
    ∃ findings, results.lookup id = some findings ∧ (id, findings) ∈ results := by
  obtain ⟨p, hp, hid⟩ := h
  rw [lookup_eq_find?]
  cases hfind : results.find? (·.1 = id) with
  | none => exact absurd (decide_eq_true hid) (List.find?_eq_none.mp hfind p hp)
  | some x =>
    obtain rfl : x.1 = id := by simpa using List.find?_some hfind
    exact ⟨x.2, rfl, List.mem_of_find?_eq_some hfind⟩

theorem path_assign (results : Results) (sources : List Source) :
    (assign results sources).map (·.path) = sources.map (·.path) := by
  induction sources generalizing results with
  | nil => rfl
  | cons s rest ih => exact congrArg (s.path :: ·) (ih _)

/-- A result goes to the first source with its path, and the others get none. -/
theorem getElem?_assign (results : Results) (front : List Source) (s : Source)
    (rest : List Source) :
    (assign results (front ++ s :: rest))[front.length]? =
      some ⟨s.path, if s.path ∈ front.map (·.path) then []
        else (results.lookup s.document).getD []⟩ := by
  induction front generalizing results with
  | nil => rfl
  | cons x front ih =>
    rw [List.cons_append, List.length_cons, assign, List.getElem?_cons_succ, ih,
      lookup_filter_ne, List.map_cons]
    by_cases hx : s.document = x.document
    · rw [if_pos hx, if_pos (List.mem_cons.mpr (.inl (document_eq_iff.mp hx)))]
      simp
    · have hpath : s.path ≠ x.path := fun h => hx (document_eq_iff.mpr h)
      simp only [List.mem_cons, hpath, false_or, if_neg hx]

/-- The report of results shows the sources whose findings they are. -/
theorem shows_assign (h : ∀ s ∈ sources, (results.lookup s.document).getD [] = own s) :
    Shows own sources (assign results sources) := by
  refine .of_findings (path_assign results sources) ?_
  rintro front s rest rfl
  rw [getElem?_assign, h s (List.mem_append_right _ List.mem_cons_self)]

/-! ## The sources of a check -/

theorem prepare_eq_ok_iff :
    prepare env d o = .ok (c, sources) ↔
      ∃ place filter files, Config.load env d o.config = .ok (c, place) ∧
        c.includeFilter = .ok filter ∧ Selection.files? env d filter o.paths = some files ∧
        Selection.sources d files = sources := by
  constructor
  · intro h
    rcases hload : Config.load env d o.config with e | ⟨c', place⟩
    · simp only [prepare, hload] at h
      cases h
    · rcases hfilter : c'.includeFilter with e | filter
      · simp only [prepare, hload, Except.mapError, hfilter, bind, Except.bind] at h
        cases h
      · rcases hfiles : Selection.files? env d filter o.paths with _ | files
        · simp only [prepare, hload, Except.mapError, hfilter, bind, Except.bind, hfiles] at h
          cases h
        · simp only [prepare, hload, Except.mapError, hfilter, bind, Except.bind, hfiles] at h
          cases h
          exact ⟨place, filter, files, rfl, hfilter, hfiles, rfl⟩
  · rintro ⟨place, filter, files, hload, hfilter, hfiles, rfl⟩
    simp only [prepare, hload, Except.mapError, hfilter, bind, Except.bind, hfiles]
    rfl

/-- No file that has findings is checked once more with a point in front of its path. -/
def NoneTwice (d : Disk) (own : Source → List Finding) (files : List String) : Prop :=
  ∀ p ∈ files, ∀ q ∈ files, Path.HasPoint p → Path.withoutPoint p = q →
    ∀ text, d.readText q = .ok text → own ⟨q, text⟩ = []

/-- Findings are hidden when their file is checked twice. -/
theorem noneHidden_iff_noneTwice {filter : IncludeFilter} {files : List String}
    (h : prepare env d o = .ok (c, sources)) (hfilter : c.includeFilter = .ok filter)
    (hfiles : Selection.files? env d filter o.paths = some files) :
    NoneHidden own sources ↔ NoneTwice d own files := by
  obtain ⟨_, _, _, -, hfilter', hfiles', rfl⟩ := prepare_eq_ok_iff.mp h
  rw [hfilter] at hfilter'
  cases hfilter'
  rw [hfiles] at hfiles'
  cases hfiles'
  exact Selection.pairwise_sources_iff hfiles fun t => own t = []

/-- Sources that are shown under one path are the same. -/
def OnePerPath (sources : List Source) : Prop :=
  ∀ s ∈ sources, ∀ t ∈ sources, s.path = t.path → s = t

theorem onePerPath_of_prepare (h : prepare env d o = .ok (c, sources)) : OnePerPath sources := by
  obtain ⟨_, _, files, -, -, -, rfl⟩ := prepare_eq_ok_iff.mp h
  exact fun s hs t ht => Selection.eq_of_path_eq hs ht

/-! ## Heuristics -/

/-- What the heuristics find in a source. -/
def scanned (c : Config) (s : Source) : List Finding :=
  (WatchOptions.ofConfig c).filter (Heuristics.scan s.document s.content)

/-- The heuristics have the findings of each source. -/
theorem lookup_offline (honce : OnePerPath sources) (hs : s ∈ sources) :
    (offline c sources).lookup s.document = some (scanned c s) := by
  have hin : (s.document, scanned c s) ∈ offline c sources :=
    List.mem_reverse.mpr (List.mem_map.mpr ⟨s, hs, rfl⟩)
  obtain ⟨findings, hlookup, hfindings⟩ := exists_lookup ⟨_, hin, rfl⟩
  obtain ⟨t, ht, heq⟩ := List.mem_map.mp (List.mem_reverse.mp hfindings)
  obtain ⟨hdocument, rfl⟩ := Prod.mk.inj heq
  rw [hlookup, honce t ht s hs (document_eq_iff.mp hdocument)]
  rfl

/-- Without the service, a check reports what the heuristics have. -/
theorem report_offline (h : prepare env d o = .ok (c, sources)) (hoffline : o.offline = true)
    {σ : Type} (network : Http.Network σ) (state : σ) :
    (report env d network state o).1 = .ok ⟨assign (offline c sources) sources⟩ := by
  unfold report
  rw [h]
  dsimp only
  rw [hoffline, if_pos rfl]

/-! ## The service -/

/-- A run in which the service is asked about some sources. -/
structure AsksAbout (c : Config) (sources : List Source) (r : Watch.Run) : Prop where
  outset : r.asOf 0 = .start (.ofConfig (batched c)) (batched c).fingerprint 0
  submits : Submits sources r

namespace AsksAbout

theorem adopted (h : AsksAbout c sources r) : r.adopted = .ofConfig (batched c) := by
  rw [h.submits.onlySubmits.adopted_eq, h.outset]
  rfl

/-- The content of a source is the one text of its document. -/
theorem saysOnly (h : AsksAbout c sources r) (honce : OnePerPath sources) (hs : s ∈ sources) :
    r.SaysOnly s.document s.content := by
  intro e he hid
  rw [show r.deeds = _ from h.submits] at he
  obtain ⟨t, ht, he⟩ := List.mem_flatMap.mp he
  rcases List.mem_cons.mp he with rfl | he
  · have hdocument : t.document = s.document := Option.some.inj hid
    rw [honce t ht s hs (document_eq_iff.mp hdocument)]
    rfl
  · rw [List.mem_singleton.mp he] at hid
    cases hid

/-- What is told of a source first was found in its content. -/
theorem foundIn (h : AsksAbout c sources r) (honce : OnePerPath sources) (hs : s ∈ sources)
    (hdone : (intake sources r).pending = []) :
    FoundIn r (.ofConfig (batched c)) s.document s.content (r.firstTold s.document) := by
  have hdocument : s.document ∈ documents sources := mem_documents.mpr ⟨s, hs, rfl⟩
  obtain ⟨p, hp, hid⟩ : ∃ p ∈ r.tidings, p.1 = s.document := by
    by_contra hnone
    have hpending : s.document ∈ (intake sources r).pending :=
      mem_pending_intake.mpr ⟨hdocument, fun p hp hid => hnone ⟨p, hp, hid⟩⟩
    rw [hdone] at hpending
    exact absurd hpending List.not_mem_nil
  obtain ⟨findings, hlookup, hfindings⟩ :=
    exists_lookup ⟨p, List.mem_reverse.mpr hp, hid⟩
  unfold Run.firstTold
  rw [hlookup, ← h.adopted]
  exact h.submits.onlySubmits.foundIn_of_tidings (h.saysOnly honce hs) _
    (List.mem_reverse.mp hfindings)

/-- The report of what is told shows the sources with what is told of them first. -/
theorem shows (sources : List Source) (r : Watch.Run) :
    Shows (fun s => r.firstTold s.document) sources
      (assign (intake sources r).results sources) := by
  rw [assign_intake]
  exact shows_assign fun _ _ => rfl

end AsksAbout

/-- With the service, a check makes such a run, and reports what is told in it. -/
theorem report_asksAbout (h : prepare env d o = .ok (c, sources)) (honline : o.offline = false)
    {σ : Type} (network : Http.Network σ) (state : σ) {service : RemoteService}
    (hservice : RemoteService.ofSettings (.ofConfig env (batched c)) = .ok service) :
    ∃ r, AsksAbout c sources r ∧ (report env d network state o).1 =
      .ok ⟨assign (intake sources r).results sources⟩ := by
  obtain ⟨r, hsubmits, houtset, hresults⟩ :=
    remote_submits network state service (batched c) sources
  refine ⟨r, ⟨houtset, hsubmits⟩, ?_⟩
  unfold report
  rw [h]
  dsimp only
  rw [honline, if_neg (by simp), hservice]
  dsimp only
  rw [hresults, assign_intake]

/-! ## Whole checks -/

/-- The report of a check has an entry for each source in their order, and shows each one with
what was computed for its path and its content, unless its path has been shown before.  So all
are shown with their own findings exactly if none that has findings comes behind one with its
path: if no file that has findings is checked once more with a point in front of its path.
Without the service it is the heuristics that compute; with it, what is told first of a document
in a run in which each gets a result. -/
theorem shows_own (env : Environment) (d : Disk) (o : Options) (c : Config)
    (sources : List Source) (h : prepare env d o = .ok (c, sources)) :
    (o.offline = true → ∀ {σ : Type} (network : Http.Network σ) (state : σ),
      ∃ files, (report env d network state o).1 = .ok ⟨files⟩ ∧
        Shows (scanned c) sources files) ∧
    (∀ r, AsksAbout c sources r → (intake sources r).pending = [] →
      (∀ s ∈ sources,
        FoundIn r (.ofConfig (batched c)) s.document s.content (r.firstTold s.document)) ∧
      Shows (fun s => r.firstTold s.document) sources
        (assign (intake sources r).results sources)) ∧
    (o.offline = false → ∀ {σ : Type} (network : Http.Network σ) (state : σ)
      (service : RemoteService),
      RemoteService.ofSettings (.ofConfig env (batched c)) = .ok service →
      ∃ r, AsksAbout c sources r ∧ (report env d network state o).1 =
        .ok ⟨assign (intake sources r).results sources⟩) ∧
    (∀ filter files, c.includeFilter = .ok filter →
      Selection.files? env d filter o.paths = some files →
      ∀ own, NoneHidden own sources ↔ NoneTwice d own files) := by
  have honce := onePerPath_of_prepare h
  refine ⟨fun hoffline σ network state => ?_, fun r hasks hdone => ⟨fun s hs => ?_, ?_⟩,
    fun honline σ network state service => report_asksAbout h honline network state,
    fun filter files hfilter hfiles own => noneHidden_iff_noneTwice h hfilter hfiles⟩
  · refine ⟨_, report_offline h hoffline network state, shows_assign fun s hs => ?_⟩
    rw [lookup_offline honce hs]
    rfl
  · exact hasks.foundIn honce hs hdone
  · exact AsksAbout.shows sources r

/-- A program that panics, and another file. -/
def twoPrograms : Disk where
  entries := [(["main.go"], some (Text.encode "panic(\"x\")")),
    (["other.go"], some (Text.encode "x"))]
  workingDirectory := []
  home := none

def panicking : Source := ⟨"main.go", "panic(\"x\")"⟩

def peaceful : Source := ⟨"other.go", "x"⟩

/-- A check of some files without the service. -/
def locally (paths : List String) : Options :=
  { paths, format := .json, config := none, offline := true }

/-- No server is heard. -/
def deaf : Http.Network Unit := fun state _ => (.silent, state)

theorem prepare_apart :
    prepare ⟨[]⟩ twoPrograms (locally ["./main.go", "other.go"]) =
      .ok ({}, [panicking, peaceful]) := by
  have hfiles : Selection.files? ⟨[]⟩ twoPrograms ⟨[]⟩ ["./main.go", "other.go"] =
      some [["./main.go"], ["other.go"]].flatten :=
    Selection.files?_of_sorted (by decide +kernel) (by decide +kernel)
  exact prepare_eq_ok_iff.mpr ⟨none, ⟨[]⟩, _, rfl, rfl, hfiles, by decide +kernel⟩

/-- The service is asked about both files and answers. -/
def bothAnswered : Watch.Run :=
  (Watch.Run.start (.ofConfig (batched {})) (batched {}).fingerprint 0).after
    [(0, .opened panicking.document panicking.content), (0, .saved panicking.document),
      (0, .opened peaceful.document peaceful.content), (0, .saved peaceful.document),
      (0, .ran .worker), (0, .ran (.work 0)),
      (0, .answered 0 (.returned (.ok [.basic "F1" "F1" .warning "F1"]))),
      (0, .ran .worker), (0, .ran (.completion 0)), (0, .ran (.work 1)),
      (0, .answered 1 (.returned (.ok []))), (0, .ran .worker), (0, .ran (.completion 1))]

theorem shows_own_apart :
    prepare ⟨[]⟩ twoPrograms (locally ["./main.go", "other.go"]) =
        .ok ({}, [panicking, peaceful]) ∧
      (report ⟨[]⟩ twoPrograms deaf () (locally ["./main.go", "other.go"])).1 =
        .ok ⟨entries (scanned {}) [panicking, peaceful]⟩ ∧
      AsksAbout {} [panicking, peaceful] bothAnswered ∧
      assign (intake [panicking, peaceful] bothAnswered).results [panicking, peaceful] =
        [⟨"main.go", [.basic "F1" "F1" .warning "F1"]⟩, ⟨"other.go", []⟩] := by
  have hasks : AsksAbout {} [panicking, peaceful] bothAnswered := ⟨rfl, rfl⟩
  have hdone : (intake [panicking, peaceful] bothAnswered).pending = [] := by decide +kernel
  have hapart : ∀ own, NoneHidden own [panicking, peaceful] := fun own =>
    List.pairwise_pair.mpr fun hpath => absurd hpath (by decide)
  obtain ⟨hoffline, honline, -, -⟩ := shows_own ⟨[]⟩ twoPrograms _ {} _ prepare_apart
  obtain ⟨files, hreport, hshows⟩ := hoffline rfl deaf ()
  refine ⟨prepare_apart, ?_, hasks, ?_⟩
  · rw [hreport, hshows.exactly.mpr (hapart _)]
  · rw [(honline bothAnswered hasks hdone).2.exactly.mpr (hapart _)]
    decide +kernel

theorem prepare_twice :
    prepare ⟨[]⟩ twoPrograms (locally ["./main.go", "main.go"]) =
      .ok ({}, [panicking, panicking]) := by
  have hfiles : Selection.files? ⟨[]⟩ twoPrograms ⟨[]⟩ ["./main.go", "main.go"] =
      some [["./main.go"], ["main.go"]].flatten :=
    Selection.files?_of_sorted (by decide +kernel) (by decide +kernel)
  exact prepare_eq_ok_iff.mpr ⟨none, ⟨[]⟩, _, rfl, rfl, hfiles, by decide +kernel⟩

/-- A file is not always shown with its findings: one that is checked twice, once with a point
in front of its path, is shown the second time without any. -/
theorem not_always_shows_own :
    ¬ ∀ (env : Environment) (d : Disk) (o : Options) (c : Config) (sources : List Source),
      prepare env d o = .ok (c, sources) → o.offline = true →
      ∀ (network : Http.Network Unit),
        (report env d network () o).1 = .ok ⟨entries (scanned c) sources⟩ := by
  intro h
  have hshown := h _ _ _ _ _ prepare_twice rfl deaf
  rw [report_offline prepare_twice rfl] at hshown
  injection hshown with hreport
  injection hreport with hfiles
  exact absurd hfiles (by decide +kernel)

end Check

end SmellWatch
