import SmellWatch.Proofs.Watch.Answers
import SmellWatch.Proofs.Watch.Provenance
/-! What is told is about the text as it is.

Texts come from the editor alone, and an analysis takes its text from the entry of its
document (`Run.printed`); what the cache has is what a service answered
(`Run.backing_of_cached`).  So if the texts of a run are told apart by their fingerprints,
all findings that are told, but for the end of those of a document that is closed, stem
from the text that their document has at that moment (`fresh_of_told`). -/

namespace SmellWatch

namespace Watch

variable {now : Duration} {id : DocumentId} {r : Run} {e : Event} {c : CacheEntry}
  {findings : List Finding}

/-- The findings that are told, and of which document. -/
def Effect.told? : Effect → Option (DocumentId × List Finding)
  | .published id findings => some (id, findings)
  | _ => none

namespace Run

/-- What the last step told. -/
def told (r : Run) : List (DocumentId × List Finding) := r.effects.filterMap Effect.told?

/-- The texts that the editor said, the latest first. -/
def texts : Run → List String
  | start _ _ _ => []
  | next r _ e => e.text?.toList ++ r.texts

/-- The texts of a run have fingerprints of their own. -/
def TellsApart (r : Run) : Prop :=
  ∀ s ∈ r.texts, ∀ t ∈ r.texts, Fingerprint.ofText s = Fingerprint.ofText t → s = t

/-- The watch had these options at some moment. -/
def HadOptions (options : WatchOptions) : Run → Prop
  | start first _ _ => first = options
  | next r now e => r.HadOptions options ∨ (next r now e).watch.options = options

/-- The editor said the text, and this is its fingerprint. -/
def Prints (r : Run) (content : String) (fp : Fingerprint) : Prop :=
  content ∈ r.texts ∧ fp = Fingerprint.ofText content

end Run

/-- Findings for a document stem from the text that it has. -/
inductive Fresh (r : Run) (d : DocumentEntry) (findings : List Finding) : Prop
  /-- The service found them in this text. -/
  | found (a : Analysis) (raw : List Finding) (hanswer : ⟨a, .ok raw⟩ ∈ r.answers)
      (hrequest : a.request = .ofDocument d.id d.content a.rules)
      (hfindings : findings = r.watch.options.filter raw)
  /-- The service had found them in this text, and they were cached. -/
  | replayed (a : Analysis) (raw : List Finding) (options : WatchOptions) (c : CacheEntry)
      (hanswer : ⟨a, .ok raw⟩ ∈ r.answers)
      (hrequest : a.request = .ofDocument d.id d.content a.rules)
      (hoptions : r.HadOptions options) (hcached : c ∈ r.watch.store.cache)
      (hkey : c.key = ⟨d.id, d.fingerprint, r.watch.store.config⟩)
      (hfindings : findings = options.filter raw) (hsame : findings = c.findings)
  /-- The heuristics find them in this text, behind a notice at most. -/
  | scanned (lead : Option Finding)
      (hlead : ∀ f, lead = some f → ∃ title severity x, f = notice title severity x)
      (hfindings : findings =
        lead.toList ++ r.watch.options.filter (Heuristics.scan d.id d.content))

/-! ## Texts and their fingerprints -/

theorem Run.Prints.next {content : String} {fp : Fingerprint} (h : r.Prints content fp)
    (now : Duration) (e : Event) : (r.next now e).Prints content fp :=
  ⟨List.mem_append_right _ h.1, h.2⟩

theorem Run.prints_of_said {content : String} (h : e.text? = some content) (r : Run)
    (now : Duration) : (r.next now e).Prints content (Fingerprint.ofText content) := by
  refine ⟨List.mem_append_left _ ?_, rfl⟩
  rw [h]
  exact List.mem_singleton_self _

/-- The texts of entries and of analyses were said by the editor, and their fingerprints
are their own. -/
structure Printed (r : Run) : Prop where
  entries : r.watch.store.About r.Prints
  analyses : ∀ c ∈ r.cases, r.Prints c.analysis.content c.analysis.fingerprint

/-- What the entries of documents are about, in a step: texts that are said come with their own
fingerprints. -/
theorem about_step {P : String → Fingerprint → Prop} {w : Watch} (h : w.store.About P)
    (hsaid : ∀ content, e.text? = some content → P content (Fingerprint.ofText content))
    (now : Duration) : (w.step now e).1.store.About P := by
  cases stride_step now e w with
  | still hstore =>
    rw [hstore]
    exact h
  | edited id content _ hstore _ _ _ _ _ _ _ _ _ htext =>
    rw [hstore]
    exact h.upsert id (hsaid content htext)
  | replayed id s d findings _ _ _ _ hstore _ _ _ _ _ _ _ htext =>
    rw [hstore]
    refine DocumentStore.About.recordResult ?_ now id d.fingerprint findings
    rcases htext with rfl | ⟨content, htext, rfl⟩
    · exact h
    · exact h.upsert id (hsaid content htext)
  | begun id _ _ _ _ _ hstore =>
    rw [hstore]
    exact h.engaged id
  | fellBack id _ _ _ _ _ _ hstore =>
    rw [hstore]
    exact (h.engaged id).recordResult _ _ _ _
  | turned hstore =>
    rw [hstore]
    exact h
  | answered _ _ _ _ _ _ _ _ hstore => exact (TakesIn.of_completed hstore).about h
  | lapsed _ _ _ _ _ hstore =>
    rw [hstore]
    exact h.finishAnalysis _ _
  | closed id hstore =>
    rw [hstore]
    exact h.remove id
  | reconfigured config hstore =>
    rw [hstore]
    exact h.setConfig config
  | configSet config hstore =>
    rw [hstore]
    exact h.setConfig config
  | shutDown hstore =>
    rw [hstore]
    exact h

theorem about_next (h : r.watch.store.About r.Prints) (now : Duration) (e : Event) :
    (r.next now e).watch.store.About (r.next now e).Prints :=
  about_step (h.imp fun _ _ hp => hp.next now e)
    (fun _ hsaid => Run.prints_of_said hsaid r now) now

theorem Run.printed (r : Run) : Printed r := by
  induction r with
  | start options config now =>
    exact ⟨fun _ hd => absurd hd List.not_mem_nil, fun _ hc => absurd hc List.not_mem_nil⟩
  | next r now e ih =>
    refine ⟨about_next ih.entries now e, fun c hc => ?_⟩
    rcases Run.mem_cases_next.mp hc with hnew | ⟨d, hd, rfl⟩
    · obtain ⟨a, remote, ha, rfl⟩ := Run.began?_eq_some.mp hnew
      obtain ⟨d, hopen, ⟨-, hfp, hcontent, -⟩, -⟩ := Run.begins ha
      dsimp only
      rw [hfp, hcontent]
      exact (ih.entries.of_get? hopen).next now e
    · rw [Run.closing_analysis]
      exact (ih.analyses d hd).next now e

/-- Texts with one fingerprint are the same, if fingerprints tell texts apart. -/
theorem Run.TellsApart.eq (h : r.TellsApart) {s t : String} {fp : Fingerprint}
    (hs : r.Prints s fp) (ht : r.Prints t fp) : s = t :=
  h s hs.1 t ht.1 (hs.2.symm.trans ht.2)

/-! ## What the cache has -/

theorem Run.hadOptions_watch (r : Run) : r.HadOptions r.watch.options := by
  cases r with
  | start options config now => exact rfl
  | next r now e => exact .inr rfl

/-- Findings that are cached under a key were answered for this document and text. -/
structure Backing (r : Run) (key : CacheKey) (findings : List Finding) (a : Analysis)
    (raw : List Finding) (options : WatchOptions) : Prop where
  answer : ⟨a, .ok raw⟩ ∈ r.answers
  document : a.document = key.document
  text : a.fingerprint = key.content
  printed : r.Prints a.content a.fingerprint
  had : r.HadOptions options
  findings : findings = options.filter raw

theorem Backing.next {key : CacheKey} {a : Analysis} {raw : List Finding}
    {options : WatchOptions} (h : Backing r key findings a raw options) (now : Duration)
    (e : Event) : Backing (r.next now e) key findings a raw options where
  answer := List.mem_append_right _ h.answer
  document := h.document
  text := h.text
  printed := h.printed.next now e
  had := .inl h.had
  findings := h.findings

theorem backing_of_filing? {f : Filing} (h : r.filing? e = some f) :
    ∃ a raw, Backing r f.key f.findings a raw r.watch.options := by
  unfold Run.filing? at h
  split at h
  · rename_i t raw hevent
    obtain ⟨c, hc, hf⟩ := Option.bind_eq_some_iff.mp h
    split at hf
    · cases hf
      have hreturned : r.watch.concluded? e = some (t, RequestQueue.ofReturn (.ok raw)) := hevent
      obtain ⟨c', hc', hheard⟩ := Run.heard_of_concluded hreturned
      rw [hc] at hc'
      cases hc'
      refine ⟨c.analysis, raw, ?_, rfl, rfl, ?_, r.hadOptions_watch, rfl⟩
      · rcases hheard with hcanceled | hanswer
        · cases hcanceled
        · exact hanswer
      · exact r.printed.analyses c (List.mem_of_find?_eq_some hc)
    · cases hf
  · cases h

/-- What the cache has was answered by a service. -/
theorem Run.backing_of_cached (r : Run) :
    ∀ c ∈ r.watch.store.cache, ∃ a raw options, Backing r c.key c.findings a raw options := by
  induction r with
  | start options config now => exact fun c hc => absurd hc List.not_mem_nil
  | next r now e ih =>
    intro c hc
    have hold : c ∈ r.watch.store.cache →
        ∃ a raw options, Backing (r.next now e) c.key c.findings a raw options := by
      intro hin
      obtain ⟨a, raw, options, hbacking⟩ := ih c hin
      exact ⟨a, raw, options, hbacking.next now e⟩
    rcases cache_next r now e with ⟨-, hsub⟩ | ⟨f, hf, hfiles⟩
    · exact hold (hsub c hc)
    · rw [hfiles.cache] at hc
      rcases List.mem_append.mp (List.mem_filter.mp hc).1 with hin | hnew
      · exact hold (List.mem_filter.mp hin).1
      · rw [List.mem_singleton.mp hnew]
        obtain ⟨a, raw, hbacking⟩ := backing_of_filing? hf
        exact ⟨a, raw, r.watch.options, hbacking.next now e⟩

/-! ## What is told -/

theorem mem_told : (id, findings) ∈ r.told ↔ Effect.published id findings ∈ r.effects := by
  unfold Run.told
  rw [List.mem_filterMap]
  constructor
  · rintro ⟨x, hx, htold⟩
    cases x with
    | published other gs =>
      cases htold
      exact hx
    | _ => cases htold
  · exact fun h => ⟨_, h, rfl⟩

/-- What is told in one piece is told. -/
theorem eq_of_told_single {other : DocumentId} {gs : List Finding}
    (h : (r.next now e).effects = [.published other gs])
    (hin : (id, findings) ∈ (r.next now e).told) : id = other ∧ findings = gs := by
  rw [mem_told, h, List.mem_singleton] at hin
  cases hin
  exact ⟨rfl, rfl⟩

/-- The notice about a failure is one. -/
theorem noticeFor_notice (x : RemoteError) (w : Watch) (f : Finding)
    (h : (w.noticeFor x).1 = some f) : ∃ title severity, f = notice title severity x := by
  cases x with
  | auth detail =>
    unfold noticeFor at h
    dsimp only at h
    split at h
    · cases h
    · cases h
      exact ⟨_, _, rfl⟩
  | rateLimited after => cases h
  | canceled => cases h
  | _ =>
    cases h
    exact ⟨_, _, rfl⟩

/-- A request for a document and the text that it has. -/
theorem request_of_text {a : Analysis} {d : DocumentEntry} (h : r.TellsApart)
    (ha : r.Prints a.content a.fingerprint) (hd : r.Prints d.content d.fingerprint)
    (hfp : a.fingerprint = d.fingerprint) (hid : a.document = d.id) :
    a.request = .ofDocument d.id d.content a.rules := by
  have hcontent : a.content = d.content := h.eq ha (hfp ▸ hd)
  unfold Analysis.request
  rw [hid, hcontent]

theorem fresh_of_replayed {s : DocumentStore} {d : DocumentEntry}
    (h : (r.next now e).TellsApart)
    (hd : (r.next now e).Prints d.content d.fingerprint) (hid : d.id = id)
    (hopen : s.get? id = some d) (hcache : s.cache = r.watch.store.cache)
    (hconfig : s.config = r.watch.store.config)
    (hcached : s.getCached? now id = some findings) : Fresh r d findings := by
  obtain ⟨d', c, hd', hc, hkey, hfindings⟩ := getCached?_eq_some hcached
  rw [hopen] at hd'
  cases hd'
  rw [hcache] at hc
  rw [hconfig, ← hid] at hkey
  obtain ⟨a, raw, options, hbacking⟩ := r.backing_of_cached c hc
  have htext : a.fingerprint = d.fingerprint := by
    rw [hbacking.text, hkey]
  have hdocument : a.document = d.id := by
    rw [hbacking.document, hkey]
  exact .replayed a raw options c hbacking.answer
    (request_of_text h (hbacking.printed.next now e) hd htext hdocument) hbacking.had hc
    hkey (hfindings ▸ hbacking.findings) hfindings.symm

theorem fresh_of_answered {o : Owed} {outcome : Outcome} {d : DocumentEntry}
    (h : (r.next now e).TellsApart)
    (hd : (r.next now e).Prints d.content d.fingerprint) (hid : d.id = o.analysis.document)
    (ho : o ∈ r.watch.owed) (houtcome : o.outcome = some outcome)
    (htext : d.fingerprint = o.analysis.fingerprint)
    (hfiltered : ∀ raw, outcome = .ok raw → findings = r.watch.options.filter raw)
    (hlocal : (∃ raw, outcome = .ok raw) ∨ ∃ x, verdict outcome = .failed x ∧
      findings = (r.watch.noticeFor x).1.toList ++
        r.watch.options.filter (Heuristics.scan o.analysis.document o.analysis.content)) :
    Fresh r d findings := by
  obtain ⟨c, hc, -, hca, -⟩ := r.docket.caseOfOwed o ho
  have hprinted : (r.next now e).Prints o.analysis.content o.analysis.fingerprint := by
    rw [← hca]
    exact (r.printed.analyses c hc).next now e
  rcases hlocal with ⟨raw, rfl⟩ | ⟨x, -, hfindings⟩
  · rcases r.backed.noted o ho (.ok raw) houtcome with hcanceled | hanswer
    · cases hcanceled
    · exact .found o.analysis raw hanswer
        (request_of_text h hprinted hd htext.symm hid.symm) (hfiltered raw rfl)
  · have hcontent : o.analysis.content = d.content := h.eq hprinted (htext ▸ hd)
    refine .scanned (r.watch.noticeFor x).1 (fun f hf => ?_) ?_
    · obtain ⟨title, severity, hf⟩ := noticeFor_notice x r.watch f hf
      exact ⟨title, severity, x, hf⟩
    · rw [hfindings, hid, hcontent]

/-- Findings stem from the text of an entry whatever is recorded for it. -/
theorem Fresh.recorded {d : DocumentEntry} (h : Fresh r d findings) (now : Duration)
    (result : List Finding) : Fresh r (DocumentStore.answered now result d) findings := by
  cases h with
  | found a raw hanswer hrequest hfindings => exact .found a raw hanswer hrequest hfindings
  | replayed a raw options c hanswer hrequest hoptions hcached hkey hfindings hsame =>
    exact .replayed a raw options c hanswer hrequest hoptions hcached hkey hfindings hsame
  | scanned lead hlead hfindings => exact .scanned lead hlead hfindings

/-- If the texts of a run are told apart by their fingerprints, findings that are told stem
from the text that their document has at that moment, and the document is open; save for
the end of the findings for a document that is closed. -/
theorem fresh_of_told (r : Run) (now : Duration) (e : Event) (id : DocumentId)
    (findings : List Finding) (h : (r.next now e).TellsApart)
    (hin : (id, findings) ∈ (r.next now e).told) :
    (e = .closed id ∧ findings = []) ∨
      ∃ d, (r.next now e).get? id = some d ∧ Fresh r d findings := by
  have hprinted := (r.next now e).printed.entries
  have hpublished := mem_told.mp hin
  -- a step that tells leaves an entry that differs from the one before in its result alone
  have hrecorded : ∀ d, (r.next now e).get? id = some (DocumentStore.answered now findings d) →
      ((r.next now e).Prints d.content d.fingerprint → Fresh r d findings) →
      ∃ d, (r.next now e).get? id = some d ∧ Fresh r d findings := by
    intro d hafter hfresh
    have hd : (r.next now e).Prints (DocumentStore.answered now findings d).content
        (DocumentStore.answered now findings d).fingerprint := hprinted.of_get? hafter
    exact ⟨_, hafter, (hfresh hd).recorded now findings⟩
  unfold Run.get? at hrecorded ⊢
  cases r.stride now e with
  | replayed doc s d gs hreads hopen _ hcached hstore _ _ _ _ _ hfx =>
    obtain ⟨rfl, rfl⟩ := eq_of_told_single hfx hin
    refine .inr (hrecorded d ?_ fun hd => ?_)
    · rw [hstore]
      exact DocumentStore.get?_recordResult_self hopen rfl
    · exact fresh_of_replayed h hd (DocumentStore.id_of_get? hopen) hopen
        (cache_of_reads hreads) (config_of_reads hreads) hcached
  | fellBack doc d a gs hopen _ _ hstore _ _ _ _ _ hfx _ _ _ hscan =>
    rw [hfx] at hpublished
    obtain ⟨rfl, rfl⟩ : id = doc ∧ findings = gs := by simpa using hpublished
    refine .inr (hrecorded (DocumentStore.engaged d) ?_ fun _ => ?_)
    · rw [hstore]
      exact DocumentStore.get?_recordResult_self (DocumentStore.get?_engaged_self hopen) rfl
    · refine .scanned none (fun f hf => nomatch hf) ?_
      rw [hscan, ← DocumentStore.id_of_get? hopen]
      rfl
  | answered o outcome d gs hfound houtcome hopen htext hstore _ _ _ _ hfx hlocal =>
    obtain ⟨rfl, rfl⟩ := eq_of_told_single hfx hin
    refine .inr (hrecorded d ?_ fun hd => ?_)
    · rw [(TakesIn.of_completed hstore).get?_eq]
      exact DocumentStore.get?_recordResult_self hopen rfl
    · exact fresh_of_answered h hd (DocumentStore.id_of_get? hopen)
        (List.mem_of_find?_eq_some hfound) houtcome htext (filtered_of_completed hstore) hlocal
  | closed doc _ _ _ _ hevent _ htells _ hempty =>
    left
    by_cases hid : id = doc
    · subst hid
      exact ⟨hevent, hempty id findings hpublished⟩
    · exact absurd hpublished (not_published_of_tellsOf (htells id hid) findings)
  | begun doc d a _ _ _ _ _ _ _ _ _ _ htells =>
    exact absurd hpublished (not_published_of_tellsOf (htells id) findings)
  | still _ _ _ _ _ _ hfx => exact absurd hpublished (hfx.not_published id findings)
  | edited _ _ _ _ _ _ _ _ _ _ hfx => exact absurd hpublished (hfx.not_published id findings)
  | turned _ _ _ _ _ _ hfx => exact absurd hpublished (hfx.not_published id findings)
  | lapsed _ _ _ _ _ _ _ _ _ _ hfx => exact absurd hpublished (hfx.not_published id findings)
  | reconfigured _ _ _ _ _ _ _ hfx => exact absurd hpublished (hfx.not_published id findings)
  | configSet _ _ _ _ _ _ hfx =>
    rw [hfx] at hpublished
    exact absurd hpublished List.not_mem_nil
  | shutDown _ _ _ _ hfx => exact absurd hpublished (hfx.not_published id findings)

/-- The service answers before the text is edited, and the worker takes note. -/
def Run.answeredInTime : Run :=
  let answered := Duration.ofMillis 800
  asking.after
    [(answered, .answered 0 (.returned (.ok [.basic "F1" "F1" .warning "F1"]))),
      (answered, .ran .worker)]

theorem fresh_of_told_answeredInTime :
    ∃ d, (Run.answeredInTime.next (Duration.ofMillis 800) (.ran (.completion 0))).get?
        ⟨"a.go"⟩ = some d ∧
      Fresh Run.answeredInTime d [.basic "F1" "F1" .warning "F1"] := by
  have htexts : (Run.answeredInTime.next (Duration.ofMillis 800)
      (.ran (.completion 0))).texts = ["x"] := by decide +kernel
  have htold : (⟨"a.go"⟩, [.basic "F1" "F1" .warning "F1"]) ∈
      (Run.answeredInTime.next (Duration.ofMillis 800) (.ran (.completion 0))).told := by
    decide +kernel
  have hapart : (Run.answeredInTime.next (Duration.ofMillis 800)
      (.ran (.completion 0))).TellsApart := by
    intro s hs t ht _
    rw [htexts, List.mem_singleton] at hs ht
    rw [hs, ht]
  rcases fresh_of_told _ _ _ _ _ hapart htold with ⟨hclosed, -⟩ | hfresh
  · cases hclosed
  · exact hfresh

end Watch

end SmellWatch
