import SmellWatch.Proofs.Watch.Contents
import SmellWatch.Proofs.Watch.Losses
/-! What is told of a document that has one text.

While documents are only opened and saved and the editor says one text of a document
(`Run.SaysOnly`), this is the text of its entry, of its analyses and so of all that is answered
or cached for it.  So all that is told of the document was found in this text, by the service or
by the heuristics, under the settings of the run (`foundIn_of_tidings`).  No fingerprints need
to be told apart for that. -/

namespace SmellWatch

namespace Watch

variable {now : Duration} {id : DocumentId} {r : Run} {e : Event} {content : String}
  {findings : List Finding} {options : WatchOptions}

/-- The editor says no other text of a document. -/
def Run.SaysOnly (r : Run) (id : DocumentId) (content : String) : Prop :=
  ∀ e ∈ r.deeds, e.textOf? = some id → e.text? = some content

/-- Findings were found in a text of a document under some settings. -/
inductive FoundIn (r : Run) (options : WatchOptions) (id : DocumentId) (content : String)
    (findings : List Finding) : Prop
  /-- The service found them when it was asked about the text. -/
  | service (a : Analysis) (raw : List Finding) (hanswer : ⟨a, .ok raw⟩ ∈ r.answers)
      (hrequest : a.request = .ofDocument id content options.rules)
      (hfindings : findings = options.filter raw)
  /-- The heuristics find them in the text; a notice may stand in front of them. -/
  | heuristics (lead : Option Finding)
      (hlead : ∀ f, lead = some f → ∃ title severity x, f = notice title severity x)
      (hfindings : findings = lead.toList ++ options.filter (Heuristics.scan id content))

theorem FoundIn.next (h : FoundIn r options id content findings) (now : Duration) (e : Event) :
    FoundIn (r.next now e) options id content findings := by
  cases h with
  | service a raw hanswer hrequest hfindings =>
    exact .service a raw (List.mem_append_right _ hanswer) hrequest hfindings
  | heuristics lead hlead hfindings => exact .heuristics lead hlead hfindings

theorem Run.saysOnly_next (h : (r.next now e).SaysOnly id content) :
    r.SaysOnly id content ∧ (e.textOf? = some id → e.text? = some content) := by
  refine ⟨fun x hx => h x (mem_deeds_next.mpr (.inl hx)), fun hid => h e ?_ hid⟩
  refine mem_deeds_next.mpr (.inr ⟨?_, rfl⟩)
  cases e <;> first | rfl | cases hid

/-! ## Settings that stay -/

theorem Run.OnlySubmits.adopted_next (h : (r.next now e).OnlySubmits) :
    (r.next now e).adopted = r.adopted := by
  rw [h.adopted_eq, asOf_next _ _ (Nat.zero_le _), (onlySubmits_next.mp h).1.adopted_eq]

theorem Run.OnlySubmits.hadOptions {r : Run} (h : r.OnlySubmits) (hhad : r.HadOptions options) :
    options = r.adopted := by
  induction r with
  | start first config now => exact Eq.symm hhad
  | next r now e ih =>
    rcases hhad with hpast | hnow
    · rw [h.adopted_next]
      exact ih (onlySubmits_next.mp h).1 hpast
    · rw [← hnow]
      exact (inForce _).options

/-! ## The text of the entry and of the analyses -/

/-- The entry of the document has its text. -/
theorem Run.OnlySubmits.content_eq {r : Run} (h : r.OnlySubmits) (hone : r.SaysOnly id content) :
    ∀ text, r.watch.store.content? id = some text → text = content := by
  induction r with
  | start options config now => exact fun text htext => nomatch htext
  | next r now e ih =>
    obtain ⟨hpast, hsubmits⟩ := onlySubmits_next.mp h
    obtain ⟨honce, hsaid⟩ := saysOnly_next hone
    have hold := ih hpast honce
    intro text htext
    cases htold : e.text? with
    | none =>
      have hclosed : ∀ other, e ≠ .closed other := by
        rintro other rfl
        cases hsubmits rfl
      refine hold text (.trans (DocumentStore.content?_congr ?_ id) htext)
      exact (contents_step_of_silent htold hclosed now r.watch).symm
    | some new =>
      cases e with
      | opened other _ =>
        cases htold
        have hstore : (r.next now (.opened other new)).watch.store.contents =
            (r.watch.store.upsert other new).2.contents := contents_update now other new r.watch
        rw [DocumentStore.content?_congr hstore] at htext
        by_cases hother : id = other
        · subst hother
          obtain rfl : new = content := Option.some.inj (hsaid rfl)
          by_cases hnews : r.watch.store.IsNews id (Fingerprint.ofText new)
          · rw [DocumentStore.content?_upsert_self hnews] at htext
            exact (Option.some.inj htext).symm
          · rw [DocumentStore.upsert_of_not_isNews hnews] at htext
            exact hold text htext
        · rw [DocumentStore.content?_upsert_of_ne hother] at htext
          exact hold text htext
      | changed _ _ => cases hsubmits rfl
      | _ => cases htold

theorem Run.OnlySubmits.content_of_get? (h : r.OnlySubmits) (hone : r.SaysOnly id content)
    {d : DocumentEntry} (hopen : r.get? id = some d) : d.content = content := by
  refine h.content_eq hone _ ?_
  unfold DocumentStore.content?
  rw [show r.watch.store.get? id = some d from hopen]
  rfl

/-- The analyses of the document are about its text. -/
theorem Run.OnlySubmits.content_of_case {r : Run} (h : r.OnlySubmits)
    (hone : r.SaysOnly id content) :
    ∀ c ∈ r.cases, c.document = id →
      c.analysis.content = content ∧ c.analysis.rules = r.adopted.rules := by
  induction r with
  | start options config now => exact fun c hc => absurd hc List.not_mem_nil
  | next r now e ih =>
    have hpast := (onlySubmits_next.mp h).1
    have honce := (saysOnly_next hone).1
    intro c hc hid
    rw [h.adopted_next]
    rcases mem_cases_next.mp hc with hnew | ⟨b, hb, rfl⟩
    · obtain ⟨a, remote, ha, rfl⟩ := began?_eq_some.mp hnew
      obtain ⟨d, hopen, ⟨-, -, hcontent, -⟩, -⟩ := Run.begins ha
      dsimp only [Case.document] at hid hcontent ⊢
      rw [hid] at hopen
      exact ⟨hcontent.trans (hpast.content_of_get? honce hopen), (goesBy_of_begun ha).rules⟩
    · rw [closing_analysis]
      refine ih hpast honce b hb ?_
      rwa [Case.document, closing_analysis] at hid

theorem Run.OnlySubmits.request_of_case (h : r.OnlySubmits) (hone : r.SaysOnly id content)
    {c : Case} (hc : c ∈ r.cases) (hid : c.document = id) :
    c.analysis.request = .ofDocument id content r.adopted.rules := by
  obtain ⟨hcontent, hrules⟩ := h.content_of_case hone c hc hid
  unfold Analysis.request
  rw [hcontent, hrules, show c.analysis.document = id from hid]

/-! ## What is answered and cached -/

/-- The service answers analyses that were begun. -/
theorem Run.case_of_answer (r : Run) : ∀ x ∈ r.answers, ∃ c ∈ r.cases, c.analysis = x.analysis := by
  induction r with
  | start options config now => exact fun x hx => absurd hx List.not_mem_nil
  | next r now e ih =>
    have hkept : ∀ c ∈ r.cases, ∃ c' ∈ (r.next now e).cases, c'.analysis = c.analysis :=
      fun c hc => ⟨r.closing e c, mem_cases_next.mpr (.inr ⟨c, hc, rfl⟩), closing_analysis r e c⟩
    intro x hx
    obtain ⟨c, hc, hca⟩ : ∃ c ∈ r.cases, c.analysis = x.analysis := by
      rcases List.mem_append.mp hx with hnew | hold
      · -- the call that is answered is made for what is owed under the ticket that runs
        have hanswer := Option.mem_toList.mp hnew
        unfold answer? at hanswer
        split at hanswer
        · split at hanswer
          · rename_i y a p hrunning hpursuit
            split at hanswer
            · cases hanswer
              obtain ⟨o, ho, hot, -⟩ := (r.accounts.balanced y.ticket).mp
                (RequestQueue.mem_tickets.mpr (.inl ⟨y, hrunning, rfl⟩))
              obtain ⟨c, hc, -, hca, -⟩ := r.docket.caseOfOwed o ho
              exact ⟨c, hc, hca.trans (r.backed.pursued y a p hrunning hpursuit o ho hot)⟩
            · cases hanswer
          · cases hanswer
        · cases hanswer
      · exact ih x hold
    obtain ⟨c', hc', hca'⟩ := hkept c hc
    exact ⟨c', hc', hca'.trans hca⟩

/-- What the service answered for the document it found in its text. -/
theorem Run.OnlySubmits.foundIn_of_answer (h : r.OnlySubmits) (hone : r.SaysOnly id content)
    {a : Analysis} {raw : List Finding} (hanswer : ⟨a, .ok raw⟩ ∈ r.answers)
    (hid : a.document = id) : FoundIn r r.adopted id content (r.adopted.filter raw) := by
  obtain ⟨c, hc, rfl⟩ := r.case_of_answer _ hanswer
  exact .service c.analysis raw hanswer (h.request_of_case hone hc hid) rfl

/-- What is cached for the document was found in its text. -/
theorem Run.OnlySubmits.foundIn_of_cached (h : r.OnlySubmits) (hone : r.SaysOnly id content)
    {c : CacheEntry} (hc : c ∈ r.watch.store.cache) (hid : c.key.document = id) :
    FoundIn r r.adopted id content c.findings := by
  obtain ⟨a, raw, options, hbacking⟩ := r.backing_of_cached c hc
  rw [hbacking.findings, h.hadOptions hbacking.had]
  exact h.foundIn_of_answer hone hbacking.answer (hbacking.document.trans hid)

/-! ## What is told -/

/-- What a completed analysis of the document tells was found in its text. -/
theorem Run.OnlySubmits.foundIn_of_answered (h : r.OnlySubmits) (hone : r.SaysOnly id content)
    {o : Owed} {outcome : Outcome} (ho : o ∈ r.watch.owed) (hid : o.analysis.document = id)
    (houtcome : o.outcome = some outcome)
    (hfiltered : ∀ raw, outcome = .ok raw → findings = r.watch.options.filter raw)
    (hlocal : (∃ raw, outcome = .ok raw) ∨ ∃ x, verdict outcome = .failed x ∧
      findings = (r.watch.noticeFor x).1.toList ++
        r.watch.options.filter (Heuristics.scan o.analysis.document o.analysis.content)) :
    FoundIn r r.adopted id content findings := by
  rw [(inForce r).options] at hfiltered hlocal
  rcases hlocal with ⟨raw, rfl⟩ | ⟨x, -, hfindings⟩
  · rw [hfiltered raw rfl]
    rcases r.backed.noted o ho (.ok raw) houtcome with hcanceled | hanswer
    · cases hcanceled
    · exact h.foundIn_of_answer hone hanswer hid
  · obtain ⟨c, hc, -, hca, -⟩ := r.docket.caseOfOwed o ho
    have hcontent := (h.content_of_case hone c hc (by rw [Case.document, hca, hid])).1
    rw [hca] at hcontent
    rw [hid, hcontent] at hfindings
    refine .heuristics (r.watch.noticeFor x).1 (fun f hf => ?_) hfindings
    obtain ⟨title, severity, hf⟩ := noticeFor_notice x r.watch f hf
    exact ⟨title, severity, x, hf⟩

/-- What a step tells of the document was found in its text. -/
theorem Run.OnlySubmits.foundIn_of_told (h : (r.next now e).OnlySubmits)
    (hone : (r.next now e).SaysOnly id content) (hin : (id, findings) ∈ (r.next now e).told) :
    FoundIn (r.next now e) r.adopted id content findings := by
  obtain ⟨hpast, hsubmits⟩ := onlySubmits_next.mp h
  have honce := (saysOnly_next hone).1
  have hpublished := mem_told.mp hin
  cases r.stride now e with
  | replayed doc s d gs hreads _ _ hcached _ _ _ _ _ _ hfx =>
    obtain ⟨rfl, rfl⟩ := eq_of_told_single hfx hin
    obtain ⟨_, c, -, hc, hkey, rfl⟩ := getCached?_eq_some hcached
    rw [cache_of_reads hreads] at hc
    exact (hpast.foundIn_of_cached honce hc (by rw [hkey])).next now e
  | fellBack doc d a gs hopen _ _ _ _ _ _ _ _ hfx _ _ _ hscan =>
    rw [hfx] at hpublished
    obtain ⟨rfl, rfl⟩ : id = doc ∧ findings = gs := by simpa using hpublished
    rw [(inForce r).options, hpast.content_of_get? honce hopen] at hscan
    exact .heuristics none (fun f hf => nomatch hf) hscan
  | answered o outcome d gs hfound houtcome _ _ hstore _ _ _ _ hfx hlocal =>
    obtain ⟨rfl, rfl⟩ := eq_of_told_single hfx hin
    exact (hpast.foundIn_of_answered honce (List.mem_of_find?_eq_some hfound) rfl houtcome
      (filtered_of_completed hstore) hlocal).next now e
  | closed doc _ _ _ _ hevent =>
    subst hevent
    cases hsubmits rfl
  | begun doc d a _ _ _ _ _ _ _ _ _ _ htells =>
    exact absurd hpublished (not_published_of_tellsOf (htells id) findings)
  | still _ _ _ _ _ _ hfx => exact absurd hpublished (hfx.not_published id findings)
  | edited _ _ _ _ _ _ _ _ _ _ hfx => exact absurd hpublished (hfx.not_published id findings)
  | turned _ _ _ _ _ _ hfx => exact absurd hpublished (hfx.not_published id findings)
  | lapsed _ _ _ _ _ _ _ _ _ _ hfx => exact absurd hpublished (hfx.not_published id findings)
  | reconfigured _ _ _ _ _ _ _ hfx => exact absurd hpublished (hfx.not_published id findings)
  | configSet _ _ _ _ _ _ hfx =>
    rw [hfx] at hpublished
    exact absurd hpublished List.not_mem_nil
  | shutDown _ _ _ _ hfx => exact absurd hpublished (hfx.not_published id findings)

/-- All that a run tells of a document that has one text was found in this text. -/
theorem Run.OnlySubmits.foundIn_of_tidings {r : Run} (h : r.OnlySubmits)
    (hone : r.SaysOnly id content) :
    ∀ findings, (id, findings) ∈ r.tidings → FoundIn r r.adopted id content findings := by
  induction r with
  | start options config now => exact fun _ hin => absurd hin List.not_mem_nil
  | next r now e ih =>
    intro findings hin
    rw [h.adopted_next]
    rcases List.mem_append.mp hin with hnew | hold
    · exact h.foundIn_of_told hone (List.mem_reverse.mp hnew)
    · exact (ih (onlySubmits_next.mp h).1 (saysOnly_next hone).1 findings hold).next now e

end Watch

end SmellWatch
