import SmellWatch.Proofs.Config.Meaning
import SmellWatch.Proofs.Watch.Freshness
import SmellWatch.Proofs.Watch.Redundancy
import SmellWatch.Proofs.Watch.Settings
/-! Findings that are told are as certain as the settings demand.

What the service or the heuristics find is filtered by the options in force.  What the cache
has is told as it is, but it was filtered when it was cached, and as long as the cache stays
so does the least confidence: it is part of what the fingerprint of the settings is taken of,
and another fingerprint wipes the cache (`Run.certain`).  So every finding that is told has
the least confidence of its moment, save for the notice that the heuristics stand in
(`confident_of_told`). -/

namespace SmellWatch

open Decimal

/-- Settings that their fingerprints tell apart: their least confidences are finite, and no
two of them have one fingerprint for different bytes. -/
structure ToldApart (known : List Config) : Prop where
  finite : ∀ c ∈ known, c.analysis.minConfidence.isFinite = true
  apart : ∀ c ∈ known, ∀ d ∈ known, c.fingerprint = d.fingerprint → c.meaningBytes = d.meaningBytes

/-- Settings with one fingerprint have one least confidence. -/
theorem ToldApart.minConfidence_eq {known : List Config} {c d : Config} (h : ToldApart known)
    (hc : c ∈ known) (hd : d ∈ known) (heq : c.fingerprint = d.fingerprint) :
    c.analysis.minConfidence = d.analysis.minConfidence :=
  (Config.eq_of_meaningBytes (h.finite c hc) (h.finite d hd) (h.apart c hc d hd heq)).2.2.2.2

namespace Watch

variable {now : Duration} {id : DocumentId} {r : Run} {e : Event} {f : Finding}
  {findings : List Finding} {known : List Config} {options : WatchOptions}

/-- Settings that an event adopts are known and come with their own fingerprint.  A
fingerprint that is set alone is not that of known settings with another least confidence. -/
def Event.Adopts (known : List Config) (w : Watch) : Event → Prop
  | .reconfigured options config => ∃ c ∈ known, options = .ofConfig c ∧ config = c.fingerprint
  | .configSet config =>
    ∀ c ∈ known, c.fingerprint = config → c.analysis.minConfidence = w.options.minConfidence
  | _ => True

namespace Run

/-- All settings of a run are known and come with their own fingerprints. -/
def Adopts (known : List Config) : Run → Prop
  | start options config _ => ∃ c ∈ known, options = .ofConfig c ∧ config = c.fingerprint
  | next r _ e => r.Adopts known ∧ e.Adopts known r.watch

end Run

/-- One is sure enough of a finding under these options. -/
def IsCertain (options : WatchOptions) (f : Finding) : Prop :=
  options.minConfidence.atMost f.confidence = true

theorem isCertain_of_mem_filter (h : f ∈ options.filter findings) : IsCertain options f :=
  (List.mem_filter.mp h).2

/-- A finding is certain enough, or it is the notice that the heuristics stand in. -/
def IsTellable (options : WatchOptions) (f : Finding) : Prop :=
  IsCertain options f ∨ ∃ title severity x, f = notice title severity x

/-- The fingerprint of the settings stands for their least confidence, and all that is cached
is certain enough. -/
structure Certain (known : List Config) (w : Watch) : Prop where
  config : ∀ c ∈ known, c.fingerprint = w.store.config →
    c.analysis.minConfidence = w.options.minConfidence
  cached : ∀ c ∈ w.store.cache, ∀ f ∈ c.findings, IsCertain w.options f

/-! ## Settings, step by step -/

/-- The fingerprint of settings that an event brings. -/
def Event.config? : Event → Option Fingerprint
  | .reconfigured _ config | .configSet config => some config
  | _ => none

/-- The fingerprint in force is the one that came last. -/
theorem config_step (now : Duration) (e : Event) (w : Watch) :
    (w.step now e).1.store.config = e.config?.getD w.store.config := by
  cases he : e.config? with
  | some config =>
    cases e with
    | reconfigured options _ =>
      cases he
      show (w.reconfigure now options config).1.store.config = config
      rw [reconfigure_eq, (scheduleAll_spec now _ _).1]
      exact DocumentStore.setConfig_config _ _
    | configSet _ =>
      cases he
      exact DocumentStore.setConfig_config _ _
    | _ => cases he
  | none =>
    show _ = w.store.config
    cases stride_step now e w with
    | still hstore => rw [hstore]
    | edited _ _ _ hstore => rw [hstore, DocumentStore.upsert_config]
    | replayed _ _ _ _ hreads _ _ _ hstore =>
      rw [hstore, DocumentStore.recordResult_config, config_of_reads hreads]
    | begun _ _ _ _ _ _ hstore =>
      rw [hstore]
      rfl
    | fellBack _ _ _ _ _ _ _ hstore =>
      rw [hstore, DocumentStore.recordResult_config]
      rfl
    | turned hstore => rw [hstore]
    | answered _ _ _ _ _ _ _ _ hstore =>
      rcases hstore with ⟨_, _, _, hstore⟩ | ⟨_, hstore⟩
      · rw [hstore, DocumentStore.setResult_config]
      · rw [hstore, DocumentStore.recordResult_config]
    | lapsed _ _ _ _ _ hstore => rw [hstore, DocumentStore.finishAnalysis_config]
    | closed _ hstore =>
      rw [hstore]
      rfl
    | reconfigured _ _ _ _ _ _ hevent =>
      cases e with
      | reconfigured => cases he
      | _ => cases hevent
    | configSet _ _ _ _ _ hevent =>
      rw [hevent] at he
      cases he
    | shutDown hstore => rw [hstore]

theorem Run.config_next (r : Run) (now : Duration) (e : Event) :
    (r.next now e).watch.store.config = e.config?.getD r.watch.store.config :=
  config_step now e r.watch

theorem Run.options_next (r : Run) (now : Duration) (e : Event) :
    (r.next now e).watch.options = e.options?.getD r.watch.options :=
  options_step now e r.watch

/-- As long as the fingerprint stays, so does the least confidence. -/
theorem Certain.minConfidence_next (h : Certain known r.watch) (he : e.Adopts known r.watch)
    (hconfig : (r.next now e).watch.store.config = r.watch.store.config) :
    (r.next now e).watch.options.minConfidence = r.watch.options.minConfidence := by
  rw [r.options_next]
  rw [r.config_next] at hconfig
  cases e with
  | reconfigured options config =>
    obtain ⟨c, hc, rfl, rfl⟩ := he
    exact h.config c hc hconfig
  | _ => rfl

/-- The fingerprint in force stands for the least confidence. -/
theorem Certain.config_next (h : Certain known r.watch) (hknown : ToldApart known)
    (he : e.Adopts known r.watch) (now : Duration) :
    ∀ c ∈ known, c.fingerprint = (r.next now e).watch.store.config →
      c.analysis.minConfidence = (r.next now e).watch.options.minConfidence := by
  intro c hc hprint
  rw [r.options_next]
  rw [r.config_next] at hprint
  cases e with
  | reconfigured options config =>
    obtain ⟨d, hd, rfl, rfl⟩ := he
    exact hknown.minConfidence_eq hc hd hprint
  | configSet config => exact he c hc hprint
  | _ => exact h.config c hc hprint

/-- What is cached is certain enough after a step. -/
theorem Certain.cached_next (h : Certain known r.watch) (he : e.Adopts known r.watch)
    (now : Duration) :
    ∀ c ∈ (r.next now e).watch.store.cache, ∀ f ∈ c.findings,
      IsCertain (r.next now e).watch.options f := by
  -- what was there before was certain enough, and the least confidence has stayed
  have hold : (r.next now e).watch.store.config = r.watch.store.config →
      ∀ c ∈ r.watch.store.cache, ∀ f ∈ c.findings, IsCertain (r.next now e).watch.options f := by
    intro hconfig c hc f hf
    unfold IsCertain
    rw [h.minConfidence_next he hconfig]
    exact h.cached c hc f hf
  cases caching r now e with
  | kept _ hcache hconfig =>
    rw [hcache]
    exact hold hconfig
  | filed f hf hfiles =>
    have hconfig := hfiles.config_eq hf
    intro c hc g hg
    rcases (hfiles.mem_iff.mp hc).2 with ⟨hin, -⟩ | rfl
    · exact hold hconfig c hin g hg
    · obtain ⟨a, raw, hbacking⟩ := backing_of_filing? hf
      rw [hbacking.findings] at hg
      unfold IsCertain
      rw [h.minConfidence_next he hconfig]
      exact isCertain_of_mem_filter hg
  | wiped _ hcache _ =>
    intro c hc
    rw [hcache] at hc
    exact absurd hc List.not_mem_nil
  | dropped id _ hcache hconfig _ =>
    intro c hc
    rw [hcache] at hc
    exact hold hconfig c (List.mem_filter.mp hc).1

/-- In every run the cache has only what is certain enough. -/
theorem Run.certain (hknown : ToldApart known) (h : r.Adopts known) : Certain known r.watch := by
  induction r with
  | start options config now =>
    obtain ⟨d, hd, rfl, rfl⟩ := h
    exact ⟨fun c hc hprint => hknown.minConfidence_eq hc hd hprint,
      fun c hc => absurd hc List.not_mem_nil⟩
  | next r now e ih =>
    have hpast := ih h.1
    exact ⟨hpast.config_next hknown h.2 now, hpast.cached_next h.2 now⟩

/-! ## What is told -/

/-- Findings that the heuristics give, behind a notice at most, can be told. -/
theorem isTellable_of_scanned {lead : Option Finding}
    (hlead : ∀ g, lead = some g → ∃ title severity x, g = notice title severity x)
    (h : f ∈ lead.toList ++ options.filter findings) : IsTellable options f := by
  rcases List.mem_append.mp h with hin | hin
  · exact .inr (hlead f (Option.mem_toList.mp hin))
  · exact .inl (isCertain_of_mem_filter hin)

/-- A step that tells findings leaves the options. -/
theorem options_of_told (h : (id, findings) ∈ (r.next now e).told) :
    (r.next now e).watch.options = r.watch.options := by
  rw [r.options_next]
  cases e with
  | reconfigured options config =>
    have hsilent : Tacit (r.watch.reconfigure now options config).2 := by
      rw [reconfigure_eq]
      exact (scheduleAll_spec now _ _).2.2.2.1
    exact absurd (mem_told.mp h) (hsilent.not_published id findings)
  | _ => rfl

/-- Every finding that is told has at least the confidence that the settings of this moment
demand, also if it comes from the cache or was asked for under other settings; save for the
notice that the heuristics stand in.  The settings are told apart by their fingerprints. -/
theorem confident_of_told (known : List Config) (hknown : ToldApart known) (r : Run)
    (now : Duration) (e : Event) (h : (r.next now e).Adopts known) (id : DocumentId)
    (findings : List Finding) (hin : (id, findings) ∈ (r.next now e).told) (f : Finding)
    (hf : f ∈ findings) :
    (r.next now e).watch.options.minConfidence.atMost f.confidence = true ∨
      ∃ title severity x, f = notice title severity x := by
  rw [options_of_told hin]
  show IsTellable r.watch.options f
  have hpublished := mem_told.mp hin
  cases r.stride now e with
  | replayed doc s d gs hreads hopen _ hcached _ _ _ _ _ _ hfx =>
    obtain ⟨rfl, rfl⟩ := eq_of_told_single hfx hin
    obtain ⟨-, c, -, hc, -, rfl⟩ := getCached?_eq_some hcached
    rw [cache_of_reads hreads] at hc
    exact .inl ((Run.certain hknown h.1).cached c hc f hf)
  | fellBack doc d a gs _ _ _ _ _ _ _ _ _ hfx _ _ _ hscan =>
    rw [hfx] at hpublished
    obtain ⟨rfl, rfl⟩ : id = doc ∧ findings = gs := by simpa using hpublished
    rw [hscan] at hf
    exact .inl (isCertain_of_mem_filter hf)
  | answered o outcome d gs _ _ _ _ hstore _ _ _ _ hfx hlocal =>
    obtain ⟨rfl, rfl⟩ := eq_of_told_single hfx hin
    rcases hlocal with ⟨raw, hraw⟩ | ⟨x, -, hfindings⟩
    · rw [filtered_of_completed hstore raw hraw] at hf
      exact .inl (isCertain_of_mem_filter hf)
    · rw [hfindings] at hf
      refine isTellable_of_scanned (fun g hg => ?_) hf
      obtain ⟨title, severity, hnotice⟩ := noticeFor_notice x r.watch g hg
      exact ⟨title, severity, x, hnotice⟩
  | closed doc _ _ _ _ hevent _ htells _ hempty =>
    by_cases hid : id = doc
    · subst hid
      rw [hempty id findings hpublished] at hf
      exact absurd hf List.not_mem_nil
    · exact absurd hpublished (not_published_of_tellsOf (htells id hid) findings)
  | begun doc d a _ _ _ _ _ _ _ _ _ _ htells =>
    exact absurd hpublished (not_published_of_tellsOf (htells id) findings)
  | still _ _ _ _ _ _ hfx => exact absurd hpublished (hfx.not_published id findings)
  | edited _ _ _ _ _ _ _ _ _ _ hfx => exact absurd hpublished (hfx.not_published id findings)
  | turned _ _ _ _ _ _ hfx => exact absurd hpublished (hfx.not_published id findings)
  | lapsed _ _ _ _ _ _ _ _ _ _ hfx => exact absurd hpublished (hfx.not_published id findings)
  | reconfigured _ _ _ _ _ _ _ hfx => exact absurd hpublished (hfx.not_published id findings)
  | configSet _ _ _ _ _ _ hfx =>
    rw [hfx] at hpublished
    exact absurd hpublished List.not_mem_nil
  | shutDown _ _ _ _ hfx => exact absurd hpublished (hfx.not_published id findings)

/-- The settings of `asking`. -/
def easy : Config := { analysis := { requestsPerMinute := 60, rules := ["errors"] } }

/-- The same settings, but they demand more confidence. -/
def strict : Config := { easy with analysis := { easy.analysis with minConfidence := .half } }

theorem fingerprint_easy : easy.fingerprint = ⟨"e76f3a43e0a9ab77"⟩ := by decide +kernel

theorem fingerprint_strict : strict.fingerprint = ⟨"ec9c964a2b7cbd3d"⟩ := by decide +kernel

theorem toldApart_easy_strict : ToldApart [easy, strict] where
  finite := by decide +kernel
  apart := by
    simp only [List.forall_mem_cons, fingerprint_easy, fingerprint_strict]
    simp

/-- While the service is asked, settings are adopted that demand more confidence; then it
answers with a finding that is certain and with one that is not. -/
def Run.answeredStrictly : Run :=
  let answered := Duration.ofMillis 800
  asking.after
    [(Duration.ofMillis 600, .reconfigured (.ofConfig strict) ⟨"ec9c964a2b7cbd3d"⟩),
      (answered, .answered 0 (.returned (.ok [.basic "F1" "F1" .warning "F1",
        Finding.withConfidence (.basic "F2" "F2" .warning "F2") (.ofQuotient false 1 4)]))),
      (answered, .ran .worker)]

theorem confident_of_told_answeredStrictly :
    (⟨"a.go"⟩, [.basic "F1" "F1" .warning "F1"]) ∈
        (Run.answeredStrictly.next (Duration.ofMillis 800) (.ran (.completion 0))).told ∧
      ((Run.answeredStrictly.next (Duration.ofMillis 800)
          (.ran (.completion 0))).watch.options.minConfidence.atMost 1 = true ∨
        ∃ title severity x,
          Finding.basic "F1" "F1" .warning "F1" = notice title severity x) := by
  have htold : (⟨"a.go"⟩, [.basic "F1" "F1" .warning "F1"]) ∈
      (Run.answeredStrictly.next (Duration.ofMillis 800) (.ran (.completion 0))).told := by
    decide +kernel
  have heasy : ∃ c ∈ [easy, strict],
      WatchOptions.ofConfig easy = .ofConfig c ∧ ⟨"e76f3a43e0a9ab77"⟩ = c.fingerprint :=
    ⟨easy, List.mem_cons_self, rfl, fingerprint_easy.symm⟩
  have hstrict : ∃ c ∈ [easy, strict],
      WatchOptions.ofConfig strict = .ofConfig c ∧ ⟨"ec9c964a2b7cbd3d"⟩ = c.fingerprint :=
    ⟨strict, List.mem_cons_of_mem _ List.mem_cons_self, rfl, fingerprint_strict.symm⟩
  have hadopts : (Run.answeredStrictly.next (Duration.ofMillis 800)
      (.ran (.completion 0))).Adopts [easy, strict] :=
    ⟨⟨⟨⟨⟨⟨⟨⟨heasy, trivial⟩, trivial⟩, trivial⟩, trivial⟩, hstrict⟩, trivial⟩, trivial⟩, trivial⟩
  exact ⟨htold, confident_of_told [easy, strict] toldApart_easy_strict _ _ _ hadopts _ _ htold _
    (List.mem_singleton_self _)⟩

end Watch

end SmellWatch
