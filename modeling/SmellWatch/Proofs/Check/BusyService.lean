import SmellWatch.Proofs.Check.Entries
import SmellWatch.Proofs.Watch.Busy
import SmellWatch.Proofs.Watch.Rest
/-! A check with a service that is always busy comes to what a check without it does.

When every call is answered by asking for patience, what is told of a source is what the
heuristics find in it (`told_of_busy`), and as long as no request has waited for too long, a
source of which nothing is told is still attended to (`pending_of_busy`).  So the results are
those of the heuristics, for each source (`lookup_of_busy`).

Whatever its network does, a check has made all its calls at some time, and nothing is outstanding
(`comes_to_rest`).  When the service stays busy from some state on, the check follows a run in
which it was busy at every call (`followsBusy_runUntil`). -/

namespace SmellWatch

namespace Check

open Watch

variable {c : Config} {sources : List Source} {r : Watch.Run} {s : Source}

/-- Sources with different paths. -/
theorem onePerPath_of_nodup (h : (sources.map (·.path)).Nodup) : OnePerPath sources :=
  fun _ hs _ ht hpath => List.inj_on_of_nodup_map h hs ht hpath

/-- How long requests may wait does not matter for the findings that one is sure enough of. -/
theorem filter_batched (c : Config) (findings : List Finding) :
    (WatchOptions.ofConfig (batched c)).filter findings =
      (WatchOptions.ofConfig c).filter findings := by
  have hsame : (WatchOptions.ofConfig (batched c)).minConfidence =
      (WatchOptions.ofConfig c).minConfidence := rfl
  unfold WatchOptions.filter
  rw [hsame]

namespace AsksAbout

variable (h : AsksAbout c sources r) (hbusy : r.FindsBusy)

include h hbusy

/-- What is told of a source is what the heuristics have. -/
theorem told_of_busy (honce : OnePerPath sources) (hs : s ∈ sources) {findings : List Finding}
    (hin : (s.document, findings) ∈ r.tidings) : findings = scanned c s := by
  rw [h.submits.onlySubmits.told_of_busy (h.saysOnly honce hs) hbusy findings hin, h.adopted]
  exact filter_batched c _

/-- When nothing is outstanding and no request has waited for too long, something was told of
each source. -/
theorem pending_of_busy (hlate : ∀ t, ¬ r.WasLate t) (hidle : r.watch.IsIdle) :
    (intake sources r).pending = [] := by
  rw [List.eq_nil_iff_forall_not_mem]
  intro id hid
  obtain ⟨-, -, a, l, -, x, -, hlost⟩ := (mem_pending_iff_isLost h.submits hidle).mp hid
  rcases hlost with ⟨-, t, -, hwas⟩ | ⟨-, hcanceled⟩
  · exact hlate t hwas
  · obtain ⟨hint, hresult⟩ := hbusy.answers _ hcanceled
    cases hresult

/-- A source that has a result has that of the heuristics. -/
theorem lookup_of_busy (honce : OnePerPath sources) (hs : s ∈ sources) {findings : List Finding}
    (hlookup : (intake sources r).results.lookup s.document = some findings) :
    (offline c sources).lookup s.document = some findings := by
  rw [(hasRead_intake sources r).lookup_eq (mem_documents.mpr ⟨s, hs, rfl⟩), lookup_eq_find?]
    at hlookup
  obtain ⟨p, hfind, rfl⟩ := Option.map_eq_some_iff.mp hlookup
  have hid : p.1 = s.document := by simpa using List.find?_some hfind
  have hin : (s.document, p.2) ∈ r.tidings := by
    rw [← hid]
    exact List.mem_reverse.mp (List.mem_of_find?_eq_some hfind)
  rw [lookup_offline honce hs, h.told_of_busy hbusy honce hs hin]

/-- When nothing is outstanding and no request has waited for too long, each source has the
result of the heuristics. -/
theorem lookup_eq_of_busy (hlate : ∀ t, ¬ r.WasLate t) (hidle : r.watch.IsIdle)
    (honce : OnePerPath sources) (hs : s ∈ sources) :
    (intake sources r).results.lookup s.document = (offline c sources).lookup s.document := by
  have hdocument := mem_documents.mpr ⟨s, hs, rfl⟩
  have htold : ∃ p ∈ r.tidings.reverse, p.1 = s.document := by
    by_contra hnone
    have hpending : s.document ∈ (intake sources r).pending :=
      mem_pending_intake.mpr ⟨hdocument, fun p hp hid =>
        hnone ⟨p, List.mem_reverse.mpr hp, hid⟩⟩
    rw [h.pending_of_busy hbusy hlate hidle] at hpending
    exact absurd hpending List.not_mem_nil
  obtain ⟨findings, hlookup, -⟩ := exists_lookup htold
  rw [← (hasRead_intake sources r).lookup_eq hdocument] at hlookup
  rw [hlookup, h.lookup_of_busy hbusy honce hs hlookup]

end AsksAbout

/-! ## A service that is busy from some state on -/

end Check

namespace Rehearsal

open Watch

variable {σ : Type} {r : Rehearsal σ} {outset : Watch.Run} {deeds : List Event}

/-- Whatever a service is asked in this state, and in those that come of it, it is busy. -/
def StaysBusy (serve : σ → Analysis → ServiceCall × σ) (state : σ) : Prop :=
  ∃ known : σ → Prop, known state ∧
    ∀ state a, known state → IsBusy (serve state a).1.reply ∧ known (serve state a).2

/-- The service is busy, also at the call in progress. -/
structure FacesBusy (r : Rehearsal σ) : Prop where
  service : StaysBusy r.serve r.service
  call : ∀ x ∈ r.call, IsBusy x.2.1.reply

theorem FacesBusy.absorb (h : r.FacesBusy) (now : Duration) (fx : List Effect) :
    (absorb now fx r).1.FacesBusy ∧ ∀ x ∈ (absorb now fx r).2.2, IsBusy x.2 := by
  induction fx generalizing r with
  | nil => exact ⟨h, nofun⟩
  | cons x rest ih =>
    cases x with
    | published id findings => exact ih ⟨h.service, h.call⟩
    | begun a remote => exact ih h
    | ordered o => exact ih h
    | called ticket a =>
      obtain ⟨known, hnow, hknown⟩ := h.service
      obtain ⟨hbusy, hthen⟩ := hknown r.service a hnow
      have hafter : ∀ (log : Log) (call : Option (Nat × ServiceCall × Duration)),
          (∀ x ∈ call, IsBusy x.2.1.reply) →
          FacesBusy { r with service := (r.serve r.service a).2, log, call } :=
        fun _ _ hcall => ⟨⟨known, hthen, hknown⟩, hcall⟩
      unfold Rehearsal.absorb
      dsimp only
      split
      · refine ⟨(ih (hafter _ _ h.call)).1, fun x hx => ?_⟩
        cases hx
        exact hbusy
      · refine ih (hafter _ _ fun x hx => ?_)
        cases hx
        exact hbusy

theorem FacesBusy.stepWatch (h : r.FacesBusy) (now : Duration) (f : Watch → Watch × List Effect) :
    (stepWatch now f r).1.FacesBusy := by
  unfold Rehearsal.stepWatch
  have hfirst := FacesBusy.absorb (r := { r with watch := (f r.watch).1 }) ⟨h.service, h.call⟩ now
    (f r.watch).2
  dsimp only
  generalize Rehearsal.absorb now (f r.watch).2 { r with watch := (f r.watch).1 } = y at hfirst ⊢
  obtain ⟨s, orders, reply⟩ := y
  cases reply with
  | none => exact hfirst.1
  | some x =>
    exact (FacesBusy.absorb (r := { s with watch := (s.watch.answered now x.1 x.2).1 })
      ⟨hfirst.1.service, hfirst.1.call⟩ now _).1

/-- A rehearsal follows a run in which the service is busy at every call. -/
def FollowsBusy (r : Rehearsal σ) (outset : Watch.Run) (deeds : List Event) : Prop :=
  r.FacesBusy ∧ ∃ run, r.Follows run ∧ run.asOf 0 = outset ∧ run.deeds = deeds ∧ run.FindsBusy

theorem FollowsBusy.stepWatch (h : r.FollowsBusy outset deeds) (now : Duration) {e : Event}
    (hbusy : e.bringsBusy = true) :
    (stepWatch now (·.step now e) r).1.FollowsBusy outset
      (deeds ++ if e.isOfEditor then [e] else []) := by
  obtain ⟨hfaces, run, hfollows, houtset, rfl, hfinds⟩ := h
  have houtset : (run.next now e).asOf 0 = outset :=
    (Run.asOf_next now e (Nat.zero_le _)).trans houtset
  refine ⟨hfaces.stepWatch now _, ?_⟩
  obtain ⟨next, hnext, rfl | ⟨x, hx, rfl⟩⟩ := hfollows.stepWatch now e
  · exact ⟨_, hnext, houtset, rfl, hfinds, hbusy⟩
  · have hreply : IsBusy x.2 :=
      (FacesBusy.absorb (r := { r with watch := (r.watch.step now e).1 })
        ⟨hfaces.service, hfaces.call⟩ now _).2 x hx
    exact ⟨_, hnext, (Run.asOf_next _ _ (Nat.zero_le _)).trans houtset, List.append_nil _,
      ⟨hfinds, hbusy⟩, Event.bringsBusy_answered.mpr hreply⟩

theorem FollowsBusy.happen (h : r.FollowsBusy outset deeds) {e : Event}
    (he : e.isOfEditor = true) (hbusy : e.bringsBusy = true) :
    (r.happen e).FollowsBusy outset (deeds ++ [e]) := by
  obtain ⟨hfaces, run, hfollows, hrest⟩ := h.stepWatch r.time hbusy
  rw [if_pos he] at hrest
  exact ⟨⟨hfaces.service, hfaces.call⟩, run, ⟨hfollows.watch, hfollows.published⟩, hrest⟩

/-- As long as the editor only submits, no call is told to stop. -/
theorem FollowsBusy.runTask (h : r.FollowsBusy outset deeds)
    (hdeeds : ∀ e ∈ deeds, e.submits = true) (now : Duration) (t : Task) : (r.runTask now t).1.FollowsBusy outset deeds := by
  rcases r.causes_runTask now t with heq | ⟨e, call, hcauses, heq⟩
  · exact heq.symm ▸ h
  · obtain ⟨hfaces, run, hfollows, houtset, hrun, hfinds⟩ := h
    have hsubmits : run.OnlySubmits := fun e he => hdeeds e (hrun ▸ he)
    obtain ⟨hnone, hbusy, hcall⟩ : e.isOfEditor = false ∧ e.bringsBusy = true ∧
        ∀ x ∈ call, IsBusy x.2.1.reply := by
      cases hcauses with
      | runs => exact ⟨rfl, rfl, hfaces.call⟩
      | answers hprogress =>
        exact ⟨rfl, Event.bringsBusy_answered.mpr (hfaces.call _ hprogress), nofun⟩
      | canceled ticket hstop =>
        unfold RequestQueue.isCanceled at hstop
        rw [Option.any_eq_true] at hstop
        obtain ⟨x, hx, hcanceled⟩ := hstop
        rw [hfollows.watch] at hx
        rw [hsubmits.not_canceled hx] at hcanceled
        cases hcanceled
    have hstep := FollowsBusy.stepWatch (r := { r with call })
      ⟨⟨hfaces.service, hcall⟩, run, ⟨hfollows.watch, hfollows.published⟩, houtset, hrun, hfinds⟩
      now hbusy
    rw [hnone] at hstep
    rw [heq]
    exact (List.append_nil deeds) ▸ hstep

theorem FollowsBusy.runUntil (h : r.FollowsBusy outset deeds)
    (hdeeds : ∀ e ∈ deeds, e.submits = true) (limit : Nat) :
    (r.runUntil limit).FollowsBusy outset deeds := by
  have hrun : ∀ (fuel : Nat) (a : Agenda Task) (r : Rehearsal σ), r.FollowsBusy outset deeds →
      (Agenda.runFor Rehearsal.runTask limit fuel (a, r)).2.FollowsBusy outset deeds := by
    intro fuel
    induction fuel with
    | zero => exact fun _ _ h => h
    | succ n ih =>
      intro a r h
      unfold Agenda.runFor
      cases a.next? limit with
      | none => exact h
      | some p => exact ih _ _ (h.runTask hdeeds p.2.time p.1)
  obtain ⟨hfaces, run, hfollows, hrest⟩ := hrun (r.agenda.fuel limit) r.agenda r h
  exact ⟨⟨hfaces.service, hfaces.call⟩, run, ⟨hfollows.watch, hfollows.published⟩, hrest⟩

end Rehearsal

namespace Check

open Watch

/-! ## The program -/

/-- A check that was set up and whose sources were submitted. -/
def submitted {σ : Type} (network : Http.Network σ) (state : σ) (s : RemoteService) (c : Config)
    (sources : List Source) : Rehearsal σ :=
  let watch := Watch.ofOptions (.ofConfig c) c.fingerprint 0
  let begun : Rehearsal σ := { watch, service := state, serve := s.call network }
  sources.foldl submit begun

/-- What a check gets is what has been published by its horizon. -/
theorem remote_eq_submitted {σ : Type} (network : Http.Network σ) (state : σ) (s : RemoteService)
    (c : Config) (sources : List Source) :
    (remote network state s c sources).1 =
      ((submitted network state s c sources).runUntil horizon).log.published.map (·.2) := rfl

/-- To submit a source leaves all there is to do on the agenda, and no document waits to be left
alone. -/
theorem attends_submit {σ : Type} {x : Rehearsal σ} {outset : Watch.Run} {deeds : List Event}
    (hattends : Rehearsal.Attends x.agenda x) (hquiet : x.watch.IsQuiet)
    (hreaches : x.Reaches outset deeds) (s : Source) :
    Rehearsal.Attends (submit x s).agenda (submit x s) ∧ (submit x s).watch.IsQuiet := by
  have hissued : ∀ {x : Rehearsal σ} {deeds : List Event}, x.Reaches outset deeds →
      ∀ o ∈ x.watch.owed, o.ticket < x.watch.queue.nextTicket := by
    rintro x deeds ⟨run, hfollows, -, -⟩
    rw [hfollows.watch]
    exact run.accounts.issued
  obtain ⟨hopened, hwatch⟩ := hattends.happen (e := .opened s.document s.content)
    (Rehearsal.enters_update x.time s.document s.content x.watch) (calls_update _ _ _ _)
    (hissued hreaches)
  have hreaches := hreaches.happen (e := .opened s.document s.content) rfl
  have hothers := Rehearsal.quiet_update hquiet x.time s.document s.content
  unfold submit
  generalize x.happen (.opened s.document s.content) = y at hopened hwatch hreaches ⊢
  obtain ⟨hsaved, hwatch'⟩ := hopened.happen (e := .saved s.document)
    (Rehearsal.enters_save y.time s.document y.watch) (calls_save _ _ _) (hissued hreaches)
  refine ⟨hsaved, ?_⟩
  rw [hwatch']
  refine Rehearsal.isQuiet_save ?_ y.time
  rw [hwatch]
  exact hothers

theorem attends_foldl_submit {σ : Type} {outset : Watch.Run} (sources : List Source) :
    ∀ {x : Rehearsal σ} {deeds : List Event}, Rehearsal.Attends x.agenda x → x.watch.IsQuiet →
      x.Reaches outset deeds →
      Rehearsal.Attends (sources.foldl submit x).agenda (sources.foldl submit x) ∧
        (sources.foldl submit x).watch.IsQuiet := by
  induction sources with
  | nil => exact fun hattends hquiet _ => ⟨hattends, hquiet⟩
  | cons s rest ih =>
    intro x deeds hattends hquiet hreaches
    obtain ⟨hattends', hquiet'⟩ := attends_submit hattends hquiet hreaches s
    exact ih hattends' hquiet' (reaches_submit hreaches s)

/-- Whatever the network does, a check comes to rest: there is a time from which on nothing is
outstanding. -/
theorem comes_to_rest {σ : Type} (network : Http.Network σ) (state : σ) (s : RemoteService)
    (c : Config) (sources : List Source) :
    ∃ enough, ∀ limit ≥ enough,
      ((submitted network state s c sources).runUntil limit).watch.IsIdle := by
  let begun : Rehearsal σ :=
    { watch := Watch.ofOptions (.ofConfig c) c.fingerprint 0, service := state,
      serve := s.call network }
  have hreaches : begun.Reaches (.start (.ofConfig c) c.fingerprint 0) [] :=
    ⟨.start (.ofConfig c) c.fingerprint 0, ⟨rfl, rfl⟩, rfl, rfl⟩
  obtain ⟨hattends, hquiet⟩ := attends_foldl_submit sources (x := begun)
    (Rehearsal.attends_start _ _ _ _ _) (fun x hx => absurd hx List.not_mem_nil) hreaches
  exact hattends.comes_to_rest hquiet

theorem followsBusy_foldl_submit {σ : Type} {outset : Watch.Run} (sources : List Source) :
    ∀ {x : Rehearsal σ} {deeds : List Event}, x.FollowsBusy outset deeds →
      (sources.foldl submit x).FollowsBusy outset (deeds ++ sources.flatMap submission) := by
  induction sources with
  | nil =>
    intro x deeds h
    rw [List.flatMap_nil, List.append_nil]
    exact h
  | cons s rest ih =>
    intro x deeds h
    have hsaved := (h.happen (e := .opened s.document s.content) rfl rfl).happen
      (e := .saved s.document) rfl rfl
    rw [List.append_assoc] at hsaved
    rw [List.flatMap_cons, ← List.append_assoc]
    exact ih hsaved

/-- A check whose service stays busy follows a run in which it is busy at every call. -/
theorem followsBusy_runUntil {σ : Type} (network : Http.Network σ) (state : σ) (s : RemoteService)
    (c : Config) (sources : List Source) (hbusy : Rehearsal.StaysBusy (s.call network) state)
    (limit : Nat) :
    ((submitted network state s c sources).runUntil limit).FollowsBusy
      (.start (.ofConfig c) c.fingerprint 0) (sources.flatMap submission) := by
  let begun : Rehearsal σ :=
    { watch := Watch.ofOptions (.ofConfig c) c.fingerprint 0, service := state,
      serve := s.call network }
  have hbegun : begun.FollowsBusy (.start (.ofConfig c) c.fingerprint 0) [] :=
    ⟨⟨hbusy, nofun⟩, .start (.ofConfig c) c.fingerprint 0, ⟨rfl, rfl⟩, rfl, rfl, trivial⟩
  refine (followsBusy_foldl_submit sources hbegun).runUntil (fun e he => ?_) limit
  obtain ⟨t, -, he⟩ := List.mem_flatMap.mp he
  rcases List.mem_cons.mp he with rfl | he
  · rfl
  · rw [List.mem_singleton.mp he]
    rfl

/-- While the service is busy at every call and no request has waited for too long, each result
that a check with it has read is the one of the check without it; and when nothing is outstanding
there is one for every source, so both make the same report.  With a network on which the service
stays busy, a check comes to such a run, and to its rest, if it may go on for long enough. -/
theorem busy_as_offline (c : Config) (sources : List Source)
    (hpaths : (sources.map (·.path)).Nodup) :
    (∀ r, AsksAbout c sources r → r.FindsBusy → (∀ t, ¬ r.WasLate t) →
      (∀ s ∈ sources, ∀ findings,
        (intake sources r).results.lookup s.document = some findings →
          (offline c sources).lookup s.document = some findings) ∧
      (r.watch.IsIdle → (intake sources r).pending = [] ∧
        (∀ s ∈ sources, (intake sources r).results.lookup s.document =
          (offline c sources).lookup s.document) ∧
        assign (intake sources r).results sources = assign (offline c sources) sources)) ∧
    (∀ {σ : Type} (network : Http.Network σ) (state : σ) (service : RemoteService),
      Rehearsal.StaysBusy (service.call network) state →
      ∃ enough, ∀ limit ≥ enough,
        let x := (submitted network state service (batched c) sources).runUntil limit
        let results := x.log.published.map (·.2)
        x.watch.IsIdle ∧ ∃ r, x.Follows r ∧ AsksAbout c sources r ∧ r.FindsBusy ∧
          ((∀ t, ¬ r.WasLate t) →
            (∀ s ∈ sources, results.lookup s.document = (offline c sources).lookup s.document) ∧
            assign results sources = assign (offline c sources) sources)) := by
  have honce := onePerPath_of_nodup hpaths
  have hidle : ∀ r, AsksAbout c sources r → r.FindsBusy → (∀ t, ¬ r.WasLate t) →
      r.watch.IsIdle → (∀ s ∈ sources, (intake sources r).results.lookup s.document =
          (offline c sources).lookup s.document) ∧
        assign (intake sources r).results sources = assign (offline c sources) sources := by
    intro r h hbusy hlate hidle
    have hall : ∀ s ∈ sources, (intake sources r).results.lookup s.document =
        (offline c sources).lookup s.document :=
      fun s hs => h.lookup_eq_of_busy hbusy hlate hidle honce hs
    refine ⟨hall, assign_congr fun id hid => ?_⟩
    obtain ⟨s, hs, rfl⟩ := List.mem_map.mp hid
    exact hall s hs
  refine ⟨fun r h hbusy hlate => ⟨fun s hs findings hlookup =>
    h.lookup_of_busy hbusy honce hs hlookup, fun hrest =>
      ⟨h.pending_of_busy hbusy hlate hrest, hidle r h hbusy hlate hrest⟩⟩, ?_⟩
  intro σ network state service hstays
  obtain ⟨enough, hrests⟩ := comes_to_rest network state service (batched c) sources
  refine ⟨enough, fun limit hlimit => ⟨hrests limit hlimit, ?_⟩⟩
  obtain ⟨-, r, hfollows, houtset, hdeeds, hbusy⟩ :=
    followsBusy_runUntil network state service (batched c) sources hstays limit
  have hasks : AsksAbout c sources r := ⟨houtset, hdeeds⟩
  refine ⟨r, hfollows, hasks, hbusy, fun hlate => ?_⟩
  obtain ⟨hlookup, hassign⟩ := hidle r hasks hbusy hlate (hfollows.watch ▸ hrests limit hlimit)
  rw [hfollows.published]
  refine ⟨fun s hs => ?_, assign_intake sources r ▸ hassign⟩
  rw [← hlookup s hs, (hasRead_intake sources r).lookup_eq (mem_documents.mpr ⟨s, hs, rfl⟩)]

/-- One more call is made when the service is busy. -/
def onceMore : Config := { retry := { maxRateLimitAttempts := 2 } }

/-- The service is asked about both files and is busy each time. -/
def bothPutOff : Watch.Run :=
  let busy : Reply := .returned (.error (.rateLimited none))
  (Watch.Run.start (.ofConfig (batched onceMore)) (batched onceMore).fingerprint 0).after
    [(0, .opened panicking.document panicking.content), (0, .saved panicking.document),
      (0, .opened peaceful.document peaceful.content), (0, .saved peaceful.document),
      (0, .ran .worker), (0, .ran (.work 0)), (0, .answered 0 busy),
      (.ofSeconds 2, .ran (.work 0)), (.ofSeconds 2, .answered 0 busy),
      (.ofSeconds 2, .ran .worker), (.ofSeconds 2, .ran (.completion 0)),
      (.ofSeconds 2, .ran (.work 1)), (.ofSeconds 2, .answered 1 busy),
      (.ofSeconds 4, .ran (.work 1)), (.ofSeconds 4, .answered 1 busy),
      (.ofSeconds 4, .ran .worker), (.ofSeconds 4, .ran (.completion 1))]

theorem asksAbout_bothPutOff : AsksAbout onceMore [panicking, peaceful] bothPutOff := ⟨rfl, rfl⟩

theorem not_wasLate_bothPutOff : ∀ t, ¬ bothPutOff.WasLate t :=
  not_wasLate asksAbout_bothPutOff.submits.onlySubmits (by decide) (by decide)

/-- A network on which each reply asks for patience. -/
def overloaded : Http.Network Unit := fun state _ => (.replied { status := 429 }, state)

/-- A model on the own machine, which needs no key. -/
def ownMachine : RemoteService where
  settings :=
    { provider := .ollama, model := "m", baseUrl := "http://localhost/v1", apiKey := none,
      timeoutSeconds := 1, maxTokens := 1 }
  base :=
    { scheme := "http", host := some (.name "localhost"), port := none, segments := some ["v1"],
      query := none }

theorem staysBusy_overloaded : Rehearsal.StaysBusy (ownMachine.call overloaded) () := by
  have hurl : (Url.parse? ownMachine.endpoint).any ownMachine.mayReach = true := by decide +kernel
  rw [Option.any_eq_true] at hurl
  obtain ⟨url, hurl, hmay⟩ := hurl
  have hsendable : RemoteService.commonHeaders.all (Http.isSendable ·.value) = true := by
    decide +kernel
  refine ⟨fun _ => True, trivial, fun _ a _ => ⟨⟨none, ?_⟩, trivial⟩⟩
  have hrequest : ownMachine.request a.request =
      .ok { url, headers := RemoteService.commonHeaders, body := ownMachine.body a.request } := by
    unfold RemoteService.request
    rw [show ownMachine.keyHeaders = .ok [] from rfl, hurl]
    simp [hmay, hsendable, bind, Except.bind, pure, Except.pure]
  unfold RemoteService.call
  rw [hrequest]
  rfl

theorem busy_as_offline_bothPutOff :
    (bothPutOff.FindsBusy ∧ bothPutOff.watch.IsIdle ∧
      assign (intake [panicking, peaceful] bothPutOff).results [panicking, peaceful] =
        assign (offline onceMore [panicking, peaceful]) [panicking, peaceful]) ∧
    ∃ enough, ∀ limit ≥ enough,
      ((submitted overloaded () ownMachine (batched onceMore)
        [panicking, peaceful]).runUntil limit).watch.IsIdle := by
  have hbusy : bothPutOff.FindsBusy := by decide
  have hidle : bothPutOff.watch.IsIdle := by decide +kernel
  obtain ⟨hruns, hchecks⟩ := busy_as_offline onceMore [panicking, peaceful] (by decide)
  obtain ⟨-, hsame⟩ := hruns bothPutOff asksAbout_bothPutOff hbusy not_wasLate_bothPutOff
  obtain ⟨enough, hrests⟩ := hchecks overloaded () ownMachine staysBusy_overloaded
  exact ⟨⟨hbusy, hidle, (hsame hidle).2.2⟩, enough, fun limit hlimit => (hrests limit hlimit).1⟩

end Check

end SmellWatch
