import Mathlib.Data.List.Dedup
import Mathlib.Data.List.Induction
import Mathlib.Data.List.Perm.Basic
import SmellWatch.Check
import SmellWatch.Proofs.Watch.Losses
import SmellWatch.Proofs.Watch.Rehearsal
/-! A check waits for one result for each of its documents.

A check submits its sources to a watch (`Submits`) and reads what is published, until every
document has a result (`Intake`): the first one counts that is published for a document.  When
nothing is outstanding it waits for the documents that are lost, and for no others
(`waits_for_lost`).  What a check runs is such a run of a watch, and its report has the results
that are read (`remote_submits`, `assign_intake`). -/

namespace SmellWatch

namespace Check

open Watch

variable {id : DocumentId} {sources : List Source} {r : Watch.Run}

/-! ## Submitting -/

/-- The documents of some sources, each once. -/
def documents (sources : List Source) : List DocumentId := (sources.map (·.document)).dedup

/-- What is done with a source. -/
def submission (s : Source) : List Event := [.opened s.document s.content, .saved s.document]

/-- A run in which the sources were submitted, one after the other, and the editor did nothing
else. -/
def Submits (sources : List Source) (r : Watch.Run) : Prop := r.deeds = sources.flatMap submission

theorem mem_documents : id ∈ documents sources ↔ ∃ s ∈ sources, s.document = id := by
  unfold documents
  rw [List.mem_dedup, List.mem_map]

namespace Submits

theorem onlySubmits (h : Submits sources r) : r.OnlySubmits := by
  intro e he
  rw [show r.deeds = _ from h] at he
  obtain ⟨s, -, he⟩ := List.mem_flatMap.mp he
  rcases List.mem_cons.mp he with rfl | he
  · rfl
  · rw [List.mem_singleton.mp he]
    rfl

theorem opened (h : Submits sources r) (hid : id ∈ documents sources) :
    ∃ e ∈ r.deeds, e.textOf? = some id := by
  obtain ⟨s, hs, rfl⟩ := mem_documents.mp hid
  refine ⟨.opened s.document s.content, ?_, rfl⟩
  rw [show r.deeds = _ from h]
  exact List.mem_flatMap.mpr ⟨s, hs, List.mem_cons_self⟩

end Submits

/-! ## Reading -/

/-- What a check has read. -/
structure Intake where
  /-- The documents without a result. -/
  pending : List DocumentId
  results : Results := []

/-- Reads what was published for a document; only the first result counts. -/
def Intake.read (i : Intake) (p : DocumentId × List Finding) : Intake :=
  if p.1 ∈ i.pending then { pending := i.pending.erase p.1, results := i.results ++ [p] } else i

/-- What a check has when it has read all that was published in a run. -/
def intake (sources : List Source) (r : Watch.Run) : Intake :=
  r.tidings.reverse.foldl Intake.read { pending := documents sources }

/-- Of what was published the first result of each document has been read, and the documents
without one are pending. -/
structure Intake.HasRead (i : Intake) (ids : List DocumentId) (published : Results) : Prop where
  pending : ∀ id, id ∈ i.pending ↔ id ∈ ids ∧ ∀ p ∈ published, p.1 ≠ id
  once : (i.results.map (·.1) ++ i.pending).Perm ids
  first : ∀ p ∈ i.results, published.find? (·.1 = p.1) = some p

namespace Intake.HasRead

variable {i : Intake} {ids : List DocumentId} {published : Results}
  {p : DocumentId × List Finding}

theorem start (ids : List DocumentId) : HasRead { pending := ids } ids [] where
  pending := by simp
  once := .refl _
  first := fun _ hp => absurd hp List.not_mem_nil

theorem nodup (h : i.HasRead ids published) (hids : ids.Nodup) :
    (i.results.map (·.1) ++ i.pending).Nodup := h.once.nodup_iff.mpr hids

/-- The first result of a document is taken in. -/
theorem taken (h : i.HasRead ids published) (hids : ids.Nodup) (hp : p.1 ∈ i.pending) :
    HasRead { pending := i.pending.erase p.1, results := i.results ++ [p] } ids
      (published ++ [p]) where
  pending := by
    intro id
    have hpending : i.pending.Nodup := (List.nodup_append.mp (h.nodup hids)).2.1
    rw [hpending.mem_erase_iff, h.pending]
    simp only [List.forall_mem_append, List.forall_mem_singleton]
    constructor
    · rintro ⟨hne, hin, hnone⟩
      exact ⟨hin, hnone, Ne.symm hne⟩
    · rintro ⟨hin, hnone, hne⟩
      exact ⟨Ne.symm hne, hin, hnone⟩
  once := by
    refine List.Perm.trans ?_ h.once
    rw [List.map_append, List.append_assoc]
    exact (List.perm_cons_erase hp).symm.append_left _
  first := by
    intro x hx
    rw [List.find?_append]
    rcases List.mem_append.mp hx with hx | hx
    · rw [h.first x hx]
      rfl
    · rw [List.mem_singleton.mp hx]
      have hnone : published.find? (·.1 = p.1) = none := by
        rw [List.find?_eq_none]
        simpa using ((h.pending p.1).mp hp).2
      rw [hnone]
      simp

/-- What is published for a document that is not pending is passed over. -/
theorem passed (h : i.HasRead ids published) (hp : p.1 ∉ i.pending) :
    i.HasRead ids (published ++ [p]) where
  pending := by
    intro id
    rw [h.pending]
    simp only [List.forall_mem_append, List.forall_mem_singleton]
    refine ⟨fun ⟨hin, hnone⟩ => ⟨hin, hnone, ?_⟩, fun ⟨hin, hnone, _⟩ => ⟨hin, hnone⟩⟩
    rintro rfl
    exact hp ((h.pending p.1).mpr ⟨hin, hnone⟩)
  once := h.once
  first := by
    intro x hx
    rw [List.find?_append, h.first x hx]
    rfl

end Intake.HasRead

theorem hasRead_foldl {ids : List DocumentId} (hids : ids.Nodup) (published : Results) :
    (published.foldl Intake.read { pending := ids }).HasRead ids published := by
  induction published using List.reverseRecOn with
  | nil => exact .start ids
  | append_singleton l p ih =>
    rw [List.foldl_append, List.foldl_cons, List.foldl_nil]
    unfold Intake.read
    split
    · exact ih.taken hids ‹_›
    · exact ih.passed ‹_›

theorem hasRead_intake (sources : List Source) (r : Watch.Run) :
    (intake sources r).HasRead (documents sources) r.tidings.reverse :=
  hasRead_foldl (List.nodup_dedup _) _

/-! ## Waiting -/

theorem mem_pending_intake :
    id ∈ (intake sources r).pending ↔ id ∈ documents sources ∧ ∀ p ∈ r.tidings, p.1 ≠ id := by
  rw [(hasRead_intake sources r).pending]
  simp only [List.mem_reverse]

/-- When nothing is outstanding, the documents without a result are lost. -/
theorem mem_pending_iff_isLost (h : Submits sources r) (hidle : r.watch.IsIdle) :
    id ∈ (intake sources r).pending ↔ id ∈ documents sources ∧ r.IsLost id := by
  rw [mem_pending_intake]
  constructor
  · rintro ⟨hin, huntold⟩
    exact ⟨hin, isLost_of_idle h.onlySubmits hidle (h.opened hin) huntold⟩
  · rintro ⟨hin, huntold, -⟩
    exact ⟨hin, huntold⟩

/-- What a check has read when it has submitted its sources is the first result of each
document.  When nothing is outstanding it waits for the documents that are lost, and for no
others. -/
theorem waits_for_lost (sources : List Source) (r : Watch.Run) (h : Submits sources r) :
    ((intake sources r).results.map (·.1) ++ (intake sources r).pending).Perm
      (documents sources) ∧
    (∀ p ∈ (intake sources r).results, r.tidings.reverse.find? (·.1 = p.1) = some p) ∧
    (r.watch.IsIdle → ∀ id,
      id ∈ (intake sources r).pending ↔ id ∈ documents sources ∧ r.IsLost id) :=
  ⟨(hasRead_intake sources r).once, (hasRead_intake sources r).first,
    fun hidle _ => mem_pending_iff_isLost h hidle⟩

/-- Two files of one text. -/
def twoFiles : List Source := [⟨"a.go", "x"⟩, ⟨"b.go", "x"⟩]

def someSettings : Config := { analysis := { requestsPerMinute := 60, rules := ["errors"] } }

/-- Two files are checked, and the service takes a day and a millisecond for the first. -/
def dayLong : Watch.Run :=
  let late := Duration.ofMillis (maxQueueAgeSeconds * 1000 + 1)
  (Watch.Run.start (.ofConfig (batched someSettings)) (batched someSettings).fingerprint 0).after
    [(0, .opened ⟨"a.go"⟩ "x"), (0, .saved ⟨"a.go"⟩), (0, .opened ⟨"b.go"⟩ "x"),
      (0, .saved ⟨"b.go"⟩), (0, .ran .worker), (0, .ran (.work 0)),
      (late, .answered 0 (.returned (.ok [.basic "F1" "F1" .warning "F1"]))),
      (late, .ran .worker), (late, .ran (.completion 0)), (late, .ran (.completion 1))]

theorem submits_dayLong : Submits twoFiles dayLong := rfl

/-- Nothing is published for the second file, and nothing will be. -/
theorem pending_dayLong :
    dayLong.watch.IsIdle ∧ (intake twoFiles dayLong).pending = [⟨"b.go"⟩] := by
  decide +kernel

theorem waits_for_lost_dayLong :
    Submits twoFiles dayLong ∧ dayLong.watch.IsIdle ∧ dayLong.IsLost ⟨"b.go"⟩ ∧
      ¬ dayLong.IsLost ⟨"a.go"⟩ := by
  obtain ⟨hidle, hpending⟩ := pending_dayLong
  have hiff := (waits_for_lost twoFiles dayLong submits_dayLong).2.2 hidle
  rw [hpending] at hiff
  refine ⟨submits_dayLong, hidle, ((hiff ⟨"b.go"⟩).mp (by decide)).2, fun hlost => ?_⟩
  exact absurd ((hiff ⟨"a.go"⟩).mpr ⟨by decide, hlost⟩) (by decide)

/-- A check does not always end: the second file has waited for longer than a day when its turn
comes, and the check waits on for its result. -/
theorem not_always_ends :
    ¬ ∀ (c : Config) (sources : List Source) (r : Watch.Run),
      r.asOf 0 = .start (.ofConfig (batched c)) (batched c).fingerprint 0 →
      Submits sources r → r.watch.IsIdle → (intake sources r).pending = [] := by
  intro h
  obtain ⟨hidle, hpending⟩ := pending_dayLong
  have hends := h someSettings twoFiles dayLong rfl submits_dayLong hidle
  rw [hpending] at hends
  cases hends

/-- A check that takes no longer than a request may wait has a result for every document when
nothing is outstanding, unless the service says that a call was canceled. -/
theorem pending_eq_nil (h : Submits sources r) (hidle : r.watch.IsIdle) (htimely : r.IsTimely)
    (hclock : r.clock ≤ (r.asOf 0).clock + (r.asOf 0).adopted.maxQueueAge)
    (hanswers : ∀ a, ⟨a, .error .canceled⟩ ∉ r.answers) : (intake sources r).pending = [] := by
  rw [List.eq_nil_iff_forall_not_mem]
  intro id hid
  obtain ⟨-, -, c, l, -, x, -, hlost⟩ := (mem_pending_iff_isLost h hidle).mp hid
  rcases hlost with ⟨-, t, -, hlate⟩ | ⟨-, hcanceled⟩
  · exact not_wasLate h.onlySubmits htimely hclock t hlate
  · exact hanswers c.analysis hcanceled

/-! ## The program -/

theorem reaches_submit {σ : Type} {x : Rehearsal σ} {outset : Watch.Run} {deeds : List Event}
    (h : x.Reaches outset deeds) (s : Source) :
    (submit x s).Reaches outset (deeds ++ submission s) := by
  have hsaved := (h.happen (e := .opened s.document s.content) rfl).happen
    (e := .saved s.document) rfl
  rw [List.append_assoc] at hsaved
  exact hsaved

theorem reaches_foldl_submit {σ : Type} {outset : Watch.Run} (sources : List Source) :
    ∀ {x : Rehearsal σ} {deeds : List Event}, x.Reaches outset deeds →
      (sources.foldl submit x).Reaches outset (deeds ++ sources.flatMap submission) := by
  induction sources with
  | nil =>
    intro x deeds h
    rw [List.flatMap_nil, List.append_nil]
    exact h
  | cons s rest ih =>
    intro x deeds h
    rw [List.flatMap_cons, ← List.append_assoc]
    exact ih (reaches_submit h s)

/-- What a check gets is what is told in a run in which its sources are submitted. -/
theorem remote_submits {σ : Type} (network : Http.Network σ) (state : σ) (s : RemoteService)
    (c : Config) (sources : List Source) :
    ∃ r : Watch.Run, Submits sources r ∧
      r.asOf 0 = .start (.ofConfig c) c.fingerprint 0 ∧
      (remote network state s c sources).1 = r.tidings.reverse := by
  let begun : Rehearsal σ :=
    { watch := Watch.ofOptions (.ofConfig c) c.fingerprint 0, service := state,
      serve := s.call network }
  have hbegun : begun.Reaches (.start (.ofConfig c) c.fingerprint 0) [] :=
    ⟨.start (.ofConfig c) c.fingerprint 0, ⟨rfl, rfl⟩, rfl, rfl⟩
  obtain ⟨r, hfollows, houtset, hdeeds⟩ := (reaches_foldl_submit sources hbegun).runUntil horizon
  exact ⟨r, hdeeds, houtset, hfollows.published⟩

/-! ## The report -/

theorem lookup_eq_find? (l : Results) (id : DocumentId) :
    l.lookup id = (l.find? (·.1 = id)).map (·.2) := by
  induction l with
  | nil => rfl
  | cons p r ih =>
    by_cases hp : p.1 = id
    · rw [List.find?_cons_of_pos (by simpa using hp), List.lookup_cons]
      simp [hp]
    · have hbeq : (id == p.1) = false := by simpa using Ne.symm hp
      rw [List.find?_cons_of_neg (by simpa using hp), List.lookup_cons, hbeq]
      exact ih

/-- When the results of a document are taken away, those of the others stay. -/
theorem lookup_filter_ne (l : Results) (id other : DocumentId) :
    (l.filter (·.1 ≠ id)).lookup other = if other = id then none else l.lookup other := by
  rw [lookup_eq_find?, lookup_eq_find?, List.find?_filter]
  split
  · rename_i hsame
    rw [List.find?_eq_none.mpr fun p _ => by simp [hsame]]
    rfl
  · rename_i hother
    congr 2
    funext p
    by_cases hp : p.1 = other
    · simp [hp, hother]
    · simp [hp]

/-- A report depends on the first result of each document only. -/
theorem assign_congr {l l' : Results}
    (h : ∀ id ∈ sources.map (·.document), l.lookup id = l'.lookup id) :
    assign l sources = assign l' sources := by
  induction sources generalizing l l' with
  | nil => rfl
  | cons s rest ih =>
    unfold assign
    dsimp only
    rw [h s.document (by simp)]
    congr 1
    refine ih fun id hid => ?_
    rw [lookup_filter_ne, lookup_filter_ne, h id (List.mem_cons_of_mem _ hid)]

theorem Intake.HasRead.lookup_eq {i : Intake} {ids : List DocumentId} {published : Results}
    (h : i.HasRead ids published) (hid : id ∈ ids) :
    i.results.lookup id = published.lookup id := by
  rw [lookup_eq_find?, lookup_eq_find?]
  congr 1
  cases hr : i.results.find? (·.1 = id) with
  | some p =>
    obtain rfl : p.1 = id := by simpa using List.find?_some hr
    exact (h.first p (List.mem_of_find?_eq_some hr)).symm
  | none =>
    rw [List.find?_eq_none] at hr
    have hpending : id ∈ i.pending := by
      rcases List.mem_append.mp (h.once.mem_iff.mpr hid) with hin | hin
      · obtain ⟨p, hp, rfl⟩ := List.mem_map.mp hin
        exact absurd (decide_eq_true rfl) (hr p hp)
      · exact hin
    symm
    rw [List.find?_eq_none]
    simpa using ((h.pending id).mp hpending).2

/-- The results that a check has read make the same report as all that was published. -/
theorem assign_intake (sources : List Source) (r : Watch.Run) :
    assign (intake sources r).results sources = assign r.tidings.reverse sources :=
  assign_congr fun _ hid => (hasRead_intake sources r).lookup_eq (List.mem_dedup.mpr hid)

end Check

end SmellWatch
