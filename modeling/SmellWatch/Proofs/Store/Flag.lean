import SmellWatch.Proofs.Store.Run
/-! Whose flag is taken back.

An entry says whether an analysis is under way and how many were begun since the document
was opened; the analysis that is under way is meant by that number.  Numbers start again
when the document is opened again.  So an end that is told with the number of an analysis
takes back the flag of that analysis, unless the document was closed and opened since and
another analysis has come to the same number: `takesBackOwn_iff`. -/

namespace SmellWatch

namespace DocumentStore

variable {id : DocumentId} {e : DocumentEntry}

/-- Whether an analysis of a document is marked as under way. -/
def flag (s : DocumentStore) (id : DocumentId) : Bool := (s.get? id).any (·.inFlight)

/-- The flag of a document is taken back when the analysis of a number is said to have ended. -/
def Clears (s : DocumentStore) (id : DocumentId) (seq : Nat) : Prop :=
  s.flag id = true ∧ (s.finishAnalysis id seq).2.flag id = false

instance (s : DocumentStore) (id : DocumentId) (seq : Nat) : Decidable (s.Clears id seq) :=
  inferInstanceAs (Decidable (_ ∧ _))

theorem clears_iff {s : DocumentStore} {seq : Nat} :
    s.Clears id seq ↔ ∃ e, s.get? id = some e ∧ e.inFlight = true ∧ e.seq = seq := by
  unfold Clears flag
  cases he : s.get? id with
  | none => simp
  | some e =>
    rw [get?_finishAnalysis_self seq he]
    cases hf : e.inFlight <;> simp [freed, hf]

/-! ## What an operation does to one entry -/

/-- What becomes of the entry of a document, and the number of the analysis that is begun. -/
inductive Change (x x' : Option DocumentEntry) : Option Nat → Prop
  | closed (h' : x' = none) : Change x x' none
  | opened (e' : DocumentEntry) (h : x = none) (h' : x' = some e') (hseq : e'.seq = 0)
      (hflag : e'.inFlight = false) : Change x x' none
  | kept (e e' : DocumentEntry) (h : x = some e) (h' : x' = some e') (hseq : e'.seq = e.seq)
      (hflag : e'.inFlight = true → e.inFlight = true) : Change x x' none
  | begun (e : DocumentEntry) (h : x = some e) (hfree : e.inFlight = false)
      (h' : x' = some (engaged e)) : Change x x' (some (e.seq + 1))

theorem Change.of_eq {x x' : Option DocumentEntry} (h : x' = x) : Change x x' none := by
  subst h
  cases x' with
  | none => exact .closed rfl
  | some e => exact .kept e e rfl rfl rfl id

/-- The number of the analysis of a document that an operation begins. -/
def beginning? (s : DocumentStore) (id : DocumentId) : Operation → Option Nat
  | .beginAnalysis d => if d = id then (s.beginAnalysis id).1.map (·.seq) else none
  | _ => none

theorem change_upsert (s : DocumentStore) (id d : DocumentId) (content : String) :
    Change (s.get? id) ((s.upsert d content).2.get? id) none := by
  by_cases hd : id = d
  · subst hd
    by_cases hnews : s.IsNews id (Fingerprint.ofText content)
    · rw [get?_upsert_self hnews]
      cases he : s.get? id with
      | none => exact .opened _ rfl rfl rfl rfl
      | some e => exact .kept e _ rfl rfl rfl (by simp [retext])
    · rw [upsert_of_not_isNews hnews]
      exact .of_eq rfl
  · exact .of_eq (get?_upsert_of_ne hd)

theorem change_recordResult (now : Duration) (s : DocumentStore) (id d : DocumentId)
    (fp : Fingerprint) (findings : List Finding) :
    Change (s.get? id) ((s.recordResult now d fp findings).2.get? id) none := by
  by_cases hd : id = d
  · subst hd
    cases he : s.get? id with
    | none => exact .closed (by simp [recordResult, he])
    | some e =>
      by_cases hfp : e.fingerprint = fp
      · rw [get?_recordResult_self he hfp]
        exact .kept e _ rfl rfl rfl (by simp [answered])
      · exact .of_eq (by simp [recordResult, he, hfp])
  · exact .of_eq (get?_recordResult_of_ne hd)

theorem change_beginAnalysis (s : DocumentStore) (id d : DocumentId) :
    Change (s.get? id) ((s.beginAnalysis d).2.get? id) (s.beginning? id (.beginAnalysis d)) := by
  by_cases hd : d = id
  · subst hd
    cases he : s.get? d with
    | none =>
      rw [beginning?, if_pos rfl, beginAnalysis_of_none he]
      exact .of_eq he
    | some e =>
      by_cases hf : e.inFlight = true
      · rw [beginning?, if_pos rfl, beginAnalysis_of_inFlight he hf]
        exact .of_eq he
      · have hfree : e.inFlight = false := by simpa using hf
        rw [beginning?, if_pos rfl, beginAnalysis_of_free he hfree]
        exact .begun e rfl hfree (get?_engaged_self he)
  · rw [beginning?, if_neg hd]
    apply Change.of_eq
    rcases s.beginAnalysis_cases d with h | h <;> rw [h]
    exact get?_engaged_of_ne (Ne.symm hd)

theorem change_finishAnalysis (s : DocumentStore) (id d : DocumentId) (seq : Nat) :
    Change (s.get? id) ((s.finishAnalysis d seq).2.get? id) none := by
  by_cases hd : id = d
  · subst hd
    cases he : s.get? id with
    | none => exact .closed (by rw [get?_finishAnalysis_of_none seq he, he])
    | some e =>
      rw [get?_finishAnalysis_self seq he]
      exact .kept e _ rfl rfl rfl fun hup => (Bool.and_eq_true_iff.mp hup).1
  · exact .of_eq (get?_finishAnalysis_of_ne seq hd)

theorem change_remove (s : DocumentStore) (id d : DocumentId) :
    Change (s.get? id) ((s.remove d).2.get? id) none := by
  by_cases hd : id = d
  · subst hd
    exact .closed get?_remove_self
  · exact .of_eq (get?_remove_of_ne hd)

/-- The flag is only raised when an analysis is begun, if it is not set by hand. -/
theorem change (now : Duration) (s : DocumentStore) {op : Operation}
    (hop : ∀ b, op ≠ .setInFlight id b) :
    Change (s.get? id) ((s.perform now op).get? id) (s.beginning? id op) := by
  cases op with
  | upsert d content => exact change_upsert s id d content
  | setResult d fp findings =>
    have hchange := change_recordResult now s id d fp findings
    rwa [← get?_setResult] at hchange
  | recordResult d fp findings => exact change_recordResult now s id d fp findings
  | setInFlight d b =>
    have hd : id ≠ d := by
      rintro rfl
      exact hop b rfl
    exact .of_eq (get?_modify_of_ne _ (fun _ => rfl) hd)
  | beginAnalysis d => exact change_beginAnalysis s id d
  | finishAnalysis d seq => exact change_finishAnalysis s id d seq
  | setConfig config => exact .of_eq (get?_setConfig s config id)
  | remove d => exact change_remove s id d

namespace Run

/-! ## Who raised the flag -/

/-- The flag of a document is never set by hand. -/
def LeavesFlag (id : DocumentId) (r : Run) : Prop :=
  ∀ x ∈ r.steps, ∀ b, x.op ≠ .setInFlight id b

/-- The analyses of a document that were begun, the newest first: the moment of the call and
the number that it gave. -/
def begins (id : DocumentId) : Run → List (Nat × Nat)
  | start _ _ => []
  | next r _ op => ((r.store.beginning? id op).map fun seq => (r.moment, seq)).toList ++ r.begins id

/-- The moment of the call that raised the flag of a document, while it is up. -/
def raisedAt? (id : DocumentId) : Run → Option Nat
  | start _ _ => none
  | next r wait op =>
    if (next r wait op).store.flag id then
      if r.store.flag id then r.raisedAt? id else some r.moment
    else none

/-- The moment at which an open document was opened. -/
def openedAt? (id : DocumentId) : Run → Option Nat
  | start _ _ => none
  | next r wait op =>
    if ((next r wait op).get? id).isSome then some ((r.openedAt? id).getD r.moment) else none

/-- When the end of an analysis that was begun is told, and the flag is taken back for it, then
the analysis is the one that raised it. -/
def TakesBackOwn (id : DocumentId) (r : Run) : Prop :=
  ∀ m seq, (m, seq) ∈ r.begins id → r.store.Clears id seq → r.raisedAt? id = some m

/-- No analysis that was begun before the document was last opened has the number under which
one is marked as under way. -/
def NoneOutlives (id : DocumentId) (r : Run) : Prop :=
  ∀ m seq, (m, seq) ∈ r.begins id → r.store.Clears id seq → ∃ o, r.openedAt? id = some o ∧ o ≤ m

/-! ## Numbers since a document was opened -/

variable {r : Run} {wait : Duration} {op : Operation}

theorem LeavesFlag.past (h : (r.next wait op).LeavesFlag id) : r.LeavesFlag id :=
  fun x hx => h x (List.mem_cons_of_mem _ hx)

theorem LeavesFlag.change (h : (r.next wait op).LeavesFlag id) :
    Change (r.get? id) ((r.next wait op).get? id) (r.store.beginning? id op) :=
  DocumentStore.change (r.now + wait) r.store (h _ List.mem_cons_self)

theorem begins_lt {m seq : Nat} (h : (m, seq) ∈ r.begins id) : m < r.moment := by
  induction r with
  | start config maxCacheAge => cases h
  | next r wait op ih =>
    show m < r.moment + 1
    unfold begins at h
    rcases List.mem_append.mp h with h | h
    · obtain ⟨x, -, hx⟩ := Option.map_eq_some_iff.mp (Option.mem_toList.mp h)
      cases hx
      omega
    · have := ih h
      omega

theorem openedAt?_isSome (r : Run) (id : DocumentId) :
    (r.openedAt? id).isSome = (r.get? id).isSome := by
  cases r with
  | start config maxCacheAge => rfl
  | next r wait op =>
    unfold openedAt?
    split
    · simp_all
    · simp_all

theorem openedAt?_lt {o : Nat} (h : r.openedAt? id = some o) : o < r.moment := by
  induction r generalizing o with
  | start config maxCacheAge => cases h
  | next r wait op ih =>
    show o < r.moment + 1
    unfold openedAt? at h
    split at h
    · cases ho : r.openedAt? id with
      | none =>
        rw [ho] at h
        cases h
        exact Nat.lt_succ_self _
      | some o' =>
        have hlt := ih ho
        rw [ho] at h
        cases h
        exact Nat.lt_succ_of_lt hlt
    · cases h

/-- The analyses of a document that were begun since it was opened, the newest first. -/
def stay (id : DocumentId) (r : Run) : List (Nat × Nat) :=
  match r.openedAt? id with
  | none => []
  | some o => (r.begins id).filter (o ≤ ·.1)

theorem mem_stay {m seq : Nat} :
    (m, seq) ∈ r.stay id ↔ (m, seq) ∈ r.begins id ∧ ∃ o, r.openedAt? id = some o ∧ o ≤ m := by
  unfold stay
  cases r.openedAt? id with
  | none => simp
  | some o => simp [List.mem_filter]

/-- What is begun while a document stays open comes on top. -/
theorem stay_next (hopen : (r.get? id).isSome = true)
    (hopen' : ((r.next wait op).get? id).isSome = true) :
    (r.next wait op).stay id =
      ((r.store.beginning? id op).map fun seq => (r.moment, seq)).toList ++ r.stay id := by
  obtain ⟨o, ho⟩ := Option.isSome_iff_exists.mp ((r.openedAt?_isSome id).trans hopen)
  have ho' : (r.next wait op).openedAt? id = some o := by
    unfold openedAt?
    rw [if_pos hopen', ho]
    rfl
  have hlt := openedAt?_lt ho
  unfold stay
  rw [ho, ho']
  simp only [begins, List.filter_append]
  congr 1
  cases r.store.beginning? id op with
  | none => rfl
  | some seq => simp [Nat.le_of_lt hlt]

/-- A document that was just opened has none. -/
theorem stay_of_opened (hclosed : r.get? id = none)
    (hopen' : ((r.next wait op).get? id).isSome = true) (hnone : r.store.beginning? id op = none) :
    (r.next wait op).stay id = [] := by
  have ho : r.openedAt? id = none := by
    have := r.openedAt?_isSome id
    simpa [hclosed] using this
  have ho' : (r.next wait op).openedAt? id = some r.moment := by
    unfold openedAt?
    rw [if_pos hopen', ho]
    rfl
  unfold stay
  rw [ho']
  simp only [begins, hnone, Option.map_none, Option.toList_none, List.nil_append]
  rw [List.filter_eq_nil_iff]
  rintro ⟨m, seq⟩ hbegun
  simpa using begins_lt hbegun

/-- The analyses of an open document are numbered since it was opened, the last one has the
number that the entry tells, and a flag that is up was raised by the last one. -/
structure Numbered (id : DocumentId) (r : Run) (e : DocumentEntry) : Prop where
  falling : (r.stay id).Pairwise fun a b => b.2 < a.2
  bounded : ∀ x ∈ r.stay id, x.2 ≤ e.seq
  owner : e.inFlight = true → ∃ m, r.raisedAt? id = some m ∧ (m, e.seq) ∈ r.stay id

theorem raisedAt?_next (hflag' : (r.next wait op).store.flag id = true) :
    (r.next wait op).raisedAt? id =
      if r.store.flag id then r.raisedAt? id else some r.moment := by
  rw [raisedAt?, if_pos hflag']

theorem flag_of_get? {s : DocumentStore} (h : s.get? id = some e) : s.flag id = e.inFlight := by
  unfold flag
  rw [h]
  rfl

theorem Numbered.kept {e' : DocumentEntry} (h : r.Numbered id e) (hget : r.get? id = some e)
    (hget' : (r.next wait op).get? id = some e') (hnone : r.store.beginning? id op = none)
    (hseq : e'.seq = e.seq) (hflag : e'.inFlight = true → e.inFlight = true) :
    (r.next wait op).Numbered id e' := by
  have hstay : (r.next wait op).stay id = r.stay id := by
    rw [stay_next (by simp [hget]) (by simp [hget']), hnone]
    rfl
  constructor
  · rw [hstay]
    exact h.falling
  · rw [hstay, hseq]
    exact h.bounded
  · intro hup'
    have hup := hflag hup'
    obtain ⟨m, hm, hin⟩ := h.owner hup
    refine ⟨m, ?_, ?_⟩
    · rw [raisedAt?_next ((flag_of_get? hget').trans hup'), flag_of_get? hget, hup]
      exact hm
    · rwa [hstay, hseq]

theorem Numbered.begun (h : r.Numbered id e) (hget : r.get? id = some e)
    (hfree : e.inFlight = false) (hget' : (r.next wait op).get? id = some (engaged e))
    (hbegins : r.store.beginning? id op = some (e.seq + 1)) :
    (r.next wait op).Numbered id (engaged e) := by
  have hstay : (r.next wait op).stay id = (r.moment, e.seq + 1) :: r.stay id := by
    rw [stay_next (by simp [hget]) (by simp [hget']), hbegins]
    rfl
  constructor
  · rw [hstay, List.pairwise_cons]
    refine ⟨?_, h.falling⟩
    intro x hx
    exact Nat.lt_succ_of_le (h.bounded x hx)
  · rw [hstay]
    intro x hx
    rcases List.mem_cons.mp hx with rfl | hx
    · exact Nat.le_refl _
    · exact Nat.le_succ_of_le (h.bounded x hx)
  · intro _
    refine ⟨r.moment, ?_, ?_⟩
    · rw [raisedAt?_next (flag_of_get? hget'), flag_of_get? hget, hfree]
      rfl
    · rw [hstay]
      exact List.mem_cons_self

theorem numbered (hleaves : r.LeavesFlag id) (hget : r.get? id = some e) : r.Numbered id e := by
  induction r generalizing e with
  | start config maxCacheAge => cases hget
  | next r wait op ih =>
    have hchange := hleaves.change
    generalize hbegins : r.store.beginning? id op = begins at hchange
    cases hchange with
    | closed h' =>
      rw [h'] at hget
      cases hget
    | opened e' h h' hseq hflag =>
      cases h'.symm.trans hget
      have hstay : (r.next wait op).stay id = [] := stay_of_opened h (by simp [h']) hbegins
      constructor
      · rw [hstay]
        exact .nil
      · rw [hstay]
        intro x hx
        cases hx
      · intro hup
        rw [hflag] at hup
        cases hup
    | kept e₀ e' h h' hseq hflag =>
      cases h'.symm.trans hget
      exact (ih hleaves.past h).kept h h' hbegins hseq hflag
    | begun e₀ h hfree h' =>
      cases h'.symm.trans hget
      exact (ih hleaves.past h).begun h hfree h' hbegins

/-- Since a document was opened, no two analyses have one number. -/
theorem Numbered.eq_of_seq (h : r.Numbered id e) {m m' seq : Nat} (hm : (m, seq) ∈ r.stay id)
    (hm' : (m', seq) ∈ r.stay id) : m = m' := by
  have hnodup : ((r.stay id).map (·.2)).Nodup :=
    List.pairwise_map.mpr (h.falling.imp fun hlt => Nat.ne_of_gt hlt)
  cases List.inj_on_of_nodup_map hnodup hm hm' rfl
  rfl

/-- The end of an analysis takes back the flag of another one exactly if the document was opened
anew since the analysis was begun. -/
theorem takesBackOwn_iff (r : Run) (id : DocumentId) (hleaves : r.LeavesFlag id) :
    r.TakesBackOwn id ↔ r.NoneOutlives id := by
  constructor
  · intro hown m seq hbegun hclears
    obtain ⟨e, hget, hup, rfl⟩ := clears_iff.mp hclears
    obtain ⟨m', hm', hin⟩ := (numbered hleaves hget).owner hup
    cases (hown m _ hbegun hclears).symm.trans hm'
    exact (mem_stay.mp hin).2
  · intro hnone m seq hbegun hclears
    have hsince := hnone m seq hbegun hclears
    obtain ⟨e, hget, hup, rfl⟩ := clears_iff.mp hclears
    have hnumbered := numbered hleaves hget
    obtain ⟨m', hm', hin⟩ := hnumbered.owner hup
    rw [hm', hnumbered.eq_of_seq hin (mem_stay.mpr ⟨hbegun, hsince⟩)]

/-- An analysis is begun, the document is closed and opened again, and another analysis is
begun, which has the number of the first one. -/
def reopened : Run :=
  let document : DocumentId := ⟨"a.go"⟩
  (((((start ⟨"config"⟩ 0).next 0 (.upsert document "x")).next 0 (.beginAnalysis document)).next 0
    (.remove document)).next 0 (.upsert document "x")).next 0 (.beginAnalysis document)

theorem leavesFlag_reopened : reopened.LeavesFlag ⟨"a.go"⟩ := by
  simp [LeavesFlag, reopened, steps]

theorem takesBackOwn_iff_reopened :
    reopened.LeavesFlag ⟨"a.go"⟩ ∧
      (reopened.TakesBackOwn ⟨"a.go"⟩ ↔ reopened.NoneOutlives ⟨"a.go"⟩) :=
  ⟨leavesFlag_reopened, takesBackOwn_iff _ _ leavesFlag_reopened⟩

/-- The end of the analysis that was begun before takes back the flag of the later one. -/
theorem not_takesBackOwn_reopened :
    reopened.LeavesFlag ⟨"a.go"⟩ ∧ ¬ reopened.TakesBackOwn ⟨"a.go"⟩ := by
  refine ⟨leavesFlag_reopened, fun hown => ?_⟩
  have hbegins : reopened.begins ⟨"a.go"⟩ = [(4, 1), (1, 1)] := by decide +kernel
  have hclears : reopened.store.Clears ⟨"a.go"⟩ 1 := by decide +kernel
  have hraised : reopened.raisedAt? ⟨"a.go"⟩ = some 4 := by decide +kernel
  have hfirst := hown 1 1 (by simp [hbegins]) hclears
  cases hraised.symm.trans hfirst

end Run

end DocumentStore

end SmellWatch
