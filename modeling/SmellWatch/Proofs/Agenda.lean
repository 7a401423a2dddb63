import Mathlib.Algebra.BigOperators.Group.List.Basic
import Mathlib.Algebra.Order.BigOperators.Group.List
import Mathlib.Algebra.Order.Ring.Nat
import Mathlib.Data.List.TakeWhile
import Mathlib.Order.Monotone.Defs
import Mathlib.Order.WellFounded
import SmellWatch.Agenda
/-! An agenda on which less and less is left comes to an end.

What a run does next is the first task that is ready, after time has moved on to the next alarm
if there is none (`moved`).  So whatever holds of every agenda and state that a run comes to is
shown for one move and for one task, and so is that something gets smaller with each task; then a
run that has time and fuel enough ends with nothing on its agenda, and always in the same state
(`comes_to_rest`).

A task that is on the agenda stays there until it runs: at once (`wake`), or not before a given
time (`Minds`). -/

namespace SmellWatch

namespace Agenda

variable {τ σ : Type} [DecidableEq τ] {a : Agenda τ} {t : τ} {time : Duration}

/-! ## Moving on -/

/-- The agenda at the time of its next alarm, if no task is ready. -/
def moved (a : Agenda τ) : Agenda τ :=
  match a.ready, a.alarms with
  | [], x :: _ =>
    ((a.alarms.takeWhile (·.ring ≤ max a.now x.ring)).map (·.task)).foldl wake
      { a with
        now := max a.now x.ring
        alarms := a.alarms.dropWhile (·.ring ≤ max a.now x.ring) }
  | _, _ => a

/-- The agenda without the task that runs next. -/
def rest (a : Agenda τ) : Agenda τ := { a with ready := a.ready.tail }

theorem mem_wake {u : τ} : u ∈ (a.wake t).ready ↔ u ∈ a.ready ∨ u = t := by
  unfold wake
  split
  · exact ⟨.inl, fun h => h.elim id fun hut => hut ▸ ‹_›⟩
  · simp

theorem wake_now (a : Agenda τ) (t : τ) : (a.wake t).now = a.now := by
  unfold wake
  split <;> rfl

theorem wake_alarms (a : Agenda τ) (t : τ) : (a.wake t).alarms = a.alarms := by
  unfold wake
  split <;> rfl

theorem foldl_wake_spec (tasks : List τ) (a : Agenda τ) :
    (tasks.foldl wake a).now = a.now ∧ (tasks.foldl wake a).alarms = a.alarms ∧
      ∀ u, u ∈ (tasks.foldl wake a).ready ↔ u ∈ a.ready ∨ u ∈ tasks := by
  induction tasks generalizing a with
  | nil => simp
  | cons t r ih =>
    obtain ⟨hnow, halarms, hready⟩ := ih (a.wake t)
    refine ⟨hnow.trans (wake_now a t), halarms.trans (wake_alarms a t), fun u => ?_⟩
    rw [List.foldl_cons, hready, mem_wake, List.mem_cons, or_assoc]

theorem moved_of_ready (h : a.ready ≠ []) : a.moved = a := by
  unfold moved
  split
  · exact absurd ‹_› h
  · rfl

theorem moved_of_none (hready : a.ready = []) (halarms : a.alarms = []) : a.moved = a := by
  unfold moved
  rw [hready, halarms]

theorem moved_of_alarm {x : Alarm τ} {l : List (Alarm τ)} (hready : a.ready = [])
    (halarms : a.alarms = x :: l) :
    a.moved = ((a.alarms.takeWhile (·.ring ≤ max a.now x.ring)).map (·.task)).foldl wake
      { a with
        now := max a.now x.ring
        alarms := a.alarms.dropWhile (·.ring ≤ max a.now x.ring) } := by
  unfold moved
  rw [hready, halarms]

/-- What was on the agenda is on it still, and an alarm that has rung has made its task ready. -/
theorem moved_spec (a : Agenda τ) :
    a.now ≤ a.moved.now ∧ (∀ t ∈ a.ready, t ∈ a.moved.ready) ∧
      ∀ x ∈ a.alarms, x ∈ a.moved.alarms ∨ x.task ∈ a.moved.ready ∧ x.ring ≤ a.moved.now := by
  by_cases hready : a.ready = []
  · cases halarms : a.alarms with
    | nil =>
      rw [moved_of_none hready halarms]
      exact ⟨le_rfl, fun _ => id, fun x hx => absurd hx List.not_mem_nil⟩
    | cons x l =>
      rw [moved_of_alarm hready halarms, ← halarms]
      obtain ⟨hnow, hlater, hmem⟩ := foldl_wake_spec
        ((a.alarms.takeWhile (·.ring ≤ max a.now x.ring)).map (·.task))
        { a with
          now := max a.now x.ring
          alarms := a.alarms.dropWhile (·.ring ≤ max a.now x.ring) }
      rw [hnow, hlater]
      refine ⟨le_max_left _ _, fun t ht => (hmem t).mpr (.inl ht), fun y hy => ?_⟩
      rw [← List.takeWhile_append_dropWhile (p := (·.ring ≤ max a.now x.ring))
        (l := a.alarms)] at hy
      rcases List.mem_append.mp hy with hrung | hrest
      · refine .inr ⟨(hmem y.task).mpr (.inr (List.mem_map_of_mem hrung)), ?_⟩
        simpa using List.mem_takeWhile_imp hrung
      · exact .inl hrest
  · rw [moved_of_ready hready]
    exact ⟨le_rfl, fun _ => id, fun _ => .inl⟩

theorem moved_ready (h : a.ready ≠ [] ∨ a.alarms ≠ []) : a.moved.ready ≠ [] := by
  by_cases hready : a.ready = []
  · obtain ⟨x, l, halarms⟩ := List.exists_cons_of_ne_nil (h.resolve_left (absurd hready))
    rw [moved_of_alarm hready halarms]
    refine List.ne_nil_of_mem (((foldl_wake_spec _ _).2.2 x.task).mpr (.inr ?_))
    refine List.mem_map_of_mem ?_
    rw [halarms, List.takeWhile_cons_of_pos (by simp)]
    exact List.mem_cons_self
  · rwa [moved_of_ready hready]

/-- What a run does next, if it has time enough for it. -/
theorem next?_eq {limit : Nat} (h : ∀ x ∈ a.alarms.head?, x.ring ≤ limit) :
    a.next? limit = a.moved.ready.head?.map fun t => (t, a.moved.rest) := by
  unfold next? rest
  cases hready : a.ready with
  | cons t r =>
    have hmoved : a.moved = a := moved_of_ready (by simp [hready])
    simp [hmoved, hready]
  | nil =>
    unfold advance?
    cases halarms : a.alarms with
    | nil =>
      simp [moved_of_none hready halarms, hready]
    | cons x l =>
      have hring : x.ring ≤ limit := h x (by simp [halarms])
      have hmoved := moved_of_alarm hready halarms
      rw [halarms] at hmoved
      simp only [hring, if_true]
      rw [← hmoved]
      cases hnext : a.moved.ready <;> rfl

/-! ## What is on the agenda -/

/-- A task is on the agenda, and will not run before that time. -/
def Minds (a : Agenda τ) (time : Duration) (t : τ) : Prop :=
  (t ∈ a.ready ∧ time ≤ a.time) ∨ ∃ x ∈ a.alarms, x.task = t ∧ time ≤ Duration.ofMillis x.ring

theorem ofMillis_le {m n : Nat} (h : m ≤ n) : Duration.ofMillis m ≤ Duration.ofMillis n :=
  Nat.mul_le_mul_right _ h

theorem le_ofMillis_ceilMillis (time : Duration) : time ≤ Duration.ofMillis time.ceilMillis := by
  have h : ∀ n : Nat, n ≤ (n + (1000000 - 1)) / 1000000 * 1000000 := by
    intro n
    omega
  exact h time

omit [DecidableEq τ] in
theorem Minds.mono {earlier : Duration} (h : a.Minds time t) (hle : earlier ≤ time) :
    a.Minds earlier t :=
  h.imp (fun ⟨ht, htime⟩ => ⟨ht, hle.trans htime⟩) fun ⟨x, hx, hxt, htime⟩ =>
    ⟨x, hx, hxt, hle.trans htime⟩

theorem Minds.moved (h : a.Minds time t) : a.moved.Minds time t := by
  obtain ⟨hnow, hready, halarms⟩ := a.moved_spec
  rcases h with ⟨ht, htime⟩ | ⟨x, hx, rfl, htime⟩
  · exact .inl ⟨hready t ht, htime.trans (ofMillis_le hnow)⟩
  · rcases halarms x hx with hstays | ⟨hrung, hring⟩
    · exact .inr ⟨x, hstays, rfl, htime⟩
    · exact .inl ⟨hrung, htime.trans (ofMillis_le hring)⟩

omit [DecidableEq τ] in
/-- Another task stays where it is when one runs. -/
theorem Minds.rest {u : τ} {r : List τ} (h : a.Minds time u) (hready : a.ready = t :: r)
    (hne : u ≠ t) : a.rest.Minds time u := by
  rcases h with ⟨hu, htime⟩ | halarm
  · rw [hready] at hu
    refine .inl ⟨?_, htime⟩
    show u ∈ a.ready.tail
    rw [hready]
    exact (List.mem_cons.mp hu).resolve_left hne
  · exact .inr halarm

omit [DecidableEq τ] in
theorem mem_insertAlarm {x y : Alarm τ} {l : List (Alarm τ)} :
    y ∈ insertAlarm x l ↔ y = x ∨ y ∈ l := by
  induction l with
  | nil => simp [insertAlarm]
  | cons z r ih =>
    unfold insertAlarm
    split
    · rw [List.mem_cons, ih, List.mem_cons, or_left_comm]
    · rw [List.mem_cons]

theorem obey_spec (a : Agenda τ) (o : Order τ) :
    (a.obey o).now = a.now ∧ (∀ t ∈ a.ready, t ∈ (a.obey o).ready) ∧
      ∀ x ∈ a.alarms, x ∈ (a.obey o).alarms := by
  cases o with
  | wake t =>
    exact ⟨wake_now a t, fun u hu => mem_wake.mpr (.inl hu),
      fun x hx => (wake_alarms a t).symm ▸ hx⟩
  | alarm time t => exact ⟨rfl, fun _ => id, fun x hx => mem_insertAlarm.mpr (.inr hx)⟩

/-- What is on the agenda stays on it when there are more orders. -/
theorem obeyAll_spec (orders : List (Order τ)) (a : Agenda τ) :
    (a.obeyAll orders).now = a.now ∧ (∀ t ∈ a.ready, t ∈ (a.obeyAll orders).ready) ∧
      ∀ x ∈ a.alarms, x ∈ (a.obeyAll orders).alarms := by
  induction orders generalizing a with
  | nil => exact ⟨rfl, fun _ => id, fun _ => id⟩
  | cons o r ih =>
    obtain ⟨hnow, hready, halarms⟩ := a.obey_spec o
    obtain ⟨hnow', hready', halarms'⟩ := ih (a.obey o)
    exact ⟨hnow'.trans hnow, fun t ht => hready' t (hready t ht),
      fun x hx => halarms' x (halarms x hx)⟩

theorem Minds.obeyAll (h : a.Minds time t) (orders : List (Order τ)) :
    (a.obeyAll orders).Minds time t := by
  obtain ⟨hnow, hready, halarms⟩ := obeyAll_spec orders a
  rcases h with ⟨ht, htime⟩ | ⟨x, hx, hrest⟩
  · refine .inl ⟨hready t ht, ?_⟩
    unfold Agenda.time
    rw [hnow]
    exact htime
  · exact .inr ⟨x, halarms x hx, hrest⟩

theorem mem_obeyAll_of_wake {orders : List (Order τ)} (h : .wake t ∈ orders) (a : Agenda τ) :
    t ∈ (a.obeyAll orders).ready := by
  induction orders generalizing a with
  | nil => cases h
  | cons o r ih =>
    rcases List.mem_cons.mp h with rfl | h
    · exact (obeyAll_spec r (a.wake t)).2.1 t (mem_wake.mpr (.inr rfl))
    · exact ih h (a.obey o)

theorem minds_of_alarm {orders : List (Order τ)} (h : .alarm time t ∈ orders) (a : Agenda τ) :
    (a.obeyAll orders).Minds time t := by
  induction orders generalizing a with
  | nil => cases h
  | cons o r ih =>
    rcases List.mem_cons.mp h with rfl | h
    · have hset : (a.setAlarm time t).Minds time t :=
        .inr ⟨_, mem_insertAlarm.mpr (.inl rfl), rfl, le_ofMillis_ceilMillis time⟩
      exact hset.obeyAll r
    · exact ih h (a.obey o)

/-! ## How much is left -/

/-- How much is on the agenda, if a task weighs the less the later it runs. -/
def weight (w : Nat → τ → Nat) (a : Agenda τ) : Nat :=
  (a.ready.map (w a.now)).sum + (a.alarms.map fun x => w x.ring x.task).sum

theorem weight_wake (w : Nat → τ → Nat) (a : Agenda τ) (t : τ) :
    (a.wake t).weight w ≤ a.weight w + w a.now t := by
  unfold wake
  split
  · exact Nat.le_add_right _ _
  · unfold weight
    simp only [List.map_append, List.map_cons, List.map_nil, List.sum_append, List.sum_cons,
      List.sum_nil]
    omega

theorem weight_foldl_wake (w : Nat → τ → Nat) (tasks : List τ) (a : Agenda τ) :
    (tasks.foldl wake a).weight w ≤ a.weight w + (tasks.map (w a.now)).sum := by
  induction tasks generalizing a with
  | nil => exact Nat.le_add_right _ _
  | cons t r ih =>
    have hone := weight_wake w a t
    have hrest := ih (a.wake t)
    rw [wake_now] at hrest
    rw [List.foldl_cons, List.map_cons, List.sum_cons]
    omega

theorem weight_moved {w : Nat → τ → Nat} (hw : ∀ t, Antitone (w · t)) (a : Agenda τ) :
    a.moved.weight w ≤ a.weight w := by
  by_cases hready : a.ready = []
  · cases halarms : a.alarms with
    | nil => rw [moved_of_none hready halarms]
    | cons x l =>
      rw [moved_of_alarm hready halarms]
      refine (weight_foldl_wake w _ _).trans ?_
      -- each alarm that has rung weighs no less than its task does now
      have hdue : (((a.alarms.takeWhile (·.ring ≤ max a.now x.ring)).map (·.task)).map
          (w (max a.now x.ring))).sum ≤
          ((a.alarms.takeWhile (·.ring ≤ max a.now x.ring)).map fun x => w x.ring x.task).sum := by
        rw [List.map_map]
        refine List.sum_le_sum fun y hy => hw y.task ?_
        simpa using List.mem_takeWhile_imp hy
      have hsplit := congrArg (fun l => (l.map fun x : Alarm τ => w x.ring x.task).sum)
        (List.takeWhile_append_dropWhile (p := (·.ring ≤ max a.now x.ring)) (l := a.alarms))
      simp only [List.map_append, List.sum_append] at hsplit
      unfold weight
      simp only [hready, List.map_nil, List.sum_nil]
      omega
  · rw [moved_of_ready hready]

omit [DecidableEq τ] in
theorem weight_rest {r : List τ} (w : Nat → τ → Nat) (hready : a.ready = t :: r) :
    a.weight w = w a.now t + a.rest.weight w := by
  unfold weight rest
  simp only [hready, List.map_cons, List.sum_cons, List.tail_cons]
  omega

omit [DecidableEq τ] in
theorem weight_setAlarm (w : Nat → τ → Nat) (a : Agenda τ) (time : Duration) (t : τ) :
    (a.setAlarm time t).weight w = a.weight w + w time.ceilMillis t := by
  have hinsert : ∀ (x : Alarm τ) (l : List (Alarm τ)),
      ((insertAlarm x l).map fun x => w x.ring x.task).sum =
        w x.ring x.task + (l.map fun x => w x.ring x.task).sum := by
    intro x l
    induction l with
    | nil => simp [insertAlarm]
    | cons y r ih =>
      unfold insertAlarm
      split
      · simp only [List.map_cons, List.sum_cons, ih]
        omega
      · simp only [List.map_cons, List.sum_cons]
  unfold weight setAlarm
  dsimp only
  rw [hinsert]
  dsimp only
  omega

/-! ## Rest -/

variable {step : Duration → τ → σ → σ × List (Order τ)}

/-- Nothing is left to run. -/
def IsEmpty (a : Agenda τ) : Prop := a.ready = [] ∧ a.alarms = []

theorem runFor_of_isEmpty (h : a.IsEmpty) (limit n : Nat) (s : σ) :
    runFor step limit n (a, s) = ({ a with now := max a.now limit }, s) := by
  cases n with
  | zero => rfl
  | succ n =>
    have hnext : a.next? limit = none := by
      rw [next?_eq (by simp [h.2]), moved_of_none h.1 h.2, h.1]
      rfl
    unfold runFor
    rw [hnext]

/-- When something holds of all that a run comes to, and something gets smaller with each task that
runs, the run ends with nothing on its agenda if it has time and fuel enough, and always in the
same state. -/
theorem comes_to_rest {μ : Type} [Preorder μ] [WellFoundedLT μ] {Holds : Agenda τ → σ → Prop}
    {left : Agenda τ → σ → μ}
    (hmoved : ∀ a s, Holds a s → Holds a.moved s ∧ left a.moved s ≤ left a s)
    (hstep : ∀ a s t r, Holds a s → a.ready = t :: r →
      Holds (a.rest.obeyAll (step a.time t s).2) (step a.time t s).1 ∧
        left (a.rest.obeyAll (step a.time t s).2) (step a.time t s).1 < left a s)
    (a : Agenda τ) (s : σ) (h : Holds a s) :
    ∃ a' s', Holds a' s' ∧ a'.IsEmpty ∧ ∃ enough : Nat, ∀ limit ≥ enough, ∀ n ≥ enough,
      runFor step limit n (a, s) = ({ a' with now := max a'.now limit }, s') := by
  induction hleft : left a s using WellFoundedLT.induction generalizing a s with
  | ind x ih =>
  by_cases hempty : a.IsEmpty
  · exact ⟨a, s, h, hempty, 0, fun limit _ n _ => runFor_of_isEmpty hempty limit n s⟩
  · have hsome : a.ready ≠ [] ∨ a.alarms ≠ [] := by
      by_contra hnone
      push Not at hnone
      exact hempty hnone
    obtain ⟨hholds, hle⟩ := hmoved a s h
    obtain ⟨t, r, hready⟩ := List.exists_cons_of_ne_nil (moved_ready hsome)
    obtain ⟨hnext, hlt⟩ := hstep _ s t r hholds hready
    obtain ⟨a', s', hholds', hempty', enough, hrun⟩ :=
      ih _ (hleft ▸ hlt.trans_le hle) _ _ hnext rfl
    refine ⟨a', s', hholds', hempty', max (enough + 1) ((a.alarms.head?.map (·.ring)).getD 0),
      fun limit hlimit n hn => ?_⟩
    obtain ⟨n, rfl⟩ : ∃ m, n = m + 1 := ⟨n - 1, by omega⟩
    have hring : ∀ x ∈ a.alarms.head?, x.ring ≤ limit := by
      intro x hx
      rw [Option.mem_def.mp hx] at hlimit
      exact (le_max_right _ _).trans hlimit
    unfold runFor
    rw [next?_eq hring, hready]
    exact hrun limit (by omega) n (by omega)

end Agenda

end SmellWatch
