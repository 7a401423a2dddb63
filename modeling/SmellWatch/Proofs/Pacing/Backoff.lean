import Mathlib.Algebra.Ring.Nat
import Mathlib.Data.List.Basic
import SmellWatch.Pacing.RetryPolicy
/-! What a policy answers to failures that come in any order.

Failures are counted by family (`RemoteError.family?`), and the answer to a failure is told by its
number in its family alone (`delays_eq`).  So the failures of a family get the answers that they
get without those of the other (`delaysOf_eq`), and two sequences with the same failures of a
family have the same answers to them.  Counts of 32 bits and seconds of 64 bits are enough for it
(`nextDelayInWords?_eq`); `delays_by_family` says all of this. -/

namespace SmellWatch

/-- The failures that are worth another try. -/
inductive RemoteError.Family
  /-- The service asks for patience. -/
  | patience
  /-- The service fails or takes too long. -/
  | service
deriving DecidableEq

namespace RemoteError

def family? : RemoteError → Option Family
  | rateLimited _ => some .patience
  | server _ _ | timeout => some .service
  | auth _ | canceled | malformed _ | other _ => none

/-- Whether a failure is one of a family. -/
def isOf (family : Family) (e : RemoteError) : Bool := e.family? = some family

end RemoteError

open RemoteError

/-- The count of a family. -/
def Attempts.of (a : Attempts) : Family → Nat
  | .patience => a.rateLimited
  | .service => a.server

namespace RetryPolicy

variable {p : RetryPolicy} {e : RemoteError} {a b : Attempts} {family : Family}
  {es es' : List RemoteError}

/-! ## Sequences of failures -/

/-- What is answered to some failures, one after the other. -/
def delaysFrom (p : RetryPolicy) (a : Attempts) : List RemoteError → List (Option Duration)
  | [] => []
  | e :: r => (p.nextDelay e a).1 :: p.delaysFrom (p.nextDelay e a).2 r

/-- What is answered to some failures when there was none before. -/
def delays (p : RetryPolicy) (es : List RemoteError) : List (Option Duration) :=
  p.delaysFrom {} es

/-- The counts after some failures. -/
def attemptsAfter (p : RetryPolicy) (es : List RemoteError) : Attempts :=
  es.foldl (fun a e => (p.nextDelay e a).2) {}

/-- What is answered to those of some failures that are of a family. -/
def delaysOf (p : RetryPolicy) (family : Family) (es : List RemoteError) :
    List (Option Duration) :=
  ((es.zip (p.delays es)).filter fun x => x.1.isOf family).map (·.2)

/-- The answer to the `n`-th failure of its family: `2 ^ n` seconds up to half a minute, or as
long as the service says if that is longer; `n` seconds; or that there is no further call. -/
def answer (p : RetryPolicy) (n : Nat) : RemoteError → Option Duration
  | .rateLimited hint =>
    if p.maxRateLimitAttempts ≤ n then none
    else
      let backoff := Duration.ofSeconds (min (2 ^ n) 30)
      match hint with
      | none => some backoff
      | some d => some (max backoff d)
  | .server _ _ | .timeout =>
    if p.maxServerRetries < n then none else some (Duration.ofSeconds n)
  | .auth _ | .canceled | .malformed _ | .other _ => none

/-! ## One failure -/

/-- From two to the fifth on there is nothing to tell between the powers. -/
theorem backoffSeconds_eq (n : Nat) : backoffSeconds n = min (2 ^ n) 30 := by
  unfold backoffSeconds longestBackoff
  rw [Nat.pow_eq]
  by_cases hn : n ≤ 16
  · rw [Nat.min_eq_left hn]
  · have hlarge : 2 ^ 16 ≤ 2 ^ n := Nat.pow_le_pow_right (by omega) (by omega)
    rw [Nat.min_eq_right (by omega : 16 ≤ n)]
    omega

theorem nextDelay_fst (h : e.family? = some family) :
    (p.nextDelay e a).1 = p.answer (a.of family + 1) e := by
  have hserved : ∀ n, (if p.maxServerRetries < n then ((none : Option Duration), ({ a with
        server := n } : Attempts)) else (some (Duration.ofSeconds n), { a with server := n })).1 =
      if p.maxServerRetries < n then none else some (Duration.ofSeconds n) := by
    intro n
    split <;> rfl
  cases e with
  | rateLimited hint =>
    obtain rfl : Family.patience = family := Option.some.inj h
    show (p.nextDelay (.rateLimited hint) a).1 = p.answer (a.rateLimited + 1) (.rateLimited hint)
    unfold nextDelay answer
    dsimp only
    by_cases hlast : p.maxRateLimitAttempts ≤ a.rateLimited + 1
    · rw [if_pos hlast, if_pos hlast]
    · rw [if_neg hlast, if_neg hlast, backoffSeconds_eq]
      cases hint with
      | none => simp
      | some d => simp [Nat.max_comm]
  | server status body =>
    obtain rfl : Family.service = family := Option.some.inj h
    exact hserved (a.server + 1)
  | timeout =>
    obtain rfl : Family.service = family := Option.some.inj h
    exact hserved (a.server + 1)
  | _ => cases h

theorem nextDelay_of_family?_none (h : e.family? = none) : p.nextDelay e a = (none, a) := by
  cases e <;> first | rfl | cases h

/-- A failure is counted in its family and in no other. -/
theorem of_nextDelay (p : RetryPolicy) (e : RemoteError) (a : Attempts) (family : Family) :
    (p.nextDelay e a).2.of family = a.of family + if e.isOf family then 1 else 0 := by
  have hserved : ∀ d : Option Duration,
      (if p.maxServerRetries < a.server + 1 then ((none : Option Duration), ({ a with
        server := a.server + 1 } : Attempts)) else (d, { a with server := a.server + 1 })).2 =
      { a with server := a.server + 1 } := by
    intro d
    split <;> rfl
  cases e with
  | rateLimited hint =>
    unfold nextDelay
    dsimp only
    split <;> cases family <;> rfl
  | server status body =>
    unfold nextDelay
    rw [hserved]
    cases family <;> rfl
  | timeout =>
    unfold nextDelay
    rw [hserved]
    cases family <;> rfl
  | _ => cases family <;> rfl

/-! ## All of them -/

theorem of_attemptsAfter (p : RetryPolicy) (es : List RemoteError) (family : Family) :
    (p.attemptsAfter es).of family = es.countP (·.isOf family) := by
  have hcount : ∀ a : Attempts, (es.foldl (fun a e => (p.nextDelay e a).2) a).of family =
      a.of family + es.countP (·.isOf family) := by
    induction es with
    | nil => intro a; rfl
    | cons e r ih =>
      intro a
      rw [List.foldl_cons, ih, of_nextDelay, List.countP_cons]
      omega
  have hnone : ({} : Attempts).of family = 0 := by cases family <;> rfl
  rw [attemptsAfter, hcount, hnone, Nat.zero_add]

theorem getElem?_delaysFrom (p : RetryPolicy) (es : List RemoteError) (a : Attempts) (i : Nat) :
    (p.delaysFrom a es)[i]? = es[i]?.map fun e =>
      (p.nextDelay e ((es.take i).foldl (fun a e => (p.nextDelay e a).2) a)).1 := by
  induction es generalizing a i with
  | nil => rfl
  | cons e r ih =>
    cases i with
    | zero => rfl
    | succ i =>
      rw [delaysFrom, List.getElem?_cons_succ, ih, List.getElem?_cons_succ, List.take_succ_cons,
        List.foldl_cons]

/-- The number of a failure in its family, when these failures came before. -/
def place (before : List RemoteError) (e : RemoteError) : Nat :=
  before.countP (·.family? = e.family?) + 1

/-- Each failure is answered by its number in its family. -/
theorem delays_eq (p : RetryPolicy) (es : List RemoteError) (i : Nat) :
    (p.delays es)[i]? = es[i]?.map fun e => p.answer (place (es.take i) e) e := by
  rw [delays, getElem?_delaysFrom]
  congr 1
  funext e
  show (p.nextDelay e (p.attemptsAfter (es.take i))).1 = _
  cases he : e.family? with
  | none =>
    rw [nextDelay_of_family?_none he]
    cases e <;> first | rfl | cases he
  | some family =>
    rw [nextDelay_fst he, of_attemptsAfter, place, he]
    rfl

/-- Where two counts of a family are the same, its failures get the same answers. -/
theorem delaysFrom_filter (p : RetryPolicy) (es : List RemoteError)
    (h : a.of family = b.of family) :
    ((es.zip (p.delaysFrom a es)).filter fun x => x.1.isOf family).map (·.2) =
      p.delaysFrom b (es.filter (·.isOf family)) := by
  induction es generalizing a b with
  | nil => rfl
  | cons e r ih =>
    rw [delaysFrom, List.zip_cons_cons]
    by_cases he : e.isOf family = true
    · have hfamily : e.family? = some family := of_decide_eq_true he
      have hcounts : (p.nextDelay e a).2.of family = (p.nextDelay e b).2.of family := by
        rw [of_nextDelay, of_nextDelay, h]
      rw [List.filter_cons, if_pos he, List.filter_cons, if_pos he, List.map_cons, delaysFrom,
        ih hcounts, nextDelay_fst hfamily, nextDelay_fst hfamily, h]
    · have hcount : (p.nextDelay e a).2.of family = b.of family := by
        rw [of_nextDelay, if_neg he, h, Nat.add_zero]
      rw [List.filter_cons, if_neg he, List.filter_cons, if_neg he, ih hcount]

/-- The failures of a family get the answers that they get without the others. -/
theorem delaysOf_eq (p : RetryPolicy) (family : Family) (es : List RemoteError) :
    p.delaysOf family es = p.delays (es.filter (·.isOf family)) :=
  p.delaysFrom_filter es rfl

/-! ## Numbers of limited width -/

/-- A number, if it has at most so many bits. -/
def fits? (bits n : Nat) : Option Nat := if n < 2 ^ bits then some n else none

/-- The answer and the new counts, with counts of 32 bits and seconds of 64; none if a number does
not fit or is shifted by its whole width. -/
def nextDelayInWords? (p : RetryPolicy) (e : RemoteError) (a : Attempts) :
    Option (Option Duration × Attempts) :=
  match e with
  | .rateLimited hint =>
    (fits? 32 (a.rateLimited + 1)).bind fun n =>
      if p.maxRateLimitAttempts ≤ n then some (none, { a with rateLimited := n })
      else
        (if min n 16 < 64 then fits? 64 (1 <<< min n 16) else none).map fun seconds =>
          (some (max (hint.getD 0) (Duration.ofSeconds (min seconds longestBackoff))),
            { a with rateLimited := n })
  | .server _ _ | .timeout =>
    (fits? 32 (a.server + 1)).bind fun n =>
      if p.maxServerRetries < n then some (none, { a with server := n })
      else (fits? 64 (1 * n)).map fun seconds =>
        (some (Duration.ofSeconds seconds), { a with server := n })
  | .auth _ | .canceled | .malformed _ | .other _ => some (none, a)

theorem fits?_of_lt {bits n : Nat} (h : n < 2 ^ bits) : fits? bits n = some n := if_pos h

/-- Numbers of limited width are enough as long as the count of the failure fits. -/
theorem nextDelayInWords?_eq
    (h : ∀ family, e.family? = some family → a.of family + 1 < 2 ^ 32) :
    p.nextDelayInWords? e a = some (p.nextDelay e a) := by
  have hserved : a.server + 1 < 2 ^ 32 → ((fits? 32 (a.server + 1)).bind fun n =>
      if p.maxServerRetries < n then some ((none : Option Duration), { a with server := n })
      else (fits? 64 (1 * n)).map fun seconds =>
        (some (Duration.ofSeconds seconds), { a with server := n })) =
      some (p.nextDelay .timeout a) := by
    intro hcount
    rw [fits?_of_lt hcount, Option.bind_some, fits?_of_lt (by omega), Nat.one_mul]
    unfold nextDelay
    dsimp only
    split <;> rfl
  cases e with
  | rateLimited hint =>
    have hcount : a.rateLimited + 1 < 2 ^ 32 := h .patience rfl
    have hwidth : min (a.rateLimited + 1) 16 < 64 := by omega
    have hshift : 1 <<< min (a.rateLimited + 1) 16 < 2 ^ 64 := by
      rw [Nat.one_shiftLeft]
      exact Nat.pow_lt_pow_right (by omega) hwidth
    unfold nextDelayInWords? nextDelay
    dsimp only
    rw [fits?_of_lt hcount, Option.bind_some, if_pos hwidth, fits?_of_lt hshift,
      Nat.one_shiftLeft]
    split <;> rfl
  | server status body => exact hserved (h .service rfl)
  | timeout => exact hserved (h .service rfl)
  | _ => rfl

theorem length_delaysFrom (p : RetryPolicy) (a : Attempts) (es : List RemoteError) :
    (p.delaysFrom a es).length = es.length := by
  induction es generalizing a with
  | nil => rfl
  | cons e r ih => rw [delaysFrom, List.length_cons, ih, List.length_cons]

/-- Each of any failures is answered by its number in its family: the `k`-th request for patience
by no further call from the limit on, and before that by the greater of `2 ^ k` seconds, half a
minute at most, and what the service asks for; the `j`-th failure of the service by no further call
beyond the limit, and up to it by `j` seconds; all others by no further call.  So two sequences
with the same failures of a family have the same answers to them, whatever else comes in between.
Below 2^32 failures of a family no number is too large. -/
theorem delays_by_family (p : RetryPolicy) (es : List RemoteError) :
    ((p.delays es).length = es.length ∧
      ∀ i, (p.delays es)[i]? = es[i]?.map fun e => p.answer (place (es.take i) e) e) ∧
    (∀ family es', es.filter (·.isOf family) = es'.filter (·.isOf family) →
      p.delaysOf family es = p.delaysOf family es') ∧
    (∀ i e, es[i]? = some e → place (es.take i) e < 2 ^ 32 →
      p.nextDelayInWords? e (p.attemptsAfter (es.take i)) =
        some (p.nextDelay e (p.attemptsAfter (es.take i)))) := by
  refine ⟨⟨p.length_delaysFrom {} es, p.delays_eq es⟩, ?_, ?_⟩
  · intro family es' hsame
    rw [delaysOf_eq, delaysOf_eq, hsame]
  · intro i e _ hfew
    apply nextDelayInWords?_eq
    intro family hfamily
    rw [of_attemptsAfter]
    unfold place at hfew
    rw [hfamily] at hfew
    exact hfew

/-- Requests for patience and failures of the service in turn, and one that is final. -/
def mixed : List RemoteError :=
  [.rateLimited none, .timeout, .rateLimited (some (Duration.ofSeconds 9)), .auth "",
    .server 500 "", .rateLimited none, .timeout]

theorem delays_by_family_mixed :
    let p : RetryPolicy := ⟨10, 2⟩
    p.delays mixed = [some (Duration.ofSeconds 2), some (Duration.ofSeconds 1),
      some (Duration.ofSeconds 9), none, some (Duration.ofSeconds 2),
      some (Duration.ofSeconds 8), none] ∧
    p.delaysOf .service mixed = p.delaysOf .service [.timeout, .server 500 "", .timeout] ∧
    place (mixed.take 5) (.rateLimited none) = 3 ∧
    p.nextDelayInWords? (.rateLimited none) (p.attemptsAfter (mixed.take 5)) =
      some (p.nextDelay (.rateLimited none) (p.attemptsAfter (mixed.take 5))) := by
  obtain ⟨-, hsame, hwords⟩ := delays_by_family ⟨10, 2⟩ mixed
  exact ⟨by decide +kernel, hsame .service _ rfl, rfl, hwords 5 _ rfl (by decide)⟩

end RetryPolicy

end SmellWatch
