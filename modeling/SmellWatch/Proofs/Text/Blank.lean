import Mathlib.Data.List.TakeWhile
import SmellWatch.Text.Blank
/-! What trimming takes off a text: the blanks on both sides (`trimChars_of_parts`), and nothing
that is not blank (`trimChars_ne_nil`). -/

namespace SmellWatch

namespace Text

variable {front core tail cs : List Char} {c : Char}

theorem dropBlank_blank_append (h : front.all isBlank = true) (cs : List Char) :
    dropBlank (front ++ cs) = dropBlank cs := List.dropWhile_append_of_pos (List.all_eq_true.mp h)

theorem StartsInked.append (h : StartsInked core) (hne : core ≠ []) (cs : List Char) :
    StartsInked (core ++ cs) := by
  intro c r hcs
  cases core with
  | nil => exact absurd rfl hne
  | cons d s => exact h c s (by rw [(List.cons.inj hcs).1])

/-- Blanks on both sides are trimmed off. -/
theorem trimChars_of_parts (hfront : front.all isBlank = true) (htail : tail.all isBlank = true)
    (hstart : StartsInked core) (hend : StartsInked core.reverse) :
    trimChars (front ++ (core ++ tail)) = core := by
  have hback : tail.reverse.all isBlank = true := List.all_reverse.trans htail
  unfold trimChars dropBlankEnd
  rw [dropBlank_blank_append hfront]
  cases core with
  | nil =>
    have hnothing : dropBlank tail = [] :=
      List.dropWhile_eq_nil_iff.mpr (List.all_eq_true.mp htail)
    rw [List.nil_append, hnothing]
    rfl
  | cons c r =>
    rw [show dropBlank (c :: r ++ tail) = c :: r ++ tail from
      dropBlank_eq_self fun d s hd => hstart d r (by rw [(List.cons.inj hd).1]),
      List.reverse_append, dropBlank_blank_append hback, dropBlank_eq_self hend,
      List.reverse_reverse]

/-- Only blanks are trimmed off. -/
theorem exists_trimChars_eq (cs : List Char) :
    ∃ front tail, cs = front ++ (trimChars cs ++ tail) ∧ front.all isBlank = true ∧
      tail.all isBlank = true := by
  have hfront : cs = cs.takeWhile isBlank ++ dropBlank cs := List.takeWhile_append_dropWhile.symm
  have hback : (dropBlank cs).reverse =
      (dropBlank cs).reverse.takeWhile isBlank ++ dropBlank (dropBlank cs).reverse :=
    List.takeWhile_append_dropWhile.symm
  refine ⟨cs.takeWhile isBlank, ((dropBlank cs).reverse.takeWhile isBlank).reverse, ?_,
    List.all_takeWhile, ?_⟩
  · unfold trimChars dropBlankEnd
    rw [← List.reverse_append, ← hback, List.reverse_reverse]
    exact hfront
  · rw [List.all_reverse]
    exact List.all_takeWhile

/-- What is not blank is not trimmed off. -/
theorem trimChars_ne_nil (hin : c ∈ cs) (hc : isBlank c = false) : trimChars cs ≠ [] := by
  intro hnil
  have hblank : ∀ d ∈ dropBlank cs, isBlank d = true := fun d hd =>
    List.dropWhile_eq_nil_iff.mp (List.reverse_eq_nil_iff.mp hnil) d (List.mem_reverse.mpr hd)
  have hall : dropBlank cs = [] := by
    cases hcs : dropBlank cs with
    | nil => rfl
    | cons d r =>
      have hink := startsInked_dropBlank cs d r hcs
      rw [hblank d (hcs ▸ List.mem_cons_self)] at hink
      cases hink
  rw [List.dropWhile_eq_nil_iff.mp hall c hin] at hc
  cases hc

/-- What follows a character that is not blank does not matter at the front. -/
theorem dropBlank_append (hin : c ∈ cs) (hc : isBlank c = false) (tail : List Char) :
    dropBlank (cs ++ tail) = dropBlank cs ++ tail := by
  unfold dropBlank
  rw [List.dropWhile_append, if_neg]
  intro hempty
  rw [List.dropWhile_eq_nil_iff.mp (List.isEmpty_iff.mp hempty) c hin] at hc
  cases hc

/-- Nothing is taken off what starts with a character that is not blank. -/
theorem dropBlank_append_inked (h : StartsInked core) (front : List Char) :
    dropBlank (front ++ core) = dropBlank front ++ core := by
  have hcore : dropBlank core = core := dropBlank_eq_self h
  unfold dropBlank at hcore ⊢
  rw [List.dropWhile_append]
  split
  · rename_i hempty
    rw [List.isEmpty_iff.mp hempty, hcore, List.nil_append]
  · rfl

theorem startsInked_cons (hc : isBlank c = false) (cs : List Char) : StartsInked (c :: cs) := by
  intro d r hd
  rw [← (List.cons.inj hd).1]
  exact hc

/-- What stands before a character that is not blank does not matter at the end. -/
theorem dropBlankEnd_append (hc : isBlank c = false) (front tail : List Char) :
    dropBlankEnd (front ++ c :: tail) = front ++ c :: dropBlankEnd tail := by
  unfold dropBlankEnd
  rw [List.reverse_append, List.reverse_cons, dropBlank_append (by simp) hc,
    dropBlank_append_inked (startsInked_cons hc [])]
  simp

theorem mem_of_mem_dropBlank (h : c ∈ dropBlank cs) : c ∈ cs :=
  (List.dropWhile_sublist isBlank).subset h

theorem mem_of_mem_dropBlankEnd (h : c ∈ dropBlankEnd cs) : c ∈ cs :=
  List.mem_reverse.mp (mem_of_mem_dropBlank (List.mem_reverse.mp h))

theorem mem_of_mem_trimChars (h : c ∈ trimChars cs) : c ∈ cs :=
  mem_of_mem_dropBlank (mem_of_mem_dropBlankEnd h)

theorem toList_trim (s : String) : (trim s).toList = trimChars s.toList := String.toList_ofList

end Text

end SmellWatch
