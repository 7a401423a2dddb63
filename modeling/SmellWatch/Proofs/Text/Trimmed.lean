import Mathlib
import SmellWatch.Proofs.Text.Blank
/-! Texts without blanks at their ends.

Trimming gives such a text (`isTrimmed_trim`), and lower case keeps one (`IsTrimmed.asciiLower`).
What `nonBlank?` lets through is one with something in it (`nonBlank?_spec`). -/

namespace SmellWatch.Text

variable {s t : String} {c : Char}

/-- No blank stands at either end. -/
def IsTrimmed (s : String) : Prop := StartsInked s.toList ∧ StartsInked s.toList.reverse

theorem isTrimmed_empty : IsTrimmed "" := ⟨nofun, nofun⟩

theorem isTrimmed_trim (s : String) : IsTrimmed (trim s) := by
  unfold IsTrimmed
  rw [toList_trim]
  refine ⟨startsInked_trimChars _, ?_⟩
  rw [trimChars, dropBlankEnd, List.reverse_reverse]
  exact startsInked_dropBlank _

/-! ## Lower case -/

theorem toList_asciiLower (s : String) : (asciiLower s).toList = s.toList.map Char.toLower :=
  String.toList_map

/-- Blanks are no letters. -/
theorem isBlank_toLower (c : Char) : isBlank c.toLower = isBlank c := by
  by_cases hc : c.isUpper = true
  · have hrange : 65 ≤ c.toNat ∧ c.toNat ≤ 90 := by
      simpa [Char.isUpper, UInt32.le_iff_toNat_le] using hc
    have hlower : c.toLower.toNat = c.toNat + 32 := by
      rw [Char.toLower_eq_of_isUpper hc, Char.toNat_ofNat, if_pos]
      exact .inl (by omega)
    unfold isBlank
    rw [hlower]
    grind
  · rw [Char.toLower_eq_of_not_isUpper hc]

theorem StartsInked.map_toLower {cs : List Char} (h : StartsInked cs) :
    StartsInked (cs.map Char.toLower) := by
  intro d r heq
  obtain ⟨c, rest, rfl, rfl, -⟩ := List.map_eq_cons_iff.mp heq
  rw [isBlank_toLower]
  exact h c rest rfl

theorem IsTrimmed.asciiLower (h : IsTrimmed s) : IsTrimmed (asciiLower s) := by
  unfold IsTrimmed
  rw [toList_asciiLower, ← List.map_reverse]
  exact ⟨h.1.map_toLower, h.2.map_toLower⟩

theorem isUpper_of_mem_asciiLower (h : c ∈ (asciiLower s).toList) : c.isUpper = false := by
  rw [toList_asciiLower] at h
  obtain ⟨d, -, rfl⟩ := List.mem_map.mp h
  exact Char.isUpper_toLower_eq_false d

/-! ## What is more than blanks -/

theorem nonBlank?_spec (h : nonBlank? s = some t) : t ≠ "" ∧ IsTrimmed t := by
  unfold nonBlank? at h
  dsimp only at h
  split at h
  · cases h
  · rename_i hne
    obtain rfl := Option.some.inj h
    refine ⟨fun heq => hne ?_, isTrimmed_trim s⟩
    rw [heq]
    rfl

theorem nonBlank?_eq_none_iff : nonBlank? s = none ↔ ∀ c ∈ s.toList, isBlank c = true := by
  have hempty : (trim s).isEmpty = true ↔ trimChars s.toList = [] := by
    rw [String.isEmpty_iff, ← toList_trim, String.toList_eq_nil_iff]
  unfold nonBlank?
  dsimp only
  constructor
  · intro h c hin
    by_contra hc
    split at h
    · rename_i htrim
      exact trimChars_ne_nil hin (Bool.not_eq_true _ ▸ hc) (hempty.mp htrim)
    · cases h
  · intro h
    have hnothing : dropBlank s.toList = [] := List.dropWhile_eq_nil_iff.mpr h
    rw [if_pos (hempty.mpr (by rw [trimChars, hnothing]; rfl))]

end SmellWatch.Text
