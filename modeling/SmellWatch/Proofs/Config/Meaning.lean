import SmellWatch.Config.Json
import SmellWatch.Proofs.Decimal.Text
import SmellWatch.Proofs.Json.Quote
import SmellWatch.Proofs.Text.Utf8
/-! What the bytes say that the fingerprint of the settings is taken of.

The text of these bytes is a record of the service, its model and address, the hints and the
least confidence, in this order.  Every one of them can be told from the bytes: the
quotations because they end where they say, and the number because different numbers have
different texts (`eq_of_meaningBytes`). -/

namespace SmellWatch

open Decimal

variable {x y : Single}

/-! ## Texts of numbers -/

theorem isReadable_singleStyle : singleStyle.IsReadable := .inr rfl

/-- Numbers are told apart by their texts in a record. -/
theorem Json.eq_of_compact_ofSingle (hx : x.isFinite = true) (hy : y.isFinite = true)
    (h : (Json.ofSingle x).compact = (Json.ofSingle y).compact) : x = y := by
  have htext : ∀ z : Single, z.isFinite = true →
      (Json.ofSingle z).compact = singleStyle.writeBits .single z.bits.toNat := by
    intro z hz
    unfold Json.ofSingle
    rw [if_pos hz, Json.compact, Json.numberText, if_pos hz]
  have hlt : ∀ z : Single, z.bits.toNat < 2 * Format.single.signBit := fun z => z.bits.toNat_lt
  rw [htext x hx, htext y hy] at h
  have hbits := eq_of_writeBits isReadable_singleStyle isNarrow_single (hlt x) (hlt y) h
  cases x
  cases y
  exact congrArg _ (UInt32.toNat_inj.mp hbits)

/-! ## The record -/

namespace Config

variable {c d : Config}

/-- The text of the record: one quotation after the other, and the number. -/
theorem toList_compact_meaning (c : Config) :
    c.meaning.compact.toList =
      "\x7b\"provider\":".toList ++ ((Json.quote c.provider.kind.name).toList ++
        (",\"model\":".toList ++ ((Json.quote c.provider.resolvedModel).toList ++
          (",\"base_url\":".toList ++ ((Json.quote c.provider.resolvedBaseUrl).toList ++
            (",\"rules\":[".toList ++
              ((Json.compactItems (c.analysis.rules.map .string)).toList ++
                ']' :: (",\"min_confidence\":".toList ++
                  ((Json.ofSingle c.analysis.minConfidence).compact.toList ++ ['\x7d']))))))))) := by
  unfold meaning Json.strings
  simp only [Json.compact, Json.compactFields, String.toList_append, List.append_assoc]
  rfl

/-- Settings with the same bytes mean the same. -/
theorem eq_of_meaningBytes (hc : c.analysis.minConfidence.isFinite = true)
    (hd : d.analysis.minConfidence.isFinite = true) (h : c.meaningBytes = d.meaningBytes) :
    c.provider.kind = d.provider.kind ∧
      c.provider.resolvedModel = d.provider.resolvedModel ∧
      c.provider.resolvedBaseUrl = d.provider.resolvedBaseUrl ∧
      c.analysis.rules = d.analysis.rules ∧
      c.analysis.minConfidence = d.analysis.minConfidence := by
  have htext := congrArg String.toList (Text.eq_of_encode h)
  rw [toList_compact_meaning, toList_compact_meaning] at htext
  obtain ⟨hkind, hrest⟩ := Json.quote_append_inj (List.append_cancel_left htext)
  obtain ⟨hmodel, hrest⟩ := Json.quote_append_inj (List.append_cancel_left hrest)
  obtain ⟨hurl, hrest⟩ := Json.quote_append_inj (List.append_cancel_left hrest)
  obtain ⟨hrules, hrest⟩ := Json.compactItems_append_inj (List.append_cancel_left hrest)
  have hnumber := List.append_cancel_right (List.append_cancel_left hrest)
  refine ⟨?_, hmodel, hurl, hrules, ?_⟩
  · have hname := congrArg Provider.ofName? hkind
    rw [Provider.ofName?_name, Provider.ofName?_name] at hname
    exact Option.some.inj hname
  · exact Json.eq_of_compact_ofSingle hc hd (String.toList_inj.mp hnumber)

end Config

end SmellWatch
