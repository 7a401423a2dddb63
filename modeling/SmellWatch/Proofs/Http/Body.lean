import SmellWatch.Proofs.Text.Lossy
import SmellWatch.RemoteService
/-! The text of a body, wherever its pieces end.

Pieces are counted as they come, but what is kept are the first bytes of all of them together
(`readCapped_eq`), and they are decoded when no more of them come.  So the text of a failure depends
on the bytes of its body only (`cappedText_by_bytes`), and so does all that a service makes of a
reply (`RemoteService.findings_replied_congr`). -/

namespace SmellWatch

namespace Http

variable {read : List UInt8} {pieces pieces' : List (List UInt8)}

/-- The first bytes of all pieces are kept, behind those that were read before. -/
theorem readCapped_eq (h : read.length ≤ bodyLimit) (pieces : List (List UInt8)) :
    readCapped read pieces = ((read ++ pieces.flatten).take bodyLimit,
      decide (bodyLimit < (read ++ pieces.flatten).length)) := by
  induction pieces generalizing read with
  | nil =>
    rw [List.flatten_nil, List.append_nil, List.take_of_length_le h,
      decide_eq_false (Nat.not_lt.mpr h)]
    rfl
  | cons piece rest ih =>
    rw [List.flatten_cons, ← List.append_assoc, readCapped]
    by_cases hfull : bodyLimit < (read ++ piece).length
    · -- what comes later is behind the limit
      have hmore : bodyLimit < (read ++ piece ++ rest.flatten).length := by
        rw [List.length_append]
        omega
      rw [if_pos hfull, decide_eq_true hmore, List.take_append_of_le_length (Nat.le_of_lt hfull)]
    · rw [if_neg hfull]
      exact ih (Nat.le_of_not_lt hfull)

theorem cappedText_eq (pieces : List (List UInt8)) :
    cappedText pieces = if pieces.flatten.length ≤ bodyLimit then Text.decodeLossy pieces.flatten
      else Text.decodeLossy (pieces.flatten.take bodyLimit) ++ truncationMark := by
  unfold cappedText
  rw [readCapped_eq (Nat.zero_le _), List.nil_append]
  dsimp only
  by_cases hlimit : pieces.flatten.length ≤ bodyLimit
  · rw [if_pos hlimit, List.take_of_length_le hlimit, decide_eq_false (Nat.not_lt.mpr hlimit)]
    exact String.append_empty
  · rw [if_neg hlimit, decide_eq_true (Nat.lt_of_not_le hlimit)]
    rfl

theorem cappedText_congr (h : pieces.flatten = pieces'.flatten) :
    cappedText pieces = cappedText pieces' := by
  rw [cappedText_eq, cappedText_eq, h]

/-- The text of a body in pieces is that of all its bytes if they are within the limit, and else
that of the first ones with the mark behind it.  The text of bytes is what they are read as, with a
replacement for what is no character, such as one that the limit cut. -/
theorem cappedText_by_bytes (pieces : List (List UInt8)) :
    (cappedText pieces = if pieces.flatten.length ≤ bodyLimit then Text.decodeLossy pieces.flatten
      else Text.decodeLossy (pieces.flatten.take bodyLimit) ++ truncationMark) ∧
    ∀ bytes cs, (Text.decodeLossy bytes).toList = cs ↔ Text.Reads bytes cs :=
  ⟨cappedText_eq pieces, fun _ _ => Text.toList_decodeLossy_eq_iff⟩

example : cappedText [[0xC3], [], [0xA9, 0xE2, 0x82]] = "é\uFFFD" := by decide +kernel

end Http

/-- What a service makes of a reply does not depend on where the pieces of its body end. -/
theorem RemoteService.findings_replied_congr (s : RemoteService) (r : Http.Reply)
    {pieces : List (List UInt8)} (h : pieces.flatten = r.pieces.flatten) :
    s.findings (.replied { r with pieces }) = s.findings (.replied r) := by
  have hcapped : Http.cappedText pieces = Http.cappedText r.pieces := Http.cappedText_congr h
  have htext : Http.text pieces = Http.text r.pieces := congrArg Text.decodeLossy h
  show s.findingsIn _ = s.findingsIn r
  unfold findingsIn Http.Reply.proper
  dsimp only
  by_cases hbody : Http.hasBody r.status = true
  · rw [if_pos hbody, if_pos hbody, hcapped, htext]
  · rw [if_neg hbody, if_neg hbody]

end SmellWatch
