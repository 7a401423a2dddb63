import Mathlib.Data.List.Permutation
import SmellWatch.Editor.Frame
import SmellWatch.Proofs.Decimal.Text
import SmellWatch.Proofs.Text.Blank
import SmellWatch.Proofs.Text.Utf8
/-! Frames, read back.

Every frame that is read takes a byte at least off its stream, so reading a stream is reading
one frame after the other (`readAll_of_found`), in whatever pieces its bytes come
(`read_followed`).  A stream that starts with the frame of a value
is read as the value and what comes after the frame (`Fits.read_frame`), and a frame that the end
of the stream cuts off is an error wherever the cut is (`exists_failed_of_cut`).  So what was
written is read back (`readAll_stream`), and from a stream that was cut off the values whose
frames are complete (`readAll_of_prefix`). -/

namespace SmellWatch

namespace Frame

open Decimal

variable {closed begun : Bool} {line bytes rest p : List UInt8} {length : Option Nat} {n : Nat}
  {v : Json} {values : List Json}

/-! ## One frame after the other -/

theorem length_le_of_takeHeaders {x : Option Nat}
    (h : takeHeaders closed line length begun bytes = .found x rest) :
    rest.length ≤ bytes.length := by
  induction bytes generalizing line length begun with
  | nil =>
    unfold takeHeaders at h
    split at h
    · cases h
    · split at h
      · split at h <;> cases h
      · split at h <;> cases h
        exact Nat.le_refl _
  | cons b r ih =>
    unfold takeHeaders at h
    refine Nat.le_succ_of_le ?_
    split at h
    · split at h
      · cases h
      · cases h
        exact Nat.le_refl _
      · exact ih h
      · exact ih h
    · exact ih h

/-- A frame that is read takes a byte at least. -/
theorem length_lt_of_read (h : read closed bytes = .found v rest) :
    rest.length < bytes.length := by
  cases bytes with
  | nil =>
    unfold read takeHeaders at h
    cases closed <;> cases h
  | cons b r =>
    unfold read at h
    split at h
    any_goals cases h
    rename_i n left hheaders
    have hleft : left.length ≤ r.length := by
      unfold takeHeaders at hheaders
      split at hheaders
      · split at hheaders
        · cases hheaders
        · cases hheaders
        · exact length_le_of_takeHeaders hheaders
        · exact length_le_of_takeHeaders hheaders
      · exact length_le_of_takeHeaders hheaders
    unfold takeBody at h
    dsimp only at h
    split at h
    · cases h
    · split at h
      · split at h <;> cases h
      · split at h <;> cases h
        rw [List.length_drop, List.length_cons]
        omega

/-- More fuel than bytes makes no difference. -/
theorem readAllFor_eq {fuel : Nat} (h : bytes.length < fuel) :
    readAllFor fuel bytes = readAll bytes := by
  have hsame : ∀ (k m : Nat) (l : List UInt8), l.length < k → l.length < m →
      readAllFor k l = readAllFor m l := by
    intro k
    induction k with
    | zero => exact fun m l hk _ => absurd hk (Nat.not_lt_zero _)
    | succ k ih =>
      intro m l hk hm
      obtain ⟨m, rfl⟩ := Nat.exists_eq_succ_of_ne_zero (Nat.ne_zero_of_lt hm)
      unfold readAllFor
      cases hread : read true l with
      | found v rest =>
        have hlt := length_lt_of_read hread
        dsimp only
        rw [ih m rest (by omega) (by omega)]
      | wait => rfl
      | stop => rfl
      | failed e => rfl
  exact hsame _ _ _ h (Nat.lt_succ_self _)

theorem readAll_of_found (h : read true bytes = .found v rest) :
    readAll bytes = (v :: (readAll rest).1, (readAll rest).2) := by
  unfold readAll
  rw [readAllFor, h]
  dsimp only
  rw [readAllFor_eq (length_lt_of_read h)]
  rfl

theorem readAll_of_stop (h : read true bytes = .stop) : readAll bytes = ([], none) := by
  unfold readAll
  rw [readAllFor, h]

theorem readAll_of_failed {e : FrameError} (h : read true bytes = .failed e) :
    readAll bytes = ([], some e) := by
  unfold readAll
  rw [readAllFor, h]

/-! ## Bytes that come in pieces -/

/-- What is taken off a stream if more bytes come behind it. -/
def Taken.followedBy {α : Type} (more : List UInt8) : Taken α → Taken α
  | .found value rest => .found value (rest ++ more)
  | .wait => .wait
  | .stop => .stop
  | .failed e => .failed e

theorem Taken.followedBy_nil {α : Type} (t : Taken α) : t.followedBy [] = t := by
  cases t with
  | found value rest => exact congrArg (Taken.found value) (List.append_nil rest)
  | wait => rfl
  | stop => rfl
  | failed e => rfl

theorem takeHeaders_followed (h : takeHeaders false line length begun bytes ≠ .wait)
    (closed : Bool) (more : List UInt8) :
    takeHeaders closed line length begun (bytes ++ more) =
      (takeHeaders false line length begun bytes).followedBy more := by
  induction bytes generalizing line length begun with
  | nil => exact absurd rfl h
  | cons b r ih =>
    rw [List.cons_append, takeHeaders, takeHeaders]
    rw [takeHeaders] at h
    by_cases hb : b = 10
    · rw [if_pos hb] at h ⊢
      rw [if_pos hb]
      cases hline : readLine (b :: line).reverse with
      | error e => rfl
      | ok l =>
        rw [hline] at h
        cases l with
        | blank => rfl
        | length n => exact ih h
        | other => exact ih h
    · rw [if_neg hb] at h ⊢
      rw [if_neg hb]
      exact ih h

theorem takeBody_followed (h : takeBody false n bytes ≠ .wait) (closed : Bool)
    (more : List UInt8) :
    takeBody closed n (bytes ++ more) = (takeBody false n bytes).followedBy more := by
  unfold takeBody at h ⊢
  by_cases hlimit : bodyLimit < n
  · rw [if_pos hlimit, if_pos hlimit]
    rfl
  rw [if_neg hlimit] at h
  rw [if_neg hlimit, if_neg hlimit]
  dsimp only at h ⊢
  by_cases hshort : (bytes.take n).length < n
  · rw [if_pos hshort] at h
    exact absurd rfl h
  have hle : n ≤ bytes.length := by
    rw [List.length_take] at hshort
    omega
  rw [List.take_append_of_le_length hle, List.drop_append_of_le_length hle, if_neg hshort,
    if_neg hshort]
  cases readBody? (bytes.take n) <;> rfl

theorem takeHeaders_closed_ne_wait : takeHeaders true line length begun bytes ≠ .wait := by
  induction bytes generalizing line length begun with
  | nil =>
    unfold takeHeaders
    rw [if_neg (by decide)]
    split
    · split <;> exact nofun
    · split <;> exact nofun
  | cons b r ih =>
    unfold takeHeaders
    split
    · split
      · exact nofun
      · exact nofun
      · exact ih
      · exact ih
    · exact ih

/-- At the end of a stream nothing more is waited for. -/
theorem read_closed_ne_wait : read true bytes ≠ .wait := by
  unfold read
  split
  · rename_i hwait
    exact absurd hwait takeHeaders_closed_ne_wait
  · exact nofun
  · exact nofun
  · exact nofun
  · unfold takeBody
    split
    · exact nofun
    · dsimp only
      split
      · exact nofun
      · split <;> exact nofun

/-- What is read while the stream is open is read of the whole stream. -/
theorem read_followed (h : read closed bytes ≠ .wait) (more : List UInt8)
    (hmore : closed = true → more = []) :
    read true (bytes ++ more) = (read closed bytes).followedBy more := by
  cases closed with
  | true => rw [hmore rfl, List.append_nil, Taken.followedBy_nil]
  | false =>
    unfold read at h ⊢
    have hheaders : takeHeaders false [] none false bytes ≠ .wait := by
      intro hwait
      rw [hwait] at h
      exact h rfl
    rw [takeHeaders_followed hheaders]
    cases htaken : takeHeaders false [] none false bytes with
    | found length rest =>
      rw [htaken] at h
      cases length with
      | none => rfl
      | some n => exact takeBody_followed h true more
    | wait => rfl
    | stop => rfl
    | failed e => rfl

/-! ## Header lines -/

/-- Bytes without a line end go on with the line. -/
theorem takeHeaders_append (h : 10 ∉ bytes) (rest : List UInt8) :
    takeHeaders closed line length begun (bytes ++ rest) =
      takeHeaders closed (bytes.reverse ++ line) length begun rest := by
  induction bytes generalizing line with
  | nil => rfl
  | cons b r ih =>
    have hb : b ≠ 10 := fun heq => h (heq ▸ List.mem_cons_self)
    rw [List.cons_append, takeHeaders, if_neg hb, ih fun hin => h (List.mem_cons_of_mem _ hin),
      List.reverse_cons, List.append_assoc]
    rfl

/-- The header that says how long a body is, without its line end. -/
def lengthText (n : Nat) : String := s!"Content-Length: {n}\r"

theorem toList_lengthText (n : Nat) :
    (lengthText n).toList =
      "Content-Length".toList ++ ':' :: ' ' :: (Nat.toDigits 10 n ++ ['\r']) := by
  show ("Content-Length: " ++ toString n ++ "\r").toList = _
  rw [String.toList_append, String.toList_append, toList_toString, List.append_assoc]
  rfl

/-- A digit is not blank. -/
theorem isBlank_of_isDigit {c : Char} (h : c.isDigit = true) : Text.isBlank c = false := by
  have hrange : 48 ≤ c.toNat ∧ c.toNat ≤ 57 := by
    unfold Char.isDigit at h
    rw [Bool.and_eq_true, decide_eq_true_iff, decide_eq_true_iff] at h
    exact h
  unfold Text.isBlank
  simp only [Bool.or_eq_false_iff, Bool.and_eq_false_iff, decide_eq_false_iff_not,
    beq_eq_false_iff_ne, ne_eq]
  omega

theorem startsInked_of_areDigits {cs : List Char} (h : AreDigits cs) : Text.StartsInked cs :=
  fun _ _ hcs => isBlank_of_isDigit (h _ (hcs ▸ List.mem_cons_self))

theorem areDigits_reverse {cs : List Char} (h : AreDigits cs) : AreDigits cs.reverse :=
  fun c hc => h c (List.mem_reverse.mp hc)

/-- The name of the header, whatever case it is written in. -/
theorem eqIgnoringAsciiCase_contentLength :
    Text.eqIgnoringAsciiCase "Content-Length" "content-length" = true := by
  unfold Text.eqIgnoringAsciiCase Text.asciiLower
  rw [beq_iff_eq, ← String.toList_inj, String.toList_map, String.toList_map]
  decide

theorem naturalBelow?_toDigits {bound : Nat} (h : n < bound) :
    naturalBelow? bound (String.ofList (Nat.toDigits 10 n)) = some n := by
  have hdigits := areDigits_toDigits n
  unfold naturalBelow?
  rw [String.toList_ofList]
  split
  · rename_i hplus
    exact absurd (hdigits '+' (hplus ▸ List.mem_cons_self)) (by decide)
  · dsimp only
    rw [List.all_eq_true.mpr hdigits, digitsValue_toDigits, if_pos h, if_neg (by simp)]

theorem nameValue?_lengthText (n : Nat) :
    nameValue? ("Content-Length".toList ++ ':' :: ' ' :: Nat.toDigits 10 n) =
      some ("Content-Length", String.ofList (Nat.toDigits 10 n)) := by
  have hname : ∀ c ∈ "Content-Length".toList, decide (c ≠ ':') = true :=
    List.all_eq_true.mp (by decide)
  have hdigits := areDigits_toDigits n
  have htrim : Text.trim (String.ofList (' ' :: Nat.toDigits 10 n)) =
      String.ofList (Nat.toDigits 10 n) := by
    unfold Text.trim
    rw [String.toList_ofList]
    have hparts : Text.trimChars ([' '] ++ (Nat.toDigits 10 n ++ [])) = Nat.toDigits 10 n :=
      Text.trimChars_of_parts (by decide) (by decide) (startsInked_of_areDigits hdigits)
        (startsInked_of_areDigits (areDigits_reverse hdigits))
    rw [List.append_nil] at hparts
    exact congrArg String.ofList hparts
  unfold nameValue?
  rw [List.dropWhile_append_of_pos hname, List.takeWhile_append_of_pos hname,
    List.dropWhile_cons_of_neg (by decide), List.takeWhile_cons_of_neg (by decide),
    List.append_nil]
  dsimp only
  rw [htrim, show Text.trim (String.ofList "Content-Length".toList) = "Content-Length" by decide]

/-- The header says how long the body is. -/
theorem readLine_lengthText (h : n < Nat.pow 2 64) :
    readLine (Text.encode (lengthText n) ++ [10]) = .ok (.length n) := by
  have hbytes : Text.encode (lengthText n) ++ [10] = Text.encode (lengthText n ++ "\n") := by
    rw [Text.encode_append, Text.encode_eq_flatMap "\n"]
    congr 1
  have htrim : Text.trim (lengthText n ++ "\n") =
      String.ofList ("Content-Length".toList ++ ':' :: ' ' :: Nat.toDigits 10 n) := by
    have hinked : Text.StartsInked
        ("Content-Length".toList ++ ':' :: ' ' :: Nat.toDigits 10 n).reverse := by
      rw [List.reverse_append, List.reverse_cons, List.reverse_cons, List.append_assoc,
        List.append_assoc]
      exact (startsInked_of_areDigits (areDigits_reverse (areDigits_toDigits n))).append
        (by simp) _
    have hparts : Text.trimChars ([] ++ (("Content-Length".toList ++ ':' :: ' ' ::
        Nat.toDigits 10 n) ++ ['\r', '\n'])) = _ :=
      Text.trimChars_of_parts (by decide) (by decide) (fun c r hcs => by cases hcs; decide) hinked
    unfold Text.trim
    rw [String.toList_append, toList_lengthText, ← hparts]
    simp
  unfold readLine
  rw [hbytes, Text.decode?_encode]
  dsimp only
  rw [htrim, if_neg (by simp), String.toList_ofList, nameValue?_lengthText]
  dsimp only
  rw [if_pos eqIgnoringAsciiCase_contentLength, naturalBelow?_toDigits h]

/-- The empty line ends the headers. -/
theorem readLine_empty : readLine [13, 10] = .ok .blank := by
  decide +kernel

theorem readLine_cutEmpty : readLine [13] = .ok .blank := by
  decide +kernel

theorem not_mem_encode_lengthText (n : Nat) : 10 ∉ Text.encode (lengthText n) := by
  refine Text.not_mem_encode ?_
  rw [toList_lengthText]
  intro hin
  have hdigit : '\n' ∈ Nat.toDigits 10 n := by simpa using hin
  exact absurd (areDigits_toDigits n _ hdigit) (by decide)

theorem takeHeaders_lengthText (h : n < Nat.pow 2 64) (rest : List UInt8) :
    takeHeaders closed [] length begun (Text.encode (lengthText n) ++ 10 :: rest) =
      takeHeaders closed [] (some n) true rest := by
  rw [takeHeaders_append (not_mem_encode_lengthText n), takeHeaders, if_pos rfl, List.append_nil,
    List.reverse_cons, List.reverse_reverse, readLine_lengthText h]

theorem takeHeaders_empty (rest : List UInt8) :
    takeHeaders closed [] length begun (13 :: 10 :: rest) = .found length rest := by
  rw [takeHeaders, if_neg (by decide), takeHeaders, if_pos rfl,
    show [10, 13].reverse = [(13 : UInt8), 10] from rfl, readLine_empty]

/-! ## Frames -/

/-- The bytes of the frames of some values. -/
def stream (values : List Json) : List UInt8 := Text.encode (writeAll values)

theorem stream_nil : stream [] = [] := by
  unfold stream
  rw [Text.encode_eq_flatMap]
  rfl

theorem stream_cons (v : Json) (values : List Json) :
    stream (v :: values) = Text.encode (write v) ++ stream values := by
  unfold stream writeAll
  rw [List.map_cons, String.join_cons, Text.encode_append]

theorem encode_write (v : Json) :
    Text.encode (write v) = Text.encode (lengthText v.compact.utf8ByteSize) ++
      10 :: 13 :: 10 :: Text.encode v.compact := by
  have hends : Text.encode "\n\r\n" = [10, 13, 10] := by
    rw [Text.encode_eq_flatMap]
    decide
  have hwrite : write v = lengthText v.compact.utf8ByteSize ++ "\n\r\n" ++ v.compact := by
    unfold write lengthText
    rw [← String.toList_inj]
    simp only [String.toList_append, List.append_assoc]
    rfl
  rw [hwrite, Text.encode_append, Text.encode_append, hends, List.append_assoc]
  rfl

/-- The headers of a frame give the length of the body. -/
theorem takeHeaders_write (h : v.compact.utf8ByteSize < Nat.pow 2 64) (rest : List UInt8) :
    takeHeaders closed [] none false (Text.encode (write v) ++ rest) =
      .found (some v.compact.utf8ByteSize) (Text.encode v.compact ++ rest) := by
  rw [encode_write, List.append_assoc]
  exact (takeHeaders_lengthText h _).trans (takeHeaders_empty _)

/-- A frame at the front of a stream is read as what its body is read as. -/
theorem read_write (h : v.compact.utf8ByteSize ≤ bodyLimit) (rest : List UInt8) :
    read closed (Text.encode (write v) ++ rest) =
      match Json.parse? v.compact with
      | some w => .found w rest
      | none => .failed .badBody := by
  have hlength := Text.length_encode v.compact
  have hbody : readBody? (Text.encode v.compact) = Json.parse? v.compact := by
    unfold readBody?
    rw [Text.decode?_encode, Option.bind_some]
  unfold read
  rw [takeHeaders_write (Nat.lt_of_le_of_lt h (by decide))]
  unfold takeBody
  dsimp only
  rw [if_neg (Nat.not_lt.mpr h), List.take_left' hlength, List.drop_left' hlength,
    if_neg (Nat.not_lt.mpr hlength.ge)]
  exact congrArg (fun x => match x with
    | some w => Taken.found w rest
    | none => .failed .badBody) hbody

/-- A value that is read back from its text, which is no longer than a body may be. -/
structure Fits (v : Json) : Prop where
  readable : Json.parse? v.compact = some v
  length_le : v.compact.utf8ByteSize ≤ bodyLimit

namespace Fits

/-- It is read back from its frame. -/
theorem read_frame (h : Fits v) (rest : List UInt8) :
    read closed (Text.encode (write v) ++ rest) = .found v rest := by
  rw [read_write h.length_le, h.readable]

end Fits

/-- What was written is read back, value by value, to the end. -/
theorem readAll_stream (h : ∀ v ∈ values, Fits v) : readAll (stream values) = (values, none) := by
  induction values with
  | nil =>
    rw [stream_nil]
    rfl
  | cons v values ih =>
    rw [stream_cons, readAll_of_found ((h v List.mem_cons_self).read_frame _),
      ih fun w hw => h w (List.mem_cons_of_mem _ hw)]

/-- Two values; the text of the first one looks like a header. -/
def greetings : List Json :=
  [.string "Content-Length: 5\r\n\r\né", .object [("id", .null), ("of", .array [.string "😀"])]]

theorem fits_greetings : ∀ v ∈ greetings, Fits v := by
  intro v hv
  rcases List.mem_cons.mp hv with rfl | hv
  · exact ⟨by cbv, by decide +kernel⟩
  · cases List.mem_singleton.mp hv
    exact ⟨by cbv, by decide +kernel⟩

theorem readAll_stream_greetings :
    (∀ v ∈ greetings, Fits v) ∧ readAll (stream greetings) = (greetings, none) :=
  ⟨fits_greetings, readAll_stream fits_greetings⟩

/-! ## Cut frames -/

/-- What is cut within the first header line does not look like an empty line. -/
theorem readLine_ne_blank (hp : p <+: Text.encode (lengthText n)) (hne : p ≠ []) :
    readLine p ≠ .ok .blank := by
  have hletter : Text.encode "C" = [67] := by
    rw [Text.encode_eq_flatMap]
    decide
  have hfirst : ∃ more, Text.encode (lengthText n) = 67 :: more := by
    rw [Text.encode_eq_flatMap, toList_lengthText]
    exact ⟨_, rfl⟩
  obtain ⟨r, hr⟩ : ∃ r, p = Text.encode "C" ++ r := by
    obtain ⟨more, hmore⟩ := hfirst
    obtain ⟨b, r, rfl⟩ := List.exists_cons_of_ne_nil hne
    rw [hmore, List.cons_prefix_cons] at hp
    exact ⟨r, by rw [hletter, hp.1]; rfl⟩
  unfold readLine
  rw [hr]
  split
  · exact fun h => by cases h
  · rename_i text htext
    have hink : Text.trim text ≠ "" := by
      intro hnil
      have hin : 'C' ∈ text.toList := (Text.prefix_of_decode? htext).subset (by decide)
      refine Text.trimChars_ne_nil hin (by decide) ?_
      rw [← Text.toList_trim, hnil]
      rfl
    dsimp only
    rw [if_neg (by simpa using hink)]
    split
    · exact fun h => by cases h
    · split
      · split <;> exact fun h => by cases h
      · exact fun h => by cases h

theorem takeHeaders_cut (hp : p <+: Text.encode (lengthText n)) (hne : p ≠ []) :
    ∃ e, takeHeaders true [] none false p = .failed e := by
  have hplain : 10 ∉ p := fun hin => not_mem_encode_lengthText n (hp.subset hin)
  have hline : takeHeaders true [] none false (p ++ []) = _ := takeHeaders_append hplain []
  rw [List.append_nil, List.append_nil] at hline
  rw [hline, takeHeaders, if_neg (by decide), if_neg (by simpa using hne), List.reverse_reverse]
  split
  · exact ⟨_, rfl⟩
  · rename_i hblank
    exact absurd hblank (readLine_ne_blank hp hne)
  · exact ⟨_, rfl⟩

theorem takeBody_cut (h : bytes.length < n) : ∃ e, takeBody true n bytes = .failed e := by
  unfold takeBody
  split
  · exact ⟨_, rfl⟩
  · dsimp only
    rw [if_pos (by rw [List.length_take]; omega), if_pos rfl]
    exact ⟨_, rfl⟩

/-- Headers that are cut off are an error, unless only the end of the empty line is missing. -/
theorem takeHeaders_cutHead (h : n < Nat.pow 2 64)
    (hp : p <+: Text.encode (lengthText n) ++ [10, 13, 10]) (hne : p ≠ []) :
    (∃ e, takeHeaders true [] none false p = .failed e) ∨
      takeHeaders true [] none false p = .found (some n) [] := by
  rcases List.prefix_or_prefix_of_prefix hp (List.prefix_append _ _) with hline | ⟨q, rfl⟩
  · exact .inl (takeHeaders_cut hline hne)
  rw [List.prefix_append_right_inj] at hp
  have hends : q = [] ∨ q = [10] ∨ q = [10, 13] ∨ q = [10, 13, 10] := by
    rw [← List.mem_inits] at hp
    simpa using hp
  rcases hends with rfl | rfl | rfl | rfl
  · exact .inl (takeHeaders_cut (by rw [List.append_nil]) hne)
  · rw [takeHeaders_lengthText h]
    exact .inl ⟨_, rfl⟩
  · -- a carriage return that nothing follows is read as an empty line
    rw [takeHeaders_lengthText h, takeHeaders, if_neg (by decide), takeHeaders,
      if_neg (by decide), if_neg (by decide), List.reverse_singleton, readLine_cutEmpty]
    exact .inr rfl
  · rw [takeHeaders_lengthText h, takeHeaders_empty]
    exact .inr rfl

/-- Nothing is no body, whatever length is expected. -/
theorem takeBody_nil (n : Nat) : ∃ e, takeBody true n [] = .failed e := by
  cases n with
  | zero =>
    have hempty : readBody? [] = none := by decide +kernel
    exact ⟨.badBody, by simp [takeBody, hempty]⟩
  | succ n => exact takeBody_cut (Nat.succ_pos n)

/-- A frame that is cut off anywhere is an error. -/
theorem exists_failed_of_cut (h : v.compact.utf8ByteSize ≤ bodyLimit)
    (hp : p <+: Text.encode (write v)) (hne : p ≠ []) (hcut : p ≠ Text.encode (write v)) :
    ∃ e, read true p = .failed e := by
  have hlength : v.compact.utf8ByteSize < Nat.pow 2 64 := Nat.lt_of_le_of_lt h (by decide)
  have hframe : Text.encode (write v) = (Text.encode (lengthText v.compact.utf8ByteSize) ++
      [10, 13, 10]) ++ Text.encode v.compact := by
    rw [encode_write, List.append_assoc]
    rfl
  rw [hframe] at hp hcut
  unfold read
  rcases List.prefix_or_prefix_of_prefix hp (List.prefix_append _ _) with hhead | ⟨q, rfl⟩
  · rcases takeHeaders_cutHead hlength hhead hne with ⟨e, he⟩ | hfound
    · rw [he]
      exact ⟨e, rfl⟩
    · rw [hfound]
      exact takeBody_nil _
  · rw [List.prefix_append_right_inj] at hp
    have hshort : q.length < v.compact.utf8ByteSize := by
      rw [← Text.length_encode]
      exact Nat.lt_of_le_of_ne hp.length_le fun heq => hcut (by rw [hp.eq_of_length heq])
    rw [List.append_assoc, show [10, 13, 10] ++ q = 10 :: 13 :: 10 :: q from rfl,
      takeHeaders_lengthText hlength, takeHeaders_empty]
    exact takeBody_cut hshort

/-! ## Cut streams -/

/-- From a frame that is cut off nothing is read, and it is the end of a stream only if nothing of
it is left. -/
theorem readAll_of_cut (h : v.compact.utf8ByteSize ≤ bodyLimit) (hp : p <+: Text.encode (write v))
    (hcut : p ≠ Text.encode (write v)) :
    (readAll p).1 = [] ∧ ((readAll p).2 = none ↔ p = []) := by
  by_cases hempty : p = []
  · subst hempty
    exact ⟨rfl, iff_of_true rfl rfl⟩
  · obtain ⟨e, he⟩ := exists_failed_of_cut h hp hempty hcut
    rw [readAll_of_failed he]
    exact ⟨rfl, iff_of_false (Option.some_ne_none e) hempty⟩

/-- Behind the first frame, the frames are complete that are complete without it. -/
theorem take_succ_prefix_iff {k : Nat} :
    stream ((v :: values).take (k + 1)) <+: Text.encode (write v) ++ p ↔
      stream (values.take k) <+: p := by
  rw [List.take_succ_cons, stream_cons, List.prefix_append_right_inj]

/-- If the first frame is cut off, no frame is complete. -/
theorem take_prefix_iff_of_cut (h : ¬ Text.encode (write v) <+: p) {k : Nat} :
    stream ((v :: values).take k) <+: p ↔ k ≤ 0 := by
  cases k with
  | zero => exact iff_of_true (stream_nil ▸ List.nil_prefix) (Nat.le_refl _)
  | succ k =>
    rw [List.take_succ_cons, stream_cons]
    exact iff_of_false (fun hprefix => h ((List.prefix_append _ _).trans hprefix))
      (Nat.not_succ_le_zero k)

/-- A complete frame at the front of a stream is read if its body is read back. -/
theorem readAll_of_frame (h : v.compact.utf8ByteSize ≤ bodyLimit)
    (hv : Json.parse? v.compact = some v) (p : List UInt8) :
    readAll (Text.encode (write v) ++ p) = (v :: (readAll p).1, (readAll p).2) :=
  readAll_of_found (Fits.read_frame ⟨hv, h⟩ p)

/-- It is where the stream cannot be read any further if its body is no JSON for the reader. -/
theorem readAll_of_badFrame (h : v.compact.utf8ByteSize ≤ bodyLimit)
    (hv : Json.parse? v.compact = none) (p : List UInt8) :
    readAll (Text.encode (write v) ++ p) = ([], some .badBody) := by
  refine readAll_of_failed ?_
  rw [read_write h, hv]

/-- A stream that begins with a frame is cut between two frames if the rest of it is. -/
theorem cut_between_iff :
    (∃ j ≤ (v :: values).length,
      Text.encode (write v) ++ p = stream ((v :: values).take j)) ↔
      ∃ j ≤ values.length, p = stream (values.take j) := by
  constructor
  · rintro ⟨j, hj, hp⟩
    cases j with
    | zero => exact absurd (stream_nil ▸ hp) (by rw [encode_write]; simp)
    | succ j =>
      rw [List.take_succ_cons, stream_cons] at hp
      exact ⟨j, Nat.le_of_succ_le_succ hj, List.append_cancel_left hp⟩
  · rintro ⟨j, hj, rfl⟩
    exact ⟨j + 1, Nat.succ_le_succ hj, by rw [List.take_succ_cons, stream_cons]⟩

/-- A stream that is cut off has a number of complete frames at its front.  If the bodies of these
frames are read back their values are read, and then the stream has ended, if the cut is between
two frames, or cannot be read any further.  If one of them is no JSON for the reader, the values in
front of it are read and the stream cannot be read any further there.  The values of the other
frames do not matter. -/
theorem readAll_of_prefix (h : ∀ v ∈ values, v.compact.utf8ByteSize ≤ bodyLimit)
    (hp : p <+: stream values) :
    ∃ k ≤ values.length, (∀ j ≤ values.length, stream (values.take j) <+: p ↔ j ≤ k) ∧
      ((∀ v ∈ values.take k, Json.parse? v.compact = some v) →
        (readAll p).1 = values.take k ∧
        ((readAll p).2 = none ↔ ∃ j ≤ values.length, p = stream (values.take j))) ∧
      ∀ i < k, (∀ v ∈ values.take i, Json.parse? v.compact = some v) →
        ∀ v, values[i]? = some v → Json.parse? v.compact = none →
          readAll p = (values.take i, some .badBody) := by
  induction values generalizing p with
  | nil =>
    rw [stream_nil, List.prefix_nil] at hp
    subst hp
    refine ⟨0, Nat.le_refl _, fun j hj => ?_, fun _ => ⟨rfl, fun _ => ⟨0, Nat.le_refl _, ?_⟩,
      fun _ => rfl⟩, fun i hi => absurd hi (Nat.not_lt_zero i)⟩
    · rw [List.take_nil, stream_nil]
      exact iff_of_true (List.prefix_refl _) hj
    · rw [List.take_nil, stream_nil]
  | cons v values ih =>
    obtain ⟨hv, hvalues⟩ := List.forall_mem_cons.mp h
    rw [stream_cons] at hp
    by_cases hwhole : Text.encode (write v) <+: p
    · -- the first frame is complete
      obtain ⟨q, rfl⟩ := hwhole
      rw [List.prefix_append_right_inj] at hp
      obtain ⟨k, hk, hcomplete, hread, hbad⟩ := ih hvalues hp
      refine ⟨k + 1, Nat.succ_le_succ hk, fun j hj => ?complete, fun hback => ?read,
        fun i hi hback w hw hnone => ?bad⟩
      case complete =>
        cases j with
        | zero => exact iff_of_true (stream_nil ▸ List.nil_prefix) (Nat.zero_le _)
        | succ j =>
          rw [take_succ_prefix_iff, hcomplete j (Nat.le_of_succ_le_succ hj), Nat.succ_le_succ_iff]
      case read =>
        rw [List.take_succ_cons, List.forall_mem_cons] at hback
        obtain ⟨htaken, hend⟩ := hread hback.2
        rw [readAll_of_frame hv hback.1, List.take_succ_cons, htaken, cut_between_iff]
        exact ⟨rfl, hend⟩
      case bad =>
        cases i with
        | zero =>
          obtain rfl : v = w := Option.some.inj hw
          exact readAll_of_badFrame hv hnone q
        | succ i =>
          rw [List.take_succ_cons, List.forall_mem_cons] at hback
          rw [readAll_of_frame hv hback.1,
            hbad i (Nat.lt_of_succ_lt_succ hi) hback.2 w hw hnone, List.take_succ_cons]
    · -- the stream is cut off before the first frame ends
      have hcut : p <+: Text.encode (write v) :=
        (List.prefix_or_prefix_of_prefix hp (List.prefix_append _ _)).resolve_right hwhole
      have hboundary : (∃ j ≤ (v :: values).length, p = stream ((v :: values).take j)) →
          p = [] := by
        rintro ⟨j, -, hj⟩
        have hzero := (take_prefix_iff_of_cut hwhole).mp (by rw [← hj])
        rw [hj, Nat.le_zero.mp hzero, List.take_zero, stream_nil]
      obtain ⟨hnothing, hend⟩ := readAll_of_cut hv hcut fun heq => hwhole (heq ▸ List.prefix_refl _)
      refine ⟨0, Nat.zero_le _, fun j _ => take_prefix_iff_of_cut hwhole,
        fun _ => ⟨hnothing, hend.trans ⟨fun hempty => ?_, hboundary⟩⟩,
        fun i hi => absurd hi (Nat.not_lt_zero i)⟩
      exact ⟨0, Nat.zero_le _, hempty.trans stream_nil.symm⟩

/-- Arrays within each other. -/
def nested : Nat → Json
  | 0 => .array []
  | depth + 1 => .array [nested depth]

/-- Two values that are read back, and one that is nested too deeply to be. -/
def strained : List Json := greetings ++ [nested 127]

theorem parse?_nested : Json.parse? (nested 127).compact = none :=
  Option.isNone_iff_eq_none.mp (by decide +kernel)

theorem size_strained : ∀ v ∈ strained, v.compact.utf8ByteSize ≤ bodyLimit := by
  decide +kernel

theorem readAll_of_prefix_strained :
    (∀ v ∈ strained, v.compact.utf8ByteSize ≤ bodyLimit) ∧
      (stream strained).take 60 <+: stream strained ∧
      (∃ k ≤ strained.length,
        (∀ j ≤ strained.length, stream (strained.take j) <+: (stream strained).take 60 ↔ j ≤ k) ∧
        (readAll ((stream strained).take 60)).1 = strained.take k ∧
        ((readAll ((stream strained).take 60)).2 = none ↔
          ∃ j ≤ strained.length, (stream strained).take 60 = stream (strained.take j))) ∧
      stream strained <+: stream strained ∧
      readAll (stream strained) = (greetings, some .badBody) := by
  have hback : ∀ v ∈ greetings, Json.parse? v.compact = some v := fun v hv =>
    (fits_greetings v hv).readable
  refine ⟨size_strained, List.take_prefix _ _, ?cut, List.prefix_refl _, ?whole⟩
  case cut =>
    obtain ⟨k, hk, hcomplete, hread, -⟩ :=
      readAll_of_prefix size_strained (List.take_prefix 60 (stream strained))
    refine ⟨k, hk, hcomplete, hread fun v hv => hback v ?_⟩
    -- the frame of the last value is longer than what is left
    have hlong : 60 < (stream strained).length := by decide +kernel
    have hshort : k ≤ 2 := by
      by_contra hmore
      have hall := (hcomplete 3 (Nat.le_refl _)).mpr (by omega)
      have hle := hall.length_le
      rw [show strained.take 3 = strained from rfl, List.length_take] at hle
      omega
    have hprefix : strained.take k <+: greetings := by
      rw [strained, List.take_append_of_le_length hshort]
      exact List.take_prefix k greetings
    exact hprefix.subset hv
  case whole =>
    obtain ⟨k, -, hcomplete, -, hbad⟩ := readAll_of_prefix size_strained (List.prefix_refl _)
    have hthree : 3 ≤ k := (hcomplete 3 (Nat.le_refl _)).mp (List.prefix_refl _)
    exact hbad 2 hthree hback (nested 127) rfl parse?_nested

theorem read_nested : read true (stream [nested 127]) = .failed .badBody := by
  have hsize : (nested 127).compact.utf8ByteSize ≤ bodyLimit := by decide +kernel
  rw [stream_cons, stream_nil, read_write hsize, parse?_nested]

/-- A value that is nested more deeply than the reader allows is written and not read back,
although its frame is complete. -/
theorem not_readAll_of_prefix_nested :
    ¬ ∀ (values : List Json) (p : List UInt8),
      (∀ v ∈ values, v.compact.utf8ByteSize ≤ bodyLimit) → p <+: stream values →
      ∃ k ≤ values.length, (∀ j ≤ values.length, stream (values.take j) <+: p ↔ j ≤ k) ∧
        (readAll p).1 = values.take k ∧
        ((readAll p).2 = none ↔ ∃ j ≤ values.length, p = stream (values.take j)) := by
  intro hall
  have hsize : ∀ v ∈ [nested 127], v.compact.utf8ByteSize ≤ bodyLimit := by
    intro v hv
    cases List.mem_singleton.mp hv
    decide +kernel
  obtain ⟨k, hk, hcomplete, hvalues, -⟩ := hall _ _ hsize (List.prefix_refl _)
  have hone : k = 1 := Nat.le_antisymm hk ((hcomplete 1 (Nat.le_refl _)).mp (List.prefix_refl _))
  rw [readAll_of_failed read_nested, hone] at hvalues
  cases hvalues

end Frame

end SmellWatch
