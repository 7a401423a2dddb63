import SmellWatch.Json.Printer
import SmellWatch.Json.Source
/-! Quoted texts, read back.

The lexer gets from a quoted text the text itself, whatever comes after it
(`first?_quote`).  So where a quoted text ends, and which text it is, can be told from the
characters: two texts that start with quotations start with the same one
(`quote_append_inj`), and so do lists of them (`compactItems_append_inj`). -/

namespace SmellWatch

variable {s t : String} {r u : List Char} {read : List JsonUnit}

theorem pairHalves_chars (cs : List Char) : pairHalves (cs.map .char) = some cs := by
  induction cs with
  | nil => rfl
  | cons c cs ih =>
    rw [List.map_cons, pairHalves, ih]
    rfl

namespace JsonLexer

/-- The first token that is completed in a text, and the text after it. -/
def first? (l : JsonLexer) : List Char → Option (JsonToken × List Char)
  | [] => none
  | c :: r =>
    match l.step c with
    | some (l, []) => first? l r
    | some (.between, [t]) => some (t, r)
    | _ => none

/-- A character that completes no token is passed over. -/
theorem first?_of_step {l l' : JsonLexer} {c : Char} (h : l.step c = some (l', []))
    (r : List Char) : first? l (c :: r) = first? l' r := by
  rw [first?, h]

theorem hexDigit?_digitChar : ∀ n < 16, hexDigit? (Nat.digitChar n) = some n := by
  decide

/-- Four hexadecimal digits are read as their number. -/
theorem first?_fourHex (read : List JsonUnit) {n : Nat} (h : n < 65536) (r : List Char) :
    first? (.code read 0 0) (Json.fourHex n ++ r) = first? (.quoted (.ofCode n :: read)) r := by
  have hdigit : ∀ k, hexDigit? (Nat.digitChar (k % 16)) = some (k % 16) := fun k =>
    hexDigit?_digitChar _ (Nat.mod_lt k (by decide))
  have hnext : ∀ count value k, count ≠ 3 →
      step (.code read count value) (Nat.digitChar (k % 16)) =
        some (.code read (count + 1) (value * 16 + k % 16), []) := by
    intro count value k hcount
    show (hexDigit? _).map _ = _
    rw [hdigit, Option.map_some, if_neg hcount]
  have hlast : ∀ value k, step (.code read 3 value) (Nat.digitChar (k % 16)) =
      some (.quoted (.ofCode (value * 16 + k % 16) :: read), []) := by
    intro value k
    show (hexDigit? _).map _ = _
    rw [hdigit, Option.map_some, if_pos rfl]
  have hsum : (((0 * 16 + n / 4096 % 16) * 16 + n / 256 % 16) * 16 + n / 16 % 16) * 16 + n % 16 =
      n := by omega
  show first? (.code read 0 0) (Nat.digitChar (n / 4096 % 16) :: Nat.digitChar (n / 256 % 16) ::
    Nat.digitChar (n / 16 % 16) :: Nat.digitChar (n % 16) :: r) = _
  rw [first?_of_step (hnext 0 0 _ (by decide)), first?_of_step (hnext 1 _ _ (by decide)),
    first?_of_step (hnext 2 _ _ (by decide)), first?_of_step (hlast _ _), hsum]

/-- An escaped character is read as the character. -/
theorem first?_escapeChar (read : List JsonUnit) (c : Char) (r : List Char) :
    first? (.quoted read) (Json.escapeChar c ++ r) = first? (.quoted (.char c :: read)) r := by
  by_cases hquote : c = '"'
  · subst hquote
    rfl
  by_cases hbackslash : c = '\\'
  · subst hbackslash
    rfl
  by_cases hnewline : c = '\n'
  · subst hnewline
    rfl
  by_cases hreturn : c = '\r'
  · subst hreturn
    rfl
  by_cases htab : c = '\t'
  · subst htab
    rfl
  by_cases hback : c.toNat = 8
  · have hc : c = Char.ofNat 8 := by rw [← hback, Char.ofNat_toNat]
    subst hc
    rfl
  by_cases hform : c.toNat = 12
  · have hc : c = Char.ofNat 12 := by rw [← hform, Char.ofNat_toNat]
    subst hc
    rfl
  unfold Json.escapeChar
  rw [if_neg hquote, if_neg hbackslash, if_neg hnewline, if_neg hreturn, if_neg htab,
    if_neg hback, if_neg hform]
  split
  · rename_i hcontrol
    have hcode : JsonUnit.ofCode c.toNat = .char c := by
      have hhigh : isHighHalf c.toNat = false := by
        unfold isHighHalf
        simp
        omega
      have hlow : isLowHalf c.toNat = false := by
        unfold isLowHalf
        simp
        omega
      unfold JsonUnit.ofCode
      rw [hhigh, hlow, Char.ofNat_toNat]
      rfl
    show first? (.code read 0 0) (Json.fourHex c.toNat ++ r) = _
    rw [first?_fourHex read (by omega) r, hcode]
  · rename_i hplain
    refine first?_of_step ?_ r
    rw [step, if_neg hquote, if_neg hbackslash, if_neg hplain]

/-- The first token of a text that starts with a quotation is the quoted text. -/
theorem first?_quote (s : String) (r : List Char) :
    first? .between ((Json.quote s).toList ++ r) = some (.string (some s), r) := by
  have hchars : ∀ (cs : List Char) (read : List JsonUnit),
      first? (.quoted read) (cs.flatMap Json.escapeChar ++ '"' :: r) =
        first? (.quoted (cs.reverse.map .char ++ read)) ('"' :: r) := by
    intro cs
    induction cs with
    | nil => exact fun _ => rfl
    | cons c cs ih =>
      intro read
      rw [List.flatMap_cons, List.append_assoc, first?_escapeChar, ih, List.reverse_cons,
        List.map_append, List.append_assoc]
      rfl
  have hquoted : (Json.quote s).toList ++ r =
      '"' :: (s.toList.flatMap Json.escapeChar ++ '"' :: r) := by
    unfold Json.quote
    simp
  rw [hquoted]
  show first? (.quoted []) _ = _
  rw [hchars, List.append_nil]
  show some (JsonToken.string ((pairHalves (s.toList.reverse.map JsonUnit.char).reverse).map
    String.ofList), r) = _
  rw [← List.map_reverse, List.reverse_reverse, pairHalves_chars, Option.map_some,
    String.ofList_toList]

end JsonLexer

namespace Json

/-- Texts that start with quotations start with the same one. -/
theorem quote_append_inj (h : (quote s).toList ++ r = (quote t).toList ++ u) : s = t ∧ r = u := by
  have hfirst := JsonLexer.first?_quote s r
  rw [h, JsonLexer.first?_quote t u] at hfirst
  cases hfirst
  exact ⟨rfl, rfl⟩

theorem toList_quote (s : String) : ∃ cs, (quote s).toList = '"' :: cs := by
  unfold quote
  exact ⟨_, by rw [String.toList_ofList]; rfl⟩

/-- What stands after the first item of a list. -/
theorem toList_compactItems_cons (x : String) (xs : List String) :
    ∃ rest, (compactItems ((x :: xs).map .string)).toList = (quote x).toList ++ rest ∧
      (xs = [] → rest = []) ∧
      (xs ≠ [] → rest = ',' :: (compactItems (xs.map .string)).toList) := by
  cases xs with
  | nil =>
    refine ⟨[], ?_, fun _ => rfl, fun h => absurd rfl h⟩
    rw [List.append_nil]
    rfl
  | cons y ys =>
    refine ⟨_, ?_, nofun, fun _ => rfl⟩
    show (quote x ++ "," ++ compactItems ((y :: ys).map .string)).toList = _
    rw [String.toList_append, String.toList_append, List.append_assoc]
    rfl

/-- Lists of quotations are told apart by their texts. -/
theorem compactItems_append_inj {xs ys : List String}
    (h : (compactItems (xs.map .string)).toList ++ ']' :: r =
      (compactItems (ys.map .string)).toList ++ ']' :: u) : xs = ys ∧ r = u := by
  -- a list that is not empty does not start with the bracket that ends an empty one
  have hbracket : ∀ (z : String) (zs : List String) (v w : List Char),
      (compactItems ((z :: zs).map .string)).toList ++ v ≠ ']' :: w := by
    intro z zs v w heq
    obtain ⟨rest, hrest, -⟩ := toList_compactItems_cons z zs
    obtain ⟨cs, hcs⟩ := toList_quote z
    rw [hrest, hcs] at heq
    exact absurd (List.cons.inj heq).1 (by decide)
  induction xs generalizing ys with
  | nil =>
    cases ys with
    | nil => exact ⟨rfl, (List.cons.inj h).2⟩
    | cons y ys => exact absurd h.symm (hbracket y ys _ _)
  | cons x xs ih =>
    cases ys with
    | nil => exact absurd h (hbracket x xs _ _)
    | cons y ys =>
      obtain ⟨xrest, hx, hxnil, hxcons⟩ := toList_compactItems_cons x xs
      obtain ⟨yrest, hy, hynil, hycons⟩ := toList_compactItems_cons y ys
      rw [hx, hy, List.append_assoc, List.append_assoc] at h
      obtain ⟨rfl, hrest⟩ := quote_append_inj h
      by_cases hxs : xs = [] <;> by_cases hys : ys = []
      · rw [hxnil hxs, hynil hys] at hrest
        exact ⟨by rw [hxs, hys], (List.cons.inj hrest).2⟩
      · rw [hxnil hxs, hycons hys] at hrest
        exact absurd (List.cons.inj hrest).1 (by decide)
      · rw [hxcons hxs, hynil hys] at hrest
        exact absurd (List.cons.inj hrest).1 (by decide)
      · rw [hxcons hxs, hycons hys] at hrest
        obtain ⟨hsame, htail⟩ := ih (List.cons.inj hrest).2
        exact ⟨by rw [hsame], htail⟩

end Json

end SmellWatch
