import SmellWatch.Json.Printer
import SmellWatch.Proofs.Decimal.Text
import SmellWatch.Proofs.Json.Lexer
/-! Values, written over several lines and read back.

A value has its tokens, of which the builder makes the value again (`Json.run_tokens`).  The text
of a value is taken apart into the tokens of the value whose numbers are what their texts say
(`Json.spells_pretty`), since a word ends where a line, a comma or a bracket comes.  So reading
turns what was written into what was meant, up to the reading of numbers
(`Json.ofText?_pretty`). -/

namespace SmellWatch

open JsonLexer Decimal

variable {c : Char} {cs ds : List Char} {ts us : List JsonToken}

/-! ## Numbers -/

namespace JsonNumber

/-- The text of the number is read as some number. -/
def IsLegible (n : JsonNumber) : Prop :=
  ((numberText? (Json.numberText n).toList).bind NumberText.value).isSome = true

/-- The number that the text of a number says. -/
def reread (n : JsonNumber) : JsonNumber :=
  ((numberText? (Json.numberText n).toList).bind NumberText.value).getD n

variable {n : JsonNumber}

/-- A legible number is a token, the one that its text says. -/
theorem IsLegible.bareToken? (h : n.IsLegible) :
    SmellWatch.bareToken? (Json.numberText n).toList = some (.number (some n.reread)) := by
  obtain ⟨m, hm⟩ := Option.isSome_iff_exists.mp h
  have hreread : n.reread = m := by
    unfold reread
    rw [hm]
    rfl
  obtain ⟨t, ht, hvalue⟩ := Option.bind_eq_some_iff.mp hm
  have hword : ∀ word : List Char, numberText? word = none →
      (Json.numberText n).toList ≠ word := by
    intro word hnone heq
    rw [heq, hnone] at ht
    cases ht
  unfold SmellWatch.bareToken?
  rw [if_neg (hword _ (by decide)), if_neg (hword _ (by decide)), if_neg (hword _ (by decide)),
    ht, hreread, ← hvalue]
  rfl

end JsonNumber

/-- The digits of a number have no needless zero in front. -/
theorem head?_toDigits {n : Nat} (h : 0 < n) : (Nat.toDigits 10 n).head? ≠ some '0' := by
  have hdigit : ∀ d < 10, 0 < d → [Nat.digitChar d].head? ≠ some '0' := by decide
  induction n using Nat.strongRecOn with
  | ind n ih =>
    by_cases hn : n < 10
    · rw [Nat.toDigits_of_lt_base hn]
      exact hdigit n hn h
    · rw [Nat.toDigits_of_base_le (by decide) (by omega),
        List.head?_append_of_ne_nil _ Nat.toDigits_ne_nil]
      exact ih (n / 10) (by omega) (by omega)

/-- Digits alone are read as a number. -/
theorem numberText?_toDigits (n : Nat) :
    numberText? (Nat.toDigits 10 n) = some ⟨false, Nat.toDigits 10 n, [], none, false⟩ := by
  have hdigits := areDigits_toDigits n
  have hzero : (Nat.toDigits 10 n).head? = some '0' → ¬ 1 < (Nat.toDigits 10 n).length := by
    intro hhead
    have hn : n = 0 := by
      by_contra hn
      exact head?_toDigits (by omega) hhead
    rw [hn]
    decide
  have hwhole : (Nat.toDigits 10 n).takeWhile Char.isDigit = Nat.toDigits 10 n :=
    List.takeWhile_eq_self_iff.mpr hdigits
  have hrest : (Nat.toDigits 10 n).dropWhile Char.isDigit = [] :=
    List.dropWhile_eq_nil_iff.mpr hdigits
  obtain ⟨c, r, hcons⟩ := List.exists_cons_of_ne_nil (Nat.toDigits_ne_nil (b := 10) (n := n))
  have hsign : ∀ q, Nat.toDigits 10 n ≠ '-' :: q := by
    intro q hq
    exact absurd (hdigits '-' (hq ▸ List.mem_cons_self)) (by decide)
  unfold numberText?
  split
  rename_i negative digits hmatch
  split at hmatch
  · rename_i q hq
    exact absurd hq (hsign q)
  · cases hmatch
    dsimp only
    rw [hwhole, hrest, if_neg]
    · rfl
    · rw [hcons] at hzero ⊢
      simpa using hzero

theorem le_ofDigitChars (cs : List Char) (n : Nat) : n ≤ Nat.ofDigitChars 10 cs n := by
  induction cs generalizing n with
  | nil => exact Nat.le_refl n
  | cons c r ih =>
    have hrest := ih (10 * n + (c.toNat - '0'.toNat))
    rw [Nat.ofDigitChars_cons]
    omega

/-- Digits whose number has 64 bits are gathered to the last one. -/
theorem gatherDigits_eq {n : Nat} (h : Nat.ofDigitChars 10 cs n < Nat.pow 2 64) :
    gatherDigits n cs = (Nat.ofDigitChars 10 cs n, 0) := by
  induction cs generalizing n with
  | nil => rfl
  | cons c r ih =>
    rw [Nat.ofDigitChars_cons, Nat.mul_comm] at h
    have hfits := Nat.lt_of_le_of_lt (le_ofDigitChars r _) h
    rw [gatherDigits, if_pos hfits, ih h, Nat.ofDigitChars_cons, Nat.mul_comm 10]

/-- A natural number of 64 bits is read as itself. -/
theorem value_natural {n : Nat} (h : n < Nat.pow 2 64) :
    (numberText? (Json.numberText (.natural n)).toList).bind NumberText.value =
      some (.natural n) := by
  have hvalue : Nat.ofDigitChars 10 (Nat.toDigits 10 n) 0 = n :=
    Nat.ofDigitChars_toDigits (by decide) (by decide)
  have hgather : gatherDigits 0 (Nat.toDigits 10 n) = (n, 0) := by
    rw [gatherDigits_eq (by rwa [hvalue]), hvalue]
  have hlist : (Json.numberText (.natural n)).toList = Nat.toDigits 10 n := toList_toString n
  rw [hlist, numberText?_toDigits, Option.bind_some]
  unfold NumberText.value
  dsimp only
  rw [hgather]
  rfl

namespace JsonNumber

theorem isLegible_natural {n : Nat} (h : n < Nat.pow 2 64) : (natural n).IsLegible := by
  unfold IsLegible
  rw [value_natural h]
  rfl

theorem reread_natural {n : Nat} (h : n < Nat.pow 2 64) : (natural n).reread = natural n := by
  unfold reread
  rw [value_natural h]
  rfl

end JsonNumber

/-! ## Values -/

namespace Json

mutual

/-- The value with its numbers as their texts are read. -/
def reread : Json → Json
  | .null => .null
  | .bool b => .bool b
  | .number n => .number n.reread
  | .string s => .string s
  | .array items => .array (rereadItems items)
  | .object fields => .object (rereadFields fields)

def rereadItems : List Json → List Json
  | [] => []
  | v :: r => reread v :: rereadItems r

def rereadFields : List (String × Json) → List (String × Json)
  | [] => []
  | (k, v) :: r => (k, reread v) :: rereadFields r

end

mutual

/-- All numbers in the value are legible. -/
def IsLegible : Json → Prop
  | .null => True
  | .bool _ => True
  | .number n => n.IsLegible
  | .string _ => True
  | .array items => AreLegible items
  | .object fields => HasLegible fields

def AreLegible : List Json → Prop
  | [] => True
  | v :: r => IsLegible v ∧ AreLegible r

def HasLegible : List (String × Json) → Prop
  | [] => True
  | (_, v) :: r => IsLegible v ∧ HasLegible r

end

mutual

/-- The tokens of a value. -/
def tokens : Json → List JsonToken
  | .null => [.null]
  | .bool b => [.bool b]
  | .number n => [.number (some n)]
  | .string s => [.string (some s)]
  | .array [] => [.openArray, .closeArray]
  | .array (v :: r) => .openArray :: (tokens v ++ (itemTokens r ++ [.closeArray]))
  | .object [] => [.openObject, .closeObject]
  | .object ((k, v) :: r) =>
    .openObject :: .string (some k) :: .colon :: (tokens v ++ (fieldTokens r ++ [.closeObject]))

/-- The tokens of further items, a comma before each. -/
def itemTokens : List Json → List JsonToken
  | [] => []
  | v :: r => .comma :: (tokens v ++ itemTokens r)

def fieldTokens : List (String × Json) → List JsonToken
  | [] => []
  | (k, v) :: r => .comma :: .string (some k) :: .colon :: (tokens v ++ fieldTokens r)

end

/-! ## From tokens to values -/

open JsonBuilder

/-- A value may stand at once after an opening bracket. -/
theorem run_valueOrClose (frames : List JsonFrame) (v : Json) (ts : List JsonToken) :
    JsonBuilder.run ⟨frames, .valueOrClose, none⟩ (v.tokens ++ ts) =
      JsonBuilder.run ⟨frames, .value, none⟩ (v.tokens ++ ts) := by
  cases v with
  | array items => cases items <;> rfl
  | object fields =>
    cases fields with
    | nil => rfl
    | cons f r => rfl
  | null | bool | number | string => rfl

mutual

/-- The builder makes of the tokens of a value the value. -/
theorem run_tokens (frames : List JsonFrame) (ts : List JsonToken) :
    ∀ v : Json, JsonBuilder.run ⟨frames, .value, none⟩ (v.tokens ++ ts) =
      (put frames (.ofValue v)).run ts
  | .null => rfl
  | .bool b => rfl
  | .number n => rfl
  | .string s => rfl
  | .array [] => rfl
  | .array (v :: r) => by
    show JsonBuilder.run ⟨.array [] :: frames, .valueOrClose, none⟩
      ((v.tokens ++ (itemTokens r ++ [.closeArray])) ++ ts) = _
    rw [List.append_assoc, List.append_assoc, run_valueOrClose, run_tokens]
    show JsonBuilder.run ⟨.array [.ofValue v] :: frames, .commaOrClose, none⟩ _ = _
    rw [run_itemTokens]
    show (put frames (.array _)).run ts = _
    rw [List.reverse_append, List.reverse_reverse]
    rfl
  | .object [] => rfl
  | .object ((k, v) :: r) => by
    show JsonBuilder.run ⟨.object [] (some k) :: frames, .value, none⟩
      ((v.tokens ++ (fieldTokens r ++ [.closeObject])) ++ ts) = _
    rw [List.append_assoc, List.append_assoc, run_tokens]
    show JsonBuilder.run ⟨.object [(some k, .ofValue v)] none :: frames, .commaOrClose, none⟩ _ = _
    rw [run_fieldTokens]
    show (put frames (.object _)).run ts = _
    rw [List.reverse_append, List.reverse_reverse]
    rfl

theorem run_itemTokens (frames : List JsonFrame) (items : List JsonSource)
    (ts : List JsonToken) :
    ∀ r : List Json,
      JsonBuilder.run ⟨.array items :: frames, .commaOrClose, none⟩ (itemTokens r ++ ts) =
        JsonBuilder.run
          ⟨.array ((JsonSource.ofValues r).reverse ++ items) :: frames, .commaOrClose, none⟩ ts
  | [] => rfl
  | v :: r => by
    show JsonBuilder.run ⟨.array items :: frames, .value, none⟩
      ((v.tokens ++ itemTokens r) ++ ts) = _
    rw [List.append_assoc, run_tokens]
    show JsonBuilder.run ⟨.array (.ofValue v :: items) :: frames, .commaOrClose, none⟩ _ = _
    rw [run_itemTokens, JsonSource.ofValues, List.reverse_cons, List.append_assoc]
    rfl

theorem run_fieldTokens (frames : List JsonFrame)
    (fields : List (Option String × JsonSource)) (ts : List JsonToken) :
    ∀ r : List (String × Json),
      JsonBuilder.run ⟨.object fields none :: frames, .commaOrClose, none⟩
          (fieldTokens r ++ ts) =
        JsonBuilder.run
          ⟨.object ((JsonSource.ofFields r).reverse ++ fields) none :: frames, .commaOrClose,
            none⟩ ts
  | [] => rfl
  | (k, v) :: r => by
    show JsonBuilder.run ⟨.object fields (some k) :: frames, .value, none⟩
      ((v.tokens ++ fieldTokens r) ++ ts) = _
    rw [List.append_assoc, run_tokens]
    show JsonBuilder.run
      ⟨.object ((some k, .ofValue v) :: fields) none :: frames, .commaOrClose, none⟩ _ = _
    rw [run_fieldTokens, JsonSource.ofFields, List.reverse_cons, List.append_assoc]
    rfl

end

/-- The tokens of a value are those of a text. -/
theorem ofTokens?_tokens (v : Json) : JsonSource.ofTokens? v.tokens = some (.ofValue v) := by
  have hrun := run_tokens [] [] v
  rw [List.append_nil] at hrun
  unfold JsonSource.ofTokens? JsonBuilder.start
  rw [hrun]
  rfl

/-! ## From texts to tokens -/

/-- A text that ends a word before it, with its tokens. -/
structure EndsWord (ds : List Char) (us : List JsonToken) : Prop where
  ender : ∃ c r, ds = c :: r ∧ endsBare c = true
  steps : Steps .between ds us .between

/-- A text of some tokens, as long as it is not a part of a longer word. -/
def Spells (cs : List Char) (ts : List JsonToken) : Prop :=
  ∀ ds us, EndsWord ds us → Steps .between (cs ++ ds) (ts ++ us) .between

theorem Spells.of_steps (h : Steps .between cs ts .between) : Spells cs ts :=
  fun _ _ hends => h.append hends.steps

theorem steps_word (h : ∀ c ∈ cs, endsBare c = false) (read : List Char) :
    Steps (.bare read) cs [] (.bare (cs.reverse ++ read)) := by
  induction cs generalizing read with
  | nil => exact .nil
  | cons c r ih =>
    have hstep : JsonLexer.step (.bare read) c = some (.bare (c :: read), []) := by
      rw [JsonLexer.step, h c List.mem_cons_self, if_neg Bool.false_ne_true]
    have hrest := ih (fun d hd => h d (List.mem_cons_of_mem c hd)) (c :: read)
    rw [List.reverse_cons, List.append_assoc]
    exact .cons hstep hrest

theorem endsBare_of_isWordChar (h : IsWordChar c) : endsBare c = false := by
  by_contra hends
  have hcases : isJsonBlank c = true ∨ c ∈ ['[', ']', '{', '}', ',', ':', '"'] := by
    unfold endsBare at hends
    simp only [Bool.not_eq_false, Bool.or_eq_true, decide_eq_true_eq] at hends
    simpa [or_assoc] using hends
  rcases hcases with hblank | hmem
  · have hink := h.not_blank
    rw [isBlank_of_isJsonBlank hblank] at hink
    cases hink
  · unfold IsWordChar at h
    simp only [List.mem_cons, List.not_mem_nil, or_false] at hmem
    rcases hmem with rfl | rfl | rfl | rfl | rfl | rfl | rfl <;> exact absurd h (by decide)

/-- A word is the token that it is on its own. -/
theorem Spells.of_word {t : JsonToken} (h : bareToken? cs = some t) : Spells cs [t] := by
  intro ds us hends
  have hinner : ∀ c ∈ cs, endsBare c = false := fun c hc =>
    endsBare_of_isWordChar (bareToken?_chars h hc)
  obtain ⟨d, r, rfl, hd⟩ := hends.ender
  obtain ⟨m, vs, ws, hstep, hrest, rfl⟩ := hends.steps.cons_inv
  have hend : JsonLexer.step (.bare cs.reverse) d = some (m, t :: vs) := by
    have hpair : stepBetween d = (m, vs) := Option.some.inj hstep
    rw [JsonLexer.step, if_pos hd, List.reverse_reverse, h, hpair]
    rfl
  cases cs with
  | nil => cases h
  | cons c cs =>
    have hfirst : JsonLexer.step .between c = some (.bare [c], []) := by
      have hc := hinner c List.mem_cons_self
      unfold endsBare at hc
      simp only [Bool.or_eq_false_iff, decide_eq_false_iff_not] at hc
      obtain ⟨⟨⟨⟨⟨⟨⟨h1, h2⟩, h3⟩, h4⟩, h5⟩, h6⟩, h7⟩, h8⟩ := hc
      rw [JsonLexer.step, stepBetween, h1, if_neg Bool.false_ne_true, if_neg h2, if_neg h3,
        if_neg h4, if_neg h5, if_neg h6, if_neg h7, if_neg h8]
    have hword := steps_word (fun d hd => hinner d (List.mem_cons_of_mem c hd)) [c]
    rw [← List.reverse_cons] at hword
    exact .silent hfirst (hword.append (.cons hend hrest))

/-- A line break ends a word. -/
theorem EndsWord.of_newLine (h : Steps .between ds us .between) (depth : Nat) :
    EndsWord ((newLine depth).toList ++ ds) us := by
  have hchars : (newLine depth).toList = '\n' :: List.replicate (2 * depth) ' ' := by
    unfold newLine
    rw [String.toList_append]
    exact congrArg ('\n' :: ·) String.toList_ofList
  have hblank : ∀ c ∈ (newLine depth).toList, isJsonBlank c = true := by
    intro c hc
    rw [hchars] at hc
    rcases List.mem_cons.mp hc with rfl | hc
    · rfl
    · rw [List.eq_of_mem_replicate hc]
      rfl
  refine ⟨⟨'\n', List.replicate (2 * depth) ' ' ++ ds, ?_, rfl⟩, (steps_blank hblank).append h⟩
  rw [hchars]
  rfl

/-- So does a comma. -/
theorem EndsWord.of_comma (h : Steps .between ds us .between) :
    EndsWord (',' :: ds) (.comma :: us) :=
  ⟨⟨',', ds, rfl, rfl⟩, .token rfl h⟩

/-- A key and its colon. -/
theorem steps_key (k : String) (h : Steps .between ds us .between) :
    Steps .between ((quote k).toList ++ (':' :: ' ' :: ds)) (.string (some k) :: .colon :: us)
      .between := by
  have hblank : Steps .between (' ' :: ds) us .between := .silent rfl h
  exact (steps_quote k).append (.token rfl hblank)

mutual

/-- The text of a legible value has the tokens of the value as its numbers are read. -/
theorem spells_pretty (depth : Nat) :
    ∀ v : Json, v.IsLegible → Spells (pretty depth v).toList v.reread.tokens
  | .null, _ => Spells.of_word (show bareToken? "null".toList = some .null from rfl)
  | .bool true, _ => Spells.of_word (show bareToken? "true".toList = some (.bool true) from rfl)
  | .bool false, _ =>
    Spells.of_word (show bareToken? "false".toList = some (.bool false) from rfl)
  | .number _, h => Spells.of_word (JsonNumber.IsLegible.bareToken? h)
  | .string s, _ => Spells.of_steps (steps_quote s)
  | .array [], _ => by
    have hall : Steps .between "[]".toList [.openArray, .closeArray] .between :=
      .token rfl (.single rfl)
    rw [pretty, reread, rereadItems, tokens]
    exact Spells.of_steps hall
  | .array (v :: r), h => by
    have hclose : Steps .between [']'] [.closeArray] .between := .single rfl
    have hitems := endsWord_prettyItems (depth + 1) r h.2 (.of_newLine hclose depth)
    have hvalue := spells_pretty (depth + 1) v h.1 _ _ hitems
    have hall : Steps .between
        ('[' :: ((newLine (depth + 1)).toList ++ ((pretty (depth + 1) v).toList ++
          ((prettyItems (depth + 1) r).toList ++ ((newLine depth).toList ++ [']'])))))
        (reread (.array (v :: r))).tokens .between :=
      .token rfl (EndsWord.of_newLine hvalue (depth + 1)).steps
    refine Spells.of_steps ?_
    rw [pretty]
    simp only [String.toList_append, List.append_assoc]
    exact hall
  | .object [], _ => by
    have hall : Steps .between "\x7b\x7d".toList [.openObject, .closeObject] .between :=
      .token rfl (.single rfl)
    rw [pretty, reread, rereadFields, tokens]
    exact Spells.of_steps hall
  | .object ((k, v) :: r), h => by
    have hclose : Steps .between ['}'] [.closeObject] .between := .single rfl
    have hfields := endsWord_prettyFields (depth + 1) r h.2 (.of_newLine hclose depth)
    have hvalue := spells_pretty (depth + 1) v h.1 _ _ hfields
    have hall : Steps .between
        ('{' :: ((newLine (depth + 1)).toList ++ ((quote k).toList ++ (':' :: ' ' ::
          ((pretty (depth + 1) v).toList ++ ((prettyFields (depth + 1) r).toList ++
            ((newLine depth).toList ++ ['}'])))))))
        (reread (.object ((k, v) :: r))).tokens .between :=
      .token rfl (EndsWord.of_newLine (steps_key k hvalue) (depth + 1)).steps
    refine Spells.of_steps ?_
    rw [pretty]
    simp only [String.toList_append, List.append_assoc]
    exact hall

theorem endsWord_prettyItems (depth : Nat) :
    ∀ r : List Json, AreLegible r → ∀ {ds us}, EndsWord ds us →
      EndsWord ((prettyItems depth r).toList ++ ds) (itemTokens (rereadItems r) ++ us)
  | [], _, _, _, hends => hends
  | v :: r, h, ds, us, hends => by
    have hvalue := spells_pretty depth v h.1 _ _ (endsWord_prettyItems depth r h.2 hends)
    have hall := EndsWord.of_comma (EndsWord.of_newLine hvalue depth).steps
    rw [prettyItems, rereadItems, itemTokens]
    simp only [String.toList_append, List.append_assoc, List.cons_append]
    exact hall

theorem endsWord_prettyFields (depth : Nat) :
    ∀ r : List (String × Json), HasLegible r → ∀ {ds us}, EndsWord ds us →
      EndsWord ((prettyFields depth r).toList ++ ds) (fieldTokens (rereadFields r) ++ us)
  | [], _, _, _, hends => hends
  | (k, v) :: r, h, ds, us, hends => by
    have hvalue := spells_pretty depth v h.1 _ _ (endsWord_prettyFields depth r h.2 hends)
    have hall := EndsWord.of_comma (EndsWord.of_newLine (steps_key k hvalue) depth).steps
    rw [prettyFields, rereadFields, fieldTokens]
    simp only [String.toList_append, List.append_assoc, List.cons_append]
    exact hall

end

/-- What is written over several lines, with an end of line behind it, is read as what was
written, as far as its numbers are. -/
theorem ofText?_pretty {v : Json} (h : v.IsLegible) :
    JsonSource.ofText? (v.pretty 0 ++ "\n") = some (.ofValue v.reread) := by
  have hend : EndsWord ['\n'] [] := ⟨⟨'\n', [], rfl, rfl⟩, .single rfl⟩
  have hsteps := spells_pretty 0 v h _ _ hend
  rw [List.append_nil] at hsteps
  have htokens : jsonTokens (v.pretty 0 ++ "\n").toList = some v.reread.tokens := by
    rw [String.toList_append]
    exact jsonTokens_eq_some_iff.mpr
      ⟨.between, _, [], hsteps, rfl, (List.append_nil _).symm⟩
  unfold JsonSource.ofText? JsonSource.ofChars?
  rw [htokens]
  exact ofTokens?_tokens v.reread

end Json

end SmellWatch
