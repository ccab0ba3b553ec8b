import MaterialNet.Proofs.Printing

namespace MaterialNet

/-!
# The texts of a JSON value

A value has many texts: white space may stand between any two tokens, and a token may be spelled
in several ways.  A text is read as a value exactly if it lays out the tokens of that value, so a
text shows one value at most, and white space does not matter.

* `Json.readToken?_local` — a token is read off a text whatever comes after it, except that a
  number goes on as long as it can
* `Json.LaidOut` — the characters are those of the tokens with white space between them
* `Json.Reader.tokens` — the tokens that have been read when a reader stands somewhere
* `Json.ShownBy`, `Json.parse?_eq_some_iff` — the texts that show a value
-/

namespace Json

/-! ### Numbers are read off a text -/

section Number

variable {cs rest : List Char}

theorem readDigits_eq (cs : List Char) :
    cs = (readDigits cs).1.map Digit.char ++ (readDigits cs).2 := by
  fun_induction readDigits cs with
  | case1 => rfl
  | case2 c rest d hd ds rest' hread ih =>
    rw [hread] at ih
    rw [List.map_cons, List.cons_append, Digit.char_eq_of_ofChar? hd, ← ih]
  | case3 => rfl

theorem readMinus_eq (cs : List Char) :
    cs = (if (readMinus cs).1 then ['-'] else []) ++ (readMinus cs).2 := by
  unfold readMinus
  split <;> rfl

/-- A whole number that is read stands at the front and has no leading zero. -/
theorem readWhole?_eq {ds : List Digit} (h : readWhole? cs = some (ds, rest)) :
    cs = ds.map Digit.char ++ rest ∧ ds ≠ []
      ∧ ∀ ds', ds = Digit.zero :: ds' → ds' = [] := by
  have hcs := readDigits_eq cs
  unfold readWhole? at h
  split at h
  · cases h
  · rename_i d ds' rest' hread
    split at h
    · cases h
    · rename_i hlead
      obtain ⟨rfl, rfl⟩ := Prod.mk.inj (Option.some.inj h)
      rw [hread] at hcs
      refine ⟨hcs, List.cons_ne_nil _ _, fun ds' hds => ?_⟩
      obtain ⟨rfl, rfl⟩ := List.cons.inj hds
      exact Decidable.byContradiction fun hne => hlead ⟨rfl, hne⟩

/-- The digits after a point that are read stand at the front, and there are some. -/
theorem readFraction?_eq {fraction : Option (List Digit)}
    (h : readFraction? cs = some (fraction, rest)) :
    cs = fractionChars fraction ++ rest ∧ ∀ ds ∈ fraction, ds ≠ [] := by
  unfold readFraction? at h
  split at h
  · rename_i cs
    have hcs := readDigits_eq cs
    split at h
    · cases h
    · rename_i ds rest' hne hread
      obtain ⟨rfl, rfl⟩ := Prod.mk.inj (Option.some.inj h)
      rw [hread] at hcs
      refine ⟨congrArg ('.' :: ·) hcs, ?_⟩
      rintro _ ⟨⟩ hnil
      exact hne hnil
  · obtain ⟨rfl, rfl⟩ := Prod.mk.inj (Option.some.inj h)
    exact ⟨rfl, nofun⟩

/-- The power of ten that is read stands at the front and has digits. -/
theorem readPower?_eq {exponent : Option Exponent}
    (h : readPower? cs = some (exponent, rest)) :
    ∃ e, exponent = some e ∧ e.digits ≠ []
      ∧ cs = e.sign.chars ++ (e.digits.map Digit.char ++ rest) := by
  have hsign : cs = (readExponentSign cs).1.chars ++ (readExponentSign cs).2 := by
    unfold readExponentSign
    split <;> rfl
  have hdigits := readDigits_eq (readExponentSign cs).2
  unfold readPower? at h
  simp only at h
  split at h
  · cases h
  · rename_i ds rest' hne hread
    obtain ⟨rfl, rfl⟩ := Prod.mk.inj (Option.some.inj h)
    rw [hread] at hdigits
    rw [hdigits] at hsign
    exact ⟨_, rfl, fun hnil => hne hnil, hsign⟩

/-- A power of ten is read off a text, its letter in either case. -/
theorem readExponent?_local {exponent : Option Exponent}
    (h : readExponent? cs = some (exponent, rest)) :
    (∀ e ∈ exponent, e.digits ≠ []) ∧ ∃ es, cs = es ++ rest ∧ ∀ rest', EndsNumber rest' →
      readExponent? (es ++ rest') = some (exponent, rest')
        ∧ ∀ c ∈ (es ++ rest').head?, Digit.ofChar? c = none ∧ c ≠ '.' := by
  -- The mark of the power is a small or a capital letter; what comes after it is read alike.
  have hpower {cs : List Char} (h : readPower? cs = some (exponent, rest)) :
      (∀ e ∈ exponent, e.digits ≠ []) ∧ ∃ es, cs = es ++ rest ∧ ∀ rest', EndsNumber rest' →
        readPower? (es ++ rest') = some (exponent, rest') := by
    obtain ⟨e, rfl, hne, hcs⟩ := readPower?_eq h
    rw [← List.append_assoc] at hcs
    refine ⟨?_, _, hcs, fun rest' hrest' => ?_⟩
    · rintro _ ⟨⟩
      exact hne
    · rw [List.append_assoc]
      exact readPower?_chars hne hrest'
  unfold readExponent? at h
  split at h
  · obtain ⟨hne, es, rfl, hes⟩ := hpower h
    refine ⟨hne, 'e' :: es, rfl, fun rest' hrest' => ⟨hes rest' hrest', ?_⟩⟩
    rintro c ⟨⟩
    decide
  · obtain ⟨hne, es, rfl, hes⟩ := hpower h
    refine ⟨hne, 'E' :: es, rfl, fun rest' hrest' => ⟨hes rest' hrest', ?_⟩⟩
    rintro c ⟨⟩
    decide
  · obtain ⟨rfl, rfl⟩ := Prod.mk.inj (Option.some.inj h)
    refine ⟨nofun, [], rfl, fun rest' hrest' => ⟨readExponent?_none hrest', ?_⟩⟩
    exact fun c hc => ⟨(hrest' c hc).1, (hrest' c hc).2.1⟩

/-- A number is read off a text, whatever comes after it that does not belong to it. -/
theorem readNumber?_local {n : Numeral} (h : readNumber? cs = some (n, rest)) :
    ∃ w, cs = w ++ rest ∧ (∃ c w', w = c :: w' ∧ (c = '-' ∨ (Digit.ofChar? c).isSome))
      ∧ ∀ rest', EndsNumber rest' → readNumber? (w ++ rest') = some (n, rest') := by
  have hminus := readMinus_eq cs
  unfold readNumber? at h
  simp only [bind, Option.bind_eq_some_iff, Prod.exists] at h
  obtain ⟨whole, cs₁, hwhole, fraction, cs₂, hfraction, exponent, cs₃, hexponent, h⟩ := h
  obtain ⟨rfl, rfl⟩ := Prod.mk.inj (Option.some.inj h)
  obtain ⟨hcs₀, hne, hlead⟩ := readWhole?_eq hwhole
  obtain ⟨hcs₁, hdigits⟩ := readFraction?_eq hfraction
  obtain ⟨hpower, es, hcs₂, hes⟩ := readExponent?_local hexponent
  rw [hcs₀, hcs₁, hcs₂] at hminus
  have hn : Numeral.WellWritten ⟨(readMinus cs).1, whole, fraction, exponent⟩ :=
    ⟨hne, hlead, hdigits, hpower⟩
  -- The number is made of the characters of its parts, and of no more.
  refine ⟨(if (readMinus cs).1 then ['-'] else [])
    ++ (whole.map Digit.char ++ (fractionChars fraction ++ es)), ?_, ?_, fun rest' hrest' => ?_⟩
  · simpa only [List.append_assoc] using hminus
  · obtain ⟨d, ds, rfl⟩ := List.exists_cons_of_ne_nil hne
    cases (readMinus cs).1 with
    | true => exact ⟨'-', _, rfl, .inl rfl⟩
    | false => exact ⟨d.char, _, rfl, .inr (by rw [Digit.ofChar?_char]; rfl)⟩
  · have hread := readNumber?_parts hn (hes rest' hrest').2 (hes rest' hrest').1
    simpa only [List.append_assoc] using hread

end Number

/-! ### Tokens are read off a text -/

/-- The rest of a literal is read off a text, whatever comes after its closing quote. -/
theorem readLiteral?_local {seen : List Char} {sound : Bool} {high : Option Nat}
    {cs rest : List Char} {s : Literal} (h : readLiteral? seen sound high cs = some (s, rest)) :
    ∃ w, cs = w ++ rest ∧ ∀ rest', readLiteral? seen sound high (w ++ rest') = some (s, rest') := by
  -- What the literal reads is one character or one escape at a time, up to its quotation mark.
  fun_induction readLiteral? seen sound high cs with
  | case1 => cases h
  | case2 seen sound high rest =>
    obtain ⟨rfl, rfl⟩ := Prod.mk.inj (Option.some.inj h)
    exact ⟨['"'], rfl, fun rest' => by rw [List.singleton_append, readLiteral?]⟩
  | case3 => cases h
  | case4 seen sound high a b c d cs n hn hhigh ih =>
    obtain ⟨w, rfl, hw⟩ := ih h
    refine ⟨'\\' :: 'u' :: a :: b :: c :: d :: w, rfl, fun rest' => ?_⟩
    simp [readLiteral?, hn, hhigh, hw]
  | case5 seen sound a b c d cs n hn hhigh hlow h' ih =>
    obtain ⟨w, rfl, hw⟩ := ih h
    refine ⟨'\\' :: 'u' :: a :: b :: c :: d :: w, rfl, fun rest' => ?_⟩
    simp [readLiteral?, hn, hhigh, hlow, hw]
  | case6 seen sound a b c d cs n hn hhigh hlow ih =>
    obtain ⟨w, rfl, hw⟩ := ih h
    refine ⟨'\\' :: 'u' :: a :: b :: c :: d :: w, rfl, fun rest' => ?_⟩
    simp [readLiteral?, hn, hhigh, hlow, hw]
  | case7 seen sound high a b c d cs n hn hhigh hlow ih =>
    obtain ⟨w, rfl, hw⟩ := ih h
    refine ⟨'\\' :: 'u' :: a :: b :: c :: d :: w, rfl, fun rest' => ?_⟩
    simp [readLiteral?, hn, hhigh, hlow, hw]
  | case8 => cases h
  | case9 seen sound high letter cs hne c hc ih =>
    obtain ⟨w, rfl, hw⟩ := ih h
    have hu : letter ≠ 'u' := by
      rintro rfl
      cases hc
    refine ⟨'\\' :: letter :: w, rfl, fun rest' => ?_⟩
    rw [List.cons_append, List.cons_append, readLiteral?]
    · simp only [hc, hw]
    · exact fun _ _ _ _ _ h => absurd h hu
  | case10 => cases h
  | case11 seen sound high c cs hquote hu hletter hc ih =>
    obtain ⟨w, rfl, hw⟩ := ih h
    have hslash : c ≠ '\\' := by
      rintro rfl
      exact hc rfl
    refine ⟨c :: w, rfl, fun rest' => ?_⟩
    rw [List.cons_append, readLiteral?]
    · rw [if_neg hc, hw]
    · exact hquote
    · exact fun _ _ _ _ _ h => absurd h hslash
    · exact fun _ _ h => absurd h hslash

/-- The token is a number. -/
def Token.isNumber : Token → Bool
  | .number _ => true
  | _ => false

/-- White space begins no token, and a token that is no number ends a number before it. -/
theorem readToken?_head {cs rest : List Char} {t : Token} (h : readToken? cs = some (t, rest)) :
    ∃ c cs', cs = c :: cs' ∧ isSpace c = false
      ∧ (t.isNumber = false → ∀ cs, EndsNumber (c :: cs)) := by
  have hends (c : Char) (hc : c ∈ ['\x7b', '\x7d', '[', ']', ':', ',', 'n', 't', 'f', '"'])
      (cs : List Char) : EndsNumber (c :: cs) := by
    have hall : (['\x7b', '\x7d', '[', ']', ':', ',', 'n', 't', 'f', '"'].all fun c =>
        Digit.ofChar? c = none ∧ c ≠ '.' ∧ c ≠ 'e' ∧ c ≠ 'E') = true := by
      decide
    rintro _ ⟨⟩
    exact of_decide_eq_true (List.all_eq_true.1 hall c hc)
  unfold readToken? at h
  split at h
  case h_11 =>
    simp only [Option.map_eq_some_iff, Prod.exists] at h
    obtain ⟨n, rest', hread, h⟩ := h
    obtain ⟨rfl, rfl⟩ := Prod.mk.inj h
    obtain ⟨_, rfl, ⟨c, w, rfl, hc⟩, -⟩ := readNumber?_local hread
    exact ⟨c, _, rfl, isSpace_numeral hc, nofun⟩
  all_goals exact ⟨_, _, rfl, rfl, fun _ => hends _ (by decide)⟩

/-- A token is read off a text whatever comes after it; only a number has to end there. -/
theorem readToken?_local {cs rest : List Char} {t : Token} (h : readToken? cs = some (t, rest)) :
    ∃ w, cs = w ++ rest ∧ ∀ rest', (t.isNumber = true → EndsNumber rest') →
      readToken? (w ++ rest') = some (t, rest') := by
  unfold readToken? at h
  split at h
  case h_10 =>
    simp only [Option.map_eq_some_iff, Prod.exists] at h
    obtain ⟨s, rest', hread, h⟩ := h
    obtain ⟨rfl, rfl⟩ := Prod.mk.inj h
    obtain ⟨w, rfl, hw⟩ := readLiteral?_local hread
    refine ⟨'"' :: w, rfl, fun rest' _ => ?_⟩
    rw [List.cons_append, readToken?, hw]
    rfl
  case h_11 =>
    simp only [Option.map_eq_some_iff, Prod.exists] at h
    obtain ⟨n, rest', hread, h⟩ := h
    obtain ⟨rfl, rfl⟩ := Prod.mk.inj h
    obtain ⟨w, rfl, ⟨c, w', rfl, hc⟩, hw⟩ := readNumber?_local hread
    refine ⟨_, rfl, fun rest' hrest' => ?_⟩
    rw [List.cons_append, readToken?_number hc, ← List.cons_append, hw _ (hrest' rfl)]
    rfl
  -- The other tokens are fixed texts.
  all_goals
    obtain ⟨rfl, rfl⟩ := Prod.mk.inj (Option.some.inj h)
  · exact ⟨['\x7b'], rfl, fun _ _ => rfl⟩
  · exact ⟨['\x7d'], rfl, fun _ _ => rfl⟩
  · exact ⟨['['], rfl, fun _ _ => rfl⟩
  · exact ⟨[']'], rfl, fun _ _ => rfl⟩
  · exact ⟨[':'], rfl, fun _ _ => rfl⟩
  · exact ⟨[','], rfl, fun _ _ => rfl⟩
  · exact ⟨['n', 'u', 'l', 'l'], rfl, fun _ _ => rfl⟩
  · exact ⟨['t', 'r', 'u', 'e'], rfl, fun _ _ => rfl⟩
  · exact ⟨['f', 'a', 'l', 's', 'e'], rfl, fun _ _ => rfl⟩

/-! ### Characters that lay out tokens -/

/-- The characters are those of the tokens, with white space anywhere between them.  A token is
    spelled by any characters that are read as it. -/
inductive LaidOut : List Char → List Token → Prop where
  | done : LaidOut [] []
  | space {c : Char} {cs : List Char} {ts : List Token} (hc : isSpace c = true)
    (h : LaidOut cs ts) : LaidOut (c :: cs) ts
  | token {w cs : List Char} {t : Token} {ts : List Token} (hw : readToken? w = some (t, []))
    (h : LaidOut cs ts) : LaidOut (w ++ cs) (t :: ts)

/-- One token of a text that is split. -/
theorem tokensFrom?_of_readToken? (seen : List Token) {cs rest : List Char} {t : Token}
    (h : readToken? cs = some (t, rest)) : tokensFrom? seen cs = tokensFrom? (t :: seen) rest := by
  obtain ⟨c, cs', rfl, hc, -⟩ := readToken?_head h
  exact tokensFrom?_cons seen hc h

/-- A text that is split into tokens lays them out. -/
theorem laidOut_of_tokensFrom? {seen ts : List Token} {cs : List Char}
    (h : tokensFrom? seen cs = some ts) : ∃ us, ts = seen.reverse ++ us ∧ LaidOut cs us := by
  fun_induction tokensFrom? seen cs with
  | case1 seen => exact ⟨[], by simpa using (Option.some.inj h).symm, .done⟩
  | case2 seen c rest hc ih =>
    obtain ⟨us, hts, hus⟩ := ih h
    exact ⟨us, hts, .space hc hus⟩
  | case3 => cases h
  | case4 seen c cs hc t rest hread ih =>
    obtain ⟨us, hts, hus⟩ := ih h
    obtain ⟨w, hcs, hw⟩ := readToken?_local hread
    have hw' := hw [] fun _ => nofun
    rw [List.append_nil] at hw'
    refine ⟨t :: us, by simpa using hts, ?_⟩
    rw [hcs]
    exact .token hw' hus

namespace Reader

/-- After a value comes no number. -/
theorem isNumber_of_after {r : Reader} {v : Json} {stack : List Frame} {t : Token}
    (h : (after v stack).step t = some r) : t.isNumber = false := by
  cases t with
  | number n =>
    rcases stack with _ | ⟨_ | _, _⟩ <;> cases h
  | _ => rfl

/-- After a number comes no other one. -/
theorem isNumber_of_step {r r' r'' : Reader} {t u : Token} (h : r.step t = some r')
    (ht : t.isNumber = true) (h' : r'.step u = some r'') : u.isNumber = false := by
  cases t with
  | number n =>
    have hafter : ∃ v stack, r' = after v stack := by
      cases r with
      | value | firstItem => exact ⟨_, _, (Option.some.inj h).symm⟩
      | after v stack => exact absurd (isNumber_of_after h) nofun
      | _ => cases h
    obtain ⟨v, stack, rfl⟩ := hafter
    exact isNumber_of_after h'
  | _ => cases ht

end Reader

/-- Where characters lay out tokens that no number follows, a number ends before them. -/
theorem LaidOut.endsNumber {cs : List Char} {ts : List Token} (h : LaidOut cs ts)
    (hts : ∀ t ∈ ts.head?, t.isNumber = false) : EndsNumber cs := by
  cases h with
  | done => exact nofun
  | @space c _ _ hc _ =>
    rintro _ ⟨⟩
    simp only [isSpace, Bool.or_eq_true, decide_eq_true_eq, or_assoc] at hc
    rcases hc with rfl | rfl | rfl | rfl <;> decide
  | token hw _ =>
    obtain ⟨c, w', rfl, -, hends⟩ := readToken?_head hw
    exact hends (hts _ rfl) _

/-- Characters that lay out tokens are split into them, if a reader takes the tokens: it takes no
    two numbers in a row, so no number runs into another one. -/
theorem LaidOut.tokensFrom? {cs : List Char} {ts : List Token} (h : LaidOut cs ts)
    {r r' : Reader} (hr : r.steps ts = some r') (seen : List Token) :
    tokensFrom? seen cs = some (seen.reverse ++ ts) := by
  induction h generalizing r seen with
  | done => rw [Json.tokensFrom?, List.append_nil]
  | space hc _ ih => rw [Json.tokensFrom?, if_pos hc, ih hr]
  | @token w cs t ts hw hcs ih =>
    rw [Reader.steps] at hr
    split at hr
    · rename_i r₁ hstep
      -- After a number comes a token that ends it, or the end of the text.
      have hends (ht : t.isNumber = true) : EndsNumber cs := by
        refine hcs.endsNumber fun u hu => ?_
        cases ts with
        | nil => cases hu
        | cons u' us =>
          obtain rfl := Option.some.inj hu
          rw [Reader.steps] at hr
          split at hr
          · exact Reader.isNumber_of_step hstep ht ‹_›
          · cases hr
      obtain ⟨w', hw', hread⟩ := readToken?_local hw
      rw [List.append_nil] at hw'
      subst hw'
      rw [tokensFrom?_of_readToken? seen (hread cs hends), ih hr, List.reverse_cons,
        List.append_assoc, List.singleton_append]
    · cases hr

/-! ### The tokens that have been read -/

/-- Parts of a list that have been read, each with the comma behind it. -/
def commaTokens {α : Type} (f : α → List Token) (l : List α) : List Token :=
  l.flatMap fun a => f a ++ [.comma]

/-- A list is its parts with the commas behind them, its last part and its end. -/
theorem listedTokens_append {α : Type} (f : α → List Token) (close : Token) (l : List α) (a : α) :
    listedTokens f close (l ++ [a]) = commaTokens f l ++ f a ++ [close] := by
  induction l with
  | nil => rfl
  | cons b l ih =>
    obtain ⟨c, l', hl⟩ := List.exists_cons_of_ne_nil (List.append_ne_nil_of_right_ne_nil l
      (List.cons_ne_nil a []))
    rw [hl] at ih
    rw [List.cons_append, hl, listedTokens, ih]
    simp [commaTokens]

/-- The tokens that have been read of an array or object that has been entered. -/
def Frame.tokens : Frame → List Token
  | .array items => .openArray :: commaTokens Json.tokens items.reverse
  | .object members key =>
    .openObject :: commaTokens pairTokens members.reverse ++ [.string key, .colon]

/-- The tokens that have been read of all that has been entered. -/
def stackTokens : List Frame → List Token
  | [] => []
  | frame :: stack => stackTokens stack ++ frame.tokens

namespace Reader

/-- The tokens that have been read when a reader stands somewhere. -/
def tokens : Reader → List Token
  | .value stack => stackTokens stack
  | .firstItem stack => stackTokens stack ++ [.openArray]
  | .firstKey stack => stackTokens stack ++ [.openObject]
  | .key members stack =>
    stackTokens stack ++ .openObject :: commaTokens pairTokens members.reverse
  | .colon members k stack =>
    stackTokens stack ++ .openObject :: commaTokens pairTokens members.reverse ++ [.string k]
  | .after v stack => stackTokens stack ++ v.tokens

/-- Where a value starts, one more token has been read. -/
theorem tokens_startValue {stack : List Frame} {t : Token} {r : Reader}
    (h : startValue stack t = some r) : r.tokens = stackTokens stack ++ [t] := by
  cases t with
  | closeArray | closeObject | colon | comma => cases h
  | _ =>
    obtain rfl := Option.some.inj h
    simp [tokens, Json.tokens]

/-- A token that is read is the last one that has been read. -/
theorem tokens_step {r r' : Reader} {t : Token} (h : r.step t = some r') :
    r'.tokens = r.tokens ++ [t] := by
  fun_cases step r t with
  | case1 => exact tokens_startValue h
  | case3 stack t hne =>
    have h' : startValue (.array [] :: stack) t = some r' := by
      rw [step] at h
      · exact h
      · exact hne
    rw [tokens_startValue h']
    rfl
  | case6 | case8 | case10 | case15 =>
    -- Nothing else is read here.
    rw [step] at h
    · cases h
    all_goals assumption
  | case11 v items stack =>
    obtain rfl := Option.some.inj h
    simp [tokens, stackTokens, Frame.tokens, commaTokens]
  | case12 v items stack =>
    obtain rfl := Option.some.inj h
    simp [tokens, stackTokens, Frame.tokens, Json.tokens, itemTokens_eq, listedTokens_append]
  | case13 v members k stack =>
    obtain rfl := Option.some.inj h
    simp [tokens, stackTokens, Frame.tokens, commaTokens, pairTokens]
  | case14 v members k stack =>
    obtain rfl := Option.some.inj h
    simp [tokens, stackTokens, Frame.tokens, Json.tokens, memberTokens_eq, listedTokens_append,
      pairTokens]
  | _ =>
    obtain rfl := Option.some.inj h
    simp [tokens, stackTokens, Frame.tokens, commaTokens, Json.tokens, itemTokens, memberTokens]

theorem tokens_steps {r r' : Reader} {ts : List Token} (h : r.steps ts = some r') :
    r'.tokens = r.tokens ++ ts := by
  induction ts generalizing r with
  | nil =>
    obtain rfl := Option.some.inj h
    rw [List.append_nil]
  | cons t ts ih =>
    rw [steps] at h
    split at h
    · rename_i r₁ hstep
      rw [ih h, tokens_step hstep, List.append_assoc, List.singleton_append]
    · cases h

end Reader

/-- Tokens are those of a value exactly if they are read as the value. -/
theorem ofTokens?_eq_some_iff {ts : List Token} {j : Json} :
    ofTokens? ts = some j ↔ j.tokens = ts := by
  constructor
  · intro h
    unfold ofTokens? at h
    split at h
    · rename_i v hv
      obtain rfl := Option.some.inj h
      exact Reader.tokens_steps hv
    · cases h
  · rintro rfl
    exact ofTokens?_tokens j

/-! ### The texts of a value -/

/-- The text lays out the tokens of the value. -/
def ShownBy (j : Json) (s : String) : Prop := LaidOut s.toList j.tokens

/-- A text that is split into the tokens of a value shows it. -/
theorem shownBy_of_tokens? {s : String} {j : Json} (h : tokens? s = some j.tokens) :
    j.ShownBy s := by
  obtain ⟨ts, hts, hlaid⟩ := laidOut_of_tokensFrom? h
  rw [ShownBy, hts]
  exact hlaid

/-- A text is read as a value exactly if it shows the value. -/
theorem parse?_eq_some_iff {s : String} {j : Json} : parse? s = some j ↔ j.ShownBy s := by
  constructor
  · intro h
    obtain ⟨ts, hts, hj⟩ := Option.bind_eq_some_iff.1 h
    rw [← ofTokens?_eq_some_iff.1 hj] at hts
    exact shownBy_of_tokens? hts
  · intro h
    have hreads := reads j [] []
    rw [List.append_nil, Reader.steps] at hreads
    have htokens := LaidOut.tokensFrom? h hreads []
    rw [List.reverse_nil, List.nil_append] at htokens
    rw [parse?, tokens?, htokens, Option.bind_some, ofTokens?_tokens]

theorem Written.shownBy_pretty {j : Json} (h : j.Written) : j.ShownBy j.pretty :=
  shownBy_of_tokens? h.tokens?_pretty

/-- A text shows one value at most. -/
theorem ShownBy.unique {s : String} {j k : Json} (hj : j.ShownBy s) (hk : k.ShownBy s) : j = k :=
  Option.some.inj ((parse?_eq_some_iff.2 hj).symm.trans (parse?_eq_some_iff.2 hk))

end Json

end MaterialNet
