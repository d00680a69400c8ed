import RecordMapping.Proofs.Json.Numeral

/-!
# The text of tokens read back

The text of a document is read back into its tokens, except that numbers are read anew from their
texts. A numeral and a word end where a character follows that cannot belong to them; in a document
this is a comma or a closing bracket, or the end of the text.
-/

namespace RecordMapping.Json

theorem lexFrom_cons {c : Char} {state state' : LexState} {tokens : List Token}
    (h : lexStep c state = some (tokens, state')) (rest : List Char) :
    lexFrom state (c :: rest) = (lexFrom state' rest).map (tokens ++ ·) := by
  rw [lexFrom, h]
  show (lexFrom state' rest).bind (fun more => some (tokens ++ more)) = _
  cases lexFrom state' rest <;> rfl

/-- A character that completes no token. -/
theorem lexFrom_silent {c : Char} {state state' : LexState}
    (h : lexStep c state = some ([], state')) (rest : List Char) :
    lexFrom state (c :: rest) = lexFrom state' rest := by
  rw [lexFrom_cons h]
  exact Option.map_id'

/-- Text after which a numeral or a word ends. -/
def Delimited (rest : List Char) : Prop :=
  ∀ c ∈ rest.head?, isNumeralChar c = false ∧ c.isAlpha = false

/-! ## Strings -/

theorem lexStep_backslash (chars : List Char) :
    lexStep '\\' (.string chars) = some ([], .escape chars) := rfl

/-- A character is read back from its escape of one letter. -/
theorem lexFrom_shortEscape {e c : Char} (he : e ≠ 'u') (hc : shortEscape? e = some c)
    (chars rest : List Char) :
    lexFrom (.string chars) (['\\', e] ++ rest) = lexFrom (.string (c :: chars)) rest := by
  have hescape : lexStep e (.escape chars) = some ([], .string (c :: chars)) := by
    rw [lexStep, if_neg he, hc]
    rfl
  show lexFrom _ ('\\' :: e :: rest) = _
  rw [lexFrom_silent (lexStep_backslash chars), lexFrom_silent hescape]

/-- A digit of a numeric escape that is not the last one. -/
theorem lexStep_unicode {c : Char} {digit : Nat} (hc : hexValue? c = some digit)
    (chars : List Char) (more value : Nat) :
    lexStep c (.unicode chars none (more + 2) value)
      = some ([], .unicode chars none (more + 1) (value * 16 + digit)) := by
  rw [lexStep, hc]
  rfl

/-- A control character is read back from its numeric escape. -/
theorem lexFrom_numericEscape {c : Char} (hc : c.toNat < 0x20) (chars rest : List Char) :
    lexFrom (.string chars)
        (['\\', 'u', '0', '0', hexDigit (c.toNat / 16), hexDigit (c.toNat % 16)] ++ rest)
      = lexFrom (.string (c :: chars)) rest := by
  have hdigits : ∀ n < 0x20, hexValue? (hexDigit (n / 16)) = some (n / 16) ∧
      hexValue? (hexDigit (n % 16)) = some (n % 16) := by decide
  obtain ⟨hhigh, hlow⟩ := hdigits c.toNat hc
  have hzero : hexValue? '0' = some 0 := by decide
  have hu : lexStep 'u' (.escape chars) = some ([], .unicode chars none 4 0) := rfl
  -- the last digit completes the character
  have hlast : lexStep (hexDigit (c.toNat % 16)) (.unicode chars none 1 (c.toNat / 16))
      = some ([], .string (c :: chars)) := by
    have hvalue : c.toNat / 16 * 16 + c.toNat % 16 = c.toNat := by omega
    have hend : endUnicode chars c.toNat none = some (.string (c :: chars)) := by
      rw [endUnicode, if_neg (by omega), if_neg (by omega), Char.ofNat_toNat]
    rw [lexStep, hlow]
    show (endUnicode chars (c.toNat / 16 * 16 + c.toNat % 16) none).bind (fun s => some ([], s)) = _
    rw [hvalue, hend]
    rfl
  show lexFrom _ ('\\' :: 'u' :: '0' :: '0' :: _ :: _ :: rest) = _
  rw [lexFrom_silent (lexStep_backslash chars), lexFrom_silent hu,
    lexFrom_silent (lexStep_unicode hzero chars 2 0),
    lexFrom_silent (lexStep_unicode hzero chars 1 _),
    lexFrom_silent (lexStep_unicode hhigh chars 0 _)]
  simp only [Nat.zero_mul, Nat.zero_add]
  rw [lexFrom_silent hlast]

/-- A character is written with an escape of one letter, or is a control character that has none, or
is written as it is. -/
theorem escapedChar_cases (c : Char) :
    (∃ e, e ≠ 'u' ∧ shortEscape? e = some c ∧ escapedChar c = ['\\', e]) ∨
      (c.toNat < 0x20 ∧ escapedChar c
        = ['\\', 'u', '0', '0', hexDigit (c.toNat / 16), hexDigit (c.toNat % 16)]) ∨
      (c ≠ '"' ∧ c ≠ '\\' ∧ ¬c.toNat < 0x20 ∧ escapedChar c = [c]) := by
  unfold escapedChar
  -- the quote, the backslash and five controls
  iterate 7
    split
    · next h =>
      subst h
      exact .inl ⟨_, by decide, rfl, rfl⟩
  split
  · next hc => exact .inr (.inl ⟨hc, rfl⟩)
  · next hquote hbackslash _ _ _ _ _ hc => exact .inr (.inr ⟨hquote, hbackslash, hc, rfl⟩)

/-- A character of a string is read back from the way it is written. -/
theorem lexFrom_escapedChar (c : Char) (chars rest : List Char) :
    lexFrom (.string chars) (escapedChar c ++ rest) = lexFrom (.string (c :: chars)) rest := by
  rcases escapedChar_cases c with
    ⟨e, he, hc, htext⟩ | ⟨hc, htext⟩ | ⟨hquote, hbackslash, hc, htext⟩
  · rw [htext]
    exact lexFrom_shortEscape he hc chars rest
  · rw [htext]
    exact lexFrom_numericEscape hc chars rest
  · have hstep : lexStep c (.string chars) = some ([], .string (c :: chars)) := by
      rw [lexStep, if_neg hquote, if_neg hbackslash, if_neg hc]
    rw [htext]
    exact lexFrom_silent hstep rest

/-- The characters of a string up to its closing quote. -/
theorem lexFrom_string (cs chars rest : List Char) :
    lexFrom (.string chars) (cs.flatMap escapedChar ++ '"' :: rest)
      = (lexFrom .between rest).map (.string (String.ofList (chars.reverse ++ cs)) :: ·) := by
  induction cs generalizing chars with
  | nil =>
    have hquote : lexStep '"' (.string chars)
        = some ([.string (String.ofList chars.reverse)], .between) := rfl
    show lexFrom _ ('"' :: rest) = _
    rw [lexFrom_cons hquote, List.append_nil]
    rfl
  | cons c cs ih =>
    rw [List.flatMap_cons, List.append_assoc, lexFrom_escapedChar, ih, List.reverse_cons,
      List.append_assoc, List.singleton_append]

/-! ## Numerals and words -/

/-- What was collected is a token of its own when the next character begins another one. -/
theorem lexFrom_pending {state : LexState} {d : Char} {token? : Option Token}
    (h : lexStep d state = token?.bind fun token =>
      (startToken d).map fun p => (token :: p.1, p.2)) (rest : List Char) :
    lexFrom state (d :: rest)
      = token?.bind fun token => (lexFrom .between (d :: rest)).map (token :: ·) := by
  rw [lexFrom, h]
  cases token? with
  | none => rfl
  | some token =>
    show _ = Option.map _ ((startToken d).bind _)
    cases startToken d with
    | none => rfl
    | some p =>
      show (lexFrom p.2 rest).bind _ = Option.map _ ((lexFrom p.2 rest).bind _)
      cases lexFrom p.2 rest <;> rfl

/-- A numeral that has been begun is read as a whole when it ends. -/
theorem lexFrom_numeral {cs : List Char} (hcs : ∀ c ∈ cs, isNumeralChar c = true)
    (chars : List Char) {rest : List Char} (hrest : Delimited rest) :
    lexFrom (.numeral chars) (cs ++ rest)
      = ((readNumber (chars.reverse ++ cs)).map .number).bind fun token =>
          (lexFrom .between rest).map (token :: ·) := by
  induction cs generalizing chars with
  | nil =>
    rw [List.nil_append, List.append_nil]
    cases rest with
    | nil => cases hnumber : readNumber chars.reverse <;> simp [lexFrom, lexEnd, hnumber]
    | cons d rest =>
      have hd : ¬isNumeralChar d = true := by simp [(hrest d rfl).1]
      refine lexFrom_pending ?_ rest
      rw [lexStep, if_neg hd]
      cases readNumber chars.reverse with
      | none => rfl
      | some n => cases startToken d <;> rfl
  | cons c cs ih =>
    have hc : lexStep c (.numeral chars) = some ([], .numeral (c :: chars)) := by
      rw [lexStep, hcs c List.mem_cons_self, if_pos rfl]
    rw [List.cons_append, lexFrom_silent hc, ih (fun c' hc' => hcs c' (List.mem_cons_of_mem c hc')),
      List.reverse_cons, List.append_assoc, List.singleton_append]

/-- A word that has been begun is read as a whole when it ends. -/
theorem lexFrom_word {cs : List Char} (hcs : cs.all Char.isAlpha = true)
    (letters : List Char) {rest : List Char} (hrest : Delimited rest) :
    lexFrom (.word letters) (cs ++ rest)
      = (wordToken? (letters.reverse ++ cs)).bind fun token =>
          (lexFrom .between rest).map (token :: ·) := by
  induction cs generalizing letters with
  | nil =>
    rw [List.nil_append, List.append_nil]
    cases rest with
    | nil => cases hword : wordToken? letters.reverse <;> simp [lexFrom, lexEnd, hword]
    | cons d rest =>
      have hd : ¬d.isAlpha = true := by simp [(hrest d rfl).2]
      refine lexFrom_pending ?_ rest
      rw [lexStep, if_neg hd]
      cases wordToken? letters.reverse with
      | none => rfl
      | some token => cases startToken d <;> rfl
  | cons c cs ih =>
    rw [List.all_cons, Bool.and_eq_true] at hcs
    have hc : lexStep c (.word letters) = some ([], .word (c :: letters)) := by
      rw [lexStep, hcs.1, if_pos rfl]
    rw [List.cons_append, lexFrom_silent hc, ih hcs.2, List.reverse_cons, List.append_assoc,
      List.singleton_append]

/-! ## Tokens -/

/-- What a token is read back as. A number is read anew from its text. -/
def Token.reread : Token → Option Token
  | .number n => (readNumber (numberText n).toList).map .number
  | token => some token

/-- Whether a token ends only where the next one begins. -/
def Token.isOpen : Token → Bool
  | .null | .bool _ | .number _ => true
  | _ => false

/-- A token of one character. -/
theorem lexFrom_between_punctuation (c : Char) (token : Token)
    (h : startToken c = some ([token], .between)) (rest : List Char) :
    lexFrom .between (c :: rest) = (lexFrom .between rest).map (token :: ·) := by
  have hstep : lexStep c .between = some ([token], .between) := h
  exact lexFrom_cons hstep rest

/-- The start of a word. -/
theorem lexFrom_between_word {c : Char} (hc : c = 'n' ∨ c = 't' ∨ c = 'f') (rest : List Char) :
    lexFrom .between (c :: rest) = lexFrom (.word [c]) rest := by
  refine lexFrom_silent ?_ rest
  rcases hc with rfl | rfl | rfl <;> rfl

/-- The start of a numeral. -/
theorem lexFrom_between_numeral {c : Char} (hc : isNumeralChar c = true)
    (halpha : c.isAlpha = false) (rest : List Char) :
    lexFrom .between (c :: rest) = lexFrom (.numeral [c]) rest := by
  have hspace : ¬isSpace c = true := by
    intro hspace
    rw [isSpace, Bool.or_eq_true, Bool.or_eq_true, Bool.or_eq_true, decide_eq_true_eq,
      decide_eq_true_eq, decide_eq_true_eq, decide_eq_true_eq] at hspace
    rcases hspace with ((rfl | rfl) | rfl) | rfl <;> exact absurd hc (by decide)
  have hquote : c ≠ '"' := by
    rintro rfl
    exact absurd hc (by decide)
  refine lexFrom_silent ?_ rest
  rw [lexStep, startToken, if_neg hspace, if_neg hquote, if_pos ⟨hc, by simp [halpha]⟩]

/-- The text of a token is read back as one token. -/
theorem lexFrom_token (token : Token) {rest : List Char}
    (hrest : token.isOpen = true → Delimited rest) :
    lexFrom .between (token.chars ++ rest)
      = token.reread.bind fun token => (lexFrom .between rest).map (token :: ·) := by
  cases token with
  | openArray => exact lexFrom_between_punctuation '[' .openArray rfl rest
  | closeArray => exact lexFrom_between_punctuation ']' .closeArray rfl rest
  | openObject => exact lexFrom_between_punctuation '\x7b' .openObject rfl rest
  | closeObject => exact lexFrom_between_punctuation '\x7d' .closeObject rfl rest
  | comma => exact lexFrom_between_punctuation ',' .comma rfl rest
  | colon => exact lexFrom_between_punctuation ':' .colon rfl rest
  | null =>
    show lexFrom .between ('n' :: (['u', 'l', 'l'] ++ rest)) = _
    rw [lexFrom_between_word (by decide), lexFrom_word (by decide) _ (hrest rfl)]
    rfl
  | bool b =>
    cases b with
    | true =>
      show lexFrom .between ('t' :: (['r', 'u', 'e'] ++ rest)) = _
      rw [lexFrom_between_word (by decide), lexFrom_word (by decide) _ (hrest rfl)]
      rfl
    | false =>
      show lexFrom .between ('f' :: (['a', 'l', 's', 'e'] ++ rest)) = _
      rw [lexFrom_between_word (by decide), lexFrom_word (by decide) _ (hrest rfl)]
      rfl
  | number n =>
    obtain ⟨hchars, c, cs, htext, halpha⟩ := isNumeralText_numberText n
    show lexFrom .between ((numberText n).toList ++ rest)
      = ((readNumber (numberText n).toList).map Token.number).bind _
    rw [htext] at hchars ⊢
    rw [List.cons_append, lexFrom_between_numeral (hchars c List.mem_cons_self) halpha,
      lexFrom_numeral (fun c' hc' => hchars c' (List.mem_cons_of_mem c hc')) _ (hrest rfl)]
    rfl
  | string s =>
    show lexFrom .between ('"' :: (s.toList.flatMap escapedChar ++ ['"']) ++ rest) = _
    have hquote : lexStep '"' .between = some ([], .string []) := rfl
    rw [List.cons_append, lexFrom_silent hquote, List.append_assoc, List.singleton_append,
      lexFrom_string, List.reverse_nil, List.nil_append, String.ofList_toList]
    rfl

/-! ## Documents -/

/-- Tokens that are read back, each as its own, from their texts one after the other, if the last
one ends there. -/
def ReadBack (tokens : List Token) : Prop :=
  ∀ rest, Delimited rest → lexFrom .between (tokens.flatMap Token.chars ++ rest)
    = (tokens.mapM Token.reread).bind fun read => (lexFrom .between rest).map (read ++ ·)

/-- Whether a token may follow one that does not end by itself. -/
def Token.isEnd : Token → Bool
  | .closeArray | .closeObject | .comma => true
  | _ => false

theorem Token.delimited_of_isEnd {token : Token} (h : token.isEnd = true) (rest : List Char) :
    Delimited (token.chars ++ rest) := by
  intro c hc
  cases token with
  | closeArray | closeObject | comma =>
    obtain rfl := Option.some.inj hc
    decide
  | openArray | openObject | colon | null | bool _ | number _ | string _ => cases h

theorem ReadBack.nil : ReadBack [] := by
  intro rest _
  show lexFrom .between rest = (lexFrom .between rest).map ([] ++ ·)
  exact Option.map_id'.symm

theorem ReadBack.single (token : Token) : ReadBack [token] := by
  intro rest hrest
  rw [List.flatMap_singleton, lexFrom_token token fun _ => hrest, List.mapM_cons, List.mapM_nil]
  cases token.reread <;> rfl

/-- A token that ends by itself may stand before any others. -/
theorem ReadBack.cons {token : Token} {tokens : List Token} (htoken : token.isOpen = false)
    (h : ReadBack tokens) : ReadBack (token :: tokens) := by
  have hclosed : ¬token.isOpen = true := by simp [htoken]
  intro rest hrest
  rw [List.flatMap_cons, List.append_assoc, lexFrom_token token fun ho => absurd ho hclosed,
    h rest hrest, List.mapM_cons]
  cases token.reread with
  | none => rfl
  | some first =>
    show Option.map _ ((tokens.mapM Token.reread).bind _)
      = ((tokens.mapM Token.reread).bind _).bind _
    cases tokens.mapM Token.reread with
    | none => rfl
    | some read =>
      show Option.map _ (Option.map _ (lexFrom .between rest))
        = Option.map _ (lexFrom .between rest)
      rw [Option.map_map]
      rfl

/-- Tokens may stand before others of which the first one ends them. -/
theorem ReadBack.append {tokens later : List Token} {token : Token} (h : ReadBack tokens)
    (htoken : token.isEnd = true) (hmore : ReadBack (token :: later)) :
    ReadBack (tokens ++ token :: later) := by
  intro rest hrest
  have hdelimited : Delimited ((token :: later).flatMap Token.chars ++ rest) := by
    rw [List.flatMap_cons, List.append_assoc]
    exact Token.delimited_of_isEnd htoken _
  rw [List.flatMap_append, List.append_assoc, h _ hdelimited, hmore rest hrest, List.mapM_append]
  cases tokens.mapM Token.reread with
  | none => rfl
  | some read =>
    show Option.map _ (((token :: later).mapM Token.reread).bind _)
      = (((token :: later).mapM Token.reread).bind _).bind _
    cases (token :: later).mapM Token.reread with
    | none => rfl
    | some read' =>
      show Option.map _ (Option.map _ (lexFrom .between rest))
        = Option.map _ (lexFrom .between rest)
      rw [Option.map_map]
      congr 1
      funext last
      exact (List.append_assoc read read' last).symm

mutual
/-- The tokens of a document are read back. -/
theorem readBack_tokens (json : Json) : ReadBack (tokens json) := by
  cases json with
  | null | bool _ | number _ | string _ => exact .single _
  | array items =>
    have hopen : ReadBack (.openArray :: itemTokens items) := .cons rfl (readBack_itemTokens items)
    exact hopen.append rfl (.single .closeArray)
  | object members =>
    have hopen : ReadBack (.openObject :: memberTokens members) :=
      .cons rfl (readBack_memberTokens members)
    exact hopen.append rfl (.single .closeObject)
/-- The tokens of the items of an array are read back. -/
theorem readBack_itemTokens (items : List Json) : ReadBack (itemTokens items) := by
  match items with
  | [] => exact .nil
  | [item] => exact readBack_tokens item
  | item :: next :: rest =>
    exact (readBack_tokens item).append rfl (.cons rfl (readBack_itemTokens (next :: rest)))
/-- The tokens of the members of an object are read back. -/
theorem readBack_memberTokens (members : List (String × Json)) :
    ReadBack (memberTokens members) := by
  match members with
  | [] => exact .nil
  | [(key, value)] => exact .cons rfl (.cons rfl (readBack_tokens value))
  | (key, value) :: next :: rest =>
    have hfirst : ReadBack (.string key :: .colon :: tokens value) :=
      .cons rfl (.cons rfl (readBack_tokens value))
    exact hfirst.append rfl (.cons rfl (readBack_memberTokens (next :: rest)))
end

/-- The text of a document is read back into its tokens, the numbers read anew. -/
theorem lex_text (json : Json) : lex (text json).toList = (tokens json).mapM Token.reread := by
  have h := readBack_tokens json [] (by intro c hc; cases hc)
  rw [List.append_nil] at h
  rw [text, String.toList_ofList, lex, h]
  cases (tokens json).mapM Token.reread with
  | none => rfl
  | some read =>
    show some (read ++ []) = some read
    rw [List.append_nil]

end RecordMapping.Json
