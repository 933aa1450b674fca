import Mathlib.Data.List.Forall2
import Legible.Json.Token
import Legible.Proofs.Decimal.Integers

/-!
The texts that spell given tokens, and that they are cut into these tokens.

A character of a string has several spellings, and blanks may stand between any two tokens. The one
thing that can run into what follows is a number, so lexing asks for something else after it.
-/

set_option autoImplicit false

namespace Legible.Json

open List (Forall₂)

def IsHexDigit (value : Nat) (c : Char) : Prop :=
  "0123456789abcdef".toList[value]? = some c ∨ "0123456789ABCDEF".toList[value]? = some c

def SpelledCode (code : Nat) (digits : List Char) : Prop :=
  Forall₂ IsHexDigit [code / 0x1000, code / 0x100 % 0x10, code / 0x10 % 0x10, code % 0x10] digits

def namedEscapes : List (Char × Char) :=
  [('"', '"'), ('\\', '\\'), ('/', '/'), ('b', '\x08'), ('f', '\x0C'), ('n', '\n'), ('r', '\r'),
    ('t', '\t')]

/-- The spellings of one character in a string. -/
inductive SpelledChar : Char → List Char → Prop
  | plain {c : Char} : c ≠ '"' → c ≠ '\\' → 0x20 ≤ c.toNat → SpelledChar c [c]
  | named {c letter : Char} : (letter, c) ∈ namedEscapes → SpelledChar c ['\\', letter]
  | code {c : Char} {digits : List Char} : SpelledCode c.toNat digits →
      SpelledChar c ('\\' :: 'u' :: digits)
  /-- A character beyond 16 bits, as its two surrogates. -/
  | pair {c : Char} {high low : List Char} : 0x10000 ≤ c.toNat →
      SpelledCode (0xD800 + (c.toNat - 0x10000) / 0x400) high →
      SpelledCode (0xDC00 + (c.toNat - 0x10000) % 0x400) low →
      SpelledChar c ('\\' :: 'u' :: (high ++ '\\' :: 'u' :: low))

inductive SpelledText : List Char → List Char → Prop
  | nil : SpelledText [] []
  | cons {c : Char} {text spelling rest : List Char} : SpelledChar c spelling →
      SpelledText text rest → SpelledText (c :: text) (spelling ++ rest)

theorem SpelledText.plain {text : List Char}
    (all : text.all fun c => c ≠ '"' ∧ c ≠ '\\' ∧ 0x20 ≤ c.toNat) : SpelledText text text := by
  induction text with
  | nil => exact .nil
  | cons c rest ih =>
    rw [List.all_cons, Bool.and_eq_true, decide_eq_true_eq] at all
    obtain ⟨⟨noQuote, noBackslash, printable⟩, all⟩ := all
    exact .cons (.plain noQuote noBackslash printable) (ih all)

/-- The spellings of a token; a number is spelled only if it is an integer. -/
inductive SpelledToken : Token → List Char → Prop
  | openBrace : SpelledToken .openBrace ['\x7b']
  | closeBrace : SpelledToken .closeBrace ['\x7d']
  | openBracket : SpelledToken .openBracket ['[']
  | closeBracket : SpelledToken .closeBracket [']']
  | colon : SpelledToken .colon [':']
  | comma : SpelledToken .comma [',']
  | string {text : String} {spelling : List Char} : SpelledText text.toList spelling →
      SpelledToken (.string text) ('"' :: (spelling ++ ['"']))
  | number (z : Int) : SpelledToken (.number (.ofInt z)) (Decimal.ofInt z).toList

inductive Spelled : List Token → List Char → Prop
  | nil {blanks : List Char} : blanks.all blank → Spelled [] blanks
  | cons {token : Token} {tokens : List Token} {blanks spelling rest : List Char} :
      blanks.all blank → SpelledToken token spelling → Spelled tokens rest →
      Spelled (token :: tokens) (blanks ++ (spelling ++ rest))

theorem Spelled.unspaced {token : Token} {tokens : List Token} {spelling rest : List Char}
    (first : SpelledToken token spelling) (later : Spelled tokens rest) :
    Spelled (token :: tokens) (spelling ++ rest) :=
  .cons (List.all_nil : [].all blank = true) first later

theorem hexDigit?_of_isHexDigit {value : Nat} {c : Char} (digit : IsHexDigit value c) :
    Text.hexDigit? c = some value := by
  have lower : ∀ v < 16, ("0123456789abcdef".toList[v]?).bind Text.hexDigit? = some v := by decide
  have upper : ∀ v < 16, ("0123456789ABCDEF".toList[v]?).bind Text.hexDigit? = some v := by decide
  rcases digit with found | found
  · have := lower value (List.getElem?_eq_some_iff.1 found).1
    rwa [found] at this
  · have := upper value (List.getElem?_eq_some_iff.1 found).1
    rwa [found] at this

theorem takeHex?_spelled {code : Nat} {digits : List Char} (spelled : SpelledCode code digits)
    (rest : List Char) : Text.takeHex? 4 (digits ++ rest) = some (code, rest) := by
  have long := spelled.length_eq
  -- The four values are put together again in the base 16.
  have valued : Text.hexValue? digits = some code := by
    match digits, long with
    | [a, b, c, d], _ =>
      obtain ⟨first, second, third, fourth⟩ : IsHexDigit _ a ∧ IsHexDigit _ b ∧ IsHexDigit _ c ∧
        IsHexDigit _ d := by simpa [SpelledCode] using spelled
      simp only [Text.hexValue?, List.foldlM_cons, List.foldlM_nil, hexDigit?_of_isHexDigit first,
        hexDigit?_of_isHexDigit second, hexDigit?_of_isHexDigit third,
        hexDigit?_of_isHexDigit fourth, Option.map_some, Option.bind_eq_bind, Option.bind_some,
        Option.pure_def, Option.some.injEq]
      omega
  have four : digits.length = 4 := long.symm
  simp [Text.takeHex?, four, valued]

theorem namedEscape?_of_mem {c letter : Char} (named : (letter, c) ∈ namedEscapes) :
    letter ≠ 'u' ∧ namedEscape? letter = some c := by
  have all : ∀ pair ∈ namedEscapes, pair.1 ≠ 'u' ∧ namedEscape? pair.1 = some pair.2 := by decide
  exact all _ named

/-- No character is a surrogate, so its own code is never taken for the half of a pair. -/
theorem not_surrogate (c : Char) : ¬(0xD800 ≤ c.toNat ∧ c.toNat ≤ 0xDBFF) := by
  have valid : c.toNat < 0xD800 ∨ 0xDFFF < c.toNat ∧ c.toNat < 0x110000 := c.valid
  omega

theorem ofSurrogates_eq {c : Char} (beyond : 0x10000 ≤ c.toNat) :
    ofSurrogates (0xD800 + (c.toNat - 0x10000) / 0x400) (0xDC00 + (c.toNat - 0x10000) % 0x400) =
      c := by
  have same : 0x10000 + (0xD800 + (c.toNat - 0x10000) / 0x400 - 0xD800) * 0x400 +
      (0xDC00 + (c.toNat - 0x10000) % 0x400 - 0xDC00) = c.toNat := by omega
  rw [ofSurrogates, same, Char.ofNat_toNat]

theorem codeEscape?_code {c : Char} {digits : List Char} (spelled : SpelledCode c.toNat digits)
    (rest : List Char) : codeEscape? (digits ++ rest) = some (c, rest) := by
  simp only [codeEscape?, takeHex?_spelled spelled, if_neg (not_surrogate c),
    Character.ofCode?_toNat, Option.map_some]

theorem codeEscape?_pair {c : Char} {high low : List Char} (beyond : 0x10000 ≤ c.toNat)
    (first : SpelledCode (0xD800 + (c.toNat - 0x10000) / 0x400) high)
    (second : SpelledCode (0xDC00 + (c.toNat - 0x10000) % 0x400) low) (rest : List Char) :
    codeEscape? (high ++ '\\' :: 'u' :: (low ++ rest)) = some (c, rest) := by
  have bounded : c.toNat < 0x110000 := by
    have valid : c.toNat < 0xD800 ∨ 0xDFFF < c.toNat ∧ c.toNat < 0x110000 := c.valid
    omega
  have isHigh : 0xD800 ≤ 0xD800 + (c.toNat - 0x10000) / 0x400 ∧
      0xD800 + (c.toNat - 0x10000) / 0x400 ≤ 0xDBFF := by omega
  have isLow : 0xDC00 ≤ 0xDC00 + (c.toNat - 0x10000) % 0x400 ∧
      0xDC00 + (c.toNat - 0x10000) % 0x400 ≤ 0xDFFF := by omega
  simp only [codeEscape?, takeHex?_spelled first, if_pos isHigh, lowSurrogate?,
    takeHex?_spelled second, if_pos isLow, ofSurrogates_eq beyond]

theorem scanString?_escape {read escaped rest : List Char} {c : Char}
    (escape : escape? escaped = some (c, rest)) :
    scanString? read ('\\' :: escaped) = scanString? (c :: read) rest := by
  rw [scanString?]
  split
  next same =>
    cases escape.symm.trans same
    rfl
  next missing => cases escape.symm.trans missing

theorem scanString?_char {c : Char} {spelling : List Char} (spelled : SpelledChar c spelling)
    (read rest : List Char) :
    scanString? read (spelling ++ rest) = scanString? (c :: read) rest := by
  cases spelled with
  | plain noQuote noBackslash printable =>
    rw [List.singleton_append, scanString?]
    · rw [if_neg (Nat.not_lt.2 printable)]
    · exact noQuote
    · exact noBackslash
  | @named letter named =>
    obtain ⟨notCode, names⟩ := namedEscape?_of_mem named
    exact scanString?_escape (by simp [escape?, notCode, names])
  | code digits => exact scanString?_escape (codeEscape?_code digits rest)
  | pair beyond first second =>
    refine scanString?_escape ?_
    simpa [escape?] using codeEscape?_pair beyond first second rest

theorem scanString?_spelled {text spelling : List Char} (spelled : SpelledText text spelling)
    (read rest : List Char) :
    scanString? read (spelling ++ '"' :: rest) = some (read.reverse ++ text, rest) := by
  induction spelled generalizing read with
  | nil =>
    rw [List.nil_append, scanString?, List.append_nil]
  | cons char _ ih =>
    rw [List.append_assoc, scanString?_char char, ih, List.reverse_cons, List.append_assoc,
      List.singleton_append]

def Token.EndsBefore : Token → List Char → Prop
  | .number _, rest => Decimal.Numeral.endsInteger rest
  | _, _ => True

theorem next?_number {c : Char} (opens : c = '-' ∨ c.isDigit) (rest : List Char) :
    Token.next? (c :: rest) =
      (Decimal.Numeral.scan? (c :: rest)).map fun (literal, rest) => (.number literal, rest) := by
  unfold Token.next?
  split
  -- No sign of a token is a minus sign or a digit.
  all_goals first
    | rfl
    | next same => cases same; exact absurd opens (by decide)

theorem next?_literal {literal : Decimal.Numeral} {text rest : List Char}
    (spelled : Decimal.Numeral.Spelled literal text) (ends : Decimal.Numeral.endsInteger rest) :
    Token.next? (text ++ rest) = some (.number literal, rest) := by
  have scanned := Decimal.Numeral.scan?_append spelled ends
  obtain ⟨c, later, rfl, opens⟩ := spelled.head
  rw [List.cons_append] at scanned ⊢
  rw [next?_number opens, scanned]
  rfl

theorem next?_spelled {token : Token} {spelling rest : List Char}
    (spelled : SpelledToken token spelling) (ends : token.EndsBefore rest) :
    Token.next? (spelling ++ rest) = some (token, rest) := by
  cases spelled with
  | openBrace | closeBrace | openBracket | closeBracket | colon | comma => rfl
  | string text =>
    have scanned := scanString?_spelled text [] rest
    simp [Token.next?, scanned]
  | number z => exact next?_literal (Decimal.Numeral.spelled_ofInt z) ends

theorem endsInteger_blank {c : Char} (isBlank : blank c) (rest : List Char) :
    Decimal.Numeral.endsInteger (c :: rest) := by
  simp only [blank, Bool.or_eq_true, decide_eq_true_eq] at isBlank
  rintro _ ⟨⟩
  rcases isBlank with ((rfl | rfl) | rfl) | rfl <;> decide

theorem blank_of_opens {c : Char} (opens : c = '-' ∨ c.isDigit) : blank c = false := by
  rcases opens with rfl | digit
  · rfl
  · refine Bool.eq_false_iff.2 fun isBlank => ?_
    rw [((endsInteger_blank isBlank []) c rfl).1] at digit
    cases digit

theorem SpelledToken.head {token : Token} {spelling : List Char}
    (spelled : SpelledToken token spelling) :
    ∃ c rest, spelling = c :: rest ∧ blank c = false := by
  cases spelled with
  | openBrace | closeBrace | openBracket | closeBracket | colon | comma | string =>
    exact ⟨_, _, rfl, rfl⟩
  | number z =>
    obtain ⟨c, later, start, opens⟩ := Decimal.ofInt_head z
    exact ⟨c, later, start, blank_of_opens opens⟩

theorem tokensFrom?_blanks {blanks : List Char} (all : blanks.all blank) (read : List Token)
    (rest : List Char) : tokensFrom? read (blanks ++ rest) = tokensFrom? read rest := by
  induction blanks with
  | nil => rfl
  | cons c later ih =>
    rw [List.all_cons, Bool.and_eq_true] at all
    rw [List.cons_append, tokensFrom?, if_pos all.1, ih all.2]

theorem tokensFrom?_next {token : Token} {c : Char} {text rest : List Char}
    (noBlank : blank c = false) (next : Token.next? (c :: text) = some (token, rest))
    (read : List Token) : tokensFrom? read (c :: text) = tokensFrom? (token :: read) rest := by
  rw [tokensFrom?, noBlank]
  simp only [Bool.false_eq_true, if_false]
  split
  next same =>
    cases next.symm.trans same
    rfl
  next missing => cases next.symm.trans missing

theorem tokensFrom?_literal {literal : Decimal.Numeral} {text rest : List Char}
    (spelled : Decimal.Numeral.Spelled literal text) (ends : Decimal.Numeral.endsInteger rest)
    (read : List Token) :
    tokensFrom? read (text ++ rest) = tokensFrom? (.number literal :: read) rest := by
  have next := next?_literal spelled ends
  obtain ⟨c, later, rfl, opens⟩ := spelled.head
  exact tokensFrom?_next (blank_of_opens opens) next read

theorem tokensFrom?_token {token : Token} {spelling rest : List Char}
    (spelled : SpelledToken token spelling) (ends : token.EndsBefore rest) (read : List Token) :
    tokensFrom? read (spelling ++ rest) = tokensFrom? (token :: read) rest := by
  have next := next?_spelled spelled ends
  obtain ⟨c, later, rfl, noBlank⟩ := spelled.head
  exact tokensFrom?_next noBlank next read

/-- Tokens that can be spelled and cut apart again: every number is an integer, and what follows it
is a closing brace. -/
def Spellable : List Token → Prop
  | [] => True
  | .number literal :: rest =>
    (∃ z, literal = .ofInt z) ∧ rest.head? = some .closeBrace ∧ Spellable rest
  | _ :: rest => Spellable rest

theorem Spellable.append {first : List Token} (before : Spellable first) (second : List Token)
    (after : Spellable second) : Spellable (first ++ second) := by
  induction first with
  | nil => exact after
  | cons token rest ih =>
    cases token with
    | number =>
      obtain ⟨integer, brace, spellable⟩ := before
      have still : (rest ++ second).head? = some .closeBrace := by
        rw [List.head?_append, brace, Option.some_or]
      exact ⟨integer, still, ih spellable⟩
    | _ => exact ih before

theorem exists_spelledCode (code : Nat) (bounded : code < 0x10000) :
    ∃ digits, SpelledCode code digits := by
  have digit : ∀ value < 16, ∃ c, IsHexDigit value c := by
    intro value small
    exact ⟨_, .inl (List.getElem?_eq_getElem (by simpa using small))⟩
  obtain ⟨a, first⟩ := digit (code / 0x1000) (by omega)
  obtain ⟨b, second⟩ := digit (code / 0x100 % 0x10) (by omega)
  obtain ⟨c, third⟩ := digit (code / 0x10 % 0x10) (by omega)
  obtain ⟨d, fourth⟩ := digit (code % 0x10) (by omega)
  exact ⟨[a, b, c, d], .cons first (.cons second (.cons third (.cons fourth .nil)))⟩

theorem exists_spelledChar (c : Char) : ∃ spelling, SpelledChar c spelling := by
  by_cases quote : c = '"'
  · subst quote
    exact ⟨['\\', '"'], .named (by decide)⟩
  by_cases backslash : c = '\\'
  · subst backslash
    exact ⟨['\\', '\\'], .named (by decide)⟩
  by_cases printable : 0x20 ≤ c.toNat
  · exact ⟨_, .plain quote backslash printable⟩
  · obtain ⟨digits, code⟩ := exists_spelledCode c.toNat (by omega)
    exact ⟨_, .code code⟩

theorem exists_spelledText (text : List Char) : ∃ spelling, SpelledText text spelling := by
  induction text with
  | nil => exact ⟨_, .nil⟩
  | cons c rest ih =>
    obtain ⟨first, char⟩ := exists_spelledChar c
    obtain ⟨later, text⟩ := ih
    exact ⟨_, .cons char text⟩

theorem exists_spelled {tokens : List Token} (spellable : Spellable tokens) :
    ∃ text, Spelled tokens text := by
  induction tokens with
  | nil => exact ⟨[], .nil rfl⟩
  | cons token rest ih =>
    have first : (∃ spelling, SpelledToken token spelling) ∧ Spellable rest := by
      cases token with
      | openBrace | closeBrace | openBracket | closeBracket | colon | comma =>
        exact ⟨⟨_, by constructor⟩, spellable⟩
      | string text =>
        obtain ⟨_, spelled⟩ := exists_spelledText text.toList
        exact ⟨⟨_, .string spelled⟩, spellable⟩
      | number =>
        obtain ⟨⟨z, rfl⟩, -, rest⟩ := spellable
        exact ⟨⟨_, .number z⟩, rest⟩
    obtain ⟨⟨_, spelled⟩, rest⟩ := first
    obtain ⟨_, later⟩ := ih rest
    exact ⟨_, .unspaced spelled later⟩

theorem endsInteger_closeBrace {tokens : List Token} {text : List Char}
    (spelled : Spelled tokens text) (closes : tokens.head? = some .closeBrace)
    (rest : List Char) : Decimal.Numeral.endsInteger (text ++ rest) := by
  cases spelled with
  | nil => cases closes
  | @cons token tokens blanks spelling later all brace _ =>
    cases closes
    cases brace
    -- The brace itself ends the number, or the first blank in front of it does.
    cases blanks with
    | nil =>
      rintro _ ⟨⟩
      decide
    | cons c more =>
      rw [List.all_cons, Bool.and_eq_true] at all
      exact endsInteger_blank all.1 _

/-- A text is cut into the tokens that it spells, whatever comes after it. -/
theorem tokensFrom?_spelled {tokens : List Token} {text : List Char}
    (spelled : Spelled tokens text) (spellable : Spellable tokens) (read : List Token)
    (rest : List Char) :
    tokensFrom? read (text ++ rest) = tokensFrom? (tokens.reverse ++ read) rest := by
  induction spelled generalizing read with
  | nil all => exact tokensFrom?_blanks all read rest
  | @cons token tokens blanks spelling later all first following ih =>
    have ends : token.EndsBefore (later ++ rest) ∧ Spellable tokens := by
      cases token with
      | number =>
        exact ⟨endsInteger_closeBrace following spellable.2.1 rest, spellable.2.2⟩
      | _ => exact ⟨trivial, spellable⟩
    rw [List.append_assoc, List.append_assoc, tokensFrom?_blanks all,
      tokensFrom?_token first ends.1, ih ends.2, List.reverse_cons, List.append_assoc,
      List.singleton_append]

theorem tokens?_spelled {tokens : List Token} {text : List Char} (spelled : Spelled tokens text)
    (spellable : Spellable tokens) : tokens? text = some tokens := by
  have cut := tokensFrom?_spelled spelled spellable [] []
  rw [List.append_nil, List.append_nil] at cut
  rw [tokens?, cut, tokensFrom?, List.reverse_reverse]

/-- Tokens that were read stay in front of all that follow. -/
theorem tokensFrom?_prefix {read tokens : List Token} {text : List Char}
    (cut : tokensFrom? read text = some tokens) : ∃ later, tokens = read.reverse ++ later := by
  fun_induction tokensFrom? read text with
  | case1 read => exact ⟨[], by simpa using cut.symm⟩
  | case2 read c rest isBlank ih => exact ih cut
  | case3 read c rest noBlank token after next ih =>
    obtain ⟨later, rfl⟩ := ih cut
    exact ⟨token :: later, by simp⟩
  | case4 => cases cut

theorem tokensFrom?_more {read tokens : List Token} {c : Char} {rest : List Char}
    (noBlank : blank c = false) (cut : tokensFrom? read (c :: rest) = some tokens) :
    ∃ token later, tokens = read.reverse ++ token :: later := by
  rw [tokensFrom?, noBlank] at cut
  simp only [Bool.false_eq_true, if_false] at cut
  split at cut
  next token after _ =>
    obtain ⟨later, rfl⟩ := tokensFrom?_prefix cut
    exact ⟨token, later, by simp⟩
  next => cases cut

end Legible.Json
