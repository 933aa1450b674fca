import Legible.Character.Scalar
import Legible.Decimal.Numeral
import Legible.Text.Hexadecimal

/-!
Tokens of strict JSON, without the three literal names, which no term is spelled with.

Every token takes at least one character, so a text of any length is cut in finitely many steps.
-/

set_option autoImplicit false

namespace Legible.Json

inductive Token where
  | openBrace
  | closeBrace
  | openBracket
  | closeBracket
  | colon
  | comma
  | string (text : String)
  | number (literal : Decimal.Numeral)
  deriving DecidableEq, Repr

def blank (c : Char) : Bool :=
  c = ' ' || c = '\n' || c = '\t' || c = '\r'

def ofSurrogates (high low : Nat) : Char :=
  Char.ofNat (0x10000 + (high - 0xD800) * 0x400 + (low - 0xDC00))

def lowSurrogate? (high : Nat) : List Char → Option (Char × List Char)
  | '\\' :: 'u' :: text =>
    match Text.takeHex? 4 text with
    | some (low, rest) =>
      if 0xDC00 ≤ low ∧ low ≤ 0xDFFF then some (ofSurrogates high low, rest) else none
    | none => none
  | _ => none

theorem lowSurrogate?_length {high : Nat} {text rest : List Char} {c : Char}
    (read : lowSurrogate? high text = some (c, rest)) : rest.length < text.length := by
  unfold lowSurrogate? at read
  split at read
  · split at read
    · rename_i low later eq
      have := Text.takeHex?_length eq
      simp only [Option.ite_none_right_eq_some, Option.some.injEq, Prod.mk.injEq] at read
      obtain ⟨_, _, rfl⟩ := read
      simp only [List.length_cons]
      omega
    · simp at read
  · simp at read

def namedEscape? : Char → Option Char
  | '"' => some '"'
  | '\\' => some '\\'
  | '/' => some '/'
  | 'b' => some '\x08'
  | 'f' => some '\x0C'
  | 'n' => some '\n'
  | 'r' => some '\r'
  | 't' => some '\t'
  | _ => none

/-- The character that four hexadecimal digits name. A surrogate counts only with its other half. -/
def codeEscape? (text : List Char) : Option (Char × List Char) :=
  match Text.takeHex? 4 text with
  | some (code, rest) =>
    if 0xD800 ≤ code ∧ code ≤ 0xDBFF then lowSurrogate? code rest
    else (Character.ofCode? code).map fun c => (c, rest)
  | none => none

theorem codeEscape?_length {text rest : List Char} {c : Char}
    (read : codeEscape? text = some (c, rest)) : rest.length < text.length := by
  unfold codeEscape? at read
  split at read
  · rename_i code after eq
    have := Text.takeHex?_length eq
    split at read
    · have := lowSurrogate?_length read
      omega
    · simp only [Option.map_eq_some_iff, Prod.mk.injEq] at read
      obtain ⟨_, _, _, rfl⟩ := read
      omega
  · simp at read

def escape? : List Char → Option (Char × List Char)
  | [] => none
  | c :: rest =>
    if c = 'u' then codeEscape? rest else (namedEscape? c).map fun c => (c, rest)

theorem escape?_length {text rest : List Char} {c : Char}
    (read : escape? text = some (c, rest)) : rest.length < text.length := by
  unfold escape? at read
  split at read
  · simp at read
  · split at read
    · have := codeEscape?_length read
      simp only [List.length_cons]
      omega
    · simp only [Option.map_eq_some_iff, Prod.mk.injEq] at read
      obtain ⟨_, _, _, rfl⟩ := read
      simp

def scanString? (read text : List Char) : Option (List Char × List Char) :=
  match text with
  | [] => none
  | '"' :: rest => some (read.reverse, rest)
  | '\\' :: escaped =>
    match _eq : escape? escaped with
    | some (c, rest) => scanString? (c :: read) rest
    | none => none
  | c :: rest => if c.toNat < 0x20 then none else scanString? (c :: read) rest
termination_by text.length
decreasing_by
  · have := escape?_length _eq
    simp only [List.length_cons]
    omega
  · simp

theorem scanString?_length {read text found rest : List Char}
    (scanned : scanString? read text = some (found, rest)) : rest.length < text.length := by
  fun_induction scanString? read text with
  | case1 => simp at scanned
  | case2 => cases scanned; simp
  | case3 read escaped c after eq ih =>
    have := escape?_length eq
    have := ih scanned
    simp only [List.length_cons]
    omega
  | case4 => simp at scanned
  | case5 => simp at scanned
  | case6 read c after _ _ _ ih =>
    have := ih scanned
    simp only [List.length_cons]
    omega

def Token.next? : List Char → Option (Token × List Char)
  | '\x7b' :: rest => some (.openBrace, rest)
  | '\x7d' :: rest => some (.closeBrace, rest)
  | '[' :: rest => some (.openBracket, rest)
  | ']' :: rest => some (.closeBracket, rest)
  | ':' :: rest => some (.colon, rest)
  | ',' :: rest => some (.comma, rest)
  | '"' :: text => (scanString? [] text).map fun (found, rest) => (.string (String.ofList found), rest)
  | text => (Decimal.Numeral.scan? text).map fun (literal, rest) => (.number literal, rest)

theorem Token.next?_length {text rest : List Char} {token : Token}
    (read : next? text = some (token, rest)) : rest.length < text.length := by
  unfold next? at read
  split at read <;> try (cases read; simp)
  · simp only [Option.map_eq_some_iff, Prod.exists, Prod.mk.injEq] at read
    obtain ⟨_, _, eq, _, rfl⟩ := read
    have := scanString?_length eq
    simp only [List.length_cons]
    omega
  · simp only [Option.map_eq_some_iff, Prod.exists, Prod.mk.injEq] at read
    obtain ⟨_, _, eq, _, rfl⟩ := read
    exact Decimal.Numeral.scan?_length eq

def tokensFrom? (read : List Token) (text : List Char) : Option (List Token) :=
  match text with
  | [] => some read.reverse
  | c :: rest =>
    if blank c then tokensFrom? read rest
    else match _eq : Token.next? (c :: rest) with
      | some (token, rest) => tokensFrom? (token :: read) rest
      | none => none
termination_by text.length
decreasing_by
  · simp
  · exact Token.next?_length _eq

def tokens? (text : List Char) : Option (List Token) :=
  tokensFrom? [] text

end Legible.Json
