import Mathlib.Data.List.Infix
import Legible.Text.Quoted

/-!
Reading double quoted literals.

A backslash takes the character after it into the literal, a quote closes it, and a number sign
right before a left brace starts an interpolation. Escaped text is read to its end and says what was
escaped, in front of whatever does not turn its last number sign into an interpolation.
-/

set_option autoImplicit false

namespace Legible.Text

inductive Stop where
  | atEnd
  | atBackslash
  | atQuote (rest : List Char)
  | atInterpolation (rest : List Char)
  deriving DecidableEq, Repr

/-- What the inside of a literal says up to where reading it stops. -/
structure Inside where
  said : List Char
  stop : Stop
  deriving DecidableEq, Repr

def Inside.after (inside : Inside) (said : List Char) : Inside :=
  { inside with said := said ++ inside.said }

theorem Inside.after_cons (inside : Inside) (c : Char) (said : List Char) :
    inside.after (c :: said) = (inside.after said).after [c] := rfl

theorem Inside.after_eq_atEnd_iff {inside : Inside} {said whole : List Char} :
    inside.after said = ⟨whole, .atEnd⟩ ↔
      ∃ later, inside = ⟨later, .atEnd⟩ ∧ whole = said ++ later := by
  cases inside
  simp [Inside.after, eq_comm, and_comm]

def unescape : Char → Char
  | 'n' => '\n'
  | 't' => '\t'
  | 'r' => '\r'
  | c => c

def readInside : List Char → Inside
  | [] => ⟨[], .atEnd⟩
  | '"' :: rest => ⟨[], .atQuote rest⟩
  | '#' :: '\x7b' :: rest => ⟨[], .atInterpolation rest⟩
  | ['\\'] => ⟨[], .atBackslash⟩
  | '\\' :: c :: rest => (readInside rest).after [unescape c]
  | c :: rest => (readInside rest).after [c]

structure Unescaped (text : List Char) : Prop where
  quote : '"' ∉ text
  backslash : '\\' ∉ text
  interpolation : ¬ ['#', '\x7b'] <:+: text

instance (text : List Char) : Decidable (Unescaped text) :=
  decidable_of_iff ('"' ∉ text ∧ '\\' ∉ text ∧ ¬ ['#', '\x7b'] <:+: text)
    ⟨fun ⟨quote, backslash, interpolation⟩ => ⟨quote, backslash, interpolation⟩,
      fun ⟨quote, backslash, interpolation⟩ => ⟨quote, backslash, interpolation⟩⟩

/-- A character that neither closes the literal nor belongs to what follows it stands for itself. -/
theorem readInside_cons {c : Char} {rest : List Char} (quote : c ≠ '"') (backslash : c ≠ '\\')
    (interpolation : c = '#' → rest.head? ≠ some '\x7b') :
    readInside (c :: rest) = (readInside rest).after [c] := by
  rw [readInside]
  · exact quote
  · rintro later sign rfl
    exact interpolation sign rfl
  · exact fun slash => absurd slash backslash
  · exact fun _ _ slash => absurd slash backslash

theorem head?_escape_append {text tail : List Char}
    (brace : (escape text ++ tail).head? = some '\x7b') :
    text.head? = some '\x7b' ∨ text = [] ∧ tail.head? = some '\x7b' := by
  unfold escape at brace
  split at brace
  · exact .inr ⟨rfl, brace⟩
  all_goals simp_all

/-- Escaped text is read to its end, whatever follows it but a left brace. -/
theorem readInside_escape_append (text : List Char) {tail : List Char}
    (apart : tail.head? ≠ some '\x7b') :
    readInside (escape text ++ tail) = (readInside tail).after text := by
  fun_induction escape text with
  | case1 => rfl
  | case2 rest ih => rw [Inside.after_cons, ← ih]; rfl
  | case3 rest ih | case4 rest ih | case5 rest ih | case6 rest ih | case7 rest ih =>
    rw [Inside.after_cons, ← ih]
    rfl
  | case8 c rest noInterpolation quote backslash _ _ _ ih =>
    rw [Inside.after_cons, ← ih]
    refine readInside_cons quote backslash ?_
    -- The brace after a number sign would be the next character of the text itself.
    rintro rfl brace
    rcases head?_escape_append brace with next | ⟨-, brace⟩
    · obtain ⟨later, rfl⟩ := List.head?_eq_some_iff.1 next
      exact noInterpolation later rfl rfl
    · exact apart brace

theorem readInside_escape (text : List Char) : readInside (escape text) = ⟨text, .atEnd⟩ := by
  have apart : ([] : List Char).head? ≠ some '\x7b' := nofun
  have read := readInside_escape_append text apart
  rwa [List.append_nil, readInside, Inside.after, List.append_nil] at read

theorem readInside_append_quote {text said : List Char} (whole : readInside text = ⟨said, .atEnd⟩)
    (rest : List Char) : readInside (text ++ '"' :: rest) = ⟨said, .atQuote rest⟩ := by
  fun_induction readInside text generalizing said with
  | case1 => cases whole; rfl
  | case2 | case3 | case4 => cases whole
  | case5 c later ih =>
    obtain ⟨said, read, rfl⟩ := Inside.after_eq_atEnd_iff.1 whole
    have read' := ih read
    rw [List.cons_append, List.cons_append, readInside, read']
    rfl
  | case6 c later quote interpolation backslash escape ih =>
    obtain ⟨said, read, rfl⟩ := Inside.after_eq_atEnd_iff.1 whole
    have noBackslash : c ≠ '\\' := by
      rintro rfl
      cases later with
      | nil => exact backslash rfl rfl
      | cons d later => exact escape d later rfl rfl
    have noBrace : c = '#' → (later ++ '"' :: rest).head? ≠ some '\x7b' := by
      rintro rfl brace
      cases later with
      | nil => cases brace
      | cons d later =>
        cases brace
        exact interpolation later rfl rfl
    rw [List.cons_append, readInside_cons quote noBackslash noBrace, ih read]
    rfl

/-- The quote after escaped text is the one that closes the literal. -/
theorem readInside_escape_quote (text rest : List Char) :
    readInside (escape text ++ '"' :: rest) = ⟨text, .atQuote rest⟩ :=
  readInside_append_quote (readInside_escape text) rest

theorem length_said_le (text : List Char) : (readInside text).said.length ≤ text.length := by
  fun_induction readInside text with
  | case1 | case2 | case3 | case4 => simp
  | case5 c rest ih =>
    simp only [Inside.after, List.length_append, List.length_cons, List.length_nil]
    omega
  | case6 c rest _ _ _ _ ih =>
    simp only [Inside.after, List.length_append, List.length_cons, List.length_nil]
    omega

theorem unescaped_cons_iff {c : Char} {rest : List Char} :
    Unescaped (c :: rest) ↔
      c ≠ '"' ∧ c ≠ '\\' ∧ (c = '#' → rest.head? ≠ some '\x7b') ∧ Unescaped rest := by
  have starts : ['#', '\x7b'] <+: c :: rest ↔ c = '#' ∧ rest.head? = some '\x7b' := by
    cases rest <;> simp [List.cons_prefix_cons, eq_comm]
  constructor
  · rintro ⟨quote, backslash, interpolation⟩
    rw [List.infix_cons_iff, starts, not_or, not_and] at interpolation
    rw [List.mem_cons, not_or] at quote backslash
    exact ⟨Ne.symm quote.1, Ne.symm backslash.1, interpolation.1, quote.2, backslash.2,
      interpolation.2⟩
  · rintro ⟨quote, backslash, interpolation, later⟩
    refine ⟨?_, ?_, ?_⟩
    · exact List.not_mem_cons_of_ne_of_not_mem quote.symm later.quote
    · exact List.not_mem_cons_of_ne_of_not_mem backslash.symm later.backslash
    · rw [List.infix_cons_iff, starts, not_or, not_and]
      exact ⟨interpolation, later.interpolation⟩

theorem length_said_le_of_special {c : Char} {rest : List Char}
    (special : c = '"' ∨ c = '\\' ∨ c = '#' ∧ rest.head? = some '\x7b') :
    (readInside (c :: rest)).said.length ≤ rest.length := by
  rcases special with rfl | rfl | ⟨rfl, brace⟩
  · exact Nat.zero_le _
  · cases rest with
    | nil => exact Nat.zero_le _
    | cons d later =>
      have := length_said_le later
      simp only [readInside, Inside.after, List.length_append, List.length_cons, List.length_nil]
      omega
  · obtain ⟨later, rfl⟩ := List.head?_eq_some_iff.1 brace
    exact Nat.zero_le _

/-- Only text without quotes, backslashes and interpolations says itself. -/
theorem readInside_eq_self_iff {text : List Char} :
    readInside text = ⟨text, .atEnd⟩ ↔ Unescaped text := by
  induction text with
  | nil => exact iff_of_true rfl (by decide)
  | cons c rest ih =>
    rw [unescaped_cons_iff]
    by_cases special : c = '"' ∨ c = '\\' ∨ c = '#' ∧ rest.head? = some '\x7b'
    · refine iff_of_false (fun read => ?_) (fun plain => ?_)
      · have short := length_said_le_of_special special
        rw [read] at short
        exact absurd short (Nat.not_succ_le_self rest.length)
      · obtain ⟨quote, backslash, interpolation, -⟩ := plain
        rcases special with rfl | rfl | ⟨rfl, brace⟩
        · exact quote rfl
        · exact backslash rfl
        · exact interpolation rfl brace
    · simp only [not_or, not_and] at special
      obtain ⟨quote, backslash, interpolation⟩ := special
      have later : (readInside rest).after [c] = ⟨c :: rest, .atEnd⟩ ↔
          readInside rest = ⟨rest, .atEnd⟩ := by
        cases readInside rest
        simp [Inside.after]
      rw [readInside_cons quote backslash interpolation, later, ih]
      exact ⟨fun plain => ⟨quote, backslash, interpolation, plain⟩, fun plain => plain.2.2.2⟩

/-- A text on one line that says another one when it stands between quotes. -/
structure Quotes (inside text : String) : Prop where
  reads : readInside inside.toList = ⟨text.toList, .atEnd⟩
  oneLine : '\n' ∉ inside.toList

theorem toList_escaped (text : String) : (escaped text).toList = escape text.toList :=
  String.toList_ofList

theorem quotes_escaped (text : String) : Quotes (escaped text) text where
  reads := by rw [toList_escaped, readInside_escape]
  oneLine := by
    rw [toList_escaped]
    exact fun member => (escape_oneLine _ _ member).1 rfl

theorem quotes_self_iff {text : String} :
    Quotes text text ↔ Unescaped text.toList ∧ '\n' ∉ text.toList :=
  ⟨fun quotes => ⟨readInside_eq_self_iff.1 quotes.reads, quotes.oneLine⟩,
    fun plain => ⟨readInside_eq_self_iff.2 plain.1, plain.2⟩⟩

end Legible.Text
