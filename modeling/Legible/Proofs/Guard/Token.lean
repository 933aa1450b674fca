import Legible.Proofs.Operator.Reader

/-!
Tokens of guards.

A text is cut at blanks, and between characters that do not belong to one word or to one sign. So
the tokens of two texts are those of one text and then those of the other, unless the last
character of the first text goes on in the second.
-/

set_option autoImplicit false

namespace Legible.Guard

inductive Token where
  | opening
  | closing
  | comma
  /-- A number, a name, or an operator in letters. -/
  | word (text : String)
  | sign (text : String)
  deriving DecidableEq, Repr

def wordChar (c : Char) : Bool :=
  Operator.wordChar c || c = '?' || c = '!'

def signChar (c : Char) : Bool :=
  ['+', '-', '*', '/', '=', '!', '<', '>'].contains c

/-- Whether two characters that stand side by side belong to one token. -/
def joins (c d : Char) : Bool :=
  wordChar c && wordChar d || signChar c && signChar d

def pieces : List Char → List (List Char)
  | [] => []
  | c :: rest =>
    if c = ' ' then pieces rest
    else if rest.head?.any (joins c) then
      match pieces rest with
      | piece :: later => (c :: piece) :: later
      | [] => [[c]]
    else [c] :: pieces rest

def Token.ofChars : List Char → Token
  | ['('] => .opening
  | [')'] => .closing
  | [','] => .comma
  | text => if text.head?.any signChar then .sign (String.ofList text) else .word (String.ofList text)

def tokens (text : List Char) : List Token :=
  (pieces text).map Token.ofChars

theorem pieces_ne_nil {c : Char} (nonblank : c ≠ ' ') (rest : List Char) :
    pieces (c :: rest) ≠ [] := by
  rw [pieces, if_neg nonblank]
  split
  · cases pieces rest <;> simp
  · simp

theorem ne_blank_of_joins {c d : Char} (joined : joins c d) : d ≠ ' ' := by
  rintro rfl
  have noWord : wordChar ' ' = false := by decide
  have noSign : signChar ' ' = false := by decide
  simp [joins, noWord, noSign] at joined

theorem pieces_append {first second : List Char}
    (apart : ∀ c d, first.getLast? = some c → second.head? = some d → joins c d = false) :
    pieces (first ++ second) = pieces first ++ pieces second := by
  induction first with
  | nil => rfl
  | cons c rest ih =>
    cases rest with
    | nil =>
      -- The last character of the first text is the only one that the second could go on.
      have stops : second.head?.any (joins c) = false := by
        cases head : second.head? with
        | none => rfl
        | some d => exact apart c d rfl head
      by_cases blank : c = ' ' <;> simp [pieces, blank, stops]
    | cons d rest =>
      have later := ih fun e f last => apart e f (by simpa using last)
      have head : ((d :: rest) ++ second).head? = some d := rfl
      rw [List.cons_append, pieces, pieces, later, head, List.head?_cons]
      by_cases blank : c = ' '
      · simp [blank]
      · by_cases joined : joins c d
        · -- The second character is no blank, so there is a piece that the first one joins.
          have some := pieces_ne_nil (ne_blank_of_joins joined) rest
          cases split : pieces (d :: rest) with
          | nil => exact absurd split some
          | cons piece later => simp [blank, joined]
        · simp [blank, joined]

theorem tokens_append {first second : List Char}
    (apart : ∀ c d, first.getLast? = some c → second.head? = some d → joins c d = false) :
    tokens (first ++ second) = tokens first ++ tokens second := by
  rw [tokens, pieces_append apart, List.map_append]
  rfl

def separates (c : Char) : Bool :=
  !wordChar c && !signChar c

theorem tokens_append_cons {first second : List Char} {c : Char} (separator : separates c) :
    tokens (first ++ c :: second) = tokens first ++ tokens (c :: second) := by
  apply tokens_append
  rintro d e - head
  cases head
  simp only [separates, Bool.and_eq_true, Bool.not_eq_true'] at separator
  simp [joins, separator]

theorem tokens_cons {second : List Char} {c : Char} (separator : separates c) :
    tokens (c :: second) = tokens [c] ++ tokens second := by
  refine @tokens_append [c] second ?_
  rintro d e last -
  cases last
  simp only [separates, Bool.and_eq_true, Bool.not_eq_true'] at separator
  simp [joins, separator]

@[simp] theorem tokens_blank (text : List Char) : tokens (' ' :: text) = tokens text := rfl

theorem tokens_spaced (first middle last : List Char) :
    tokens (first ++ ' ' :: (middle ++ ' ' :: last)) =
      tokens first ++ (tokens middle ++ tokens last) := by
  have blank : separates ' ' := by decide
  rw [tokens_append_cons blank, tokens_blank, tokens_append_cons blank, tokens_blank]

theorem tokens_parenthesized (text : List Char) :
    tokens ('(' :: (text ++ [')'])) = .opening :: (tokens text ++ [.closing]) := by
  have opens : separates '(' := by decide
  have closes : separates ')' := by decide
  rw [tokens_cons opens, tokens_append_cons closes]
  rfl

theorem tokens_comma (first rest : List Char) :
    tokens (first ++ ',' :: ' ' :: rest) = tokens first ++ .comma :: tokens rest := by
  have separator : separates ',' := by decide
  rw [tokens_append_cons separator, tokens_cons separator]
  rfl

structure IsWord (text : List Char) : Prop where
  opens : text.head?.any fun c => !signChar c
  chars : ∀ c ∈ text, wordChar c

theorem isWord_iff {text : List Char} :
    IsWord text ↔ (text.head?.any fun c => !signChar c) ∧ text.all wordChar := by
  rw [List.all_eq_true]
  exact ⟨fun word => ⟨word.opens, word.chars⟩, fun ⟨opens, chars⟩ => ⟨opens, chars⟩⟩

instance (text : List Char) : Decidable (IsWord text) :=
  decidable_of_iff' _ isWord_iff

theorem pieces_of_wordChar {c : Char} {rest : List Char} (chars : ∀ d ∈ c :: rest, wordChar d) :
    pieces (c :: rest) = [c :: rest] := by
  have nonblank : ∀ d, wordChar d → d ≠ ' ' := by
    rintro d isWord rfl
    revert isWord
    decide
  induction rest generalizing c with
  | nil => simp [pieces, nonblank c (chars c (by simp))]
  | cons d rest ih =>
    have first := chars c (by simp)
    have joined : joins c d := by simp [joins, first, chars d (by simp)]
    have later := ih fun e member => chars e (List.mem_cons_of_mem c member)
    rw [pieces, later]
    simp [nonblank c first, joined]

namespace IsWord

theorem tokens_eq {text : List Char} (word : IsWord text) :
    tokens text = [.word (String.ofList text)] := by
  obtain ⟨opens, chars⟩ := word
  cases text with
  | nil => cases opens
  | cons c rest =>
    have noSign : signChar c = false := by simpa using opens
    have isWord := chars c (by simp)
    rw [tokens, pieces_of_wordChar chars, List.map_singleton, Token.ofChars]
    · simp [noSign]
    all_goals
      intro same
      cases same
      cases isWord

theorem unpinned {text : List Char} (word : IsWord text) : '^' ∉ text := fun member =>
  absurd (word.chars '^' member) (by decide)

theorem tokens_call {text : List Char} (word : IsWord text) (inner : List Char) :
    tokens (text ++ '(' :: (inner ++ [')'])) =
      .word (String.ofList text) :: .opening :: (tokens inner ++ [.closing]) := by
  have opens : separates '(' := by decide
  rw [tokens_append_cons opens, tokens_parenthesized, word.tokens_eq]
  rfl

end IsWord

/-- The operators between operands are one token each. -/
theorem tokens_sign : ∀ sign ∈ Operator.signs,
    tokens sign.toList = [.sign sign] ∨ tokens sign.toList = [.word sign] := by
  decide

theorem tokens_prefixed {sign : Char} (isSign : sign = '-' ∨ sign = '+') {text : List Char}
    (apart : text.head?.all fun c => !signChar c) :
    tokens (sign :: text) = .sign (String.ofList [sign]) :: tokens text := by
  have alone : tokens [sign] = [.sign (String.ofList [sign])] := by
    rcases isSign with rfl | rfl <;> rfl
  refine (@tokens_append [sign] text ?_).trans (by rw [alone]; rfl)
  rintro c d last head
  cases last
  have noSign : signChar d = false := by simpa [head] using apart
  have noWord : wordChar sign = false := by rcases isSign with rfl | rfl <;> decide
  simp [joins, noSign, noWord]

end Legible.Guard
