import Legible.Problem
import Legible.Proofs.Json.Lexing
import Legible.Proofs.Term.Subterms

/-!
Terms without floats are read back from every JSON text that spells them.

A term has one list of tokens, and these have many spellings. The reader takes the tokens of a term
off a list whatever follows them, so it also takes them off as elements of an array.
-/

set_option autoImplicit false

namespace Legible

open Json (Token Frame readTerm? finish? Spellable Spelled blank)

mutual

/-- The tokens of a term: one object whose key says what kind of term it is. -/
inductive Term.Tokens : Term → List Token → Prop
  | atom (name : String) :
      Term.Tokens (.atom name)
        [.openBrace, .string "atom", .colon, .string name, .closeBrace]
  | string (text : String) :
      Term.Tokens (.string text)
        [.openBrace, .string "string", .colon, .string text, .closeBrace]
  | number (z : Int) :
      Term.Tokens (.number (.ofInt z))
        [.openBrace, .string "number", .colon, .number (.ofInt z), .closeBrace]
  | tuple {elements : List Term} {tokens : List Token} : Term.TokensAll elements tokens →
      Term.Tokens (.tuple elements)
        (.openBrace :: .string "tuple" :: .colon :: .openBracket ::
          (tokens ++ [.closeBracket, .closeBrace]))
  | list {elements : List Term} {tokens : List Token} : Term.TokensAll elements tokens →
      Term.Tokens (.list elements)
        (.openBrace :: .string "list" :: .colon :: .openBracket ::
          (tokens ++ [.closeBracket, .closeBrace]))

inductive Term.TokensAll : List Term → List Token → Prop
  | nil : Term.TokensAll [] []
  | single {t : Term} {tokens : List Token} : t.Tokens tokens → Term.TokensAll [t] tokens
  | cons {t u : Term} {rest : List Term} {tokens later : List Token} : t.Tokens tokens →
      Term.TokensAll (u :: rest) later → Term.TokensAll (t :: u :: rest) (tokens ++ .comma :: later)

end

theorem Term.Tokens.head {t : Term} {tokens : List Token} (tokensOf : t.Tokens tokens) :
    ∃ rest, tokens = .openBrace :: rest := by
  cases tokensOf with
  | atom | string | number | tuple | list => exact ⟨_, rfl⟩

theorem Term.TokensAll.head {terms : List Term} {tokens : List Token}
    (all : Term.TokensAll terms tokens) (nonempty : terms ≠ []) :
    ∃ rest, tokens = .openBrace :: rest := by
  cases all with
  | nil => exact absurd rfl nonempty
  | single tokensOf => exact tokensOf.head
  | cons first later =>
    obtain ⟨rest, rfl⟩ := first.head
    exact ⟨_, rfl⟩

mutual

/-- The tokens of a term are read as the term, whatever arrays are open and whatever follows. -/
theorem readTerm?_tokens : ∀ {t : Term} {tokens : List Token}, t.Tokens tokens →
    ∀ (frames : List Frame) (rest : List Token),
      readTerm? frames (tokens ++ rest) = finish? frames t rest
  | _, _, .atom name, frames, rest => by simp [readTerm?]
  | _, _, .string text, frames, rest => by simp [readTerm?]
  | _, _, .number z, frames, rest => by simp [readTerm?, Number.ofNumeral_ofInt]
  | _, _, @Term.Tokens.tuple terms tokens all, frames, rest => by
    have inner := readTerm?_tokensAll all ⟨.tuple, []⟩ frames rest
    -- An empty array is closed without a frame, and any other opens one.
    cases terms with
    | nil =>
      cases all
      simp [readTerm?]
    | cons =>
      obtain ⟨more, rfl⟩ := all.head (by simp)
      simpa [readTerm?] using inner
  | _, _, @Term.Tokens.list terms tokens all, frames, rest => by
    have inner := readTerm?_tokensAll all ⟨.list, []⟩ frames rest
    cases terms with
    | nil =>
      cases all
      simp [readTerm?]
    | cons =>
      obtain ⟨more, rfl⟩ := all.head (by simp)
      simpa [readTerm?] using inner

theorem readTerm?_tokensAll : ∀ {terms : List Term} {tokens : List Token},
    Term.TokensAll terms tokens → ∀ (frame : Frame) (frames : List Frame) (rest : List Token),
      terms ≠ [] →
      readTerm? (frame :: frames) (tokens ++ .closeBracket :: .closeBrace :: rest) =
        finish? frames (frame.build (frame.read.reverse ++ terms)) rest
  | _, _, .nil, _, _, _, nonempty => absurd rfl nonempty
  | _, _, .single tokens, frame, frames, rest, _ => by
    rw [readTerm?_tokens tokens, finish?]
    simp [Frame.close]
  | _, _, .cons first later, frame, frames, rest, _ => by
    rw [List.append_assoc, readTerm?_tokens first, List.cons_append, finish?,
      readTerm?_tokensAll later _ _ _ (by simp)]
    simp [Frame.push]

end

mutual

theorem Term.Tokens.spellable : ∀ {t : Term} {tokens : List Token}, t.Tokens tokens →
    Spellable tokens
  | _, _, .atom _ | _, _, .string _ => trivial
  | _, _, .number z => ⟨⟨z, rfl⟩, rfl, trivial⟩
  | _, _, .tuple all | _, _, .list all =>
    all.spellable.append [.closeBracket, .closeBrace] trivial

theorem Term.TokensAll.spellable : ∀ {terms : List Term} {tokens : List Token},
    Term.TokensAll terms tokens → Spellable tokens
  | _, _, .nil => trivial
  | _, _, .single tokens => tokens.spellable
  | _, _, .cons first later => first.spellable.append (.comma :: _) later.spellable

end

def Term.IsIntegral (t : Term) : Prop :=
  ∀ n, .number n ∈ t.subterms → n.IsInteger

theorem Term.IsIntegral.element {t u : Term} (integral : t.IsIntegral)
    (member : u ∈ t.elements) : u.IsIntegral :=
  fun n inside => integral n (Term.mem_subterms_trans inside
    (Term.Inside.of_element member).mem_subterms)

mutual

theorem exists_tokens : ∀ t : Term, t.IsIntegral → ∃ tokens, t.Tokens tokens
  | .atom name, _ => ⟨_, .atom name⟩
  | .string text, _ => ⟨_, .string text⟩
  | .number n, integral => by
    obtain ⟨z, rfl⟩ := (integral n (Term.mem_subterms_self _)).exists_eq
    exact ⟨_, .number z⟩
  | .tuple elements, integral => by
    obtain ⟨tokens, all⟩ := exists_tokensAll elements fun u => integral.element
    exact ⟨_, .tuple all⟩
  | .list elements, integral => by
    obtain ⟨tokens, all⟩ := exists_tokensAll elements fun u => integral.element
    exact ⟨_, .list all⟩

theorem exists_tokensAll : ∀ terms : List Term, (∀ t ∈ terms, t.IsIntegral) →
    ∃ tokens, Term.TokensAll terms tokens
  | [], _ => ⟨_, .nil⟩
  | [t], integral => by
    obtain ⟨tokens, only⟩ := exists_tokens t (integral t (List.mem_singleton_self t))
    exact ⟨_, .single only⟩
  | t :: u :: rest, integral => by
    rw [List.forall_mem_cons] at integral
    obtain ⟨tokens, first⟩ := exists_tokens t integral.1
    obtain ⟨later, all⟩ := exists_tokensAll (u :: rest) integral.2
    exact ⟨_, .cons first all⟩

end

/-- After the last bracket of a term nothing else may come. -/
theorem finish?_more (t : Term) (token : Token) (later : List Token) :
    finish? [] t (token :: later) = none := by
  cases token with
  | closeBracket =>
    cases later with
    | nil => rfl
    | cons next => cases next <;> rfl
  | _ => rfl

/-- The texts that spell a term in JSON, with any escapes in strings and any blanks between
tokens. -/
def Term.Spells (t : Term) (text : String) : Prop :=
  ∃ tokens, t.Tokens tokens ∧ Spelled tokens text.toList

theorem Term.ofJson?_of_spells {t : Term} {text : String} (spells : t.Spells text) :
    Term.ofJson? text = some t := by
  obtain ⟨tokens, tokensOf, spelled⟩ := spells
  have read := readTerm?_tokens tokensOf [] []
  rw [List.append_nil] at read
  rw [Term.ofJson?, Json.tokens?_spelled spelled tokensOf.spellable, Option.bind_some, read, finish?]
  rfl

theorem Term.ofJson?_of_more {t : Term} {text : String} (spells : t.Spells text)
    {blanks : List Char} (all : blanks.all blank) {c : Char} (noBlank : blank c = false)
    (rest : List Char) : Term.ofJson? (text ++ String.ofList (blanks ++ c :: rest)) = none := by
  obtain ⟨tokens, tokensOf, spelled⟩ := spells
  have cut := Json.tokensFrom?_spelled spelled tokensOf.spellable [] (blanks ++ c :: rest)
  rw [Json.tokensFrom?_blanks all, List.append_nil] at cut
  rw [Term.ofJson?, String.toList_append, String.toList_ofList, Json.tokens?, cut]
  -- What follows is cut into no tokens at all, or into one too many for the term.
  cases found : Json.tokensFrom? tokens.reverse (c :: rest) with
  | none => rfl
  | some every =>
    obtain ⟨token, later, rfl⟩ := Json.tokensFrom?_more noBlank found
    rw [Option.bind_some, List.reverse_reverse, readTerm?_tokens tokensOf, finish?_more]

/-- Terms of integers are read back from JSON: there is a text that spells the term, every text that
does is decoded to it, and with anything but blanks after it no text is decoded. -/
theorem Term.ofJson_spells {t : Term} (integral : t.IsIntegral) :
    (∃ text, t.Spells text) ∧
      ∀ text, t.Spells text →
        Term.ofJson text = .ok t ∧
          ∀ (blanks rest : List Char) (c : Char), blanks.all blank → blank c = false →
            Term.ofJson (text ++ String.ofList (blanks ++ c :: rest)) = .error .decoding := by
  refine ⟨?_, fun text spells => ⟨?_, fun blanks rest c all noBlank => ?_⟩⟩
  · obtain ⟨tokens, tokensOf⟩ := exists_tokens t integral
    obtain ⟨text, spelled⟩ := Json.exists_spelled tokensOf.spellable
    exact ⟨String.ofList text, tokens, tokensOf, by rwa [String.toList_ofList]⟩
  · rw [Term.ofJson, Term.ofJson?_of_spells spells]
  · rw [Term.ofJson, Term.ofJson?_of_more spells all noBlank rest]

/-- A tuple of an atom, a string with a quote, a number and a list of a number beyond 64 bits. -/
theorem Term.ofJson_spells_tuple :
    let t : Term := .tuple [.atom "var", .string "a \"b\"", .number (.integer 1),
      .list [.number (.beyond (Decimal.ofInt 9223372036854775808))]]
    t.IsIntegral ∧ ∃ text, t.Spells text ∧ Term.ofJson text = .ok t ∧
      Term.ofJson (text ++ String.ofList ([' '] ++ ['x'])) = .error .decoding := by
  intro t
  have integral : t.IsIntegral := by
    intro n inside
    simp only [t, Term.subterms, Term.subtermsOf, List.append_nil, List.cons_append,
      List.nil_append, List.mem_cons, List.not_mem_nil, or_false, reduceCtorEq, false_or,
      Term.number.injEq] at inside
    rcases inside with rfl | rfl
    · exact .value 1
    · exact .digits (by decide)
  obtain ⟨⟨text, spells⟩, decoded⟩ := Term.ofJson_spells integral
  obtain ⟨read, more⟩ := decoded text spells
  exact ⟨integral, text, spells, read, more [' '] [] 'x' rfl rfl⟩

end Legible
