import Legible.Proofs.Json.Terms
import Legible.Proofs.Number

/-!
Numbers of terms in JSON: each is decoded from a literal, and every literal is decoded.
-/

set_option autoImplicit false

namespace Legible

open Decimal (Numeral)
open Json (Token Frame tokens? tokensFrom? readTerm? finish?)

/-- A term all of whose numbers were decoded from literals. -/
def Term.IsDecoded (t : Term) : Prop :=
  ∀ n, .number n ∈ t.subterms → n.IsDecoded

namespace Term.IsDecoded

theorem of_elements {t : Term} (self : ∀ n, t = .number n → n.IsDecoded)
    (all : ∀ u ∈ t.elements, u.IsDecoded) : t.IsDecoded := by
  intro n member
  rcases mem_subterms_iff.1 member with same | ⟨u, element, inside⟩
  · exact self n same.symm
  · exact all u element n inside

theorem leaf {t : Term} (noNumber : ∀ n, t ≠ .number n) (noElements : t.elements = []) :
    t.IsDecoded :=
  of_elements (fun n same => absurd same (noNumber n)) (noElements ▸ List.forall_mem_nil _)

theorem number {literal : Numeral} {text : List Char} (spelled : literal.Spelled text) :
    (Term.number (.ofNumeral literal)).IsDecoded := by
  refine of_elements ?_ (List.forall_mem_nil _)
  rintro _ ⟨⟩
  exact ⟨text, literal, Numeral.ofText?_eq_some_iff_spelled.2 spelled, rfl⟩

theorem tuple {elements : List Term} (all : ∀ t ∈ elements, t.IsDecoded) :
    (Term.tuple elements).IsDecoded :=
  of_elements (fun n same => by cases same) all

theorem list {elements : List Term} (all : ∀ t ∈ elements, t.IsDecoded) :
    (Term.list elements).IsDecoded :=
  of_elements (fun n same => by cases same) all

end Term.IsDecoded

namespace Json

def Token.IsSpelled (token : Token) : Prop :=
  ∀ literal, token = .number literal → ∃ text, literal.Spelled text

theorem Token.isSpelled_of_next? {token : Token} {text rest : List Char}
    (next : Token.next? text = some (token, rest)) : token.IsSpelled := by
  rintro literal rfl
  unfold Token.next? at next
  split at next
  case h_8 =>
    simp only [Option.map_eq_some_iff, Prod.exists, Prod.mk.injEq, Token.number.injEq] at next
    obtain ⟨literal, rest, scanned, rfl, rfl⟩ := next
    obtain ⟨spelling, spelled, -⟩ := Numeral.spelled_of_scan? scanned
    exact ⟨spelling, spelled⟩
  all_goals simp at next

theorem isSpelled_of_tokensFrom? {read tokens : List Token} {text : List Char}
    (before : ∀ token ∈ read, token.IsSpelled) (cut : tokensFrom? read text = some tokens) :
    ∀ token ∈ tokens, token.IsSpelled := by
  fun_induction tokensFrom? read text with
  | case1 read =>
    cases cut
    simpa using before
  | case2 read c rest isBlank ih => exact ih before cut
  | case3 read c rest noBlank token after next ih =>
    exact ih (List.forall_mem_cons.2 ⟨Token.isSpelled_of_next? next, before⟩) cut
  | case4 => cases cut

structure Frame.IsDecoded (frame : Frame) : Prop where
  elements : ∀ t ∈ frame.read, t.IsDecoded
  build : ∀ terms : List Term, (∀ t ∈ terms, t.IsDecoded) → (frame.build terms).IsDecoded

theorem Frame.IsDecoded.push {frame : Frame} (decoded : frame.IsDecoded) {t : Term}
    (last : t.IsDecoded) : (frame.push t).IsDecoded :=
  ⟨List.forall_mem_cons.2 ⟨last, decoded.elements⟩, decoded.build⟩

theorem Frame.IsDecoded.close {frame : Frame} (decoded : frame.IsDecoded) {t : Term}
    (last : t.IsDecoded) : (frame.close t).IsDecoded := by
  refine decoded.build _ fun u member => ?_
  rw [List.mem_reverse] at member
  exact (decoded.push last).elements u member

mutual

theorem isDecoded_of_readTerm? {frames : List Frame} {tokens : List Token} {t : Term}
    (framesDecoded : ∀ frame ∈ frames, frame.IsDecoded)
    (spelled : ∀ token ∈ tokens, token.IsSpelled) (read : readTerm? frames tokens = some t) :
    t.IsDecoded := by
  have opened : ∀ {build : List Term → Term},
      (∀ terms : List Term, (∀ u ∈ terms, u.IsDecoded) → (build terms).IsDecoded) →
      ∀ frame ∈ ⟨build, []⟩ :: frames, frame.IsDecoded := fun built =>
    List.forall_mem_cons.2 ⟨⟨List.forall_mem_nil _, built⟩, framesDecoded⟩
  unfold readTerm? at read
  split at read
  next key text rest =>
    simp only [List.forall_mem_cons] at spelled
    obtain ⟨-, -, -, -, -, later⟩ := spelled
    split at read
    · exact isDecoded_of_finish? framesDecoded (.leaf (by simp) rfl) later read
    · split at read
      · exact isDecoded_of_finish? framesDecoded (.leaf (by simp) rfl) later read
      · cases read
  next key literal rest =>
    simp only [List.forall_mem_cons] at spelled
    obtain ⟨-, -, -, number, -, later⟩ := spelled
    split at read
    · obtain ⟨text, literalSpelled⟩ := number literal rfl
      exact isDecoded_of_finish? framesDecoded (.number literalSpelled) later read
    · cases read
  next key inner text rest =>
    simp only [List.forall_mem_cons] at spelled
    obtain ⟨-, -, -, -, -, -, -, -, -, later⟩ := spelled
    split at read
    · split at read
      next literal scanned =>
        rw [Numeral.ofText?_eq_some_iff_spelled] at scanned
        exact isDecoded_of_finish? framesDecoded (.number scanned) later read
      next => cases read
    · cases read
  next key rest =>
    simp only [List.forall_mem_cons] at spelled
    obtain ⟨-, -, -, -, -, -, later⟩ := spelled
    split at read
    · exact isDecoded_of_finish? framesDecoded (.tuple (List.forall_mem_nil _)) later read
    · split at read
      · exact isDecoded_of_finish? framesDecoded (.list (List.forall_mem_nil _)) later read
      · cases read
  next key rest _ =>
    simp only [List.forall_mem_cons] at spelled
    obtain ⟨-, -, -, -, later⟩ := spelled
    split at read
    · exact isDecoded_of_readTerm? (opened fun _ => .tuple) later read
    · split at read
      · exact isDecoded_of_readTerm? (opened fun _ => .list) later read
      · cases read
  next => cases read
termination_by tokens.length

theorem isDecoded_of_finish? {frames : List Frame} {last : Term} {tokens : List Token} {t : Term}
    (framesDecoded : ∀ frame ∈ frames, frame.IsDecoded) (lastDecoded : last.IsDecoded)
    (spelled : ∀ token ∈ tokens, token.IsSpelled)
    (read : finish? frames last tokens = some t) : t.IsDecoded := by
  unfold finish? at read
  split at read
  next rest =>
    split at read
    next frame outer =>
      rw [List.forall_mem_cons] at framesDecoded spelled
      exact isDecoded_of_readTerm? (List.forall_mem_cons.2
        ⟨framesDecoded.1.push lastDecoded, framesDecoded.2⟩) spelled.2 read
    next => cases read
  next rest =>
    split at read
    next frame outer =>
      rw [List.forall_mem_cons] at framesDecoded spelled
      exact isDecoded_of_finish? framesDecoded.2 (framesDecoded.1.close lastDecoded)
        (List.forall_mem_cons.1 spelled.2).2 read
    next => cases read
  next =>
    split at read
    next =>
      cases read
      exact lastDecoded
    next => cases read
  next => cases read
termination_by tokens.length

end

end Json

theorem Term.isDecoded_of_ofJson {text : String} {t : Term} (decoded : Term.ofJson text = .ok t) :
    t.IsDecoded := by
  unfold Term.ofJson at decoded
  split at decoded
  next read =>
    cases decoded
    obtain ⟨tokens, cut, read⟩ := Option.bind_eq_some_iff.1 read
    exact Json.isDecoded_of_readTerm? (List.forall_mem_nil _)
      (Json.isSpelled_of_tokensFrom? (List.forall_mem_nil _) cut) read
  next => cases decoded

def Term.numberJson (literal : String) : String :=
  "\x7b\"number\":" ++ literal ++ "\x7d"

theorem Json.tokens?_numberJson {literal : Numeral} {text : String}
    (spelled : literal.Spelled text.toList) :
    tokens? (Term.numberJson text).toList =
      some [.openBrace, .string "number", .colon, .number literal, .closeBrace] := by
  have key : SpelledText "number".toList "number".toList := .plain (by decide)
  have before : Spelled [.openBrace, .string "number", .colon] "\x7b\"number\":".toList :=
    .unspaced .openBrace (.unspaced (.string key) (.unspaced .colon (.nil rfl)))
  have ends : Numeral.endsInteger ['\x7d'] := by
    rintro _ ⟨⟩
    decide
  rw [Term.numberJson, String.toList_append, String.toList_append, List.append_assoc, tokens?,
    tokensFrom?_spelled before trivial]
  change tokensFrom? _ (text.toList ++ ['\x7d']) = _
  rw [tokensFrom?_literal spelled ends]
  calc
    _ = tokensFrom? (.closeBrace :: .number literal :: _) [] :=
      tokensFrom?_token .closeBrace trivial _
    _ = _ := by rw [tokensFrom?]; rfl

theorem Term.ofJson_numberJson {literal : Numeral} {text : String}
    (spelled : literal.Spelled text.toList) :
    Term.ofJson (Term.numberJson text) = .ok (.number (.ofNumeral literal)) := by
  rw [Term.ofJson, Term.ofJson?, Json.tokens?_numberJson spelled]
  rfl

/-- Decoding goes by the spelling. An integer is kept exactly, as a value or else in its digits.
With a fraction or an exponent a literal is a double, or it is kept as it is spelled where doubles
end, though it is no integer. -/
theorem Term.ofJson_numbers (json : String) (t : Term) (literal : Numeral) (text : String) :
    (Term.ofJson json = .ok t → ∀ n, .number n ∈ t.subterms →
      ∃ literal text, Numeral.Spelled literal text.toList ∧ n.StandsFor literal text) ∧
    (literal.Spelled text.toList →
      ∃ n, Term.ofJson (Term.numberJson text) = .ok (.number n) ∧ n.StandsFor literal text) := by
  refine ⟨fun decoded n member => ?_, fun spelled => ?_⟩
  · obtain ⟨text, literal, read, rfl⟩ := Term.isDecoded_of_ofJson decoded n member
    rw [Numeral.ofText?_eq_some_iff_spelled, ← String.toList_ofList (l := text)] at read
    exact ⟨literal, String.ofList text, read, (Number.decodes_ofNumeral literal).standsFor read⟩
  · exact ⟨_, Term.ofJson_numberJson spelled, (Number.decodes_ofNumeral literal).standsFor spelled⟩

def Decimal.Numeral.farPower : Numeral :=
  ⟨false, ['1'], none, some ⟨false, "309".toList⟩⟩

theorem Term.ofJson_farPower :
    Numeral.farPower.Spelled "1e309".toList ∧
      Term.ofJson (Term.numberJson "1e309") = .ok (.number (.beyond "1e+309")) := by
  have spelled : Numeral.farPower.Spelled "1e309".toList :=
    .parts (.inr ⟨by decide, by decide⟩) .none (.some (.inl rfl) .bare (by decide))
  have kept : Number.ofNumeral Numeral.farPower = .beyond "1e+309" := by decide +kernel
  exact ⟨spelled, kept ▸ Term.ofJson_numberJson spelled⟩

/-- What is kept as it is spelled need not be an integer. -/
theorem Term.ofJson_beyond_doubles :
    ∃ literal : Numeral, literal.Spelled "1e309".toList ∧ ¬literal.IsInteger ∧
      Term.ofJson "\x7b\"number\":1e309\x7d" = .ok (.number (.beyond "1e+309")) :=
  ⟨.farPower, Term.ofJson_farPower.1, by simp [Numeral.farPower, Numeral.IsInteger],
    Term.ofJson_farPower.2⟩

end Legible
