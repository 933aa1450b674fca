import Legible.Module.Render
import Legible.Proofs.Expr.Apart
import Legible.Proofs.Spelling.Function

/-!
Atoms: as literals, and as the names of modules.

An atom is written in one of four ways, and the way is told by how the text starts: three words
stand bare, an alias starts with a capital letter, and all other atoms have a colon, with quotes
after it unless they are identifiers. So every atom reads back, and two atoms are never written
alike, not even where they name modules.
-/

set_option autoImplicit false

namespace Legible

namespace Spelling

def segmentChar (c : Char) : Bool :=
  c.isAlphanum || c = '_'

/-- Text of the form `[A-Z][A-Za-z0-9_]*`. -/
def IsSegment (segment : List Char) : Prop :=
  ∃ first rest, segment = first :: rest ∧ first.isUpper ∧ ∀ c ∈ rest, segmentChar c

inductive IsAlias : List Char → Prop
  | single {segment : List Char} : IsSegment segment → IsAlias segment
  | more {segment rest : List Char} : IsSegment segment → IsAlias rest →
      IsAlias (segment ++ '.' :: rest)

theorem IsSegment.concat {segment : List Char} (isSegment : IsSegment segment) {c : Char}
    (isBody : segmentChar c) : IsSegment (segment ++ [c]) := by
  obtain ⟨first, rest, rfl, upper, chars⟩ := isSegment
  refine ⟨first, rest ++ [c], rfl, upper, ?_⟩
  rw [List.forall_mem_append]
  exact ⟨chars, by simpa using isBody⟩

theorem aliasFrom_segment {segment : List Char} (isSegment : IsSegment segment)
    (rest : List Char) : aliasFrom true (segment ++ rest) = aliasFrom false rest := by
  obtain ⟨first, body, rfl, upper, chars⟩ := isSegment
  have opened : aliasFrom true (first :: body ++ rest) = aliasFrom false (body ++ rest) := by
    simp [aliasFrom, upper]
  rw [opened]
  clear opened
  induction body with
  | nil => rfl
  | cons c body ih =>
    rw [List.forall_mem_cons] at chars
    have noDot : c ≠ '.' := by
      rintro rfl
      exact absurd chars.1 (by decide)
    have isBody : (c.isAlphanum || c = '_') = true := chars.1
    rw [List.cons_append, aliasFrom, if_neg noDot, isBody, Bool.true_and]
    exact ih chars.2

/-- A text that continues a segment is an alias together with that segment. -/
theorem isAlias_of_aliasFrom (text : List Char) :
    (aliasFrom true text → IsAlias text) ∧
      ∀ segment, IsSegment segment → aliasFrom false text → IsAlias (segment ++ text) := by
  induction text with
  | nil =>
    refine ⟨nofun, fun segment isSegment _ => ?_⟩
    rw [List.append_nil]
    exact .single isSegment
  | cons c text ih =>
    obtain ⟨fresh, continued⟩ := ih
    constructor
    · intro starts
      have opened : c.isUpper ∧ aliasFrom false text := by simpa [aliasFrom] using starts
      exact continued [c] ⟨c, [], rfl, opened.1, by simp⟩ opened.2
    · intro segment isSegment continues
      by_cases dot : c = '.'
      · subst dot
        exact .more isSegment (fresh continues)
      · have stepped : segmentChar c ∧ aliasFrom false text := by
          simpa [aliasFrom, dot, segmentChar] using continues
        have longer := continued (segment ++ [c]) (isSegment.concat stepped.1) stepped.2
        rwa [List.append_assoc, List.singleton_append] at longer

theorem isAlias_iff {name : List Char} : isAlias name ↔ IsAlias name := by
  constructor
  · exact (isAlias_of_aliasFrom name).1
  · intro segments
    unfold isAlias
    induction segments with
    | @single segment isSegment =>
      have passed := aliasFrom_segment isSegment []
      rwa [List.append_nil] at passed
    | @more segment rest isSegment _ ih =>
      rw [aliasFrom_segment isSegment]
      exact ih

theorem IsAlias.head {name : List Char} (isAlias : IsAlias name) :
    ∃ first rest, name = first :: rest ∧ first.isUpper := by
  cases isAlias with
  | single segment =>
    obtain ⟨first, rest, rfl, upper, -⟩ := segment
    exact ⟨first, rest, rfl, upper⟩
  | more segment _ =>
    obtain ⟨first, rest, rfl, upper, -⟩ := segment
    exact ⟨first, _, rfl, upper⟩

theorem IsSegment.chars {segment : List Char} (isSegment : IsSegment segment) :
    ∀ c ∈ segment, segmentChar c := by
  obtain ⟨first, rest, rfl, upper, chars⟩ := isSegment
  rw [List.forall_mem_cons]
  have letter : first.isAlpha := Bool.or_eq_true_iff.2 (.inl upper)
  exact ⟨by simp [segmentChar, Char.isAlphanum, letter], chars⟩

theorem IsAlias.chars {name : List Char} (isAlias : IsAlias name) :
    ∀ c ∈ name, segmentChar c ∨ c = '.' := by
  induction isAlias with
  | single isSegment => exact fun c member => .inl (isSegment.chars c member)
  | more isSegment _ ih =>
    rw [List.forall_mem_append, List.forall_mem_cons]
    exact ⟨fun c member => .inl (isSegment.chars c member), .inr rfl, ih⟩

/-- The atom that the text of an atom says: three words say themselves, a text with a capital letter
is an alias, and after a colon stands a quoted literal or the atom itself. -/
def atomOf? (text : String) : Option String :=
  match text.toList with
  | [] => none
  | ':' :: '"' :: inside =>
    match Text.readInside inside with
    | ⟨name, .atQuote []⟩ => some (String.ofList name)
    | _ => none
  | ':' :: name => some (String.ofList name)
  | first :: _ =>
    if isBareAtom text then some text
    else if first.isUpper then some ("Elixir." ++ text)
    else none

inductive AtomText (name : String) : String → Prop
  | bare : isBareAtom name → AtomText name name
  | «alias» {short : String} : name = "Elixir." ++ short → IsAlias short.toList → AtomText name short
  | identifier : IsBareName name → AtomText name (":" ++ name)
  | quoted {inside : String} : Text.Quotes inside name → AtomText name (":\"" ++ inside ++ "\"")

theorem atomText_ofAtom (name : String) : AtomText name (ofAtom name) := by
  unfold ofAtom
  split
  next bare => exact .bare bare
  next =>
    split
    next found isAliased =>
      obtain ⟨whole, valid⟩ := alias?_eq_some_iff.1 isAliased
      exact .«alias» whole (isAlias_iff.1 valid)
    next =>
      split
      next bare => exact .identifier (isIdentifier_iff.1 bare)
      next =>
        have text : ":" ++ Text.quoted name = ":\"" ++ Text.escaped name ++ "\"" := by
          simp [Text.quoted, String.ext_iff]
        exact text ▸ .quoted (Text.quotes_escaped name)

theorem atomOf?_colon {name : String} (unquoted : name.toList.head? ≠ some '"') :
    atomOf? (":" ++ name) = some name := by
  have chars : (":" ++ name).toList = ':' :: name.toList := by simp
  unfold atomOf?
  rw [chars]
  split
  next same => cases same
  next inside same =>
    rw [(List.cons.inj same).2] at unquoted
    exact absurd rfl unquoted
  next same => rw [← (List.cons.inj same).2, String.ofList_toList]
  next noColon same => exact absurd (List.cons.inj same).1.symm noColon

theorem atomOf?_quoted {inside name : String} (quotes : Text.Quotes inside name) :
    atomOf? (":\"" ++ inside ++ "\"") = some name := by
  have read := Text.readInside_append_quote quotes.reads []
  have text : (":\"" ++ inside ++ "\"").toList = ':' :: '"' :: (inside.toList ++ ['"']) := by simp
  simp [atomOf?, text, read]

theorem atomOf?_alias {short : String} (isAlias : IsAlias short.toList) :
    atomOf? short = some ("Elixir." ++ short) := by
  obtain ⟨first, rest, chars, upper⟩ := isAlias.head
  have noColon : first ≠ ':' := by
    rintro rfl
    cases upper
  have notBare : ¬ isBareAtom short := fun bare => by
    have small := startsVariable_of_isBareAtom bare
    rw [startsVariable_cons chars, not_opensVariable_of_isUpper upper] at small
    cases small
  simp [atomOf?, chars, noColon, notBare, upper]

theorem AtomText.atomOf?_eq {name text : String} (written : AtomText name text) :
    atomOf? text = some name := by
  cases written with
  | bare bare =>
    simp only [isBareAtom, Bool.or_eq_true, decide_eq_true_eq] at bare
    rcases bare with (rfl | rfl) | rfl <;> decide
  | «alias» whole isAlias => exact whole ▸ atomOf?_alias isAlias
  | identifier bare =>
    obtain ⟨first, rest, chars, opens, -⟩ := bare
    have unquoted : name.toList.head? ≠ some '"' := by
      rw [chars]
      rintro ⟨⟩
      cases opens
    exact atomOf?_colon unquoted
  | quoted quotes => exact atomOf?_quoted quotes

theorem atomOf?_ofAtom (name : String) : atomOf? (ofAtom name) = some name :=
  (atomText_ofAtom name).atomOf?_eq

theorem ofAtom_injective : Function.Injective ofAtom := by
  intro name other same
  have read := atomOf?_ofAtom name
  rw [same, atomOf?_ofAtom] at read
  exact (Option.some.inj read).symm

end Spelling

inductive ModuleUse where
  | call (function : String) (arguments : List Expr)
  | capture (function : String) (arity : Int64)
  | behaviour
  | type (name : String) (arguments : List Typespec)
  | definition (body : String)

namespace ModuleUse

def text (layout : Layout) (position : Position) (scope : Scope) (module : String) :
    ModuleUse → Option String
  | .call function arguments =>
    some ((Expr.remoteCall module function arguments).render layout position scope).text
  | .capture function arity =>
    some ((Expr.remoteCapture module function arity).render layout position scope).text
  | .behaviour => ((FormContent.behaviour module).render layout .empty none).text
  | .type name arguments => some (Typespec.remote module name arguments).text
  | .definition body => some (ModuleRendering.wrap layout (Spelling.ofAtom module) body)

variable (layout : Layout) (position : Position) (scope : Scope)

/-- The module is written as the literal of its atom, in front of what does not depend on it. -/
theorem exists_text_eq (use : ModuleUse) : ∃ before after, ∀ module,
    use.text layout position scope module = some (before ++ (Spelling.ofAtom module ++ after)) := by
  cases use with
  | call function arguments =>
    let inner := ((Expr.renderAll layout arguments position scope).join ", ").text
    refine ⟨"", "." ++ Spelling.ofRemoteFunction function ++ parenthesized inner, fun module => ?_⟩
    have written : text layout position scope module (.call function arguments) =
      some (Spelling.ofAtom module ++ "." ++ Spelling.ofRemoteFunction function ++
        parenthesized inner) := rfl
    rw [written]
    simp only [String.append_assoc, String.empty_append]
  | capture function arity =>
    refine ⟨"&", "." ++ Spelling.ofRemoteFunction function ++ "/" ++ Decimal.ofInt arity.toInt,
      fun module => ?_⟩
    have written : text layout position scope module (.capture function arity) =
      some ("&" ++ Spelling.ofAtom module ++ "." ++ Spelling.ofRemoteFunction function ++ "/" ++
        Decimal.ofInt arity.toInt) := rfl
    rw [written]
    simp only [String.append_assoc]
  | behaviour =>
    refine ⟨"@behaviour ", "", fun module => ?_⟩
    simp [text, FormContent.render]
  | type name arguments =>
    refine ⟨"", "." ++ Typespec.applied (Spelling.ofFunction name) (Typespec.texts arguments),
      fun module => ?_⟩
    simp [text, Typespec.text, String.append_assoc]
  | definition body =>
    by_cases empty : body.isEmpty
    · refine ⟨"defmodule ", " do\nend\n", fun module => ?_⟩
      simp [text, ModuleRendering.wrap, empty, String.append_assoc]
    · refine ⟨"defmodule ", " do\n" ++ layout.indent body ++ "\nend\n", fun module => ?_⟩
      simp [text, ModuleRendering.wrap, empty, String.append_assoc]

theorem text_eq_iff (use : ModuleUse) {module other : String} :
    use.text layout position scope module = use.text layout position scope other ↔
      module = other := by
  obtain ⟨before, after, written⟩ := exists_text_eq layout position scope use
  rw [written, written, Option.some.injEq, String.append_right_inj, String.append_left_inj,
    Spelling.ofAtom_injective.eq_iff]

end ModuleUse

/-- An atom is written as one of three words that stand for themselves, as an alias without its
namespace, as an identifier after a colon, or between quotes that say it. Its text says the atom, so
two atoms are never written alike, and neither is what differs in the atom of a module only. -/
theorem Spelling.ofAtom_reads_back (name : String) :
    AtomText name (ofAtom name) ∧ atomOf? (ofAtom name) = some name ∧
      ∀ other, (ofAtom name = ofAtom other ↔ name = other) ∧
        ∀ (use : ModuleUse) (layout : Layout) (position : Position) (scope : Scope),
          use.text layout position scope name = use.text layout position scope other ↔
            name = other := by
  refine ⟨atomText_ofAtom name, atomOf?_ofAtom name, fun other => ⟨ofAtom_injective.eq_iff, ?_⟩⟩
  intro use layout position scope
  exact use.text_eq_iff layout position scope

example : ["nil", "Elixir.Foo.Bar_2", "valid?", "Elixir.foo", "a\"b"].map Spelling.ofAtom =
    ["nil", "Foo.Bar_2", ":valid?", ":\"Elixir.foo\"", ":\"a\\\"b\""] := by
  decide

end Legible
