import Legible.Operator
import Legible.Proofs.Decimal.Characters
import Legible.Proofs.Spelling.Variable
import Legible.Proofs.Text.Marks

/-!
Spellings of names, texts and numbers that are free of the word which all placeholders start with.

A name is spelled without the word if it does not have the word itself: what a spelling adds joins
the name in no letter of the word. Numbers have no letter that the word could start with.
-/

set_option autoImplicit false

namespace Legible

open Text (Unmarked unmarked_append_cons unmarked_cons unmarked_cons_of_ne unmarked_concat
  unmarked_of_forall unmarked_quoted isForeign)

namespace Spelling

theorem eq_of_toLower_eq {c : Char} (small : c.toLower = 'u') : c = 'u' ∨ c = 'U' := by
  by_cases upper : c.isUpper
  · have shifted := toNat_toLower upper
    rw [small] at shifted
    have capital : 'u'.toNat = 'U'.toNat + 32 := rfl
    exact .inr (Char.toNat_inj.1 (Nat.add_right_cancel (shifted.symm.trans capital)))
  · exact .inl ((toLower_of_not_isUpper upper).symm.trans small)

theorem unmarked_of_notMem {text : List Char} (small : 'u' ∉ text) (capital : 'U' ∉ text) :
    Unmarked text := by
  apply unmarked_of_forall
  intro c member letter
  rcases eq_of_toLower_eq letter with rfl | rfl
  · exact small member
  · exact capital member

theorem unmarked_of_numeric {text : List Char} (numeric : ∀ c ∈ text, Decimal.isNumeric c) :
    Unmarked text :=
  unmarked_of_notMem (fun member => absurd (numeric _ member) (by decide))
    (fun member => absurd (numeric _ member) (by decide))

theorem unmarked_ofInt (n : Int) : Unmarked (Decimal.ofInt n).toList :=
  unmarked_of_numeric fun _ => Decimal.isNumeric_of_mem_ofInt

private theorem image_of_mem_caseRuns : ∀ run ∈ Character.caseRuns,
    0x80 ≤ run.image ∨ run.first = run.last ∧ run.image = 0x6B := by
  have all : (Character.caseRuns.all fun run =>
      0x80 ≤ run.image || (run.first == run.last && run.image == 0x6B)) = true := by decide
  intro run member
  simpa using List.all_eq_true.1 all run member

/-- Few characters of ASCII are in the lower case form of one outside ASCII. The table has code
points, and what stands for one that is no character is in ASCII too. -/
theorem eq_of_mem_lowercase {c d : Char} (notAscii : ¬ c.toNat < 0x80)
    (member : d ∈ Character.lowercase c) (low : d.toNat < 0x80) :
    d = '\x00' ∨ d = 'i' ∨ d = 'k' := by
  unfold Character.lowercase at member
  rw [if_neg notAscii] at member
  split at member
  · simp only [List.mem_cons, List.not_mem_nil, or_false] at member
    rcases member with rfl | rfl
    · decide
    · exact absurd low (by decide)
  · split at member
    next code found =>
      obtain ⟨run, listed, image⟩ := List.exists_of_findSome?_eq_some found
      obtain rfl := List.mem_singleton.1 member
      simp only [Character.CaseRun.lower?, Option.ite_none_right_eq_some, Option.some.injEq]
        at image
      obtain ⟨⟨above, below, -⟩, rfl⟩ := image
      rcases image_of_mem_caseRuns run listed with high | ⟨one, kelvin⟩
      · by_cases valid : (run.image + (c.toNat - run.first)).isValidChar
        · have code : (Char.ofNatAux _ valid).toNat = run.image + (c.toNat - run.first) := rfl
          rw [Char.ofNat, dif_pos valid, code] at low
          omega
        · rw [Char.ofNat, dif_neg valid]
          exact .inl rfl
      · have kelvinSign : run.image + (c.toNat - run.first) = 0x6B := by omega
        rw [kelvinSign]
        exact .inr (.inr rfl)
    next =>
      obtain rfl := List.mem_singleton.1 member
      exact absurd low notAscii

theorem toLower_ne_of_mem_lowercase {c : Char} (notAscii : ¬ c.toNat < 0x80) :
    ∀ d ∈ Character.lowercase c, d.toLower ≠ 'u' := by
  intro d member small
  rcases eq_of_toLower_eq small with rfl | rfl
  · exact absurd (eq_of_mem_lowercase notAscii member (by decide)) (by decide)
  · exact absurd (eq_of_mem_lowercase notAscii member (by decide)) (by decide)

theorem suffix_of_alias? {atom name : String} (found : alias? atom = some name) :
    name.toList <:+ atom.toList := by
  obtain ⟨rfl, -⟩ := alias?_eq_some_iff.1 found
  rw [String.toList_append]
  exact List.suffix_append _ _

section
variable {name : String} (unmarked : Unmarked name.toList)
include unmarked

theorem unmarked_ofAtom : Unmarked (ofAtom name).toList := by
  unfold ofAtom
  split
  · exact unmarked
  · split
    next found => exact unmarked.of_isInfix (suffix_of_alias? found).isInfix
    next =>
      rw [String.toList_append]
      rw [show ":".toList = [':'] from rfl, List.singleton_append, unmarked_cons (by decide)]
      split
      · exact unmarked
      · exact unmarked_quoted unmarked

theorem unmarked_ofFunction : Unmarked (ofFunction name).toList := by
  unfold ofFunction
  split
  · exact unmarked
  · have whole : ("unquote(:" ++ Text.quoted name ++ ")").toList =
        "unquote(".toList ++ ':' :: ((Text.quoted name).toList ++ [')']) := by simp
    rw [whole, unmarked_append_cons (by decide), unmarked_concat (by decide)]
    exact ⟨by decide, unmarked_quoted unmarked⟩

theorem unmarked_ofRemoteFunction : Unmarked (ofRemoteFunction name).toList := by
  unfold ofRemoteFunction
  split
  · exact unmarked
  · exact unmarked_quoted unmarked

theorem unmarked_ofText : Unmarked (ofText name).toList := by
  have whole : (ofText name).toList = '~' :: 'c' :: (Text.quoted name).toList := by simp [ofText]
  rw [whole, unmarked_cons (by decide), unmarked_cons (by decide)]
  exact unmarked_quoted unmarked

theorem unmarked_ofVariable : Unmarked (ofVariable name).toList := by
  unfold ofVariable
  split
  next => decide
  next first rest chars =>
    rw [chars] at unmarked
    rw [String.toList_ofList]
    by_cases ascii : first.toNat < 0x80
    · rw [Character.lowercase_of_ascii first ascii]
      simpa [Unmarked, toLower_toLower] using unmarked
    · have later := unmarked.of_isInfix (List.suffix_cons first rest).isInfix
      have letters := toLower_ne_of_mem_lowercase ascii
      generalize Character.lowercase first = small at letters ⊢
      induction small with
      | nil => exact later
      | cons c small ih =>
        rw [List.forall_mem_cons] at letters
        rw [List.cons_append, unmarked_cons_of_ne letters.1]
        exact ih letters.2

end

theorem unmarked_ofChar (code : Int) : Unmarked (ofChar code).toList := by
  unfold ofChar
  split
  · decide
  · decide
  · decide
  · decide
  next c _ _ _ _ _ =>
    split
    · exact unmarked_ofInt code
    · rw [String.toList_ofList, unmarked_cons (by decide)]
      intro marked
      have long : ¬ Text.mark.length ≤ 1 := by decide
      exact long (by simpa only [List.length_map, List.length_singleton] using marked.length_le)
  next => exact unmarked_ofInt code

end Spelling

end Legible
