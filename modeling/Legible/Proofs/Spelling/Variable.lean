import Legible.Spelling

/-!
Variables: the names that a program gives them, and how those are written in source.

A name of a program starts with a capital letter or a low line. In source the capital letter is a
small one, and nothing else changes, so the name can be read back.
-/

set_option autoImplicit false

namespace Legible.Spelling

/-- Whether a name has the form `[A-Z_][a-zA-Z0-9_@]*`. -/
def isVariable (name : String) : Bool :=
  match name.toList with
  | [] => false
  | first :: rest => (first.isUpper || first = '_') && rest.all identifierChar

def opensVariable (c : Char) : Bool :=
  c.isLower || c = '_'

theorem isUpper_iff {c : Char} : c.isUpper ↔ 65 ≤ c.toNat ∧ c.toNat ≤ 90 := by
  have unfolded : c.isUpper = decide (c.val ≥ 'A'.val ∧ c.val ≤ 'Z'.val) := rfl
  simp [unfolded, UInt32.le_iff_toNat_le]

theorem isLower_iff {c : Char} : c.isLower ↔ 97 ≤ c.toNat ∧ c.toNat ≤ 122 := by
  have unfolded : c.isLower = (decide ('a'.val ≤ c.val) && decide (c.val ≤ 'z'.val)) := rfl
  simp [unfolded, UInt32.le_iff_toNat_le]

theorem toNat_toLower {c : Char} (upper : c.isUpper) : c.toLower.toNat = c.toNat + 32 := by
  obtain ⟨above, below⟩ := isUpper_iff.1 upper
  have inRange : c.val ≥ 'A'.val ∧ c.val ≤ 'Z'.val := by
    simpa [UInt32.le_iff_toNat_le] using And.intro above below
  have shifted : c.toLower.val = c.val + ('a'.val - 'A'.val) := by
    delta Char.toLower
    rw [dif_pos inRange]
  rw [← Char.toNat_val, shifted, UInt32.toNat_add, Char.toNat_val]
  have : ('a'.val - 'A'.val).toNat = 32 := rfl
  omega

private theorem toNat_toUpper {c : Char} (lower : c.isLower) : c.toUpper.toNat = c.toNat - 32 := by
  obtain ⟨above, below⟩ := isLower_iff.1 lower
  have inRange : 'a'.val ≤ c.val ∧ c.val ≤ 'z'.val := by
    simpa [UInt32.le_iff_toNat_le] using And.intro above below
  have shifted : c.toUpper.val = c.val + ('A'.val - 'a'.val) := by
    delta Char.toUpper
    rw [dif_pos inRange]
  rw [← Char.toNat_val, shifted, UInt32.toNat_add, Char.toNat_val]
  have : ('A'.val - 'a'.val).toNat = 2 ^ 32 - 32 := rfl
  omega

theorem toLower_of_not_isUpper {c : Char} (notUpper : ¬ c.isUpper) : c.toLower = c := by
  have outOfRange : ¬ (c.val ≥ 'A'.val ∧ c.val ≤ 'Z'.val) := by
    simpa [isUpper_iff, UInt32.le_iff_toNat_le] using notUpper
  delta Char.toLower
  rw [dif_neg outOfRange]

theorem toLower_toLower (c : Char) : c.toLower.toLower = c.toLower := by
  apply toLower_of_not_isUpper
  by_cases upper : c.isUpper
  · have := toNat_toLower upper
    rw [isUpper_iff] at upper ⊢
    omega
  · rwa [toLower_of_not_isUpper upper]

theorem isLower_toLower {c : Char} (upper : c.isUpper) : c.toLower.isLower := by
  have := toNat_toLower upper
  have := isUpper_iff.1 upper
  rw [isLower_iff]
  omega

theorem toUpper_toLower {c : Char} (upper : c.isUpper) : c.toLower.toUpper = c := by
  have := toNat_toUpper (isLower_toLower upper)
  have := toNat_toLower upper
  apply Char.toNat_inj.1
  omega

theorem toLower_toUpper {c : Char} (opens : opensVariable c) :
    c.toUpper.toNat < 0x80 ∧ c.toUpper.toLower = c := by
  simp only [opensVariable, Bool.or_eq_true, decide_eq_true_eq] at opens
  rcases opens with lower | rfl
  · have range := isLower_iff.1 lower
    have raised := toNat_toUpper lower
    have upper : c.toUpper.isUpper := isUpper_iff.2 (by omega)
    have back := toNat_toLower upper
    exact ⟨by omega, Char.toNat_inj.1 (by omega)⟩
  · decide

theorem identifierChar_of_opensVariable {c : Char} (opens : opensVariable c) : identifierChar c := by
  simp only [opensVariable, Bool.or_eq_true, decide_eq_true_eq] at opens
  rcases opens with lower | rfl
  · have alpha : c.isAlpha = (c.isUpper || c.isLower) := rfl
    simp [identifierChar, Char.isAlphanum, alpha, lower]
  · decide

theorem not_isDigit_of_opensVariable {c : Char} (opens : opensVariable c) : c.isDigit = false := by
  simp only [opensVariable, Bool.or_eq_true, decide_eq_true_eq] at opens
  rcases opens with lower | rfl
  · have := isLower_iff.1 lower
    simp only [Char.isDigit, UInt32.le_iff_toNat_le, ge_iff_le, Bool.and_eq_false_iff,
      decide_eq_false_iff_not, Char.toNat_val]
    simp
    omega
  · decide

theorem not_opensVariable_of_isUpper {c : Char} (upper : c.isUpper) : opensVariable c = false := by
  refine Bool.eq_false_iff.2 fun opens => ?_
  simp only [opensVariable, Bool.or_eq_true, decide_eq_true_eq] at opens
  rcases opens with lower | rfl
  · have := isLower_iff.1 lower
    have := isUpper_iff.1 upper
    omega
  · cases upper

/-- A variable in source starts with a small letter or a low line, and it still tells the name. -/
theorem toList_ofVariable {name : String} (spelled : isVariable name) :
    ∃ first rest, (ofVariable name).toList = first :: rest ∧ opensVariable first ∧
      rest.all identifierChar ∧ String.ofList (first.toUpper :: rest) = name := by
  unfold isVariable at spelled
  split at spelled
  next => cases spelled
  next first rest eq =>
    simp only [Bool.and_eq_true, Bool.or_eq_true, decide_eq_true_eq] at spelled
    obtain ⟨opens, chars⟩ := spelled
    have whole : String.ofList (first :: rest) = name := by rw [← eq, String.ofList_toList]
    rcases opens with upper | rfl
    · have ascii : first.toNat < 0x80 := by
        have := isUpper_iff.1 upper
        omega
      refine ⟨first.toLower, rest, ?_, ?_, chars, ?_⟩
      · simp [ofVariable, eq, Character.lowercase_of_ascii first ascii]
      · simp [opensVariable, isLower_toLower upper]
      · rw [toUpper_toLower upper, whole]
    · refine ⟨'_', rest, ?_, by decide, chars, whole⟩
      have kept : Character.lowercase '_' = ['_'] := Character.lowercase_of_ascii '_' (by decide)
      simp [ofVariable, eq, kept]

def startsVariable (text : String) : Bool :=
  text.toList.head?.any opensVariable

def variableOf (text : String) : String :=
  match text.toList with
  | [] => ""
  | first :: rest => String.ofList (first.toUpper :: rest)

theorem startsVariable_ofVariable {name : String} (spelled : isVariable name) :
    startsVariable (ofVariable name) := by
  obtain ⟨first, rest, written, opens, -, -⟩ := toList_ofVariable spelled
  rw [startsVariable, written]
  exact opens

theorem variableOf_ofVariable {name : String} (spelled : isVariable name) :
    variableOf (ofVariable name) = name := by
  obtain ⟨first, rest, written, -, -, back⟩ := toList_ofVariable spelled
  simpa only [variableOf, written] using back

theorem ofVariable_variableOf {text : String} (starts : startsVariable text) :
    ofVariable (variableOf text) = text := by
  cases written : text.toList with
  | nil => simp [startsVariable, written] at starts
  | cons first rest =>
    have whole : String.ofList (first :: rest) = text := by rw [← written, String.ofList_toList]
    have opens : opensVariable first := by simpa [startsVariable, written] using starts
    obtain ⟨ascii, back⟩ := toLower_toUpper opens
    simp only [variableOf, written, ofVariable, String.toList_ofList,
      Character.lowercase_of_ascii _ ascii, back]
    exact whole

/-- A text is written for at most one variable, and for none if it starts otherwise. -/
theorem ofVariable_eq_text_iff {name text : String} (spelled : isVariable name) :
    ofVariable name = text ↔ startsVariable text ∧ name = variableOf text := by
  constructor
  · rintro rfl
    exact ⟨startsVariable_ofVariable spelled, (variableOf_ofVariable spelled).symm⟩
  · rintro ⟨starts, rfl⟩
    exact ofVariable_variableOf starts

theorem ofVariable_eq_iff {name other : String} (spelled : isVariable name)
    (spelled' : isVariable other) : ofVariable name = ofVariable other ↔ name = other := by
  rw [ofVariable_eq_text_iff spelled, variableOf_ofVariable spelled']
  exact and_iff_right (startsVariable_ofVariable spelled')

end Legible.Spelling
