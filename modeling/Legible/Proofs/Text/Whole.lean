import Legible.Proofs.Text.Marks

/-!
How texts without placeholders are put together.

A fixed text that starts or ends with no letter of the mark joins nothing to it on that side, so
whole texts can stand next to it.
-/

set_option autoImplicit false

namespace Legible

open Text (Unmarked startsForeign endsForeign)

def Whole (text : String) : Prop :=
  Unmarked text.toList

instance (text : String) : Decidable (Whole text) :=
  inferInstanceAs (Decidable (Unmarked _))

namespace Whole

def opens (text : String) : Bool :=
  Whole text && endsForeign text.toList

def closes (text : String) : Bool :=
  Whole text && startsForeign text.toList

theorem after (opening : String) (fixed : opens opening) {text : String} (whole : Whole text) :
    Whole (opening ++ text) := by
  simp only [opens, Bool.and_eq_true, decide_eq_true_eq] at fixed
  rw [Whole, String.toList_append]
  exact fixed.1.append_of_endsForeign whole fixed.2

theorem before (closing : String) (fixed : closes closing) {text : String} (whole : Whole text) :
    Whole (text ++ closing) := by
  simp only [closes, Bool.and_eq_true, decide_eq_true_eq] at fixed
  rw [Whole, String.toList_append]
  exact whole.append_of_startsForeign fixed.1 fixed.2

theorem around (separator : String) (fixed : opens separator && closes separator)
    {first second : String} (before : Whole first) (after : Whole second) :
    Whole (first ++ separator ++ second) := by
  rw [Bool.and_eq_true] at fixed
  have joined : Whole (first ++ separator) := before.before separator fixed.2
  have ⟨_, ends⟩ : Whole separator ∧ endsForeign separator.toList := by
    simpa only [opens, Bool.and_eq_true, decide_eq_true_eq] using fixed.1
  rw [Whole, String.toList_append]
  apply joined.append_of_endsForeign after
  rw [String.toList_append]
  exact Text.endsForeign_append _ ends

theorem between (opening closing : String) (opens : opens opening) (closes : closes closing)
    {text : String} (whole : Whole text) : Whole (opening ++ text ++ closing) :=
  (whole.after opening opens).before closing closes

theorem intercalate (separator : String) (fixed : opens separator && closes separator)
    {texts : List String} (each : ∀ text ∈ texts, Whole text) :
    Whole (separator.intercalate texts) := by
  induction texts with
  | nil => simpa using (by decide : Whole "")
  | cons first rest ih =>
    rw [List.forall_mem_cons] at each
    cases rest with
    | nil => simpa using each.1
    | cons second rest =>
      rw [String.intercalate_cons_cons]
      exact around separator fixed each.1 (ih each.2)

end Whole

end Legible
