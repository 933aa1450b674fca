import Legible.Proofs.Term.Annotations
import Legible.Proofs.Typespec.Relabel

/-!
Types of terms without their annotations.

A term reads as the same type, apart from the details of warnings, whatever its annotations are.
-/

set_option autoImplicit false

namespace Legible

namespace Typespec

def ReadsAlike (t : Term) : Prop :=
  (ofTerm t.withoutAnnotations).mapWarnings .withoutDetails =
    (ofTerm t).mapWarnings .withoutDetails

theorem map_readsAlike {terms : List Term} (each : ∀ t ∈ terms, ReadsAlike t) :
    ((terms.map Term.withoutAnnotations).map ofTerm).map (mapWarnings .withoutDetails) =
      (terms.map ofTerm).map (mapWarnings .withoutDetails) := by
  simp only [List.map_map]
  exact List.map_congr_left each

theorem Malformed.withoutAnnotations {t : Term} {what : Placeholder}
    (malformed : Malformed t what) : Malformed t.withoutAnnotations what := by
  cases malformed <;> rw [Term.withoutAnnotations_term _ _ rfl]
  case range odd =>
    simp only [List.map_cons, List.map_nil, Term.withoutAnnotations_list]
    exact .range (by simpa using odd)
  case bits odd =>
    simp only [List.map_cons, List.map_nil, Term.withoutAnnotations_list]
    exact .bits (by simpa using odd)
  case user wrong => exact .user (by simpa using wrong)
  case remote unquoted =>
    -- A payload that is well-formed without its annotations was so with them.
    refine .remote fun module name arguments stripped => ?_
    obtain ⟨inner, rfl, same⟩ := Term.eq_list_of_withoutAnnotations stripped
    match inner, (by simpa using congrArg List.length same : inner.length = 3) with
    | [module, name, third], _ =>
      simp only [List.map_cons, List.map_nil, List.cons.injEq, and_true] at same
      obtain ⟨rfl, rfl, third⟩ := same
      obtain ⟨inner, rfl, -⟩ := Term.eq_list_of_withoutAnnotations third
      simpa using unquoted module name inner rfl
  case annotated unnamed =>
    refine .annotated fun name type stripped => ?_
    obtain ⟨inner, rfl, same⟩ := Term.eq_list_of_withoutAnnotations stripped
    match inner, same with
    | [name, type], _ => exact unnamed name type rfl
  case «variable» noAtom => exact .variable ((Term.atom?_withoutAnnotations _).trans noAtom)
  case atom noAtom => exact .atom ((Term.atom?_withoutAnnotations _).trans noAtom)
  case integer noNumber => exact .integer ((Term.number?_withoutAnnotations _).trans noNumber)

theorem parameters_readAlike {t : Term} (self : ReadsAlike t) :
    (Parameters.ofTerm t.withoutAnnotations (ofTerm t.withoutAnnotations)).mapWarnings
      .withoutDetails = (Parameters.ofTerm t (ofTerm t)).mapWarnings .withoutDetails := by
  rw [← Parameters.ofTerm_mapWarnings, self, ← Parameters.ofTerm_mapWarnings]
  simp only [Parameters.ofTerm, Term.isAnyParameters_withoutAnnotations,
    Term.subtype?_withoutAnnotations]

theorem segment_readsAlike {t : Term} (self : ReadsAlike t) :
    mapSegment .withoutDetails (if t.withoutAnnotations.isZero then none
      else some (ofTerm t.withoutAnnotations)) =
      mapSegment .withoutDetails (if t.isZero then none else some (ofTerm t)) := by
  rw [Term.isZero_withoutAnnotations]
  split
  · rfl
  · exact congrArg some self

theorem fields_readAlike {terms : List Term} (each : ∀ t ∈ terms, ReadsAlike t) :
    ((terms.map Term.withoutAnnotations).map fun t => Field.ofTypespec (ofTerm t)).map
      (Field.mapWarnings .withoutDetails) =
      (terms.map fun t => Field.ofTypespec (ofTerm t)).map
        (Field.mapWarnings .withoutDetails) := by
  simp only [List.map_map]
  refine List.map_congr_left fun t member => ?_
  simp only [Function.comp_apply, ← Field.ofTypespec_mapWarnings]
  rw [each t member]

private theorem withoutAnnotations_type {a : Term} {subtype : String} {members : List Term} :
    (Construct.type.term a [.atom subtype, .list members]).withoutAnnotations =
      Construct.type.term (.list [])
        [.atom subtype, .list (members.map Term.withoutAnnotations)] := by
  rw [Term.withoutAnnotations_term _ _ rfl, List.map_cons, List.map_cons,
    Term.withoutAnnotations_list]
  rfl

theorem readsAlike (t : Term) : ReadsAlike t := by
  induction t using Term.inside_induction with
  | _ t each =>
    have member : ∀ {members : List Term}, (Term.list members).Inside t → ∀ u ∈ members,
        ReadsAlike u :=
      fun inside u member => each u (inside.of_member member)
    have list : ∀ members : List Term, (Term.list members).Inside t →
        ((members.map Term.withoutAnnotations).map ofTerm).map (mapWarnings .withoutDetails) =
          (members.map ofTerm).map (mapWarnings .withoutDetails) :=
      fun members inside => map_readsAlike (member inside)
    have read := reads t
    unfold ReadsAlike
    generalize ofTerm t = type at read
    cases read with
    | unsupported foreign =>
      have stripped : Reads t.withoutAnnotations (ofUnsupported t.withoutAnnotations) :=
        .unsupported (by simpa using foreign)
      rw [stripped.ofTerm_eq]
      rfl
    | malformed malformed => rw [ofTerm_malformed malformed.withoutAnnotations]
    | nameless noAtom =>
      rw [Term.withoutAnnotations_term _ _ rfl]
      simp only [List.map_cons, List.map_nil]
      rw [Reads.ofTerm_eq (.nameless (by simpa using noAtom))]
      rfl
    | bare noList =>
      rw [Term.withoutAnnotations_term _ _ rfl]
      exact congrArg _ (Reads.ofTerm_eq (.bare (by simp [noList])))
    | anyFunction | emptyList | «variable» | atom | integer =>
      rw [Term.withoutAnnotations_term _ _ rfl]
      rfl
    | @function a parameters result =>
      have inside : (Term.list [parameters, result]).Inside (Construct.type.term a
        [.atom "fun", .list [parameters, result]]) := .of_payload (by simp)
      have first := parameters_readAlike (member inside parameters (by simp))
      have second := member inside result (by simp)
      rw [withoutAnnotations_type]
      exact congrArg Typespec.function (congrArg₂ Signature.arrow first second)
    | oddFunction some odd =>
      rw [withoutAnnotations_type,
        Reads.ofTerm_eq (.oddFunction (by simpa using some) (by simpa using odd))]
    | @product a members =>
      have inner := list members (.of_payload (by simp))
      rw [withoutAnnotations_type, ofTerm_product]
      simp only [mapWarnings, mapAll_eq_map, inner]
    | @union a members =>
      have inner := list members (.of_payload (by simp))
      rw [withoutAnnotations_type, ofTerm_union]
      simp only [mapWarnings, mapAll_eq_map, inner]
    | @tuple a members =>
      have inner := list members (.of_payload (by simp))
      rw [withoutAnnotations_type, ofTerm_tuple]
      simp only [mapWarnings, mapAll_eq_map, inner]
    | @list a element =>
      have inside : (Term.list [element]).Inside (Construct.type.term a
        [.atom "list", .list [element]]) := .of_payload (by simp)
      rw [withoutAnnotations_type]
      exact congrArg Typespec.list (member inside element (by simp))
    | anyList several =>
      rw [withoutAnnotations_type, Reads.ofTerm_eq (.anyList (by simpa using several))]
    | @nonemptyList a element =>
      have inside : (Term.list [element]).Inside (Construct.type.term a
        [.atom "nonempty_list", .list [element]]) := .of_payload (by simp)
      rw [withoutAnnotations_type]
      exact congrArg Typespec.nonemptyList (member inside element (by simp))
    | anyNonemptyList several =>
      rw [withoutAnnotations_type, Reads.ofTerm_eq (.anyNonemptyList (by simpa using several))]
    | @map a members =>
      have inside : (Term.list members).Inside (Construct.type.term a
        [.atom "map", .list members]) := .of_payload (by simp)
      have inner := fields_readAlike (member inside)
      rw [withoutAnnotations_type, ofTerm_map]
      simp only [mapWarnings, Field.mapAll_eq_map, inner]
    | @range a low high =>
      have inside : (Term.list [low, high]).Inside (Construct.type.term a
        [.atom "range", .list [low, high]]) := .of_payload (by simp)
      have first := member inside low (by simp)
      have second := member inside high (by simp)
      rw [withoutAnnotations_type]
      exact congrArg₂ Typespec.range first second
    | @bits a size unit =>
      have inside : (Term.list [size, unit]).Inside (Construct.type.term a
        [.atom "binary", .list [size, unit]]) := .of_payload (by simp)
      have first := segment_readsAlike (member inside size (by simp))
      have second := segment_readsAlike (member inside unit (by simp))
      rw [withoutAnnotations_type]
      exact congrArg₂ Typespec.bits first second
    | @builtin a name members plain =>
      have inner := list members (.of_payload (by simp))
      rw [withoutAnnotations_type, ofTerm_builtin plain]
      simp only [mapWarnings, mapAll_eq_map, inner]
    | @user a name members =>
      have inner := list members (.of_payload (by simp))
      rw [Term.withoutAnnotations_term _ _ rfl]
      simp only [List.map_cons, List.map_nil, Term.withoutAnnotations_list]
      exact (congrArg _ ofTerm_user).trans (by simp only [mapWarnings, mapAll_eq_map, inner])
    | @remote a module name moduleName functionName members quotedModule quotedName =>
      have holder : (Term.list [module, name, .list members]).Inside (Construct.remoteType.term a
        [.list [module, name, .list members]]) := .of_payload (by simp)
      have inner := list members (.of_member (by simp) holder)
      rw [Term.withoutAnnotations_term _ _ rfl]
      simp only [List.map_cons, List.map_nil, Term.withoutAnnotations_list]
      rw [Reads.ofTerm_eq (.remote (by simpa using quotedModule) (by simpa using quotedName))]
      simp only [mapWarnings, mapAll_eq_map, inner]
    | @annotated a name type =>
      have inside : (Term.list [name, type]).Inside (Construct.annotatedType.term a
        [.list [name, type]]) := .of_payload (by simp)
      have first := member inside name (by simp)
      have second := member inside type (by simp)
      rw [Term.withoutAnnotations_term _ _ rfl]
      simp only [List.map_cons, List.map_nil, Term.withoutAnnotations_list]
      exact congrArg₂ Typespec.annotated first second
    | @unaryOp a operator operand =>
      have inner := each operand (.of_payload (by simp))
      rw [Term.withoutAnnotations_term _ _ rfl]
      change Typespec.unaryOp operator.withoutAnnotations.atom? _ = _
      rw [Term.atom?_withoutAnnotations]
      exact congrArg (Typespec.unaryOp operator.atom?) inner
    | @binaryOp a operator left right =>
      have first := each left (.of_payload (by simp))
      have second := each right (.of_payload (by simp))
      rw [Term.withoutAnnotations_term _ _ rfl]
      change Typespec.binaryOp operator.withoutAnnotations.atom? _ _ = _
      rw [Term.atom?_withoutAnnotations]
      exact congrArg₂ (Typespec.binaryOp operator.atom?) first second

theorem mapWarnings_eq {t u : Term} (same : t.SameButAnnotations u) :
    (ofTerm t).mapWarnings .withoutDetails = (ofTerm u).mapWarnings .withoutDetails := by
  rw [← readsAlike, same, readsAlike]

end Typespec

end Legible
