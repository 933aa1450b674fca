import Legible.Proofs.Typespec.Reads

/-!
Types whose warnings are changed.

The text of a type does not hang on the reason why a term in it has no form of its own.
-/

set_option autoImplicit false

namespace Legible

variable (f : Warning → Warning)

mutual

def Typespec.mapWarnings : Typespec → Typespec
  | .unsupported cause line => .unsupported (f ⟨cause, line⟩).cause (f ⟨cause, line⟩).line
  | .function signature => .function signature.mapWarnings
  | .product members => .product (Typespec.mapAll members)
  | .union members => .union (Typespec.mapAll members)
  | .tuple elements => .tuple (Typespec.mapAll elements)
  | .list element => .list element.mapWarnings
  | .nonemptyList element => .nonemptyList element.mapWarnings
  | .map fields => .map (Field.mapAll fields)
  | .range low high => .range low.mapWarnings high.mapWarnings
  | .bits size unit => .bits (Typespec.mapSegment size) (Typespec.mapSegment unit)
  | .builtin name arguments => .builtin name (Typespec.mapAll arguments)
  | .user name arguments => .user name (Typespec.mapAll arguments)
  | .remote module name arguments => .remote module name (Typespec.mapAll arguments)
  | .annotated name type => .annotated name.mapWarnings type.mapWarnings
  | .unaryOp operator operand => .unaryOp operator operand.mapWarnings
  | .binaryOp operator left right => .binaryOp operator left.mapWarnings right.mapWarnings
  | type => type

def Typespec.mapAll : List Typespec → List Typespec
  | [] => []
  | type :: rest => type.mapWarnings :: Typespec.mapAll rest

def Typespec.mapSegment : Option Typespec → Option Typespec
  | none => none
  | some size => some size.mapWarnings

def Signature.mapWarnings : Signature → Signature
  | .arrow parameters result => .arrow parameters.mapWarnings result.mapWarnings
  | signature => signature

def Parameters.mapWarnings : Parameters → Parameters
  | .types types => .types (Typespec.mapAll types)
  | .single type => .single type.mapWarnings
  | parameters => parameters

def Field.mapWarnings : Field → Field
  | .optional key value => .optional key.mapWarnings value.mapWarnings
  | .required key value => .required key.mapWarnings value.mapWarnings
  | .single type => .single type.mapWarnings
  | .malformed => .malformed

def Field.mapAll : List Field → List Field
  | [] => []
  | field :: rest => field.mapWarnings :: Field.mapAll rest

end

@[simp] theorem Typespec.mapAll_eq_map (types : List Typespec) :
    mapAll f types = types.map (mapWarnings f) := by
  induction types with
  | nil => rfl
  | cons type rest ih => simp [mapAll, ih]

@[simp] theorem Field.mapAll_eq_map (fields : List Field) :
    mapAll f fields = fields.map (mapWarnings f) := by
  induction fields with
  | nil => rfl
  | cons field rest ih => simp [mapAll, ih]

mutual

theorem Typespec.text_mapWarnings : ∀ type : Typespec, (type.mapWarnings f).text = type.text
  | .unsupported .. | .placeholder _ | .emptyList | .variable _ | .atom _ | .integer _ => rfl
  | .function signature => signature.text_mapWarnings
  | .product types | .union types | .tuple types | .builtin _ types | .user _ types
  | .remote _ _ types => by
    simp only [Typespec.mapWarnings, Typespec.text, Typespec.texts_mapAll types]
  | .list element | .nonemptyList element => by
    simp only [Typespec.mapWarnings, Typespec.text, element.text_mapWarnings]
  | .map fields => by
    simp only [Typespec.mapWarnings, Typespec.text, Field.texts_mapAll fields]
  | .range low high | .annotated low high | .binaryOp _ low high => by
    simp only [Typespec.mapWarnings, Typespec.text, low.text_mapWarnings, high.text_mapWarnings]
  | .bits size unit => by
    simp only [Typespec.mapWarnings, Typespec.text, Typespec.segment_mapSegment _ size,
      Typespec.segment_mapSegment _ unit]
  | .unaryOp _ operand => by
    simp only [Typespec.mapWarnings, Typespec.text, operand.text_mapWarnings]

theorem Typespec.texts_mapAll : ∀ types : List Typespec,
    Typespec.texts (Typespec.mapAll f types) = Typespec.texts types
  | [] => rfl
  | type :: rest => by
    simp only [Typespec.mapAll, Typespec.texts, type.text_mapWarnings, Typespec.texts_mapAll rest]

theorem Typespec.segment_mapSegment (start : String) :
    ∀ size : Option Typespec,
      Typespec.segment start (Typespec.mapSegment f size) = Typespec.segment start size
  | none => rfl
  | some size => by simp only [Typespec.mapSegment, Typespec.segment, size.text_mapWarnings]

theorem Signature.text_mapWarnings : ∀ signature : Signature,
    (signature.mapWarnings f).text = signature.text
  | .arrow parameters result => by
    simp only [Signature.mapWarnings, Signature.text, parameters.text_mapWarnings,
      result.text_mapWarnings]
  | .any | .malformed => rfl

theorem Parameters.text_mapWarnings : ∀ parameters : Parameters,
    (parameters.mapWarnings f).text = parameters.text
  | .types types => by
    simp only [Parameters.mapWarnings, Parameters.text, Typespec.texts_mapAll types]
  | .single type => type.text_mapWarnings
  | .any | .malformed => rfl

theorem Field.text_mapWarnings : ∀ field : Field, (field.mapWarnings f).text = field.text
  | .optional key value | .required key value => by
    simp only [Field.mapWarnings, Field.text, key.text_mapWarnings, value.text_mapWarnings]
  | .single type => type.text_mapWarnings
  | .malformed => rfl

theorem Field.texts_mapAll : ∀ fields : List Field,
    Field.texts (Field.mapAll f fields) = Field.texts fields
  | [] => rfl
  | field :: rest => by
    simp only [Field.mapAll, Field.texts, field.text_mapWarnings, Field.texts_mapAll rest]

end

mutual

theorem Typespec.warnings_mapWarnings : ∀ type : Typespec,
    (type.mapWarnings f).warnings = type.warnings.map f
  | .unsupported .. | .placeholder _ | .emptyList | .variable _ | .atom _ | .integer _ => rfl
  | .function signature => signature.warnings_mapWarnings
  | .product types | .union types | .tuple types | .builtin _ types | .user _ types
  | .remote _ _ types => by
    simp only [Typespec.mapWarnings, Typespec.warnings, Typespec.warningsOf_mapAll types]
  | .list element | .nonemptyList element => by
    simp only [Typespec.mapWarnings, Typespec.warnings, element.warnings_mapWarnings]
  | .map fields => by
    simp only [Typespec.mapWarnings, Typespec.warnings, Field.warningsOf_mapAll fields]
  | .range low high | .annotated low high | .binaryOp _ low high => by
    simp only [Typespec.mapWarnings, Typespec.warnings, low.warnings_mapWarnings,
      high.warnings_mapWarnings, List.map_append]
  | .bits size unit => by
    simp only [Typespec.mapWarnings, Typespec.warnings, Typespec.segmentWarnings_mapSegment size,
      Typespec.segmentWarnings_mapSegment unit, List.map_append]
  | .unaryOp _ operand => by
    simp only [Typespec.mapWarnings, Typespec.warnings, operand.warnings_mapWarnings]

theorem Typespec.warningsOf_mapAll : ∀ types : List Typespec,
    Typespec.warningsOf (Typespec.mapAll f types) = (Typespec.warningsOf types).map f
  | [] => rfl
  | type :: rest => by
    simp only [Typespec.mapAll, Typespec.warningsOf, type.warnings_mapWarnings,
      Typespec.warningsOf_mapAll rest, List.map_append]

theorem Typespec.segmentWarnings_mapSegment : ∀ size : Option Typespec,
    Typespec.segmentWarnings (Typespec.mapSegment f size) = (Typespec.segmentWarnings size).map f
  | none => rfl
  | some size => size.warnings_mapWarnings

theorem Signature.warnings_mapWarnings : ∀ signature : Signature,
    (signature.mapWarnings f).warnings = signature.warnings.map f
  | .arrow parameters result => by
    simp only [Signature.mapWarnings, Signature.warnings, parameters.warnings_mapWarnings,
      result.warnings_mapWarnings, List.map_append]
  | .any | .malformed => rfl

theorem Parameters.warnings_mapWarnings : ∀ parameters : Parameters,
    (parameters.mapWarnings f).warnings = parameters.warnings.map f
  | .types types => Typespec.warningsOf_mapAll types
  | .single type => type.warnings_mapWarnings
  | .any | .malformed => rfl

theorem Field.warnings_mapWarnings : ∀ field : Field,
    (field.mapWarnings f).warnings = field.warnings.map f
  | .optional key value | .required key value => by
    simp only [Field.mapWarnings, Field.warnings, key.warnings_mapWarnings,
      value.warnings_mapWarnings, List.map_append]
  | .single type => type.warnings_mapWarnings
  | .malformed => rfl

theorem Field.warningsOf_mapAll : ∀ fields : List Field,
    Field.warningsOf (Field.mapAll f fields) = (Field.warningsOf fields).map f
  | [] => rfl
  | field :: rest => by
    simp only [Field.mapAll, Field.warningsOf, field.warnings_mapWarnings,
      Field.warningsOf_mapAll rest, List.map_append]

end

theorem Field.ofTypespec_mapWarnings (type : Typespec) :
    Field.ofTypespec (type.mapWarnings f) = (Field.ofTypespec type).mapWarnings f := by
  cases type with
  | builtin name arguments =>
    simp only [Typespec.mapWarnings, Typespec.mapAll_eq_map, Field.ofTypespec]
    split
    · match arguments with
      | [] | [_] | [_, _] | _ :: _ :: _ :: _ => rfl
    · split
      · match arguments with
        | [] | [_] | [_, _] | _ :: _ :: _ :: _ => rfl
      · simp [Field.mapWarnings, Typespec.mapWarnings]
  | _ => rfl

theorem Parameters.ofTerm_mapWarnings (t : Term) (read : Typespec) :
    Parameters.ofTerm t (read.mapWarnings f) = (Parameters.ofTerm t read).mapWarnings f := by
  unfold Parameters.ofTerm
  split
  · rfl
  · split
    · cases read <;> rfl
    · rfl

end Legible
