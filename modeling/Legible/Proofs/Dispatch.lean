import Legible.Proofs.Expr.Converters
import Legible.Proofs.Typespec.Converters

/-!
Converters of both families in any order.

No construct is taken by two converters, except that one converter takes types of every subtype. So
what is written about a term, and which warnings are recorded, does not hang on the order of the
converters, as long as that one stands after those of subtypes with a notation of their own.
-/

set_option autoImplicit false

namespace Legible

open Converter (tryInOrder firstRead Exclusive Silent)

namespace Expr

variable {layout : Layout} {position : Position} {scope : Scope} {t : Term}
  {recorded : List Warning}

theorem exclusive :
    Exclusive (write layout position scope) (converters ofTerm) t recorded := by
  refine Converter.exclusive_of_specific (fun _ => isSpecific_of_mem) ?_ t recorded
  rw [guard_converters]
  decide

theorem isSome_convert_iff {converter : Converter Expr} (member : converter ∈ converters ofTerm) :
    ∃ construct, converter.guard = .construct construct ∧ construct.isExpression ∧
      (((converter.convert (write layout position scope) t).run recorded).1.isSome ↔
        t.tag? = some construct.tag ∧ t.arity? = some construct.arity) := by
  obtain ⟨construct, listed, same⟩ := Converter.exists_key (guard_converters ofTerm) member
  refine ⟨construct, same, (List.mem_filter.1 listed).2, ?_⟩
  rw [Converter.isSome_convert, same]
  simp [Guard.accepts, Construct.accepts]

theorem run_tryInOrder {order : List (Converter Expr)} (isOrder : IsOrder ofTerm order) :
    (tryInOrder (write layout position scope) order t).run recorded =
      if t.isExpression then
        let rendering := (ofTerm t).render layout position scope
        (some (rendering.text, rendering.declared), recorded ++ rendering.warnings)
      else (none, recorded) :=
  Converter.run_tryInOrder (firstRead_of_isOrder isOrder fun _ _ => rfl) recorded

end Expr

namespace Typespec

variable {t : Term} {recorded : List Warning}

theorem exclusive :
    Exclusive write (notatedConverters ofTerm ++ constructConverters ofTerm) t recorded := by
  refine Converter.exclusive_of_specific (fun _ => isSpecific_of_mem) ?_ t recorded
  rw [List.map_append, guard_notatedConverters, guard_constructConverters]
  decide

theorem run_tryInOrder {order : List (Converter Typespec)} (isOrder : IsOrder ofTerm order) :
    (tryInOrder write order t).run recorded =
      if t.isType then (some (ofTerm t).text, recorded ++ (ofTerm t).warnings)
      else (none, recorded) :=
  Converter.run_tryInOrder (firstRead_of_isOrder isOrder fun _ _ => rfl) recorded

end Typespec

/-- Of the converters of expressions at most one has a result, and of those of types too if the one
of all subtypes is left out. A converter without a result records nothing. So every order of the
converters, if that one stands behind those of subtypes with a notation, writes and records the
same, also if parts are read in an order of their own. -/
theorem converters_any_order (layout : Layout) (position : Position) (scope : Scope) (t : Term)
    (recorded : List Warning) :
    (let write := Expr.write layout position scope
      let table := Expr.converters Expr.ofTerm
      let rendering := (Expr.ofTerm t).render layout position scope
      (∀ converter ∈ table, ∃ construct, converter.guard = .construct construct ∧
        construct.isExpression ∧ (((converter.convert write t).run recorded).1.isSome ↔
          t.tag? = some construct.tag ∧ t.arity? = some construct.arity)) ∧
      Exclusive write table t recorded ∧ Silent write table t recorded ∧
      (∀ order, Expr.IsOrder Expr.ofTerm order →
        (tryInOrder write order t).run recorded =
          if t.isExpression then
            (some (rendering.text, rendering.declared), recorded ++ rendering.warnings)
          else (none, recorded)) ∧
      ∀ read : Term → Expr,
        (∀ u, ∃ order, Expr.IsOrder read order ∧
          read u = (firstRead order u).getD (Expr.ofUnsupported u)) ↔ read = Expr.ofTerm) ∧
    (let write := Typespec.write
      let notated := Typespec.notatedConverters Typespec.ofTerm
      let constructs := Typespec.constructConverters Typespec.ofTerm
      Exclusive write (notated ++ constructs) t recorded ∧
      Silent write (Typespec.converters Typespec.ofTerm) t recorded ∧
      (∀ order, Typespec.IsOrder Typespec.ofTerm order →
        (tryInOrder write order t).run recorded =
          if t.isType then
            (some (Typespec.ofTerm t).text, recorded ++ (Typespec.ofTerm t).warnings)
          else (none, recorded)) ∧
      ∀ read : Term → Typespec,
        (∀ u, ∃ order, Typespec.IsOrder read order ∧
          read u = (firstRead order u).getD (Typespec.ofUnsupported u)) ↔
        read = Typespec.ofTerm) := by
  refine ⟨⟨fun _ => Expr.isSome_convert_iff, Expr.exclusive, Converter.silent _ t recorded,
    fun _ => Expr.run_tryInOrder, fun _ => Expr.reads_in_order_iff⟩, Typespec.exclusive,
    Converter.silent _ t recorded, fun _ => Typespec.run_tryInOrder,
    fun _ => Typespec.reads_in_order_iff⟩

/-- The converters of both families backwards, where a list holds a term that is no expression. -/
theorem converters_reversed :
    let code := Construct.cons.term (.number (.integer 1))
      [.tuple [.atom "bin", .number (.integer 2), .list []],
        Construct.emptyList.term (.number (.integer 1)) []]
    let type := Construct.type.term (.number (.integer 1))
      [.atom "list", .list [Construct.atom.term (.number (.integer 1)) [.atom "a"]]]
    let expressions := (Expr.converters Expr.ofTerm).reverse
    let types := (Typespec.notatedConverters Typespec.ofTerm).reverse ++
      Typespec.builtinConverter Typespec.ofTerm ::
        (Typespec.constructConverters Typespec.ofTerm).reverse
    Expr.IsOrder Expr.ofTerm expressions ∧ Typespec.IsOrder Typespec.ofTerm types ∧
    (tryInOrder (Expr.write {} .expression ∅) expressions code).run [] =
      (some ("[" ++ Placeholder.code.text ++ "]", ∅),
        [⟨.ofExpression (.tuple [.atom "bin", .number (.integer 2), .list []]), some 2⟩]) ∧
    (tryInOrder Typespec.write types type).run [] = (some "[:a]", []) := by
  intro code type expressions types
  have isOrder : Expr.IsOrder Expr.ofTerm expressions := List.reverse_perm _
  have isOrder' : Typespec.IsOrder Typespec.ofTerm types :=
    ⟨(List.reverse_perm _).append ((List.reverse_perm _).cons _), _, _, rfl,
      fun _ => List.mem_reverse.2⟩
  obtain ⟨⟨-, -, -, written, -⟩, -⟩ := converters_any_order {} .expression ∅ code []
  obtain ⟨-, -, -, written', -⟩ := converters_any_order {} .expression ∅ type []
  refine ⟨isOrder, isOrder', (written _ isOrder).trans ?_, (written' _ isOrder').trans ?_⟩
  · rfl
  · rfl

end Legible
