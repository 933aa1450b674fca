import Legible.Proofs.Expr.Sequence
import Mathlib.Logic.ExistsUnique

/-!
Chains of cells, and the elements that they hold.

A cell joins an element to what comes after it. Every term is a chain in one way only: some cells,
perhaps none, and a last term that is no cell. A chain is rendered as the sequence of its elements,
with the last term after a bar unless it is the empty list.
-/

set_option autoImplicit false

namespace Legible

namespace Term

/-- Cells, each given by its annotation and its element, and the term that the last one ends in. -/
def chain (cells : List (Term × Term)) (last : Term) : Term :=
  cells.foldr (fun cell rest => Construct.cons.term cell.1 [cell.2, rest]) last

theorem chain_cons (a element : Term) (cells : List (Term × Term)) (last : Term) :
    chain ((a, element) :: cells) last = Construct.cons.term a [element, chain cells last] := rfl

theorem exists_chain (t : Term) :
    ∃ cells last, last.construct? ≠ some .cons ∧ t = chain cells last := by
  -- The rest of a chain lies inside of its first cell, so following it comes to an end.
  induction t using inside_induction with
  | _ t ih =>
    by_cases isCell : t.construct? = some .cons
    · obtain ⟨a, payload, rfl, filled⟩ := eq_term_of_construct? isCell
      match payload, filled with
      | [head, tail], _ =>
        obtain ⟨cells, last, ends, rfl⟩ := ih tail (.of_payload (by simp))
        exact ⟨(a, head) :: cells, last, ends, rfl⟩
    · exact ⟨[], t, isCell, rfl⟩

theorem construct?_chain_cons (cell : Term × Term) (cells : List (Term × Term)) (last : Term) :
    (chain (cell :: cells) last).construct? = some .cons :=
  construct?_term .cons cell.1 [cell.2, chain cells last] rfl

theorem chain_inj {cells cells' : List (Term × Term)} {last last' : Term}
    (ends : last.construct? ≠ some .cons) (ends' : last'.construct? ≠ some .cons)
    (same : chain cells last = chain cells' last') : cells = cells' ∧ last = last' := by
  induction cells generalizing cells' with
  | nil =>
    cases cells' with
    | nil => exact ⟨rfl, same⟩
    | cons cell rest =>
      -- What one chain ends in would be a cell of the other.
      have isCell := construct?_chain_cons cell rest last'
      rw [← same] at isCell
      exact absurd isCell ends
  | cons cell rest ih =>
    cases cells' with
    | nil =>
      have isCell := construct?_chain_cons cell rest last
      rw [same] at isCell
      exact absurd isCell ends'
    | cons cell' rest' =>
      obtain ⟨a, element⟩ := cell
      obtain ⟨a', element'⟩ := cell'
      simp only [chain_cons, tuple.injEq, List.cons.injEq, and_true, true_and] at same
      obtain ⟨rfl, rfl, later⟩ := same
      obtain ⟨rfl, rfl⟩ := ih later
      exact ⟨rfl, rfl⟩

end Term

namespace Expr

def isListed : Expr → Bool
  | .list _ | .openList .. => true
  | _ => false

theorem foldr_cons_list (elements rest : List Expr) :
    elements.foldr cons (.list rest) = .list (elements ++ rest) := by
  induction elements with
  | nil => rfl
  | cons e elements ih => rw [List.foldr_cons, ih, cons, List.cons_append]

theorem foldr_cons_of_not_isListed {last : Expr} (closed : last.isListed = false) (first : Expr)
    (elements : List Expr) :
    (first :: elements).foldr cons last = .openList (first :: elements) last := by
  induction elements generalizing first with
  | nil =>
    cases last with
    | list | openList => cases closed
    | _ => rfl
  | cons e elements ih => rw [List.foldr_cons, ih, cons]

theorem isListed_ofTerm {t : Term} (noCell : t.construct? ≠ some .cons)
    (nonempty : t.construct? ≠ some .emptyList) : (ofTerm t).isListed = false := by
  have read := reads t
  generalize ofTerm t = e at read
  cases read with
  | @cons a head tail => exact absurd (Term.construct?_term .cons a [head, tail] rfl) noCell
  | @emptyList a => exact absurd (Term.construct?_term .emptyList a [] rfl) nonempty
  | _ => rfl

theorem ofTerm_chain (cells : List (Term × Term)) (last : Term) :
    ofTerm (Term.chain cells last) =
      ((cells.map Prod.snd).map ofTerm).foldr cons (ofTerm last) := by
  induction cells with
  | nil => rfl
  | cons cell rest ih =>
    have read : ofTerm (Term.chain (cell :: rest) last) =
      cons (ofTerm cell.2) (ofTerm (Term.chain rest last)) := rfl
    rw [read, ih]
    rfl

theorem ofTerm_chain_emptyList (cells : List (Term × Term)) (b : Term) :
    ofTerm (Term.chain cells (Construct.emptyList.term b [])) =
      .list ((cells.map Prod.snd).map ofTerm) := by
  have read : ofTerm (Construct.emptyList.term b []) = .list [] := rfl
  rw [ofTerm_chain, read, foldr_cons_list, List.append_nil]

theorem ofTerm_chain_open {cells : List (Term × Term)} (some : cells ≠ []) {last : Term}
    (noCell : last.construct? ≠ Option.some .cons)
    (nonempty : last.construct? ≠ Option.some .emptyList) :
    ofTerm (Term.chain cells last) =
      .openList ((cells.map Prod.snd).map ofTerm) (ofTerm last) := by
  rw [ofTerm_chain]
  cases cells with
  | nil => exact absurd rfl some
  | cons cell rest =>
    exact foldr_cons_of_not_isListed (isListed_ofTerm noCell nonempty) (ofTerm cell.2) _

variable (layout : Layout) (position : Position) (scope : Scope)

theorem render_tuple (elements : List Expr) :
    (Expr.tuple elements).render layout position scope =
      let inner := (renderAll layout elements position scope).join ", "
      { inner with text := "\x7b" ++ inner.text ++ "\x7d" } := rfl

/-- A list with a last term is rendered like its elements and that term as siblings. -/
theorem render_openList_eq (elements : List Term) (last : Term) :
    let siblings := renderAll layout ((elements ++ [last]).map ofTerm) position scope
    ∃ texts lastText, siblings.texts = texts ++ [lastText] ∧
      (openList (elements.map ofTerm) (ofTerm last)).render layout position scope =
        { text := "[" ++ ", ".intercalate texts ++ " | " ++ lastText ++ "]"
          declared := siblings.declared
          warnings := siblings.warnings } := by
  intro siblings
  have cut : siblings = _ := renderAll_append layout position elements [last] scope
  rw [cut]
  -- The second part is the last term alone, in the scope that it has after the bar.
  refine ⟨_, _, rfl, ?_⟩
  simp [render_openList, renderAll, Sequence.append, Sequence.join, Sequence.cons, Sequence.empty]

/-- A chain of cells is the sequence of its elements. If it ends in the empty list, it is rendered
between brackets as a tuple of them is between braces. If it ends in another term, it is rendered
like its elements with that term after them. Every term is a chain in one way only, and every cell
of it gives one element of what is read. -/
theorem render_chain :
    (∀ (cells : List (Term × Term)) (a b : Term),
      let list := (ofTerm (Term.chain cells (Construct.emptyList.term b []))).render layout position
        scope
      let tuple := (ofTerm (Construct.tuple.term a [.list (cells.map Prod.snd)])).render layout
        position scope
      (∃ inner, list.text = "[" ++ inner ++ "]") ∧
        (∀ inner, list.text = "[" ++ inner ++ "]" ↔ tuple.text = "\x7b" ++ inner ++ "\x7d") ∧
        list.declared = tuple.declared ∧ list.warnings = tuple.warnings) ∧
    (∀ (cells : List (Term × Term)) (last : Term), cells ≠ [] → last.construct? ≠ some .cons →
      last.construct? ≠ some .emptyList →
      let siblings := renderAll layout (ofTerms (cells.map Prod.snd ++ [last])) position scope
      ∃ texts lastText, siblings.texts = texts ++ [lastText] ∧
        (ofTerm (Term.chain cells last)).render layout position scope =
          { text := "[" ++ ", ".intercalate texts ++ " | " ++ lastText ++ "]"
            declared := siblings.declared
            warnings := siblings.warnings }) ∧
    (∀ t : Term, ∃! parts : List (Term × Term) × Term,
      parts.2.construct? ≠ some .cons ∧ t = Term.chain parts.1 parts.2) ∧
    (∀ (cells : List (Term × Term)) (last : Term), last.construct? ≠ some .cons →
      (last.construct? = some .emptyList →
        ofTerm (Term.chain cells last) = .list (ofTerms (cells.map Prod.snd))) ∧
      (last.construct? ≠ some .emptyList → cells ≠ [] →
        ofTerm (Term.chain cells last) =
          .openList (ofTerms (cells.map Prod.snd)) (ofTerm last))) := by
  refine ⟨?closed, ?ended, ?unique, ?read⟩
  case closed =>
    intro cells a b list tuple
    have read : ofTerm (Construct.tuple.term a [.list (cells.map Prod.snd)]) =
      .tuple ((cells.map Prod.snd).map ofTerm) := ofTerm_tuple
    simp only [list, tuple, ofTerm_chain_emptyList, read]
    refine ⟨⟨_, rfl⟩, fun inner => ?_, rfl, rfl⟩
    simp only [render_list, render_tuple, String.append_left_inj, String.append_right_inj]
  case ended =>
    intro cells last some noCell nonempty siblings
    rw [ofTerm_chain_open some noCell nonempty]
    simp only [siblings, ofTerms_eq_map]
    exact render_openList_eq layout position scope (cells.map Prod.snd) last
  case unique =>
    intro t
    obtain ⟨cells, last, ends, rfl⟩ := Term.exists_chain t
    refine ⟨(cells, last), ⟨ends, rfl⟩, ?_⟩
    rintro ⟨cells', last'⟩ ⟨ends', same⟩
    obtain ⟨rfl, rfl⟩ := Term.chain_inj ends ends' same
    rfl
  case read =>
    intro cells last noCell
    rw [ofTerms_eq_map]
    constructor
    · intro isEmpty
      obtain ⟨b, payload, rfl, filled⟩ := Term.eq_term_of_construct? isEmpty
      obtain rfl := List.eq_nil_of_length_eq_zero filled
      exact ofTerm_chain_emptyList cells b
    · intro nonempty some
      exact ofTerm_chain_open some noCell nonempty

/-- A chain of two cells that ends in a variable, in a scope that has one of its names. -/
theorem render_chain_open :
    let named := fun name => Construct.variable.term (.list []) [.atom name]
    let cells := [(Term.list [], named "H"), (Term.list [], named "T")]
    let scope : Scope := { names := NameSet.ofList ["t"], pinning := true }
    cells ≠ [] ∧ (named "T").construct? ≠ some .cons ∧
      (named "T").construct? ≠ some .emptyList ∧
      ∃ texts lastText, ["h", "^t", "^t"] = texts ++ [lastText] ∧
        ((ofTerm (Term.chain cells (named "T"))).render {} .pattern scope).text =
          "[" ++ ", ".intercalate texts ++ " | " ++ lastText ++ "]" := by
  intro named cells scope
  have some : cells ≠ [] := by decide
  have noCell : (named "T").construct? ≠ Option.some .cons := by decide
  have nonempty : (named "T").construct? ≠ Option.some .emptyList := by decide
  obtain ⟨texts, lastText, split, rendered⟩ :=
    (render_chain {} .pattern scope).2.1 cells (named "T") some noCell nonempty
  have known : ["h", "^t", "^t"] = texts ++ [lastText] := split
  exact ⟨some, noCell, nonempty, texts, lastText, known, congrArg Rendering.text rendered⟩

end Expr

end Legible
