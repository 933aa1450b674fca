import Legible.Proofs.Operator.Reader

/-!
Formulas, and how the operators of one row group its operands.

A row is contracted once for each level of operators, the tightest first. Within a level only `and`
and `or` may follow each other: whatever else would need an associativity has no grouping.
-/

set_option autoImplicit false

namespace Legible.Guard

inductive Formula where
  | integer (value : Nat)
  | constant (value : Bool)
  | variable (name : String)
  | called (function : String) (arguments : List Formula)
  | prefixed (sign : String) (operand : Formula)
  | infixed (sign : String) (left right : Formula)
  deriving Repr

namespace Formula

/-- The same formula up to associativity of `and` and of `or`. -/
inductive Alike : Formula → Formula → Prop
  | refl (f : Formula) : Alike f f
  | symm {f g : Formula} : Alike f g → Alike g f
  | trans {f g h : Formula} : Alike f g → Alike g h → Alike f h
  | assoc {sign : String} (f g h : Formula) : sign = "and" ∨ sign = "or" →
      Alike (.infixed sign (.infixed sign f g) h) (.infixed sign f (.infixed sign g h))
  | infixed {f f' g g' : Formula} (sign : String) : Alike f f' → Alike g g' →
      Alike (.infixed sign f g) (.infixed sign f' g')

def join (sign : String) : Formula → List Formula → Formula :=
  List.foldl (.infixed sign)

def all : List Formula → Formula
  | [] => .constant true
  | first :: rest => join "and" first rest

def any : List Formula → Formula
  | [] => .constant false
  | first :: rest => join "or" first rest

theorem Alike.join {f g : Formula} (alike : Alike f g) (sign : String) (rest : List Formula) :
    Alike (join sign f rest) (join sign g rest) := by
  induction rest generalizing f g with
  | nil => exact alike
  | cons h rest ih => exact ih (.infixed sign alike (.refl h))

theorem join_infixed {sign : String} (connects : sign = "and" ∨ sign = "or") (f g : Formula)
    (rest : List Formula) :
    Alike (join sign (.infixed sign f g) rest) (.infixed sign f (join sign g rest)) := by
  induction rest generalizing g with
  | nil => exact .refl _
  | cons h rest ih =>
    have moved : Alike (join sign (.infixed sign (.infixed sign f g) h) rest)
        (join sign (.infixed sign f (.infixed sign g h)) rest) :=
      Alike.join (.assoc f g h connects) sign rest
    exact moved.trans (ih (.infixed sign g h))

end Formula

/-- The operands of one level, each but the first after the operator before it. -/
structure Row where
  first : Formula
  later : List (String × Formula)
  deriving Repr

structure Level where
  signs : List String
  chains : Bool

namespace Level

def arithmetic : Level where
  signs := ["+", "-", "*", "/", "++", "--"]
  chains := false

def comparison : Level where
  signs := ["==", "!=", "===", "!==", "<", ">", "<=", ">="]
  chains := false

def conjunction : Level where
  signs := ["and"]
  chains := true

def disjunction : Level where
  signs := ["or"]
  chains := true

def tight : List Level :=
  [arithmetic, comparison, conjunction]

end Level

namespace Row

def append (first : Row) (sign : String) (second : Row) : Row where
  first := first.first
  later := first.later ++ (sign, second.first) :: second.later

def contractFrom (level : Level) (first : Formula) : List (String × Formula) → Option Row
  | [] => some { first, later := [] }
  | (sign, operand) :: rest =>
    if sign ∈ level.signs then
      if level.chains || rest.head?.all fun next => next.1 ∉ level.signs then
        contractFrom level (.infixed sign first operand) rest
      else none
    else do
      let row ← contractFrom level operand rest
      return { first, later := (sign, row.first) :: row.later }

def contract (row : Row) (level : Level) : Option Row :=
  contractFrom level row.first row.later

def group (row : Row) : Option Formula := do
  let row ← (← Level.tight.foldlM contract row).contract .disjunction
  if row.later.isEmpty then some row.first else none

/-- An operator of another level stays where it is, between what both rows contract to. -/
theorem contract_append {level : Level} {sign : String} (other : sign ∉ level.signs)
    {first first' second second' : Row} (firsts : first.contract level = some first')
    (seconds : second.contract level = some second') :
    (first.append sign second).contract level = some (first'.append sign second') := by
  obtain ⟨f, later⟩ := first
  induction later generalizing f first' with
  | nil =>
    cases firsts
    have seconds : contractFrom level second.first second.later = some second' := seconds
    simp [contract, append, contractFrom, other, seconds]
  | cons op rest ih =>
    obtain ⟨s, g⟩ := op
    simp only [contract, append, contractFrom, List.cons_append] at firsts ih ⊢
    by_cases known : s ∈ level.signs
    · simp only [known, if_true] at firsts ⊢
      split at firsts
      next apart =>
        -- The operator between the rows is of another level, so it does not follow as one of this.
        have stillApart : (level.chains || (rest ++ (sign, second.first) :: second.later).head?.all
            fun next => next.1 ∉ level.signs) = true := by
          cases rest with
          | nil => simp [other]
          | cons => exact apart
        rw [if_pos stillApart]
        exact ih _ firsts
      next => cases firsts
    · simp only [known, if_false] at firsts ⊢
      obtain ⟨row, contracted, rfl⟩ : ∃ row, contractFrom level g rest = some row ∧
          { first := f, later := (s, row.first) :: row.later } = first' := by
        simpa [Option.bind_eq_some_iff] using firsts
      rw [ih g contracted]
      rfl

/-- Rows keep apart at the least tight operator. -/
theorem foldlM_append {sign : String} {levels : List Level}
    (other : ∀ level ∈ levels, sign ∉ level.signs) {first first' second second' : Row}
    (firsts : levels.foldlM contract first = some first')
    (seconds : levels.foldlM contract second = some second') :
    levels.foldlM contract (first.append sign second) = some (first'.append sign second') := by
  induction levels generalizing first second with
  | nil =>
    cases firsts
    cases seconds
    rfl
  | cons level rest ih =>
    simp only [List.foldlM_cons, Option.bind_eq_bind, Option.bind_eq_some_iff] at firsts seconds
    obtain ⟨row, contracted, firsts⟩ := firsts
    obtain ⟨row', contracted', seconds⟩ := seconds
    have both := contract_append (other level (by simp)) contracted contracted'
    rw [List.foldlM_cons, both]
    exact ih (fun level member => other level (by simp [member])) firsts seconds

theorem contractFrom_of_notMem {level : Level} {later : List (String × Formula)}
    (other : ∀ op ∈ later, op.1 ∉ level.signs) (first : Formula) :
    contractFrom level first later = some { first, later } := by
  induction later generalizing first with
  | nil => rfl
  | cons op rest ih =>
    have here := other op (by simp)
    simp [contractFrom, here, ih fun op member => other op (by simp [member])]

/-- A row with one operator, which may be repeated, is joined from the left. -/
theorem contractFrom_join {level : Level} {sign : String} (chains : level.chains)
    (known : sign ∈ level.signs) (first : Formula) (operands : List Formula) :
    contractFrom level first (operands.map (sign, ·)) =
      some { first := Formula.join sign first operands, later := [] } := by
  induction operands generalizing first with
  | nil => rfl
  | cons operand rest ih =>
    simp only [List.map_cons, contractFrom, known, chains, Bool.true_or, if_true]
    exact ih _

theorem group_operand (f : Formula) : group { first := f, later := [] } = some f := rfl

theorem group_single (f g : Formula) :
    ∀ sign ∈ Operator.signs, group { first := f, later := [(sign, g)] } =
      some (.infixed sign f g) := by
  have listed : Operator.signs = ["+", "-", "*", "/", "==", "!=", "===", "!==", "<", ">", "<=",
    ">=", "++", "--", "and", "and", "or", "or"] := rfl
  intro sign member
  simp only [listed, List.mem_cons, List.not_mem_nil, or_false] at member
  rcases member with rfl | rfl | rfl | rfl | rfl | rfl | rfl | rfl | rfl | rfl | rfl | rfl | rfl |
    rfl | rfl | rfl | rfl | rfl <;> rfl

theorem group_all (first : Formula) (rest : List Formula) :
    group { first, later := rest.map ("and", ·) } = some (Formula.all (first :: rest)) := by
  have other : ∀ level : Level, "and" ∉ level.signs →
      ∀ op ∈ rest.map ("and", ·), op.1 ∉ level.signs := by
    intro level notMem op member
    obtain ⟨operand, -, rfl⟩ := List.mem_map.1 member
    exact notMem
  have joined : Level.tight.foldlM contract { first, later := rest.map ("and", ·) } =
      some { first := Formula.join "and" first rest, later := [] } := by
    simp only [Level.tight, List.foldlM_cons, List.foldlM_nil, contract, Option.bind_eq_bind,
      contractFrom_of_notMem (other .arithmetic (by decide)),
      contractFrom_of_notMem (other .comparison (by decide)), Option.bind_some,
      @contractFrom_join .conjunction "and" rfl (by decide)]
    rfl
  rw [group, joined]
  rfl

/-- All operators of a row that contracts to a formula are of the level. -/
theorem contractFrom_disjunction {first f : Formula} {later : List (String × Formula)}
    (contracted : contractFrom .disjunction first later = some { first := f, later := [] }) :
    ∃ operands, later = operands.map ("or", ·) ∧ f = Formula.join "or" first operands := by
  induction later generalizing first with
  | nil =>
    cases contracted
    exact ⟨[], rfl, rfl⟩
  | cons op rest ih =>
    obtain ⟨sign, operand⟩ := op
    by_cases known : sign ∈ Level.disjunction.signs
    · obtain rfl : sign = "or" := by simpa [Level.disjunction] using known
      rw [contractFrom, if_pos known] at contracted
      obtain ⟨operands, rfl, rfl⟩ := ih contracted
      exact ⟨operand :: operands, rfl, rfl⟩
    · -- An operator of another level would be left over.
      simp [contractFrom, known, Option.bind_eq_some_iff] at contracted

theorem group_eq_some_iff {row : Row} {f : Formula} :
    row.group = some f ↔ ∃ tight operands, Level.tight.foldlM contract row = some tight ∧
      tight.later = operands.map ("or", ·) ∧ f = Formula.join "or" tight.first operands := by
  simp only [group, Option.bind_eq_bind, Option.bind_eq_some_iff]
  constructor
  · rintro ⟨tight, contracted, closed, loose, ended⟩
    obtain ⟨first, later⟩ := closed
    cases later with
    | nil =>
      cases ended
      obtain ⟨operands, later, joined⟩ := contractFrom_disjunction loose
      exact ⟨tight, operands, contracted, later, joined⟩
    | cons => cases ended
  · rintro ⟨tight, operands, contracted, later, rfl⟩
    have loose := @contractFrom_join .disjunction "or" rfl (by decide) tight.first operands
    rw [← later] at loose
    exact ⟨tight, contracted, _, loose, rfl⟩

/-- Two rows that are joined by `or` group as they do alone. -/
theorem group_or {first second : Row} {f g : Formula} (firsts : first.group = some f)
    (seconds : second.group = some g) :
    ∃ h, (first.append "or" second).group = some h ∧ Formula.Alike h (.infixed "or" f g) := by
  obtain ⟨a, operands, tight, later, rfl⟩ := group_eq_some_iff.1 firsts
  obtain ⟨b, operands', tight', later', rfl⟩ := group_eq_some_iff.1 seconds
  have other : ∀ level ∈ Level.tight, "or" ∉ level.signs := by decide
  have both := foldlM_append other tight tight'
  -- Each row contracts to operands of `or`, and the operator between them is one more `or`.
  refine ⟨_, group_eq_some_iff.2 ⟨_, operands ++ b.first :: operands', both, ?_, rfl⟩, ?_⟩
  · simp [append, later, later']
  · have joined : Formula.join "or" a.first (operands ++ b.first :: operands') =
        Formula.join "or" (.infixed "or" (Formula.join "or" a.first operands) b.first) operands' := by
      simp [Formula.join]
    exact joined ▸ Formula.join_infixed (.inr rfl) _ _ _

end Row

end Legible.Guard
