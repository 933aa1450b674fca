/-!
Finite sets of names.

A set is its strictly increasing list of names, so two sets with the same members are equal, and
the order in which a set is shown is the order in which it is kept.
-/

set_option autoImplicit false

namespace Legible

structure NameSet where
  toList : List String
  sorted : toList.Pairwise (· < ·)
  deriving DecidableEq

namespace NameSet

instance : Membership String NameSet where
  mem names name := name ∈ names.toList

instance (name : String) (names : NameSet) : Decidable (name ∈ names) :=
  inferInstanceAs (Decidable (name ∈ names.toList))

theorem mem_toList {name : String} {names : NameSet} : name ∈ names.toList ↔ name ∈ names :=
  Iff.rfl

private theorem head_notMem {a : String} {xs ys : List String} (as : (a :: xs).Pairwise (· < ·))
    (same : ∀ name, name ∈ a :: xs ↔ name ∈ a :: ys) : ∀ name ∈ xs, name ∈ ys := by
  intro name inXs
  have below := List.rel_of_pairwise_cons as inXs
  rcases List.mem_cons.1 ((same name).1 (List.mem_cons_of_mem a inXs)) with rfl | inYs
  · exact absurd below (String.lt_irrefl name)
  · exact inYs

private theorem sorted_ext : ∀ {xs ys : List String}, xs.Pairwise (· < ·) → ys.Pairwise (· < ·) →
    (∀ name, name ∈ xs ↔ name ∈ ys) → xs = ys
  | [], [], _, _, _ => rfl
  | [], b :: _, _, _, same => absurd ((same b).2 (List.mem_cons_self ..)) List.not_mem_nil
  | a :: _, [], _, _, same => absurd ((same a).1 (List.mem_cons_self ..)) List.not_mem_nil
  | a :: xs, b :: ys, as, bs, same => by
    have heads : a = b := by
      rcases List.mem_cons.1 ((same a).1 (List.mem_cons_self ..)) with eq | inYs
      · exact eq
      · rcases List.mem_cons.1 ((same b).2 (List.mem_cons_self ..)) with eq | inXs
        · exact eq.symm
        · exact absurd (List.rel_of_pairwise_cons bs inYs)
            (String.lt_asymm (List.rel_of_pairwise_cons as inXs))
    subst heads
    have tails : xs = ys := sorted_ext as.of_cons bs.of_cons fun name =>
      ⟨head_notMem as same name, head_notMem bs (fun name => (same name).symm) name⟩
    rw [tails]

theorem ext {left right : NameSet} (same : ∀ name, name ∈ left ↔ name ∈ right) : left = right := by
  cases left with
  | mk xs xsSorted =>
    cases right with
    | mk ys ysSorted =>
      have : xs = ys := sorted_ext xsSorted ysSorted same
      subst this
      rfl

def empty : NameSet where
  toList := []
  sorted := .nil

instance : EmptyCollection NameSet where
  emptyCollection := empty

@[simp] theorem notMem_empty (name : String) : name ∉ (∅ : NameSet) :=
  List.not_mem_nil

/-- Put a name into a sorted list at its place, unless it is there. -/
def insertSorted (name : String) : List String → List String
  | [] => [name]
  | head :: rest =>
    if name < head then name :: head :: rest
    else if name = head then head :: rest
    else head :: insertSorted name rest

theorem mem_insertSorted {name other : String} {names : List String} :
    other ∈ insertSorted name names ↔ other = name ∨ other ∈ names := by
  induction names with
  | nil => simp [insertSorted]
  | cons head rest ih =>
    simp only [insertSorted]
    split
    · simp
    · split
      · rename_i eq
        subst eq
        simp
      · simp only [List.mem_cons, ih]
        constructor
        · rintro (rfl | rfl | inRest)
          · exact .inr (.inl rfl)
          · exact .inl rfl
          · exact .inr (.inr inRest)
        · rintro (rfl | rfl | inRest)
          · exact .inr (.inl rfl)
          · exact .inl rfl
          · exact .inr (.inr inRest)

theorem insertSorted_sorted {name : String} {names : List String} (sorted : names.Pairwise (· < ·)) :
    (insertSorted name names).Pairwise (· < ·) := by
  induction names with
  | nil => simp [insertSorted]
  | cons head rest ih =>
    have headBelow : ∀ {other : String}, other ∈ rest → head < other :=
      List.rel_of_pairwise_cons sorted
    simp only [insertSorted]
    split
    · rename_i below
      refine .cons ?_ sorted
      intro other inNames
      rcases List.mem_cons.1 inNames with rfl | inRest
      · exact below
      · exact String.lt_trans below (headBelow inRest)
    · split
      · exact sorted
      · rename_i notBelow ne
        refine .cons ?_ (ih sorted.of_cons)
        intro other inserted
        rcases mem_insertSorted.1 inserted with rfl | inRest
        · refine Decidable.byContradiction fun notAbove => ne ?_
          exact String.le_antisymm (String.not_lt.1 notAbove) (String.not_lt.1 notBelow)
        · exact headBelow inRest

def insert (name : String) (names : NameSet) : NameSet where
  toList := insertSorted name names.toList
  sorted := insertSorted_sorted names.sorted

@[simp] theorem mem_insert {name other : String} {names : NameSet} :
    other ∈ names.insert name ↔ other = name ∨ other ∈ names :=
  mem_insertSorted

def ofList (names : List String) : NameSet :=
  names.foldr insert ∅

@[simp] theorem mem_ofList {name : String} {names : List String} :
    name ∈ ofList names ↔ name ∈ names := by
  induction names with
  | nil => simp [ofList]
  | cons head rest ih =>
    rw [ofList, List.foldr_cons, mem_insert, List.mem_cons]
    exact or_congr Iff.rfl ih

def singleton (name : String) : NameSet :=
  insert name ∅

@[simp] theorem mem_singleton {name other : String} : other ∈ singleton name ↔ other = name := by
  simp [singleton]

def union (left right : NameSet) : NameSet :=
  right.toList.foldr insert left

instance : Union NameSet where
  union := union

@[simp] theorem mem_union {name : String} {left right : NameSet} :
    name ∈ left ∪ right ↔ name ∈ left ∨ name ∈ right := by
  change name ∈ union left right ↔ name ∈ left ∨ name ∈ right
  rw [union, show name ∈ right ↔ name ∈ right.toList from Iff.rfl]
  induction right.toList with
  | nil => simp
  | cons head rest ih =>
    rw [List.foldr_cons, mem_insert, ih, List.mem_cons, or_left_comm]

@[simp] theorem union_empty (names : NameSet) : names ∪ ∅ = names :=
  ext fun _ => by simp

@[simp] theorem empty_union (names : NameSet) : ∅ ∪ names = names :=
  ext fun _ => by simp

@[simp] theorem union_self (names : NameSet) : names ∪ names = names :=
  ext fun _ => by simp

theorem union_comm (left right : NameSet) : left ∪ right = right ∪ left :=
  ext fun _ => by simp [or_comm]

theorem union_assoc (a b c : NameSet) : (a ∪ b) ∪ c = a ∪ (b ∪ c) :=
  ext fun _ => by simp [or_assoc]

def text (names : NameSet) : String :=
  "\x7b" ++ ", ".intercalate names.toList ++ "\x7d"

end NameSet

end Legible
