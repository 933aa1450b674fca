import Legible.NameSet

/-!
Scopes: the names bound before a construct, and whether references to them are pinned.

Outside patterns, what one sibling binds is bound for the next one. Inside a pinning pattern it is
not: only names bound before the pattern are references there, and a name that occurs twice in the
pattern is a binding both times.
-/

set_option autoImplicit false

namespace Legible

structure Scope where
  names : NameSet
  pinning : Bool
  deriving DecidableEq

namespace Scope

def ofNames (names : NameSet) : Scope where
  names
  pinning := false

instance : Coe NameSet Scope where
  coe := ofNames

def empty : Scope :=
  ofNames ∅

instance : EmptyCollection Scope where
  emptyCollection := empty

instance : Membership String Scope where
  mem scope name := name ∈ scope.names

instance (name : String) (scope : Scope) : Decidable (name ∈ scope) :=
  inferInstanceAs (Decidable (name ∈ scope.names))

@[simp] theorem mem_names {name : String} {scope : Scope} : name ∈ scope.names ↔ name ∈ scope :=
  Iff.rfl

def withPinning (scope : Scope) (pinning : Bool) : Scope :=
  { scope with pinning }

@[simp] theorem pinning_withPinning (scope : Scope) (pinning : Bool) :
    (scope.withPinning pinning).pinning = pinning := rfl

@[simp] theorem names_withPinning (scope : Scope) (pinning : Bool) :
    (scope.withPinning pinning).names = scope.names := rfl

@[simp] theorem mem_withPinning {name : String} {scope : Scope} {pinning : Bool} :
    name ∈ scope.withPinning pinning ↔ name ∈ scope := Iff.rfl

@[simp] theorem mem_ofNames {name : String} {names : NameSet} : name ∈ ofNames names ↔ name ∈ names :=
  Iff.rfl

@[simp] theorem notMem_empty (name : String) : name ∉ (∅ : Scope) :=
  NameSet.notMem_empty name

/-- All names of both scopes, pinned as in the first. -/
def union (left right : Scope) : Scope :=
  { left with names := left.names ∪ right.names }

instance : Union Scope where
  union := union

@[simp] theorem pinning_union (left right : Scope) : (left ∪ right).pinning = left.pinning := rfl

@[simp] theorem names_union (left right : Scope) : (left ∪ right).names = left.names ∪ right.names :=
  rfl

@[simp] theorem mem_union {name : String} {left right : Scope} :
    name ∈ left ∪ right ↔ name ∈ left ∨ name ∈ right :=
  NameSet.mem_union

@[simp] theorem union_empty (scope : Scope) : scope ∪ ∅ = scope :=
  congrArg (Scope.mk · scope.pinning) (NameSet.union_empty scope.names)

/-- Whether names are pinned is taken from the first scope, so it must be the same in the second. -/
theorem empty_union_of_free {scope : Scope} (free : scope.pinning = false) : ∅ ∪ scope = scope := by
  have names : (∅ ∪ scope : Scope).names = scope.names := NameSet.empty_union scope.names
  cases scope with
  | mk known pinning =>
    obtain rfl : pinning = false := free
    exact congrArg ofNames names

theorem union_assoc (a b c : Scope) : (a ∪ b) ∪ c = a ∪ (b ∪ c) :=
  congrArg (Scope.mk · a.pinning) (NameSet.union_assoc a.names b.names c.names)

/-- The scope of the next sibling, after one that declared `declared`. -/
def thread (scope declared : Scope) : Scope :=
  if scope.pinning then scope else scope ∪ declared

theorem thread_of_pinning {scope : Scope} (pinning : scope.pinning = true) (declared : Scope) :
    scope.thread declared = scope := by
  simp [thread, pinning]

theorem thread_of_not_pinning {scope : Scope} (free : scope.pinning = false) (declared : Scope) :
    scope.thread declared = scope ∪ declared := by
  simp [thread, free]

@[simp] theorem pinning_thread (scope declared : Scope) :
    (scope.thread declared).pinning = scope.pinning := by
  unfold thread
  split <;> rfl

theorem thread_empty (scope : Scope) : scope.thread ∅ = scope := by
  cases pinning : scope.pinning with
  | true => exact thread_of_pinning pinning ∅
  | false => rw [thread_of_not_pinning pinning, union_empty]

theorem thread_thread (scope first second : Scope) :
    (scope.thread first).thread second = scope.thread (first ∪ second) := by
  cases pinning : scope.pinning with
  | true => simp [thread, pinning]
  | false => simp [thread, pinning, union_assoc]

def text (scope : Scope) : String :=
  (if scope.pinning then "^" else "") ++ scope.names.text

end Scope

end Legible
