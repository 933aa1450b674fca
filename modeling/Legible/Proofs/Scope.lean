import Legible.Scope

/-!
The laws of scopes.

Scopes form a monoid under union, with the names of both and the pinning of the first, and threading
is an action of it. The union can be had without a copy where the names of one scope are all among
those of the other; `sharedUnion_eq` says that this changes nothing, not even what is pinned.
-/

set_option autoImplicit false

namespace Legible

namespace NameSet

def includes (whole part : NameSet) : Bool :=
  part.toList.all fun name => name ∈ whole

theorem includes_iff {whole part : NameSet} :
    whole.includes part ↔ ∀ name ∈ part, name ∈ whole := by
  simp [includes, mem_toList]

theorem union_eq_left {left right : NameSet} (included : left.includes right) :
    left ∪ right = left :=
  ext fun name => by simpa using includes_iff.1 included name

theorem union_eq_right {left right : NameSet} (included : right.includes left) :
    left ∪ right = right := by
  rw [union_comm, union_eq_left included]

def extend (names : NameSet) (more : List String) : NameSet :=
  more.foldl (fun known name => known.insert name) names

theorem mem_extend {name : String} {names : NameSet} {more : List String} :
    name ∈ names.extend more ↔ name ∈ names ∨ name ∈ more := by
  induction more generalizing names with
  | nil => simp [extend]
  | cons first rest ih =>
    have step : names.extend (first :: rest) = (names.insert first).extend rest := rfl
    rw [step, ih, mem_insert, List.mem_cons, or_comm (a := name = first), or_assoc]

theorem extend_toList (left right : NameSet) : left.extend right.toList = left ∪ right :=
  ext fun name => by rw [mem_extend, mem_toList, mem_union]

end NameSet

namespace Scope

/-- The union, made of the names of one scope where they include those of the other, and of a copy
only where they do not. -/
def sharedUnion (left right : Scope) : Scope :=
  if left.names.includes right.names then left
  else if right.names.includes left.names then right.withPinning left.pinning
  else { left with names := left.names.extend right.names.toList }

theorem sharedUnion_eq (left right : Scope) : left.sharedUnion right = left ∪ right := by
  have sameNames : ∀ {names : NameSet}, names = left.names ∪ right.names →
      Scope.mk names left.pinning = left ∪ right := fun same => congrArg (Scope.mk · _) same
  unfold sharedUnion
  split
  next included => exact sameNames (NameSet.union_eq_left included).symm
  next =>
    split
    -- The names are those of the second scope, but the first one decides what is pinned.
    next included => exact sameNames (NameSet.union_eq_right included).symm
    next => exact sameNames (NameSet.extend_toList left.names right.names)

theorem union_self (scope : Scope) : scope ∪ scope = scope :=
  congrArg (Scope.mk · scope.pinning) (NameSet.union_self scope.names)

theorem names_union_comm (left right : Scope) : (left ∪ right).names = (right ∪ left).names :=
  NameSet.union_comm left.names right.names

/-- What two siblings leave in turn: nothing new inside a pinning pattern, and otherwise the names
of both. -/
theorem thread_thread_eq (scope first second : Scope) :
    (scope.thread first).thread second =
      if scope.pinning then scope else scope ∪ first ∪ second := by
  rw [thread_thread, thread, union_assoc]

theorem mem_thread_iff {name : String} {scope declared : Scope} :
    name ∈ scope.thread declared ↔
      name ∈ scope ∨ scope.pinning = false ∧ name ∈ declared := by
  cases pinning : scope.pinning with
  | true => simp [thread_of_pinning pinning]
  | false => simp [thread_of_not_pinning pinning]

/-- Union is the same with and without a copy: the names of both scopes, pinned as in the first. It
is associative and idempotent, leaves a scope as it is beside the empty one, and commutes on names.
Threading is an action of it that takes no name away and never changes what is pinned. -/
theorem union_thread_algebra (a b c : Scope) :
    (a.sharedUnion b = a ∪ b ∧ (∀ name, name ∈ a.sharedUnion b ↔ name ∈ a ∨ name ∈ b) ∧
      (a.sharedUnion b).pinning = a.pinning) ∧
    (a ∪ b ∪ c = a ∪ (b ∪ c) ∧ a ∪ a = a ∧ a ∪ ∅ = a ∧ (a ∪ b).names = (b ∪ a).names) ∧
    ((a.thread b).thread c = a.thread (b ∪ c) ∧
      (a.thread b).thread c = if a.pinning then a else a ∪ b ∪ c) ∧
    (∀ name, name ∈ a.thread b ↔ name ∈ a ∨ a.pinning = false ∧ name ∈ b) ∧
    (a.thread b).pinning = a.pinning := by
  have shared := sharedUnion_eq a b
  refine ⟨⟨shared, ?_, ?_⟩, ⟨union_assoc a b c, union_self a, union_empty a, names_union_comm a b⟩,
    ⟨thread_thread a b c, thread_thread_eq a b c⟩, fun _ => mem_thread_iff, pinning_thread a b⟩
  · intro name
    rw [shared, mem_union]
  · rw [shared, pinning_union]

/-- Two scopes whose names overlap, and one that includes the other: each of the three ways to unite
them keeps what the first one pins. -/
example :
    let wide : Scope := { names := .ofList ["x", "y"], pinning := false }
    let narrow : Scope := { names := .ofList ["x"], pinning := true }
    let other : Scope := { names := .ofList ["z"], pinning := false }
    narrow.sharedUnion wide = { wide with pinning := true } ∧ wide.sharedUnion narrow = wide ∧
      (narrow.sharedUnion other).text = "^\x7bx, z\x7d" := by
  decide +kernel

end Scope

end Legible
