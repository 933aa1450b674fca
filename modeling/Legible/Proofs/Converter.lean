import Legible.Proofs.Typespec.Reads

/-!
Converters of terms, and tables of them that are tried in order.

A converter has a guard, and it looks at no part of a term that does not pass. What it makes of a
term is written down together with the warnings about it, which stand after all earlier ones. So an
order of converters is told by the first one whose guard passes, and guards that tell a term from
all others are never passed together: `Guard.eq_of_accepts`.
-/

set_option autoImplicit false

namespace Legible

abbrev Recorder := StateM (List Warning)

def record {β : Type} (result : β) (warnings : List Warning) : Recorder β := do
  modify (· ++ warnings)
  return result

inductive Guard where
  | construct (construct : Construct)
  | subtype (name : String)
  | anySubtype
  deriving DecidableEq

namespace Guard

def accepts : Guard → Term → Bool
  | .construct c, t => c.accepts t
  | .subtype name, t => t.subtype? == some name
  | .anySubtype, t => t.subtype?.isSome

theorem accepts_construct_iff {c : Construct} {t : Term} :
    (construct c).accepts t ↔ t.construct? = some c :=
  Term.construct?_eq_some_iff.symm

theorem accepts_subtype_iff {name : String} {t : Term} :
    (subtype name).accepts t ↔ t.subtype? = some name := by
  simp [accepts]

theorem accepts_anySubtype_iff {t : Term} :
    anySubtype.accepts t ↔ ∃ name, t.subtype? = some name := by
  simp [accepts, Option.isSome_iff_exists]

/-- Whether a guard tells a term from all others: that of types of any subtype does not. -/
def isSpecific : Guard → Bool
  | .construct c => c != .type
  | .subtype _ => true
  | .anySubtype => false

private theorem not_accepts_subtype {c : Construct} {name : String} {t : Term}
    (specific : (construct c).isSpecific) (passes : (construct c).accepts t) :
    ¬ (subtype name).accepts t := by
  intro passes'
  have isType := Term.construct?_of_subtype? (accepts_subtype_iff.1 passes')
  rw [accepts_construct_iff.1 passes] at isType
  cases isType
  cases specific

theorem eq_of_accepts {first second : Guard} {t : Term} (specific : first.isSpecific)
    (specific' : second.isSpecific) (passes : first.accepts t) (passes' : second.accepts t) :
    first = second := by
  cases first with
  | construct c =>
    cases second with
    | construct d =>
      have same := accepts_construct_iff.1 passes
      rw [accepts_construct_iff.1 passes', Option.some.injEq] at same
      rw [same]
    | subtype => exact absurd passes' (not_accepts_subtype specific passes)
    | anySubtype => cases specific'
  | subtype name =>
    cases second with
    | construct => exact absurd passes (not_accepts_subtype specific' passes')
    | subtype other =>
      have same := accepts_subtype_iff.1 passes
      rw [accepts_subtype_iff.1 passes', Option.some.injEq] at same
      rw [same]
    | anySubtype => cases specific'
  | anySubtype => cases specific

end Guard

def Term.AgreeInside {α : Type} (read part : Term → α) (t : Term) : Prop :=
  ∀ u, u.Inside t → part u = read u

namespace Term.AgreeInside

variable {α : Type} {read part : Term → α} {t u : Term}

theorem inside (agree : AgreeInside read part t) (inside : u.Inside t) :
    AgreeInside read part u :=
  fun v deeper => agree v (deeper.trans inside)

theorem map_eq (agree : AgreeInside read part t) {members : List Term}
    (list : (Term.list members).Inside t) : members.map part = members.map read :=
  List.map_congr_left fun u member => agree u (.of_member member list)

end Term.AgreeInside

/-- One entry of a table: the terms that it takes, and what it reads them as. -/
structure Converter (α : Type) where
  guard : Guard
  read : Term → α

namespace Converter

variable {α β : Type}

/-- The converter of a construct, which finds the parts of the construct by their names. What stands
for the construct if a part is not of the kind that it must be is `hole`. -/
def ofConstruct (construct : Construct) (read : (String → Option Term) → Option α) (hole : α) :
    Converter α where
  guard := .construct construct
  read t := (read (construct.field? t)).getD hole

def ofSubtype (name : String) (read : Option (List Term) → α) : Converter α where
  guard := .subtype name
  read t := read t.typeArguments?

/-- A converter that reads what `read` reads, if that is what all terms inside are read as. -/
def Follows (read part : Term → α) (converter : Converter α) : Prop :=
  ∀ t, converter.guard.accepts t → t.AgreeInside read part → converter.read t = read t

theorem Follows.ofConstruct {read part : Term → α} {construct : Construct}
    {fill : (String → Option Term) → Option α} {hole : α}
    (reads : ∀ a payload, payload.length = construct.payload.length →
      (construct.term a payload).AgreeInside read part →
      (fill (construct.field? (construct.term a payload))).getD hole =
        read (construct.term a payload)) :
    Follows read part (.ofConstruct construct fill hole) := by
  intro t accepted agree
  obtain ⟨a, payload, rfl, filled⟩ :=
    Term.eq_term_of_construct? (Guard.accepts_construct_iff.1 accepted)
  exact reads a payload filled agree

def firstRead (order : List (Converter α)) (t : Term) : Option α :=
  (order.find? fun converter => converter.guard.accepts t).map fun converter => converter.read t

variable (write : α → Recorder β)

def convert (converter : Converter α) (t : Term) : Recorder (Option β) :=
  if converter.guard.accepts t then some <$> write (converter.read t) else pure none

def tryInOrder : List (Converter α) → Term → Recorder (Option β)
  | [], _ => pure none
  | converter :: rest, t => do
    match ← converter.convert write t with
    | some result => return some result
    | none => tryInOrder rest t

def Exclusive (converters : List (Converter α)) (t : Term) (recorded : List Warning) : Prop :=
  converters.Pairwise fun first second =>
    ¬ (((first.convert write t).run recorded).1.isSome ∧
      ((second.convert write t).run recorded).1.isSome)

def Silent (converters : List (Converter α)) (t : Term) (recorded : List Warning) : Prop :=
  ∀ converter ∈ converters, ((converter.convert write t).run recorded).1 = none →
    ((converter.convert write t).run recorded).2 = recorded

variable {write}

theorem isSome_convert {converter : Converter α} {t : Term} {recorded : List Warning} :
    ((converter.convert write t).run recorded).1.isSome ↔ converter.guard.accepts t := by
  cases passes : converter.guard.accepts t with
  | true =>
    rw [convert, if_pos passes]
    exact iff_of_true rfl rfl
  | false =>
    rw [convert, if_neg (by simp [passes])]
    exact iff_of_false Bool.false_ne_true Bool.false_ne_true

theorem tryInOrder_eq (order : List (Converter α)) (t : Term) :
    tryInOrder write order t =
      match firstRead order t with
      | some value => some <$> write value
      | none => pure none := by
  induction order with
  | nil => rfl
  | cons converter rest ih =>
    rw [tryInOrder, firstRead, List.find?_cons]
    cases passes : converter.guard.accepts t with
    | true => simp [convert, passes]
    | false => simpa [convert, passes, firstRead] using ih

theorem exclusive_of_specific {converters : List (Converter α)}
    (specific : ∀ converter ∈ converters, converter.guard.isSpecific)
    (different : (converters.map guard).Nodup) (t : Term) (recorded : List Warning) :
    Exclusive write converters t recorded := by
  rw [List.Nodup, List.pairwise_map] at different
  refine different.imp_of_mem ?_
  rintro first second member member' ne ⟨taken, taken'⟩
  exact ne (Guard.eq_of_accepts (specific first member) (specific second member')
    (isSome_convert.1 taken) (isSome_convert.1 taken'))

/-- The guard is asked before anything is recorded. -/
theorem silent (converters : List (Converter α)) (t : Term) (recorded : List Warning) :
    Silent write converters t recorded := by
  intro converter _ passed
  have fails : ¬ converter.guard.accepts t := by
    intro accepted
    have taken : ((converter.convert write t).run recorded).1.isSome := isSome_convert.2 accepted
    rw [passed] at taken
    cases taken
  rw [convert, if_neg fails]
  rfl

section
variable {κ : Type} {table : List (Converter α)} {keys : List κ} {toGuard : κ → Guard}

theorem exists_key (guards : table.map guard = keys.map toGuard) {converter : Converter α}
    (member : converter ∈ table) : ∃ key ∈ keys, converter.guard = toGuard key := by
  have guarded : converter.guard ∈ table.map guard := List.mem_map_of_mem member
  rw [guards] at guarded
  obtain ⟨key, listed, same⟩ := List.mem_map.1 guarded
  exact ⟨key, listed, same.symm⟩

theorem exists_of_key (guards : table.map guard = keys.map toGuard) {key : κ}
    (listed : key ∈ keys) : ∃ converter ∈ table, converter.guard = toGuard key := by
  have guarded : toGuard key ∈ table.map guard := guards ▸ List.mem_map_of_mem listed
  obtain ⟨converter, member, same⟩ := List.mem_map.1 guarded
  exact ⟨converter, member, same⟩

end

/-- An order reads a term as `value`, if that is what each converter reads that can be the first
one to take it. -/
theorem firstRead_eq_ite {order : List (Converter α)} {t : Term} {known : Bool} {value : α}
    (taken : (∃ converter ∈ order, converter.guard.accepts t) ↔ known)
    (each : ∀ converter, order.find? (fun converter => converter.guard.accepts t) = some converter →
      converter.guard.accepts t → converter.read t = value) :
    firstRead order t = if known then some value else none := by
  cases first : order.find? fun converter => converter.guard.accepts t with
  | some converter =>
    have accepted : converter.guard.accepts t := by simpa using List.find?_some first
    rw [if_pos (taken.1 ⟨converter, List.mem_of_find?_eq_some first, accepted⟩), firstRead, first,
      Option.map_some, each converter first accepted]
  | none =>
    have foreign : ¬ known := by
      rw [← taken]
      rintro ⟨converter, member, accepted⟩
      exact List.find?_eq_none.1 first converter member accepted
    rw [if_neg foreign, firstRead, first, Option.map_none]

theorem run_tryInOrder {order : List (Converter α)} {t : Term} {known : Bool} {value : α}
    (read : firstRead order t = if known then some value else none) (recorded : List Warning) :
    (tryInOrder write order t).run recorded =
      if known then (some <$> write value).run recorded else (none, recorded) := by
  rw [tryInOrder_eq, read]
  cases known <;> rfl

/-- A reading goes through some order that it allows, which may be another one for each term, if and
only if it is `ofTerm`. This holds if each such order reads a term as `ofTerm` does as soon as the
parts are read so. -/
theorem reads_in_order_iff {IsOrder : (Term → α) → List (Converter α) → Prop}
    {ofTerm ofUnsupported read : Term → α} {order : List (Converter α)}
    (step : ∀ {part order t}, IsOrder part order → t.AgreeInside ofTerm part →
      (firstRead order t).getD (ofUnsupported t) = ofTerm t)
    (isOrder : IsOrder ofTerm order) :
    (∀ t, ∃ order, IsOrder read order ∧
      read t = (firstRead order t).getD (ofUnsupported t)) ↔ read = ofTerm := by
  constructor
  · intro reads
    funext t
    induction t using Term.inside_induction with
    | step t agree =>
      obtain ⟨order, isOrder, same⟩ := reads t
      rw [same, step isOrder agree]
  · rintro rfl t
    exact ⟨order, isOrder, (step isOrder fun _ _ => rfl).symm⟩

end Converter

end Legible
