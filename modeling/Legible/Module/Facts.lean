import Legible.Term.Construct

/-!
What the forms of a module depend on: its name and which functions it exports.
-/

set_option autoImplicit false

namespace Legible

def Term.attribute? (t : Term) : Option (String × Term) :=
  if Construct.attribute.accepts t then
    match t.element? 2, t.element? 3 with
    | some (.atom name), some value => some (name, value)
    | _, _ => none
  else none

structure ModuleFacts where
  name : Option String
  exports : List (String × Int64)
  exportsAll : Bool
  deriving DecidableEq, Repr

namespace ModuleFacts

def empty : ModuleFacts where
  name := none
  exports := []
  exportsAll := false

def export? : Term → Option (String × Int64)
  | .tuple [.atom name, .number (.integer arity)] => some (name, arity)
  | _ => none

def exportsOf (value : Term) : List (String × Int64) :=
  (value.list?.getD []).filterMap export?

/-- Whether compiler options, one or a list of them, export every function. -/
def isExportAll (options : Term) : Bool :=
  match options with
  | .list options => options.any fun option => option.atom? == some "export_all"
  | option => option.atom? == some "export_all"

/-- The facts after one more form. The last module attribute names the module. -/
def addForm (facts : ModuleFacts) (form : Term) : ModuleFacts :=
  match form.attribute? with
  | some (name, value) =>
    if name = "module" then { facts with name := value.atom? }
    else if name = "export" then { facts with exports := facts.exports ++ exportsOf value }
    else if name = "compile" then
      { facts with exportsAll := facts.exportsAll || isExportAll value }
    else facts
  | none => facts

def ofForms (forms : List Term) : ModuleFacts :=
  forms.foldl addForm empty

def isExported (facts : ModuleFacts) (name : String) (arity : Int64) : Bool :=
  facts.exportsAll || facts.exports.contains (name, arity)

end ModuleFacts

end Legible
