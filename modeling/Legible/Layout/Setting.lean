import Legible.Character.Scalar
import Legible.Layout
import Legible.Text.Hexadecimal

/-!
One setting of a layout, as a line of a settings document spells it: a key, an equals sign and a
value, and perhaps a comment.

Keys are bare or quoted. A width is a natural number of 64 bits in one of four bases; underscores
may stand between its digits. A switch is `true` or `false`.
-/

set_option autoImplicit false

namespace Legible

inductive Setting where
  | width (value : Nat)
  | lineComments (value : Bool)
  | blankLines (value : Bool)
  deriving DecidableEq, Repr

namespace Setting

def key : Setting → String
  | .width _ => "indent_width"
  | .lineComments _ => "emit_line_comments"
  | .blankLines _ => "blank_line_between_forms"

def apply (layout : Layout) : Setting → Layout
  | .width value => { layout with width := value }
  | .lineComments value => { layout with lineComments := value }
  | .blankLines value => { layout with blankLines := value }

/-- Digits of a base with underscores between them. `ready` says that a digit came last. -/
def digitGroups? (base : Nat) (ready : Bool) (total : Nat) : List Char → Option Nat
  | [] => if ready then some total else none
  | c :: rest =>
    if c = '_' then if ready then digitGroups? base false total rest else none
    else match Text.hexDigit? c with
      | some digit =>
        if digit < base then digitGroups? base true (base * total + digit) rest else none
      | none => none

def inBase? (base : Nat) (digits : List Char) : Option Nat :=
  digitGroups? base false 0 digits

/-- A decimal number has no zero before its other digits. -/
def decimal? : List Char → Option Nat
  | ['0'] => some 0
  | '0' :: _ => none
  | digits => inBase? 10 digits

/-- An integer that is not negative. Minus zero is zero. -/
def natural? : List Char → Option Nat
  | '0' :: 'x' :: digits => inBase? 16 digits
  | '0' :: 'o' :: digits => inBase? 8 digits
  | '0' :: 'b' :: digits => inBase? 2 digits
  | '+' :: digits => decimal? digits
  | '-' :: digits => (decimal? digits).filter (· = 0)
  | digits => decimal? digits

def switch? (value : List Char) : Option Bool :=
  if value = "true".toList then some true
  else if value = "false".toList then some false
  else none

def of? (key : String) (value : List Char) : Option Setting :=
  if key = "indent_width" then ((natural? value).filter (· < UInt64.size)).map .width
  else if key = "emit_line_comments" then (switch? value).map .lineComments
  else if key = "blank_line_between_forms" then (switch? value).map .blankLines
  else none

def blank (c : Char) : Bool :=
  c = ' ' || c = '\t'

/-- Control characters other than a tab stand nowhere in a document. -/
def allowed (c : Char) : Bool :=
  c = '\t' || (0x20 ≤ c.toNat && c.toNat ≠ 0x7F)

def bareKeyChar (c : Char) : Bool :=
  c.isAlphanum || c = '_' || c = '-'

def namedEscape? : Char → Option Char
  | '"' => some '"'
  | '\\' => some '\\'
  | 'b' => some '\x08'
  | 'e' => some '\x1B'
  | 'f' => some '\x0C'
  | 'n' => some '\n'
  | 'r' => some '\r'
  | 't' => some '\t'
  | _ => none

def escapeLength? : Char → Option Nat
  | 'x' => some 2
  | 'u' => some 4
  | 'U' => some 8
  | _ => none

def escape? : List Char → Option (Char × List Char)
  | [] => none
  | c :: rest =>
    match escapeLength? c with
    | some length =>
      match Text.takeHex? length rest with
      | some (code, after) => (Character.ofCode? code).map fun found => (found, after)
      | none => none
    | none => (namedEscape? c).map fun found => (found, rest)

theorem escape?_length {text rest : List Char} {c : Char}
    (read : escape? text = some (c, rest)) : rest.length < text.length := by
  unfold escape? at read
  split at read
  · simp at read
  · split at read
    · split at read
      · rename_i eq
        have := Text.takeHex?_length eq
        simp only [Option.map_eq_some_iff, Prod.mk.injEq] at read
        obtain ⟨_, _, _, rfl⟩ := read
        simp only [List.length_cons]
        omega
      · simp at read
    · simp only [Option.map_eq_some_iff, Prod.mk.injEq] at read
      obtain ⟨_, _, _, rfl⟩ := read
      simp

def quotedKey? (read text : List Char) : Option (List Char × List Char) :=
  match text with
  | [] => none
  | '"' :: rest => some (read.reverse, rest)
  | '\\' :: escaped =>
    match _eq : escape? escaped with
    | some (c, rest) => quotedKey? (c :: read) rest
    | none => none
  | c :: rest => if allowed c then quotedKey? (c :: read) rest else none
termination_by text.length
decreasing_by
  · have := escape?_length _eq
    simp only [List.length_cons]
    omega
  · simp

def literalKey? (text : List Char) : Option (List Char × List Char) :=
  match text.dropWhile (· ≠ '\'') with
  | [] => none
  | _ :: rest =>
    let key := text.takeWhile (· ≠ '\'')
    if key.all allowed then some (key, rest) else none

def key? : List Char → Option (List Char × List Char)
  | '"' :: text => quotedKey? [] text
  | '\'' :: text => literalKey? text
  | text =>
    let key := text.takeWhile bareKeyChar
    if key.isEmpty then none else some (key, text.dropWhile bareKeyChar)

def isOver (text : List Char) : Bool :=
  match text.dropWhile blank with
  | [] => true
  | '#' :: comment => comment.all allowed
  | _ => false

def valueChar (c : Char) : Bool :=
  !blank c && c ≠ '#'

def ofLine? (line : List Char) : Option Setting := do
  let (key, text) ← key? (line.dropWhile blank)
  let '=' :: text := text.dropWhile blank | none
  let text := text.dropWhile blank
  let setting ← of? (String.ofList key) (text.takeWhile valueChar)
  if isOver (text.dropWhile valueChar) then some setting else none

end Setting

end Legible
