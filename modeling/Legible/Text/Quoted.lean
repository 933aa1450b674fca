/-!
Text inside a double quoted literal of Elixir source.

Quotes, backslashes and the three common control characters are escaped. A number sign is escaped
only where it would open an interpolation, that is, right before a left brace.
-/

set_option autoImplicit false

namespace Legible.Text

def escape : List Char → List Char
  | [] => []
  | '#' :: '\x7b' :: rest => '\\' :: '#' :: escape ('\x7b' :: rest)
  | '"' :: rest => '\\' :: '"' :: escape rest
  | '\\' :: rest => '\\' :: '\\' :: escape rest
  | '\n' :: rest => '\\' :: 'n' :: escape rest
  | '\t' :: rest => '\\' :: 't' :: escape rest
  | '\r' :: rest => '\\' :: 'r' :: escape rest
  | c :: rest => c :: escape rest

theorem escape_oneLine (text : List Char) : ∀ c ∈ escape text, c ≠ '\n' ∧ c ≠ '\t' ∧ c ≠ '\r' := by
  fun_induction escape text with
  | case1 => simp
  | case2 rest ih | case3 rest ih | case4 rest ih | case5 rest ih | case6 rest ih
  | case7 rest ih =>
    rw [List.forall_mem_cons, List.forall_mem_cons]
    exact ⟨by decide, by decide, ih⟩
  | case8 c rest _ _ _ newline tab return_ ih =>
    rw [List.forall_mem_cons]
    exact ⟨⟨newline, tab, return_⟩, ih⟩

def escaped (text : String) : String :=
  String.ofList (escape text.toList)

def quoted (text : String) : String :=
  "\"" ++ escaped text ++ "\""

end Legible.Text
