/-!
# JSON values

* `Json`: a value.
* `Json.codes`, `Json.text?`: strings as code points and as text.
* `Json.write`: a text of a value, without blank characters.
-/

namespace Fluxion

/-- A JSON value. Numbers keep their characters, and strings are code points. -/
inductive Json where
  | null
  | bool (value : Bool)
  | number (literal : List Char)
  | string (codes : List Nat)
  | array (items : List Json)
  | object (fields : List (List Nat × Json))

namespace Json

/-- The code points of a text. -/
def codes (text : String) : List Nat := text.toList.map Char.toNat

/-- The text of code points, if they are those of characters. -/
def text? (codes : List Nat) : Option String :=
  if ∀ n ∈ codes, n.isValidChar then some (String.ofList (codes.map Char.ofNat)) else none

@[simp] theorem text?_codes (text : String) : text? (codes text) = some text := by
  have h : ∀ n ∈ codes text, n.isValidChar := by
    intro n hn
    obtain ⟨c, -, rfl⟩ := List.mem_map.1 hn
    exact c.valid
  unfold text?
  rw [if_pos h]
  simp [codes, Function.comp_def]

/-! ## Writing -/

/-- The escape by four hexadecimal digits. -/
def hexEscape (n : Nat) : List Char :=
  ['\\', 'u', (n / 4096).digitChar, (n / 256 % 16).digitChar, (n / 16 % 16).digitChar,
    (n % 16).digitChar]

/-- A code point inside quotation marks. -/
def escape (n : Nat) : List Char :=
  if n = 0x22 then ['\\', '"']
  else if n = 0x5C then ['\\', '\\']
  else if n = 0x08 then ['\\', 'b']
  else if n = 0x09 then ['\\', 't']
  else if n = 0x0A then ['\\', 'n']
  else if n = 0x0C then ['\\', 'f']
  else if n = 0x0D then ['\\', 'r']
  else if n < 0x20 ∨ (0xD800 ≤ n ∧ n < 0xE000) then hexEscape n
  else [Char.ofNat n]

/-- Code points in quotation marks. -/
def quote (codes : List Nat) : List Char := '"' :: (codes.flatMap escape ++ ['"'])

mutual

/-- The characters of a value. -/
def chars : Json → List Char
  | null => ['n', 'u', 'l', 'l']
  | bool true => ['t', 'r', 'u', 'e']
  | bool false => ['f', 'a', 'l', 's', 'e']
  | number literal => literal
  | string codes => quote codes
  | array items => '[' :: itemChars items
  | object fields => '\x7b' :: fieldChars fields

/-- The characters of values with commas between them, and of the bracket after them. -/
def itemChars : List Json → List Char
  | [] => [']']
  | [item] => chars item ++ [']']
  | item :: items => chars item ++ ',' :: itemChars items

/-- The characters of fields with commas between them, and of the brace after them. -/
def fieldChars : List (List Nat × Json) → List Char
  | [] => ['\x7d']
  | [(key, value)] => quote key ++ ':' :: (chars value ++ ['\x7d'])
  | (key, value) :: fields => quote key ++ ':' :: (chars value ++ ',' :: fieldChars fields)

end

/-- The text of a value. -/
def write (j : Json) : String := String.ofList j.chars

end Json

end Fluxion
