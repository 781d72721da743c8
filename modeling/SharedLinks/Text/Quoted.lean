import SharedLinks.Text.Shown

/-!
# Quoted text

A string is shown between double quotes. Inside, the quote and the backslash are escaped, a few
controls have a letter of their own, and any other character that would not be seen is written by
its code point in hexadecimal. A single quote stands as it is.
-/

namespace SharedLinks.Text

/-- The hexadecimal digit of a value below sixteen. -/
def hexDigit (n : Nat) : Char :=
  if n < 10 then Char.ofNat (0x30 + n) else Char.ofNat (0x57 + n)

/-- The last `width` hexadecimal digits of `n`, zeros in front included. -/
def hexFixed : Nat → Nat → List Char
  | 0, _ => []
  | width + 1, n => hexFixed width (n / 16) ++ [hexDigit (n % 16)]

/-- How many hexadecimal digits a code point takes without zeros in front. -/
def hexWidth (n : Nat) : Nat :=
  if n < 0x10 then 1 else if n < 0x100 then 2 else if n < 0x1000 then 3
  else if n < 0x10000 then 4 else if n < 0x100000 then 5 else 6

/-- How one character is written between quotes. -/
def escapeChar (c : Char) : List Char :=
  match c with
  | '"' => ['\\', '"']
  | '\\' => ['\\', '\\']
  | '\n' => ['\\', 'n']
  | '\r' => ['\\', 'r']
  | '\t' => ['\\', 't']
  | '\x00' => ['\\', '0']
  | c =>
    if isShown c then [c]
    else ['\\', 'u', '\x7b'] ++ hexFixed (hexWidth c.toNat) c.toNat ++ ['\x7d']

/-- The text between double quotes. -/
def quoted (s : String) : String :=
  String.ofList ('"' :: (s.toList.flatMap escapeChar ++ ['"']))

end SharedLinks.Text
