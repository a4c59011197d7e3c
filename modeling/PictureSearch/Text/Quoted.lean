import PictureSearch.Text.Printable

/-!
# Quoted text in messages

Messages show names between quotes, so that every character can be told apart: the quote itself,
the backslash and the common controls have short escapes, and a character that is not shown as
itself is written by its code, as in `\u{301}`.
-/

namespace PictureSearch.Text

/-- The form of a character inside quotes of the kind `quote`. -/
def escapeIn (quote : Char) (c : Char) : List Char :=
  match c with
  | '\x00' => ['\\', '0']
  | '\t' => ['\\', 't']
  | '\r' => ['\\', 'r']
  | '\n' => ['\\', 'n']
  | '\\' => ['\\', '\\']
  | _ =>
    if c = quote then ['\\', c]
    else if isPrintable c then [c]
    else '\\' :: 'u' :: '\x7b' :: (Nat.toDigits 16 c.toNat ++ ['\x7d'])

/-- The text between double quotes. -/
def quoted (s : String) : String :=
  String.ofList ('"' :: (s.toList.flatMap (escapeIn '"') ++ ['"']))

/-- The character between single quotes. -/
def quotedChar (c : Char) : String :=
  String.ofList ('\'' :: (escapeIn '\'' c ++ ['\'']))

end PictureSearch.Text
