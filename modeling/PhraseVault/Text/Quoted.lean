import PhraseVault.Unicode.Hidden

/-!
# Quoted text in messages

A message shows foreign text between quotes, with the quote, the backslash and all that shows
nothing of its own spelled out.
-/
namespace PhraseVault.Quoted

/-- The digits of a number in base sixteen, in lower case and without leading zeros. -/
def hexNumber (n : Nat) : String := String.ofList (Nat.toDigits 16 n)

/-- The spelling of one character between quotes of the given kind. -/
def escapeChar (quote : Char) (c : Char) : String :=
  match c with
  | '\x00' => "\\0"
  | '\t' => "\\t"
  | '\n' => "\\n"
  | '\r' => "\\r"
  | '\\' => "\\\\"
  | _ =>
    if c = quote then String.ofList ['\\', c]
    else if Unicode.isHidden c then "\\u\x7b" ++ hexNumber c.toNat ++ "\x7d"
    else c.toString

def quoteWith (quote : Char) (cs : List Char) : String :=
  quote.toString ++ String.join (cs.map (escapeChar quote)) ++ quote.toString

/-- A text between double quotes. -/
def text (s : String) : String := quoteWith '"' s.toList

/-- A character between single quotes. -/
def char (c : Char) : String := quoteWith '\'' [c]

end PhraseVault.Quoted
