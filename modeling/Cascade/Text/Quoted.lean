-- SUMMARY: Quoted text: a text between quotes on one line, with escapes for whatever cannot be shown as it is.
import Cascade.Text.Printable

/-! # Quoted text

A text is shown between single quotes, or between double quotes if it holds a
single quote and no double one. The backslash, the quote in use, the line
feed, the carriage return and the tab have short escapes; every other
unprintable character is written by its code point in hexadecimal. -/

namespace Cascade.Text

/-- A code point in lower-case hexadecimal, padded with zeros to `width`. -/
def hex (width n : Nat) : String :=
  let digits := Nat.toDigits 16 n
  String.ofList (List.replicate (width - digits.length) '0' ++ digits)

/-- The escape of a character by its code point: two, four or eight digits. -/
def codePointEscape (c : Char) : String :=
  let n := c.toNat
  if n < 0x100 then "\\x" ++ hex 2 n
  else if n < 0x10000 then "\\u" ++ hex 4 n
  else "\\U" ++ hex 8 n

/-- One character of a text that stands between `quote`s. -/
def escapeChar (quote c : Char) : String :=
  if c = quote || c = '\\' then String.ofList ['\\', c]
  else if c = '\n' then "\\n"
  else if c = '\r' then "\\r"
  else if c = '\t' then "\\t"
  else if isPrintable c then c.toString
  else codePointEscape c

/-- The quote that a text is shown with. -/
def quoteFor (cs : List Char) : Char :=
  if cs.contains '\'' && !cs.contains '"' then '"' else '\''

def quoted (s : String) : String :=
  let cs := s.toList
  let quote := quoteFor cs
  quote.toString ++ String.join (cs.map (escapeChar quote)) ++ quote.toString

end Cascade.Text
