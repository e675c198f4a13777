import QueryFilters.Text.Printable
import QueryFilters.Text.GraphemeExtend

/-!
# Debug texts

The debug text of a string: the string in double quotes, with a backslash before a quote or a
backslash, the usual escapes for the null character, tab, carriage return and line feed, and
every other character shown as itself when it is printable and extends no grapheme, else as
`\u{h}` with its code point in lower-case hexadecimal digits, no leading zeros. A single quote
stands as itself.
-/

namespace QueryFilters.Text

/-- The escape `\u{h}` of a code point. -/
def unicodeEscape (c : Char) : String :=
  "\\u\x7b" ++ String.ofList (Nat.toDigits 16 c.toNat) ++ "\x7d"

/-- A character as written inside a debug text. -/
def debugChar (c : Char) : String :=
  if c = '\x00' then "\\0"
  else if c = '\t' then "\\t"
  else if c = '\r' then "\\r"
  else if c = '\n' then "\\n"
  else if c = '\\' then "\\\\"
  else if c = '"' then "\\\""
  else if isGraphemeExtend c || !isPrintable c then unicodeEscape c
  else String.singleton c

/-- The debug text of a string, quotes included. -/
def debugQuote (s : String) : String :=
  "\"" ++ String.join (s.toList.map debugChar) ++ "\""

end QueryFilters.Text
