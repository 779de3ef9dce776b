/-
# Texts in double quotes

`quote` writes a text between double quotes so that no control character, no quote and no other
character that would not show stands in it raw.  Five characters have short names (`\0`, `\t`,
`\n`, `\r` and the backslash itself), a double quote gets a backslash, and whatever else
does not print (`isPrintable`) is written as `\u` and its number in braces, in lower-case
hexadecimal without leading zeros.  A single quote stays as it is.
-/
import WorkerPool.Text.Printable

namespace WorkerPool
namespace Text

/-- What stands for `c` between the quotes. -/
def escape (c : Char) : List Char :=
  match c with
  | '\x00' => ['\\', '0']
  | '\t' => ['\\', 't']
  | '\n' => ['\\', 'n']
  | '\r' => ['\\', 'r']
  | '"' => ['\\', '"']
  | '\\' => ['\\', '\\']
  | c =>
    if isPrintable c then [c]
    else ['\\', 'u', '\x7b'] ++ Nat.toDigits 16 c.toNat ++ ['\x7d']

/-- The text in double quotes. -/
def quote (s : String) : String :=
  String.ofList ('"' :: s.toList.flatMap escape ++ ['"'])

example : quote "a'b" = "\"a'b\"" := by decide +kernel
example : quote "tab\there" = "\"tab\\there\"" := by decide +kernel
example : quote "\x1b[0m é" = "\"\\u\x7b1b\x7d[0m é\"" := by decide +kernel

end Text
end WorkerPool
