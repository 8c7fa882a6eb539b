import BranchWatch.Text.Hex
import BranchWatch.Text.Printing

/-!
# Quoted text

Text from outside is quoted when it is shown, so that blanks and control
characters in it can be seen.  Quotation marks and backslashes are escaped, a
few control characters have short forms, and every other character that cannot
be shown is written as its number.
-/

namespace BranchWatch.Quoted

/-- How one character is written inside quotation marks. -/
def escape (c : Char) : String :=
  match c with
  | '"' => "\\\""
  | '\\' => "\\\\"
  | '\n' => "\\n"
  | '\r' => "\\r"
  | '\t' => "\\t"
  | '\x00' => "\\0"
  | c =>
    if Printing.isHidden c || Printing.isExtending c then
      "\\u\x7b" ++ Hex.digits c.toNat ++ "\x7d"
    else c.toString

/-- The text between quotation marks. -/
def render (s : String) : String :=
  "\"" ++ String.join (s.toList.map escape) ++ "\""

end BranchWatch.Quoted
