/-!
# Text that does not reach a terminal

Control sequences only make sense to a terminal.  Where text goes elsewhere,
they are taken out of it, and with them all control characters but blanks.
-/

namespace BranchWatch.Terminal

/-- Where in a control sequence the next character stands. -/
inductive Place where
  /-- In plain text. -/
  | plain
  /-- Right behind the escape character. -/
  | escape
  /-- Behind the bracket that opens a longer sequence, before its last letter. -/
  | parameters
  deriving DecidableEq, Repr

def isBlank (c : Char) : Bool :=
  c = ' ' || c = '\t' || c = '\n' || c = '\x0c' || c = '\r'

def isControl (c : Char) : Bool := c.toNat < 0x20 || c = '\x7f'

def escapeChar : Char := '\x1b'

/-- The text without control sequences and control characters.  A blank or a
character outside ASCII ends a sequence and is kept. -/
def strip : Place → List Char → List Char
  | _, [] => []
  | place, c :: rest =>
    if c = escapeChar then strip .escape rest
    else if 0x7f < c.toNat then c :: strip .plain rest
    else if isControl c then
      if isBlank c then c :: strip .plain rest else strip place rest
    else
      match place with
      | .plain => c :: strip .plain rest
      | .escape =>
        if c = '[' then strip .parameters rest
        else if c.toNat < 0x30 then strip .escape rest
        else strip .plain rest
      | .parameters =>
        if c.toNat < 0x40 then strip .parameters rest else strip .plain rest

/-- The first line of a text as it looks without a terminal. -/
def firstLine (s : String) : String :=
  let line := (strip .plain s.toList).takeWhile (· ≠ '\n')
  String.ofList (if line.getLast? = some '\r' then line.dropLast else line)

end BranchWatch.Terminal
