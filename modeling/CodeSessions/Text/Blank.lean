/-!
# Blank characters — white space and the trimming of replies

Three classes of white space are told apart in this library: the blanks between the tokens of a
script (space and tab), the six ASCII separators that end the name of a cell, and the characters
with the property `White_Space`, which are trimmed from both ends of an answer.
-/

namespace CodeSessions
namespace Text

/-- Separates the tokens of a script line. -/
def isInlineBlank (c : Char) : Bool :=
  c == ' ' || c == '\t'

/-- One of the six ASCII white space characters: tab, line feed, vertical tab, form feed, carriage
return and space. -/
def isAsciiBlank (c : Char) : Bool :=
  c == ' ' || (0x09 ≤ c.toNat && c.toNat ≤ 0x0D)

/-- The property `White_Space`. -/
def isBlank (c : Char) : Bool :=
  isAsciiBlank c || c.toNat == 0x85 || c.toNat == 0xA0 || c.toNat == 0x1680 ||
    (0x2000 ≤ c.toNat && c.toNat ≤ 0x200A) || c.toNat == 0x2028 || c.toNat == 0x2029 ||
    c.toNat == 0x202F || c.toNat == 0x205F || c.toNat == 0x3000

/-- The text without the blanks at its two ends. -/
def trim (s : String) : String :=
  ((s.dropWhile isBlank).dropEndWhile isBlank).copy

end Text
end CodeSessions
