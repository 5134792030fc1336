/-!
# Lines — the lines of a text

A line ends at a line feed, and a carriage return directly before that line feed belongs to the
line's end.  What follows the last line feed is a line only if it is not empty, and it keeps a
carriage return at its end.
-/

namespace CodeSessions
namespace Text

/-- The characters of a finished line, given last character first. -/
def closeLine : List Char → List Char
  | '\r' :: line => line.reverse
  | line => line.reverse

/-- `line` holds the characters of the open line and `done` the finished lines, both last first. -/
def linesFrom (line : List Char) (done : List (List Char)) : List Char → List (List Char)
  | [] => (if line.isEmpty then done else line.reverse :: done).reverse
  | '\n' :: rest => linesFrom [] (closeLine line :: done) rest
  | c :: rest => linesFrom (c :: line) done rest

def lines (s : List Char) : List (List Char) :=
  linesFrom [] [] s

end Text
end CodeSessions
