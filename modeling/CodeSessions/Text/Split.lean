/-!
# Splitting — a text between separators

The parts of a text between the occurrences of a separator: one more than there are separators, and
none of them holds one.
-/

namespace CodeSessions
namespace Text

/-- Puts a character before the first part. -/
def consPart (c : Char) : List (List Char) → List (List Char)
  | part :: parts => (c :: part) :: parts
  | [] => [[c]]

def splitOn (separator : Char) (s : List Char) : List (List Char) :=
  s.foldr (fun c parts => if c = separator then [] :: parts else consPart c parts) [[]]

end Text
end CodeSessions
