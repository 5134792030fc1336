import CodeSessions.Text.Blank

/-!
# Cells — one line of code for one interpreter

A submitted text has the form `%name code`: a percent sign, a name without ASCII white space, one
ASCII white space character, and the code.  The code ends with the first line; a carriage return at
its end is dropped.  Whether the name is known is not asked here.
-/

namespace CodeSessions

structure Cell where
  interpreter : String
  body : String
  deriving DecidableEq, Repr

namespace Cell

/-- The characters of the first line, without a carriage return at its end. -/
def bodyOf (s : List Char) : List Char :=
  let line := s.takeWhile (· != '\n')
  if line.getLast? = some '\r' then line.dropLast else line

/-- The cell that a text is, if it is one. -/
def ofChars? : List Char → Option Cell
  | '%' :: s =>
      let name := s.takeWhile fun c => !Text.isAsciiBlank c
      match s.dropWhile fun c => !Text.isAsciiBlank c with
      | [] => none
      | _ :: code =>
          if name.isEmpty then none else some ⟨String.ofList name, String.ofList (bodyOf code)⟩
  | _ => none

def ofText? (code : String) : Option Cell :=
  ofChars? code.toList

end Cell
end CodeSessions
