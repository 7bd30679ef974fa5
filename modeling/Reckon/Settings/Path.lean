import Reckon.Text.Columns

namespace Reckon.Path

/-!
# Paths

A path in its shortest form has no empty parts, no `.`, and `..` only at its front.
-/

/-- The path begins at the root. -/
def isAbsolute (path : String) : Bool :=
  path.toList.head? = some '/'

/-- The parts between slashes. -/
def split : List Char → List (List Char)
  | [] => [[]]
  | char :: rest =>
      if char = '/' then
        [] :: split rest
      else
        match split rest with
        | [] => [[char]]
        | part :: parts => (char :: part) :: parts

/-- Add a part behind others, the last of which comes first. -/
def step (absolute : Bool) (parts : List (List Char)) (part : List Char) : List (List Char) :=
  if part = [] ∨ part = ['.'] then
    parts
  else if part = ['.', '.'] then
    match parts with
    | [] => if absolute then [] else [part]
    | last :: earlier => if last = ['.', '.'] then part :: parts else earlier
  else
    part :: parts

/-- The shortest form of a path. -/
def clean (path : String) : String :=
  let absolute := isAbsolute path
  let parts := ((split path.toList).foldl (step absolute) []).reverse
  let body := Text.joined "/" (parts.map String.ofList)
  if absolute then "/" ++ body else if parts.isEmpty then "." else body

/-- A file in a directory. -/
def join (directory file : String) : String :=
  clean (directory ++ "/" ++ file)

end Reckon.Path
