/-!
# Path texts

Paths are texts with slashes. A normal path has no empty and no `.` step, apart from the path `.`
itself; two leading slashes are kept apart from one. Steps to the parent are left alone, since what
they lead to depends on the files.
-/

set_option autoImplicit false

namespace WebHarvest.FilePath

/-- The steps of a path text: what stands between its slashes. -/
def steps (path : String) : List String :=
  (path.toList.splitOn '/').map String.ofList |>.filter fun step => !(step.isEmpty || step == ".")

/-- What a path text begins with before its first step. -/
def anchor (path : String) : String :=
  let slashes := (path.toList.takeWhile (· == '/')).length
  if slashes == 0 then "" else if slashes == 2 then "//" else "/"

def ofSteps (anchor : String) (steps : List String) : String :=
  let text := anchor ++ "/".intercalate steps
  if text.isEmpty then "." else text

def normalize (path : String) : String := ofSteps (anchor path) (steps path)

def child (path name : String) : String :=
  if path == "." then name
  else if path.endsWith "/" then path ++ name
  else path ++ "/" ++ name

def parent (path : String) : String := ofSteps (anchor path) (steps path).dropLast

end WebHarvest.FilePath
