/-!
# Paths

A path is a text with slashes between names. Two paths are alike when they go through the same
names: repeated slashes, a slash at the end, and a dot for the directory itself say nothing, except
a dot at the beginning of a path.
-/

namespace FileCatalog.Path

/-- The pieces between the slashes of a path, in order; none of them is empty. -/
def pieces (path : String) : List String :=
  ((path.toList.splitOn '/').filter (!·.isEmpty)).map String.ofList

/-- Whether a path begins at the root. -/
def isAbsolute (path : String) : Bool := path.toList.head? = some '/'

/-- The names that a path goes through. A dot counts only at the beginning of a path that does not
begin at the root. -/
def names (path : String) : List String :=
  match pieces path with
  | [] => []
  | first :: rest =>
    let rest := rest.filter (· ≠ ".")
    if first = "." && isAbsolute path then rest else first :: rest

/-- Whether two paths go through the same names. -/
def isAlike (a b : String) : Bool := isAbsolute a = isAbsolute b && names a = names b

/-- The path of a name in a directory. -/
def join (directory name : String) : String :=
  match directory.toList.getLast? with
  | none => name
  | some '/' => directory ++ name
  | some _ => directory ++ "/" ++ name

end FileCatalog.Path
