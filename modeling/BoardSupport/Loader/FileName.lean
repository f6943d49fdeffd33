/-! Names within paths, and the parts of names. -/
namespace BoardSupport.Loader

/-- The parts of a path between slashes, without empty ones and those that stay in place. -/
def pathParts (path : List Char) : List (List Char) :=
  (path.splitBy fun a b => a != '/' && b != '/').filter fun part => part != ['/'] && part != ['.']

/-- The name that a path ends in, unless it ends in a step upwards or has no name at all. -/
def fileName? (path : List Char) : Option (List Char) :=
  match (pathParts path).getLast? with
  | some ['.', '.'] => none
  | name => name

/-- What follows the last dot of a name. A dot that starts the name does not count. -/
def extension? (name : List Char) : Option (List Char) :=
  let after := name.reverse.takeWhile (· != '.')
  if after.length + 1 < name.length then some after.reverse else none

end BoardSupport.Loader
