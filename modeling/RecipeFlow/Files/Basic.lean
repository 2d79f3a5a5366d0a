/-! Files as a recipe sees them: texts under paths. -/
namespace RecipeFlow

/-- Why a file cannot be read as a text. -/
inductive ReadFault where
  | notFound
  | isDirectory
  /-- The path goes on behind a file. -/
  | notDirectory
  | nameTooLong
  /-- The path holds the character NUL. -/
  | badName
  /-- The bytes are no UTF-8. -/
  | notText
  deriving DecidableEq, Repr, Inhabited

namespace ReadFault

def text : ReadFault → String
  | notFound => "No such file or directory (os error 2)"
  | isDirectory => "Is a directory (os error 21)"
  | notDirectory => "Not a directory (os error 20)"
  | nameTooLong => "File name too long (os error 36)"
  | badName => "file name contained an unexpected NUL byte"
  | notText => "stream did not contain valid UTF-8"

end ReadFault

/-- What can be asked of a file system. -/
structure Files where
  read : String → Except ReadFault String
  /-- Whether a regular file is there. -/
  isFile : String → Bool
  /-- The names of a directory's subdirectories in ascending order; none if it is no directory. -/
  subdirectories? : String → Option (List String)

namespace Files

/-- The path of a name below a directory. A name that starts with a slash stands for itself. -/
def join (dir name : String) : String :=
  if name.toList.head? = some '/' || dir.isEmpty then name
  else if dir.toList.getLast? = some '/' then dir ++ name
  else dir ++ "/" ++ name

end Files

end RecipeFlow
