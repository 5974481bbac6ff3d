import ChainArchive.Bytes

/-!
# Files

A program sees the files that it may read as a function of their paths.
-/

namespace ChainArchive
set_option autoImplicit false

/-- The content of files by their path, or why one cannot be read. -/
abbrev Files := String → Except String Bytes

namespace Files

/-- There is no such file. -/
def absent : String := "No such file or directory (os error 2)"

/-- The file may not be read. -/
def forbidden : String := "Permission denied (os error 13)"

/-- A part of the path that has something below it is no directory. -/
def noDirectory : String := "Not a directory (os error 20)"

/-- The path is that of a directory. -/
def directory : String := "Is a directory (os error 21)"

end Files
end ChainArchive
