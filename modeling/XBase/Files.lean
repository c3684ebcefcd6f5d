import XBase.Grammar.Source

/-!
# Files

Files are read by path. A path is a list of names divided by slashes; each name but the last has to
be a directory.
-/

namespace XBase

inductive FileError where
  | notFound
  | notDirectory
  | isDirectory
  | nameTooLong
  | nulByte
deriving DecidableEq, Repr

def FileError.message : FileError → String
  | notFound => "No such file or directory (os error 2)"
  | notDirectory => "Not a directory (os error 20)"
  | isDirectory => "Is a directory (os error 21)"
  | nameTooLong => "File name too long (os error 36)"
  | nulByte => "file name contained an unexpected NUL byte"

namespace Path

/-- The names of a path; a slash at the end leaves an empty name after it. -/
def names : List Char → List (List Char)
  | [] => [[]]
  | c :: cs =>
    if c == '/' then [] :: names cs
    else
      match names cs with
      | [] => [[c]]
      | name :: others => (c :: name) :: others

/-- A path inside a directory; an absolute path stands for itself. -/
def join (directory path : List Char) : List Char :=
  match path with
  | '/' :: _ => path
  | _ =>
    match directory.getLast? with
    | none => path
    | some '/' => directory ++ path
    | some _ => directory ++ '/' :: path

/-- The name without the part from its last dot on; a dot in front does not count. -/
def stem (name : List Char) : List Char :=
  match (name.reverse.dropWhile (· != '.')).reverse with
  | [] | ['.'] => name
  | cut => cut.dropLast

/-- The path with the extension of its last name replaced. A path that ends in no name stays. -/
def withExtension (path extension : List Char) : List Char :=
  let name := (path.reverse.takeWhile (· != '/')).reverse
  let directory := path.take (path.length - name.length)
  if name == [] || name == ['.', '.'] then path
  else directory ++ stem name ++ '.' :: extension

end Path

/-- Files with their contents, by the names of their paths from the current directory. An absolute
path starts with the name of the root. -/
structure Files where
  entries : List (List (List Char) × String)

namespace Files

/-- The name of the root, which no other name can be. -/
def root : List Char :=
  ['/']

/-- Where a path starts: at the root or in the current directory. -/
def base (path : List Char) : List (List Char) :=
  if path.head? == some '/' then [root] else []

/-- Files by their paths; of two with one path the later counts. -/
def ofList (entries : List (String × String)) : Files where
  entries := entries.map fun (path, content) =>
    (base path.toList ++ (Path.names path.toList).filter fun name => name != [] && name != ['.'],
      content)

def content? (files : Files) (path : List (List Char)) : Option String :=
  (files.entries.reverse.find? fun entry => entry.1 == path).map Prod.snd

def isDirectory (files : Files) (path : List (List Char)) : Bool :=
  path.isEmpty || path == [root] ||
    files.entries.any fun entry => path.isPrefixOf entry.1 && path != entry.1

/-- What follows a step to above the current directory, where nothing but directories is known. -/
def above (names : List (List Char)) : FileError :=
  if names.all fun name => name.all (· == '.') && name.length ≤ 2 then .isDirectory else .notFound

/-- Follows names from a directory to a file. -/
def follow (files : Files) (directory : List (List Char)) :
    List (List Char) → Except FileError String
  | [] => .error .isDirectory
  | name :: others =>
    if name == [] || name == ['.'] then files.follow directory others
    else if name == ['.', '.'] then
      if directory.isEmpty then .error (above others)
      else if directory == [root] then files.follow directory others
      else files.follow directory.dropLast others
    else if 255 < (String.ofList name).utf8ByteSize then .error .nameTooLong
    else
      let path := directory ++ [name]
      match files.content? path with
      | some content => if others.isEmpty then .ok content else .error .notDirectory
      | none => if files.isDirectory path then files.follow path others else .error .notFound

def read (files : Files) (path : String) : Except FileError String :=
  let cs := path.toList
  if cs.contains (Char.ofNat 0) then .error .nulByte
  else if cs.isEmpty then .error .notFound
  else files.follow (base cs) (Path.names cs)

end Files

namespace Library

def modulePath (directory name : String) : String :=
  String.ofList (Path.withExtension (Path.join directory.toList name.toList) "prg".toList)

def ofDirectory (files : Files) (directory : String) : Library where
  resolve name :=
    let path := modulePath directory name
    (files.read path).mapError fun error =>
      "failed to read `" ++ path ++ "`: " ++ error.message
  size := files.entries.length

end Library

end XBase
