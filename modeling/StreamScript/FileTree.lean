import StreamScript.Utf8

/-! # File trees

A file tree is a snapshot of a directory: the files in it with their bytes, and its
subdirectories.  `FileTree.read` looks up a path from that directory and reads the file there as
text, with the answer that a file system gives, `ReadError`, if it cannot. -/

namespace StreamScript

/-- Why a file cannot be read. -/
inductive ReadError where
  | notFound
  /-- A part of the path before its end is a file. -/
  | notDirectory
  | isDirectory
  /-- A part of the path, or the path as a whole, is longer than the file system allows. -/
  | nameTooLong
  /-- The bytes of the file are no text. -/
  | notText
  /-- The system gave another reason, with this number. -/
  | other (reason : String) (number : Nat)
deriving DecidableEq, Repr

namespace ReadError

/-- The error for the number of a system error; `reason` says in words what it is where the number
is not one of those that a path to a file can lead to. -/
def ofNumber (number : Nat) (reason : String) : ReadError :=
  match number with
  | 2 => notFound
  | 13 => other "Permission denied" 13
  | 20 => notDirectory
  | 21 => isDirectory
  | 36 => nameTooLong
  | 40 => other "Too many levels of symbolic links" 40
  | _ => other reason number

/-- The error in words. -/
def message : ReadError → String
  | notFound => "No such file or directory (os error 2)"
  | notDirectory => "Not a directory (os error 20)"
  | isDirectory => "Is a directory (os error 21)"
  | nameTooLong => "File name too long (os error 36)"
  | notText => "stream did not contain valid UTF-8"
  | other reason number => s!"{reason} (os error {number})"

end ReadError

/-- What is found at a path. -/
inductive Content where
  | file (bytes : List UInt8)
  | directory
deriving DecidableEq, Repr

/-- The text of a file that was found. -/
def Content.read : Content → Except ReadError String
  | file bytes =>
    match Utf8.decode? bytes with
    | some text => .ok text
    | none => .error .notText
  | directory => .error .isDirectory

/-- The contents of a directory, each with the parts of its path.  Of two for the same path the
later one counts. -/
structure FileTree where
  entries : List (List String × Content)
deriving DecidableEq, Repr

/-- A place that a path leads to: inside the tree, or in the directories around it, of which
nothing is known but that they are there. -/
inductive Spot where
  | inside (path : List String)
  | outside
deriving DecidableEq, Repr

namespace FileTree

/-- The parts of a path that name something. -/
def parts (path : String) : List String :=
  (path.splitOn "/").filter fun part => part != "" && part != "."

/-- The tree of files and empty directories with the given paths; the directories on the way to
each are made too. -/
def ofList (entries : List (String × Content)) : FileTree :=
  ⟨entries.map fun (path, content) => (parts path, content)⟩

/-- What the tree holds at a path.  The way to an entry is a directory, and so is the tree. -/
def content? (tree : FileTree) (path : List String) : Option Content :=
  match tree.entries.reverse.find? (·.1 == path) with
  | some entry => some entry.2
  | none =>
    if path.isEmpty || tree.entries.any (path.isPrefixOf ·.1) then some .directory else none

/-- What is at a place. -/
def contentAt (tree : FileTree) : Spot → Option Content
  | .inside path => tree.content? path
  | .outside => some .directory

/-- The longest name that a part of a path may be, in bytes. -/
def maxName : Nat := 255

/-- The longest path, in bytes. -/
def maxPath : Nat := 4095

/-- The place one step up. -/
def parent : Spot → Spot
  | .inside [] | .outside => .outside
  | .inside (part :: rest) => .inside (part :: rest).dropLast

/-- The place with the given name in the directory at a place. -/
def child (tree : FileTree) (spot : Spot) (name : String) : Except ReadError Spot :=
  if maxName < name.utf8ByteSize then .error .nameTooLong
  else
    match spot with
    | .outside => .error .notFound
    | .inside path =>
      let inner := path ++ [name]
      if (tree.content? inner).isSome then .ok (.inside inner) else .error .notFound

/-- Follow the parts of a path from a place.  Every part, even an empty one, needs a directory to
be looked up in. -/
def walk (tree : FileTree) (spot : Spot) : List String → Except ReadError Spot
  | [] => .ok spot
  | part :: rest =>
    if tree.contentAt spot ≠ some .directory then .error .notDirectory
    else if part = "" ∨ part = "." then tree.walk spot rest
    else if part = ".." then tree.walk (parent spot) rest
    else
      match tree.child spot part with
      | .ok next => tree.walk next rest
      | .error e => .error e

/-- Read the file at a path as text. -/
def read (tree : FileTree) (path : String) : Except ReadError String :=
  if path = "" then .error .notFound
  else if maxPath < path.utf8ByteSize then .error .nameTooLong
  else
    match tree.walk (if path.startsWith "/" then .outside else .inside []) (path.splitOn "/") with
    | .error e => .error e
    | .ok spot =>
      match tree.contentAt spot with
      | some content => content.read
      | none => .error .notFound

end FileTree

end StreamScript
