import Lifeline.Path
import Lifeline.Text.Utf8

/-!
# Files

A tree of directories and files, with a working directory in it.  A place in the
tree is given by the names that lead to it from the root.  A path is followed
name by name, and leads back from a directory only where there is one; back from
the root leads to the root.
-/

namespace Lifeline.Command

/-- A tree of files. -/
structure Files where
  /-- The place of the working directory. -/
  home : List Text
  /-- The places of directories other than the root. -/
  directories : List (List Text)
  contents : List (List Text × Bytes)

/-- What is at a place. -/
inductive Finding where
  | nothing
  | directory
  | file (bytes : Bytes)

/-- Why a file cannot be read or written. -/
inductive PathError where
  /-- No file can have the path. -/
  | impossible
  /-- A name, or the path as a whole, is too long. -/
  | tooLong
  /-- There is a directory at the place. -/
  | isDirectory
  /-- The directory of the path is a file. -/
  | isFile
  /-- The path leads through a file. -/
  | throughFile
deriving DecidableEq

/-- The wording of a path error. -/
def PathError.message : PathError → Text
  | .impossible => "no file can have that path".toText
  | .tooLong => "that path is too long".toText
  | .isDirectory => "there is a directory at that path".toText
  | .isFile => "the directory of that path is a file".toText
  | .throughFile => "that path leads through a file".toText

namespace Files

/-- The directories that are found at the root of a system. -/
def usualDirectories : List Text :=
  ["bin".toText, "boot".toText, "dev".toText, "etc".toText, "home".toText, "lib".toText,
    "lib64".toText, "media".toText, "mnt".toText, "opt".toText, "proc".toText, "root".toText,
    "run".toText, "sbin".toText, "srv".toText, "sys".toText, "tmp".toText, "usr".toText,
    "var".toText]

/-- A system with an empty working directory, and with one file, which is always
empty. -/
def system (home : List Text) : Files :=
  { home
    directories :=
      (List.range home.length).map (fun n => home.take (n + 1)) ++
        usualDirectories.map fun name => [name]
    contents := [(["dev".toText, "null".toText], [])] }

/-- What is at a place. -/
def look (files : Files) (place : List Text) : Finding :=
  match files.contents.find? fun e => e.1 == place with
  | some (_, bytes) => .file bytes
  | none =>
      if place.isEmpty || files.directories.contains place then .directory else .nothing

/-- The most octets of a name. -/
def longestName : Nat := 255

/-- The most octets of a path. -/
def longestPath : Nat := 4095

/-- A text has more octets than allowed. -/
def exceeds (limit : Nat) (t : Text) : Bool :=
  limit < (Utf8.encode t).length

/-- The place where a path begins. -/
def start (files : Files) (path : Path) : List Text :=
  if path.isAbsolute then [] else files.home

/-- The place that names lead to; `none` when there is no directory where a name
is followed. -/
def follow (files : Files) (here : List Text) :
    List Text → Except PathError (Option (List Text))
  | [] => .ok (some here)
  | name :: rest =>
      match files.look here with
      | .directory =>
          if name = Path.back then follow files here.dropLast rest
          else if exceeds longestName name then .error .tooLong
          else follow files (here ++ [name]) rest
      | _ => .ok none

/-- The octets of the file that a path leads to; `none` when there is nothing. -/
def read (path : Path) (files : Files) : Except PathError (Option Bytes) :=
  if path.isImpossible then .ok none
  else if exceeds longestPath path.toText then .error .tooLong
  else
    match files.follow (files.start path) path.names with
    | .error e => .error e
    | .ok none => .ok none
    | .ok (some place) =>
        match files.look place with
        | .nothing => .ok none
        | .directory => .error .isDirectory
        | .file bytes => .ok (some bytes)

/-- Makes the directories that names lead through, and gives the place they lead
to.  The flag says that one was made on the way. -/
def makeDirectories (files : Files) (made : Bool) (here : List Text) :
    List Text → Except PathError (Files × List Text)
  | [] => .ok (files, here)
  | name :: rest =>
      if name = Path.back then makeDirectories files made here.dropLast rest
      else if exceeds longestName name then .error .tooLong
      else
        let there := here ++ [name]
        match files.look there with
        | .directory => makeDirectories files made there rest
        | .nothing =>
            makeDirectories { files with directories := there :: files.directories } true there
              rest
        | .file _ => .error (if made || rest.isEmpty then .isFile else .throughFile)

/-- Puts a file at a place, instead of the file that may be there. -/
def put (files : Files) (place : List Text) (bytes : Bytes) : Files :=
  { files with contents := (place, bytes) :: files.contents.filter fun e => e.1 != place }

/-- Writes a file in a directory that is there. -/
def putIn (files : Files) (here : List Text) (name : Text) (bytes : Bytes) :
    Except PathError Files :=
  if name.isEmpty || name = Path.back then .error .isDirectory
  else if exceeds longestName name then .error .tooLong
  else
    match files.look (here ++ [name]) with
    | .directory => .error .isDirectory
    | _ => .ok (files.put (here ++ [name]) bytes)

/-- Writes a file, and first the directories that lead to it. -/
def write (path : Path) (bytes : Bytes) (files : Files) : Except PathError Files :=
  if path.isImpossible then .error .impossible
  else if exceeds longestPath path.directory.toText then .error .tooLong
  else
    match files.makeDirectories false (files.start path) path.directory.names with
    | .error e => .error e
    | .ok (files, here) =>
        if exceeds longestPath path.toText then .error .tooLong
        else files.putIn here path.name bytes

/-- The files under the working directory that are new or have another content
than before. -/
def changesSince (before after : Files) : List (Path × Bytes) :=
  after.contents.filterMap fun (place, bytes) =>
    if before.contents.any fun e => e.1 == place && e.2 == bytes then none
    else if after.home.isPrefixOf place then some (⟨[], place.drop after.home.length⟩, bytes)
    else none

end Files
end Lifeline.Command
