import Phrasebook.File.Path
import Phrasebook.Text.Quoted

/-! # Files

* `FileContent` — what is found under a path.
* `FileFault` — why something that is there cannot be read.
* `Directory` — files held in memory.
* `Directory.read` — what a path leads to. A path is followed step by step, so that a step out of
  a directory that is not there leads nowhere.
-/

namespace Phrasebook

/-- Why there is nothing to read under a path, other than that there is no such file. -/
inductive FileFault where
  | nullCharacter
  | notADirectory
  | isADirectory
  | nameTooLong
deriving DecidableEq, Repr

def FileFault.message (path : Path) : FileFault → Text
  | nullCharacter => "embedded null byte".toList
  | notADirectory => "[Errno 20] Not a directory: ".toList ++ Quoted.write path.print
  | isADirectory => "[Errno 21] Is a directory: ".toList ++ Quoted.write path.print
  | nameTooLong => "[Errno 36] File name too long: ".toList ++ Quoted.write path.print

inductive FileContent where
  | missing
  | unreadable (fault : FileFault)
  /-- Something that is not text. -/
  | undecodable
  | text (content : Text)
deriving DecidableEq, Repr

structure Directory where
  files : List (Path × FileContent)

namespace Directory

def stepLimit : Nat := 255

def pathLimit : Nat := 4095

def byteSize (text : Text) : Nat := (String.ofList text).utf8ByteSize

def file? (directory : Directory) (place : Path) : Option FileContent :=
  directory.files.lookup place

def holds (directory : Directory) (place : Path) : Bool :=
  directory.files.any fun (path, _) =>
    path.root == place.root && place.steps.isPrefixOf path.steps

def follow (directory : Directory) (here : Path) : List Text → FileContent
  | [] => .unreadable .isADirectory
  | step :: rest =>
    if step = Path.outward then directory.follow here.up rest
    else if stepLimit < byteSize step then .unreadable .nameTooLong
    else
      match directory.file? (here.down step) with
      | some content => if rest.isEmpty then content else .unreadable .notADirectory
      | none =>
        if directory.holds (here.down step) then directory.follow (here.down step) rest
        else .missing

def read (directory : Directory) (path : Path) : FileContent :=
  if path.print.elem '\x00' then .unreadable .nullCharacter
  else if pathLimit < byteSize path.print then .unreadable .nameTooLong
  else directory.follow path.start path.steps

end Directory

end Phrasebook
