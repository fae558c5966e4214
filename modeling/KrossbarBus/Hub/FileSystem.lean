import Mathlib.Data.List.Basic

namespace KrossbarHub

/-- Paths and the other strings of the operating system are bytes. -/
abbrev OsString := List UInt8

def osString (string : String) : OsString := string.toList.flatMap String.utf8EncodeChar

def toStr (bytes : OsString) : Option String := String.fromUTF8? ⟨bytes.toArray⟩

def separator : UInt8 := 47

/-- `Path::join`: an absolute path replaces the base. -/
def joinPath (base path : OsString) : OsString :=
  if path.head? = some separator then path
  else if base = [] ∨ base.getLast? = some separator then base ++ path
  else base ++ separator :: path

inductive Component
  | rootDir
  | curDir
  | parentDir
  | normal (name : OsString)
  deriving DecidableEq

def pieceComponent (piece : OsString) : Option Component :=
  if piece = [] ∨ piece = [46] then none
  else if piece = [46, 46] then some .parentDir
  else some (.normal piece)

def leadingComponent (path : OsString) : List Component :=
  if path.head? = some separator then [.rootDir]
  else if (path.splitOn separator).head? = some [46] then [.curDir]
  else []

def components (path : OsString) : List Component :=
  leadingComponent path ++ (path.splitOn separator).filterMap pieceComponent

inductive Node
  | directory (inode : Nat)
  /-- Without contents the file opens but does not read as text. -/
  | file (contents : Option String)
  /-- The node exists but cannot be opened. -/
  | denied
  deriving DecidableEq

/-- A file system as the operating system resolves paths in it. An entry that is a symbolic link
    stands for the node it leads to. -/
structure FileSystem where
  root : Nat
  workingDir : Nat
  parent : Nat → Nat
  entry : Nat → OsString → Option Node
  links : OsString → Option OsString

def FileSystem.walk (files : FileSystem) : Node → List Component → Option Node
  | node, [] => some node
  | .directory _, .rootDir :: rest => files.walk (.directory files.root) rest
  | .directory inode, .curDir :: rest => files.walk (.directory inode) rest
  | .directory inode, .parentDir :: rest => files.walk (.directory (files.parent inode)) rest
  | .directory inode, .normal name :: rest =>
    match files.entry inode name with
    | none => none
    | some node => files.walk node rest
  | .file _, _ :: _ => none
  | .denied, _ :: _ => none

def FileSystem.resolve (files : FileSystem) (path : OsString) : Option Node :=
  files.walk (.directory files.workingDir) (components path)

structure File where
  contents : Option String
  deriving DecidableEq

def Node.openFile : Node → Option File
  | .directory _ => some ⟨none⟩
  | .file contents => some ⟨contents⟩
  | .denied => none

/-- A computation that reads the file system and records the paths it opens or tests. -/
def Access (α : Type) := FileSystem → α × List OsString

namespace Access

variable {α β : Type}

instance : Monad Access where
  pure value := fun _ => (value, [])
  bind first next := fun files =>
    let (value, paths) := first files
    let (result, more) := next value files
    (result, paths ++ more)

@[simp] theorem pure_apply (value : α) (files : FileSystem) :
    (pure value : Access α) files = (value, []) := rfl

@[simp] theorem bind_apply (first : Access α) (next : α → Access β) (files : FileSystem) :
    (first >>= next) files =
      ((next (first files).1 files).1, (first files).2 ++ (next (first files).1 files).2) := rfl

def openFile (path : OsString) : Access (Option File) :=
  fun files => ((files.resolve path).bind Node.openFile, [path])

def pathExists (path : OsString) : Access Bool :=
  fun files => ((files.resolve path).isSome, [path])

def readLink (path : OsString) : Access (Option OsString) :=
  fun files => (files.links path, [])

end Access

end KrossbarHub
