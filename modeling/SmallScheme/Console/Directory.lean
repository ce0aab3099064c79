import SmallScheme.Program

/-!
A directory with its files, as a value: what the command line reads from and writes to. Around it
lies a system, of which only what every system has is known.
-/

namespace SmallScheme

/-- What stands at a place. -/
inductive Entry where
  | file (bytes : List UInt8)
  | directory
  deriving Repr

/-- A directory with what stands in it and in the directories around it, as far as it is known. A
place is given by the steps that lead to it, the last one first, and each place has one entry. -/
structure Directory where
  /-- There is no other directory above this one. -/
  isRoot : Bool
  entries : List (List String × Entry)
  deriving Repr

namespace Directory

/-- What stands at a place. At the directory itself and above it there are directories. -/
def get? (d : Directory) (place : List String) : Option Entry :=
  if place.all (· = "..") then some .directory else d.entries.lookup place

/-- The place that a step leads to. -/
def go (d : Directory) (place : List String) (step : String) : List String :=
  if step ≠ ".." then step :: place
  else match place with
    | [] => if d.isRoot then [] else [".."]
    | last :: above => if last = ".." then ".." :: place else above

/-- Puts something at a place, instead of what stands there. -/
def set (d : Directory) (place : List String) (e : Entry) : Directory :=
  { d with entries := (place, e) :: d.entries.filter fun other => other.1 ≠ place }

/-- The parts of a path that lead somewhere: those that are not empty and not a single dot. -/
def steps (path : String) : List String :=
  (path.splitToList (· = '/')).filter fun s => s ≠ "" && s ≠ "."

/-! ## making a directory -/

/-- A directory stands at the place, and is made if nothing does. -/
def ensure (d : Directory) (place : List String) : Directory :=
  if (d.get? place).isSome then d else d.set place .directory

/-- Puts something where some steps lead to from a place, and makes the directories that are
missing on the way. -/
def putSteps (d : Directory) (e : Entry) (here : List String) : List String → Directory
  | [] => if here.all (· = "..") then d else d.set here e
  | step :: rest => (d.ensure here).putSteps e (d.go here step) rest

/-- The directory in which the given paths have the given entries. -/
def ofPaths (isRoot : Bool) (paths : List (String × Entry)) : Directory :=
  paths.foldl (fun d (path, e) => d.putSteps e [] (steps path)) ⟨isRoot, []⟩

/-! ## reading and writing -/

/-- The longest name of an entry, in bytes. -/
def nameLimit : Nat := 255

/-- The longest path, in bytes. -/
def pathLimit : Nat := 4095

/-- What a system has under its root, as far as every one has it: the usual directories, a device
without contents, and the standard input. -/
def system (input : List UInt8) : Directory :=
  let directories := ["bin", "boot", "etc", "home", "lib", "media", "mnt", "opt", "root", "run",
    "sbin", "srv", "sys", "tmp", "usr", "var"]
  let files := [("dev/null", .file []), ("dev/stdin", .file input), ("dev/fd/0", .file input),
    ("proc/self/fd/0", .file input)]
  ofPaths true (directories.map (·, .directory) ++ files)

/-- Reads what some steps lead to from the directory at a place. If `asDirectory` holds, a file is
not asked for. -/
def readSteps (d : Directory) (asDirectory : Bool) (here : List String) :
    List String → Except AccessError (List UInt8)
  | [] => .error .isADirectory
  | step :: rest =>
    if nameLimit < step.utf8ByteSize then .error .invalidFilename
    else
      match d.get? (d.go here step) with
      | none => .error .notFound
      | some .directory => d.readSteps asDirectory (d.go here step) rest
      | some (.file bytes) =>
        if rest.isEmpty && !asDirectory then .ok bytes else .error .notADirectory

/-- Reads the file that a path leads to, in a system with the given standard input. -/
def read (d : Directory) (input : List UInt8) (path : String) : Except AccessError (List UInt8) :=
  let asDirectory := path.endsWith "/" || path.endsWith "/."
  if path.isEmpty then .error .notFound
  else if pathLimit < path.utf8ByteSize then .error .invalidFilename
  else if path.startsWith "/" then (system input).readSteps asDirectory [] (steps path)
  else d.readSteps asDirectory [] (steps path)

/-- Writes a file, in place of one that has its name; a directory of that name is in the way. -/
def write (d : Directory) (name : String) (bytes : List UInt8) :
    Except AccessError Directory :=
  match d.get? [name] with
  | some .directory => .error .isADirectory
  | _ => .ok (d.set [name] (.file bytes))

end Directory

end SmallScheme
