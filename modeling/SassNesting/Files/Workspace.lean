import SassNesting.Files.Access

/-! # Workspaces

A workspace is a tree of files in memory, with one of its directories as the working directory. It
is held as the list of what is at each location; a location gives the names on the way down from the
top. A path is followed segment by segment, from the top if it starts with a slash and else from the
working directory: every segment but the last has to lead to a directory, a dot or nothing stays
where it is, and two dots lead up, from the top to the top. There are no permissions and no
links: two locations are two different files. -/

namespace SassNesting

/-- The names on the way from the top of a workspace to something in it. -/
abbrev Location := List Text

/-- What can be at a location. -/
inductive Entry where
  /-- A directory. -/
  | directory
  /-- A file and its content. -/
  | file (content : ByteArray)

/-- Whether there is a directory, where there may be anything or nothing. -/
def Entry.isDirectory : Option Entry → Bool
  | some directory => true
  | _ => false

/-- Whether there is a file with a given content, where there may be anything or nothing. -/
def Entry.isFile (content : ByteArray) : Option Entry → Bool
  | some (file found) => found.data.toList = content.data.toList
  | _ => false

/-- Files in memory. -/
structure Workspace where
  /-- What is at each location; the location in front counts where one occurs twice. -/
  entries : List (Location × Entry) := []
  /-- The working directory. -/
  directory : Location := []
  /-- All of the standard input. -/
  input : ByteArray := .empty

namespace Workspace

/-- What is at a location; at the top there always is a directory. -/
def find? (w : Workspace) (location : Location) : Option Entry :=
  if location = [] then some .directory else w.entries.lookup location

/-- Puts an entry at a location, in place of what was there. -/
def put (w : Workspace) (location : Location) (entry : Entry) : Workspace :=
  { w with entries := (location, entry) :: w.entries.filter (·.1 ≠ location) }

/-- Puts an entry at a location, and a directory at each location on the way that has nothing. -/
def insert (w : Workspace) (location : Location) (entry : Entry) : Workspace :=
  let parents := (List.range location.length).map fun n => location.take n
  let missing := parents.filter fun parent => (w.find? parent).isNone
  (missing.foldl (fun w parent => w.put parent .directory) w).put location entry

/-! ## Following paths -/

/-- Follows segments from a location on. -/
def walk (w : Workspace) (location : Location) : List Text → Except FileError Location
  | [] => .ok location
  | segment :: rest =>
    match w.find? location with
    | none => .error .notFound
    | some (.file _) => .error .notDirectory
    | some .directory =>
      if segment = [] ∨ segment = Path.here then walk w location rest
      else if segment = Path.above then walk w location.dropLast rest
      else walk w (location ++ [segment]) rest

/-- The location from which a path is followed. -/
def start (w : Workspace) (p : Path) : Location :=
  if p.head? = some '/' then [] else w.directory

/-- The location that a path leads to. -/
def resolve (w : Workspace) (p : Path) : Except FileError Location := w.walk (w.start p) p.segments

/-- Whether a path leads to a directory. -/
def isDirectory (w : Workspace) (p : Path) : Bool :=
  match w.resolve p with
  | .ok location => Entry.isDirectory (w.find? location)
  | .error _ => false

/-! ## Reading -/

/-- The content of the file that a path leads to. -/
def read (w : Workspace) (p : Path) : Except FileError ByteArray :=
  match w.resolve p with
  | .error e => .error e
  | .ok location =>
    match w.find? location with
    | none => .error .notFound
    | some .directory => .error .isDirectory
    | some (.file content) => .ok content

/-- The names of what is in the directory that a path leads to. -/
def names (w : Workspace) (p : Path) : Except FileError (List Text) :=
  match w.resolve p with
  | .error e => .error e
  | .ok location =>
    match w.find? location with
    | none => .error .notFound
    | some (.file _) => .error .notDirectory
    | some .directory =>
      .ok (w.entries.filterMap fun entry =>
        if entry.1.dropLast = location then entry.1.getLast? else none)

/-! ## Writing -/

/-- The location of the file that a path names for writing. The directory it is in has to be there,
and the path has to end with the name of the file. -/
def target (w : Workspace) (p : Path) : Except FileError Location :=
  let named := (p.segments.reverse.dropWhile (· = [])).reverse
  match w.walk (w.start p) (named.dropLast ++ [Path.here]), named.getLast? with
  | .error e, _ => .error e
  | .ok _, none => .error .isDirectory
  | .ok location, some last =>
    if last = Path.here ∨ last = Path.above ∨ named ≠ p.segments then .error .isDirectory
    else if Entry.isDirectory (w.find? (location ++ [last])) then .error .isDirectory
    else .ok (location ++ [last])

/-- Gives the file that a path names a new content. -/
def write (w : Workspace) (p : Path) (content : ByteArray) : Except FileError Workspace :=
  match w.target p with
  | .error e => .error e
  | .ok location => .ok (w.put location (.file content))

/-- The files under the working directory that are new since an earlier state, or have another
content, each with the names on the way to it from there. -/
def changesSince (w earlier : Workspace) : List (Location × ByteArray) :=
  w.entries.filterMap fun (location, entry) =>
    match entry, w.directory.isPrefixOf? location with
    | .file content, some way =>
      if Entry.isFile content (earlier.find? location) then none else some (way, content)
    | _, _ => none

instance : FileAccess (StateM Workspace) where
  isDirectory p := do return (← get).isDirectory p
  names p := do return (← get).names p
  read p := do return (← get).read p
  write p content := do
    match (← get).write p content with
    | .error e => return .error e
    | .ok w =>
      set w
      return .ok ()
  standardInput := do return (← get).input

end Workspace

end SassNesting
