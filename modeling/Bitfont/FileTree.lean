import Bitfont.Path

namespace Bitfont

inductive FileError where
  | notFound
  | notDirectory
  | isDirectory
  | nameTooLong
  | containsNul
  | system (message : String)
deriving DecidableEq, Repr

def FileError.message : FileError → String
  | .notFound => "No such file or directory (os error 2)"
  | .notDirectory => "Not a directory (os error 20)"
  | .isDirectory => "Is a directory (os error 21)"
  | .nameTooLong => "File name too long (os error 36)"
  | .containsNul => "file name contained an unexpected NUL byte"
  | .system message => message

-- What becomes of octets that are written to a place that is open.
inductive Taken where
  | whole
  | start (count : Nat) (error : FileError)
deriving DecidableEq, Repr

namespace Taken

def result : Taken → Except FileError Unit
  | .whole => .ok ()
  | .start _ error => .error error

def kept (octets : Octets) : Taken → Octets
  | .whole => octets
  | .start count _ => octets.take count

end Taken

abbrev Outlet := Octets → Taken

inductive FileEntry where
  | directory
  | file (content : Array UInt8)
deriving DecidableEq

abbrev Location := List Octets

inductive Access where
  | reading
  | writing
deriving DecidableEq, Repr

-- There are no links: two locations are two files.
structure FileTree where
  entries : List (Location × FileEntry) := []
  workingDirectory : Location := []
  -- Why the system does not open a file that could be opened otherwise.
  refusal? : Access → Location → Option FileError := fun _ _ => none
  outlet : Location → Outlet := fun _ _ => .whole

namespace FileTree

-- The working directory and the directories above it are always there.
def lookup (tree : FileTree) (location : Location) : Option FileEntry :=
  if location <+: tree.workingDirectory then some .directory else tree.entries.lookup location

def put (tree : FileTree) (location : Location) (entry : FileEntry) : FileTree :=
  { tree with
    entries := (location, entry) :: tree.entries.filter fun stored => stored.1 ≠ location }

theorem lookup_filter (entries : List (Location × FileEntry)) {location other : Location}
    (different : other ≠ location) :
    (entries.filter fun stored => stored.1 ≠ location).lookup other = entries.lookup other := by
  induction entries with
  | nil => rfl
  | cons stored rest ih =>
      obtain ⟨name, entry⟩ := stored
      by_cases same : name = location
      · have absent : (other == name) = false := by simpa [same] using different
        rw [List.filter_cons_of_neg (by simp [same]), ih, List.lookup_cons, absent]
      · rw [List.filter_cons_of_pos (by simp [same]), List.lookup_cons, List.lookup_cons, ih]

theorem lookup_put_self {tree : FileTree} {location : Location} (entry : FileEntry)
    (notDirectory : tree.lookup location ≠ some .directory) :
    (tree.put location entry).lookup location = some entry := by
  have apart : ¬ location <+: tree.workingDirectory := by
    intro above
    exact notDirectory (if_pos above)
  simp [lookup, put, apart]

theorem lookup_put_other (tree : FileTree) (entry : FileEntry) {location other : Location}
    (different : other ≠ location) :
    (tree.put location entry).lookup other = tree.lookup other := by
  have absent : (other == location) = false := by simpa using different
  unfold lookup put
  split
  · rfl
  · rw [List.lookup_cons, absent]
    exact lookup_filter tree.entries different

def create (tree : FileTree) (location : Location) (entry : FileEntry) : FileTree :=
  let parents := ((List.range location.length).map location.take).drop 1
  (parents.foldl (fun tree parent => tree.put parent .directory) tree).put location entry

def maxName : Nat := 255
def maxPath : Nat := 4095

def start (tree : FileTree) (path : Octets) : Location :=
  if path.head? = some Path.slash then [] else tree.workingDirectory

def enter (tree : FileTree) (directory : Location) (step : Octets) : Except FileError Location :=
  if step = Path.dot then .ok directory
  else if step = Path.dotDot then .ok directory.dropLast
  else if maxName < step.length then .error .nameTooLong
  else
    match tree.lookup (directory ++ [step]) with
    | none => .error .notFound
    | some (.file _) => .error .notDirectory
    | some .directory => .ok (directory ++ [step])

inductive Target where
  | directory
  | named (directory : Location) (name : Octets)
deriving DecidableEq, Repr

def target (tree : FileTree) (path : Octets) : Except FileError Target :=
  if path.isEmpty then .error .notFound
  else if path.contains 0 then .error .containsNul
  else if maxPath < path.length then .error .nameTooLong
  else
    let steps := Path.steps path
    match steps.getLast? with
    | none => .ok .directory
    | some last => do
        let directory ← steps.dropLast.foldlM tree.enter (tree.start path)
        if last = Path.dot ∨ last = Path.dotDot then .ok .directory
        else .ok (.named directory last)

def asksForDirectory (path : Octets) : Bool := path.getLast? = some Path.slash

def read (tree : FileTree) (path : Octets) : Except FileError (Array UInt8) := do
  match ← tree.target path with
  | .directory => .error .isDirectory
  | .named directory name =>
      if maxName < name.length then .error .nameTooLong
      else
        match tree.lookup (directory ++ [name]) with
        | none => .error .notFound
        | some .directory => .error .isDirectory
        | some (.file content) =>
            if asksForDirectory path then .error .notDirectory
            else
              match tree.refusal? .reading (directory ++ [name]) with
              | some error => .error error
              | none => .ok content

-- Where a file is created or emptied. A slash at the end is refused whatever stands before it.
def destination (tree : FileTree) (path : Octets) : Except FileError Location := do
  match ← tree.target path with
  | .directory => .error .isDirectory
  | .named directory name =>
      let location := directory ++ [name]
      if asksForDirectory path then .error .isDirectory
      else if maxName < name.length then .error .nameTooLong
      else if tree.lookup location = some .directory then .error .isDirectory
      else
        match tree.refusal? .writing location with
        | some error => .error error
        | none => .ok location

def write (tree : FileTree) (path content : Octets) : Except FileError Unit × FileTree :=
  match tree.destination path with
  | .error error => (.error error, tree)
  | .ok location =>
      let taken := tree.outlet location content
      (taken.result, tree.put location (.file (taken.kept content).toArray))

def changedFiles (before after : FileTree) : List (Location × Array UInt8) :=
  after.entries.filterMap fun (location, entry) =>
    match entry with
    | .directory => none
    | .file content =>
        if before.lookup location = some (.file content) then none else some (location, content)

end FileTree
end Bitfont
