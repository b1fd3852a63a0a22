import SmsGate.Go.Strings
import Mathlib.Data.Int.Notation
import Mathlib.Data.List.AList
import Mathlib.Data.List.Sort

/-!
# The queue on disk (`internal/diskqueue/diskqueue.go`)

A directory with one file for each entry.  It is a map from names to contents, which only the calls
of the queue change; what the operating system refuses to do is up to the parameter `Host`, and so
is `encoding/json`.  The path of the directory is clean and has no metacharacters of
`filepath.Glob`, and the ID of an entry has no separator.
-/

namespace SmsGate.Diskqueue

open Go

/-- `Entry`. -/
structure Entry where
  id : List UInt8
  dest : List UInt8
  body : List UInt8
  iccid : List UInt8
  createdAt : ℤ
  retries : ℤ
  deriving DecidableEq

/-- The name of a file in the directory. -/
abbrev Name := List UInt8

/-- The directory. -/
abbrev Dir := AList fun _ : Name => List UInt8

/-- What the queue takes from its host: `encoding/json`, and the calls that the operating system
refuses, with the texts of the errors. -/
structure Host where
  marshal : Entry → Except (List UInt8) (List UInt8)
  unmarshal : List UInt8 → Except (List UInt8) Entry
  mkdirErr : Option (List UInt8)
  /-- `filepath.Glob` refuses a malformed pattern, and nothing else. -/
  globErr : Option (List UInt8)
  readErr : Name → Option (List UInt8)
  removeErr : Name → Option (List UInt8)
  /-- A write that fails can leave a part of the data behind. -/
  writeErr : Name → Option (List UInt8 × Option (List UInt8))
  renameErr : Name → Option (List UInt8)

/-- An error of the operating system. -/
structure OsError where
  text : List UInt8
  /-- `os.IsNotExist`. -/
  isNotExist : Bool
  deriving DecidableEq

/-- `Queue`. -/
structure Queue where
  dir : List UInt8
  deriving DecidableEq

namespace Queue

variable (h : Host) (q : Queue)

/-- `filepath.Join(q.dir, name)`. -/
def path (name : Name) : List UInt8 :=
  if q.dir = lit "." then name
  else if q.dir = lit "/" then q.dir ++ name
  else q.dir ++ lit "/" ++ name

/-! ### The operating system -/

/-- The error of a call about a file that is not there. -/
def notExist (op : List UInt8) (name : Name) : OsError where
  text := op ++ lit " " ++ q.path name ++ lit ": no such file or directory"
  isNotExist := true

/-- `filepath.Glob(filepath.Join(q.dir, "*.json"))`, without the directory.  The name of the
directory has no metacharacters (`*`, `?`, `[`, a backslash), so that the pattern matches in this
directory only, and every name in it that ends in `.json`. -/
def glob (d : Dir) : Except (List UInt8) (List Name) :=
  match h.globErr with
  | some text => .error text
  | none => .ok ((d.keys.filter (lit ".json").isSuffixOf).insertionSort (· ≤ ·))

/-- `os.ReadFile`. -/
def readFile (name : Name) (d : Dir) : Except OsError (List UInt8) :=
  match d.lookup name with
  | none => .error (q.notExist (lit "open") name)
  | some data =>
    match h.readErr name with
    | some text => .error { text, isNotExist := false }
    | none => .ok data

/-- `os.Remove`. -/
def osRemove (name : Name) (d : Dir) : Option OsError × Dir :=
  match d.lookup name with
  | none => (some (q.notExist (lit "remove") name), d)
  | some _ =>
    match h.removeErr name with
    | some text => (some { text, isNotExist := false }, d)
    | none => (none, d.erase name)

/-- `os.WriteFile`. -/
def writeFile (name : Name) (data : List UInt8) (d : Dir) : Option (List UInt8) × Dir :=
  match h.writeErr name with
  | some (text, none) => (some text, d)
  | some (text, some part) => (some text, d.insert name part)
  | none => (none, d.insert name data)

/-- `os.Rename`. -/
def rename (src dst : Name) (d : Dir) : Option OsError × Dir :=
  match d.lookup src with
  | none => (some (q.notExist (lit "rename " ++ q.path src) dst), d)
  | some data =>
    match h.renameErr dst with
    | some text => (some { text, isNotExist := false }, d)
    | none => (none, (d.erase src).insert dst data)

/-! ### The queue -/

/-- `New`. -/
def new (dir : List UInt8) : Except (List UInt8) Queue :=
  match h.mkdirErr with
  | some text => .error (lit "diskqueue: mkdir " ++ dir ++ lit ": " ++ text)
  | none => .ok { dir }

/-- `Queue.Push`. -/
def push (e : Entry) (d : Dir) : Option (List UInt8) × Dir :=
  match h.marshal e with
  | .error text => (some (lit "diskqueue: marshal entry " ++ e.id ++ lit ": " ++ text), d)
  | .ok data =>
    let tmp := e.id ++ lit ".tmp"
    let dst := e.id ++ lit ".json"
    match writeFile h tmp data d with
    | (some text, d) => (some (lit "diskqueue: write temp " ++ q.path tmp ++ lit ": " ++ text), d)
    | (none, d) =>
      match q.rename h tmp dst d with
      | (some err, d) =>
        (some (lit "diskqueue: rename to " ++ q.path dst ++ lit ": " ++ err.text),
          (q.osRemove h tmp d).2)
      | (none, d) => (none, d)

/-- The loop of `Queue.Drain`. -/
def drainLoop : List Name → List Entry → Dir → Except (List UInt8) (List Entry) × Dir
  | [], entries, d => (.ok entries, d)
  | name :: names, entries, d =>
    match q.readFile h name d with
    | .error err =>
      (.error (lit "diskqueue: read " ++ q.path name ++ lit ": " ++ err.text), d)
    | .ok data =>
      match h.unmarshal data with
      | .error text =>
        (.error (lit "diskqueue: unmarshal " ++ q.path name ++ lit ": " ++ text), d)
      | .ok e =>
        match q.osRemove h name d with
        | (some err, d) =>
          if err.isNotExist = false then
            (.error (lit "diskqueue: remove " ++ q.path name ++ lit ": " ++ err.text), d)
          else drainLoop names (entries ++ [e]) d
        | (none, d) => drainLoop names (entries ++ [e]) d

/-- `Queue.Drain`. -/
def drain (d : Dir) : Except (List UInt8) (List Entry) × Dir :=
  match glob h d with
  | .error text => (.error (lit "diskqueue: glob: " ++ text), d)
  | .ok names => q.drainLoop h names [] d

/-- `Queue.Len`. -/
def len (d : Dir) : Except (List UInt8) ℕ :=
  match glob h d with
  | .error text => .error (lit "diskqueue: glob: " ++ text)
  | .ok names => .ok names.length

/-- `Queue.Remove`. -/
def remove (id : List UInt8) (d : Dir) : Option OsError × Dir :=
  q.osRemove h (id ++ lit ".json") d

end Queue

end SmsGate.Diskqueue
