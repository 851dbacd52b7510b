import VehicleGateway.Dictionary
import VehicleGateway.Storage
import VehicleGateway.Text.Column

/-!
# Storage in a folder

Records are the files `records/ecu-007.rec`, images `firmware/<name>.bin` and headers
`firmware/<name>.hdr`.  The file system is a map from paths to files and folders.  One read of a
file may return fewer bytes than asked for, so a buffer is filled by reading until it is full or
the file ends.  A folder can be opened like a file, but not read.
-/

namespace VehicleGateway

/-- What stands at a path. -/
inductive FileNode where
  | file (content : Bytes)
  | folder
  deriving DecidableEq, Repr

/-- A folder with all that lies below it; the folder itself has no path. -/
structure Folder where
  nodes : Dictionary (List String) FileNode := ∅
  /-- The most bytes that one read from a position returns; a read that can return something
  returns at least one byte. -/
  burst : Nat → Nat := fun _ => 4096

namespace Folder

/-- The longest name of a file, counted in bytes of its UTF-8 form. -/
def maxName : Nat := 255

/-- Whether a device takes a text as the name of a file. -/
def admits (name : String) : Bool :=
  name.utf8ByteSize ≤ maxName && !name.toList.contains '\x00'

/-- The file name of an ECU's record. -/
def recordName (ecu : EcuNo) : String :=
  "ecu-" ++ Column.zeros 3 ecu.toNat ++ ".rec"

/-- The path of an ECU's record. -/
def recordPath (ecu : EcuNo) : List String :=
  ["records", recordName ecu]

/-- Whether a text can name an image: not empty, without slashes of either kind, and not hidden. -/
def goodName (image : String) : Bool :=
  match image.toList with
  | [] => false
  | c :: rest => c != '.' && !(c :: rest).contains '/' && !(c :: rest).contains '\\'

/-- The path of a file that belongs to an image. -/
def imagePath (image ending : String) : Except StorageFault (List String) :=
  if goodName image then .ok ["firmware", image ++ ending] else .error (.badName image)

/-- What stands at a path.  Nothing can be looked for below a file. -/
def find (f : Folder) (path : List String) : Except StorageFault (Option FileNode) :=
  if path.all admits then
    -- Below a file there is not nothing: it cannot be looked for.
    match f.nodes.get? path, f.nodes.get? path.dropLast with
    | none, some (.file _) => .error (.device "not a folder")
    | node, _ => .ok node
  else .error (.device "bad file name")

/-- The content of the file at a path, if there is one. -/
def content (f : Folder) (path : List String) : Except StorageFault (Option Bytes) := do
  match ← f.find path with
  | none => .ok none
  | some (.file data) => .ok (some data)
  | some .folder => .error (.device "is a folder")

/-- Puts a file at a path below an existing folder. -/
def putFile (f : Folder) (path : List String) (data : Bytes) : Except StorageFault Folder :=
  match f.content path with
  | .error e => .error e
  | .ok _ => .ok { f with nodes := f.nodes.insert path (.file data) }

/-- Puts a folder at a path where there is nothing yet. -/
def putFolder (f : Folder) (path : List String) : Folder :=
  match f.nodes.get? path with
  | some _ => f
  | none => { f with nodes := f.nodes.insert path .folder }

/-- Puts folders at a path and at all paths above it. -/
def putFolders (f : Folder) (path : List String) : Folder :=
  ((List.range path.length).map fun n => path.take (n + 1)).foldl putFolder f

/-- Reads on from position `offset` until `wanted` bytes are there or the file ends. -/
def fill (burst : Nat → Nat) (data : Bytes) (offset wanted : Nat) : Nat → Bytes
  | 0 => []
  | fuel + 1 =>
    match data.window offset (min wanted (max 1 (burst offset))) with
    | [] => []
    | part => part ++ fill burst data (offset + part.length) (wanted - part.length) fuel

/-- No position in a file, and no end of a read, lies beyond this offset. -/
def maxOffset : Nat := 0x7FFFFFFFFFFFFFFF

instance : Storage Folder where
  readRecord f ecu := f.content (recordPath ecu)
  writeRecord f ecu data :=
    match f.nodes.get? ["records"] with
    | some (.file _) => .error (.device "not a folder")
    | _ => (f.putFolder ["records"]).putFile (recordPath ecu) data
  readImage f image offset wanted := do
    match ← f.find (← imagePath image ".bin") with
    | none => .error (.noImage image)
    | some node =>
      -- The position is judged before it matters what stands at the path.
      if maxOffset < offset + wanted then .error (.device "offset out of range")
      else match node with
        | .file data => .ok (fill f.burst data offset wanted wanted)
        | .folder => if wanted = 0 then .ok [] else .error (.device "is a folder")
  readHeader f image := do f.content (← imagePath image ".hdr")

/-- The folder in which images are expected, still empty. -/
def fresh : Folder :=
  (⟨∅, fun _ => 4096⟩ : Folder).putFolder ["firmware"]

/-- The names of all files and folders in `firmware` and `records`, in ascending order. -/
def listing (f : Folder) : List String :=
  let paths := f.nodes.keys.filterMap fun
    | [top, name] => if top = "firmware" ∨ top = "records" then some (top ++ "/" ++ name) else none
    | _ => none
  paths.mergeSort (· ≤ ·)

end Folder
end VehicleGateway
