import VehicleGateway.Bench.Script
import VehicleGateway.Storage.Folder
import VehicleGateway.Storage.Memory

/-!
# A bench for storages
-/

namespace VehicleGateway.Bench.Storage

/-- A step that reads.  The buffer for image bytes holds `ee` where nothing was read. -/
def read {σ : Type} [Storage σ] (s : σ) (d : Document) : Finding :=
  match d.str "do" with
  | "read_record" =>
    Finding.either .storage (fun x => .table [("record", Finding.maybe Finding.bytes x)])
      (Storage.readRecord s (d.octet "ecu"))
  | "read_header" =>
    Finding.either .storage (fun x => .table [("header", Finding.maybe Finding.bytes x)])
      (Storage.readHeader s (d.str "image"))
  | _ =>
    let wanted := d.nat "len"
    Finding.either .storage (fun (x : Bytes) => .table [("n", .number x.length),
        ("buf", Finding.bytes (x ++ List.replicate (wanted - x.length) 0xEE))])
      (Storage.readImage s (d.str "image") (d.nat "offset") wanted)

/-- A storage after writing. -/
def written {σ : Type} (s : σ) : Except StorageFault σ → σ × Finding
  | .ok s' => (s', .okay)
  | .error f => (s, .fault (.storage f))

/-- One step on a storage in memory. -/
def stepMemory (m : Memory) (d : Document) : Memory × Finding :=
  match d.str "do" with
  | "write_record" => written m (Storage.writeRecord m (d.octet "ecu") (d.bytes "data"))
  | "add_image" => (m.addImage (d.str "image") (Reading.blob (d.field "data")), .okay)
  | "add_header" => (m.addHeader (d.str "image") (Reading.blob (d.field "data")), .okay)
  | "unavailable" => ({ m with outage := Reading.outage d }, .okay)
  | _ => (m, read m d)

/-- One step on a storage in a folder. -/
def stepFolder (f : Folder) (d : Document) : Folder × Finding :=
  let path := (d.str "path").splitOn "/"
  let data := Reading.blob (d.field "data")
  match d.str "do" with
  | "write_record" => written f (Storage.writeRecord f (d.octet "ecu") (d.bytes "data"))
  | "add_image" => written f (f.putFile ["firmware", d.str "image" ++ ".bin"] data)
  | "add_header" => written f (f.putFile ["firmware", d.str "image" ++ ".hdr"] data)
  | "files" => (f, .list (f.listing.map .text))
  | "make_dir" => (f.putFolders path, .okay)
  | "make_file" => written f ((f.putFolders path.dropLast).putFile path [0x78])
  | _ => (f, read f d)

/-- Runs a script. -/
def run (d : Document) : Finding :=
  let steps := d.each "steps"
  let found := match d.str "kind" with
    | "memory" => Script.run stepMemory {} steps
    | _ => Script.run stepFolder Folder.fresh steps
  .table [("steps", .list found)]

end VehicleGateway.Bench.Storage
