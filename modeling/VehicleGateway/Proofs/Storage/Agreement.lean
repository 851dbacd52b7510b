import Mathlib.Data.String.Basic
import VehicleGateway.Proofs.Storage.Lawful

/-!
# The two kinds of storage answer alike

A folder and a memory that hold the same records, images and headers give the same answers to all
that is asked of a storage, and go on holding the same.  The folder has its files for that: each
record, image and header one of its own, which is read until the buffer is full or the file ends,
however little one read returns.

A device takes no names beyond a length, no zero character in a name and no position that does not
fit its numbers.  `StorageRequest.Taken` says that it takes what it is asked.

* `fill_eq_window` says what reading on and on comes to.
* `path_injective` says that no two parts share a file.
* `Alike.serve` says that one request is answered alike and leaves both alike.
* `Folder.answers_as_memory` is the whole, for every list of requests.
-/

namespace VehicleGateway

/-- What is asked of a storage. -/
inductive StorageRequest where
  | readRecord (ecu : EcuNo)
  | writeRecord (ecu : EcuNo) (data : Bytes)
  | readImage (image : String) (offset wanted : Nat)
  | readHeader (image : String)
  deriving DecidableEq

/-- What a storage answers. -/
inductive StorageAnswer where
  | found (result : Except StorageFault (Option Bytes))
  | written (result : Except StorageFault Unit)
  | read (result : Except StorageFault Bytes)

namespace Storage

variable {σ : Type} [Storage σ]

/-- A storage after a request, and its answer. -/
def serve (s : σ) : StorageRequest → σ × StorageAnswer
  | .readRecord ecu => (s, .found (readRecord s ecu))
  | .writeRecord ecu data =>
    match writeRecord s ecu data with
    | .ok s' => (s', .written (.ok ()))
    | .error fault => (s, .written (.error fault))
  | .readImage image offset wanted => (s, .read (readImage s image offset wanted))
  | .readHeader image => (s, .found (readHeader s image))

/-- The answers to one request after the other. -/
def answers (s : σ) : List StorageRequest → List StorageAnswer
  | [] => []
  | q :: later => (serve s q).2 :: answers (serve s q).1 later

end Storage

/-! ## Reading until there is enough -/

/-- What is read at once is what is read in two parts, of which the second begins where the first
ended. -/
theorem Bytes.window_split (data : Bytes) (start : Nat) {first n : Nat} (h : first ≤ n) :
    window data start n = window data start first ++
      window data (start + (window data start first).length)
        (n - (window data start first).length) := by
  simp only [window, List.length_take, List.length_drop, ← List.drop_drop]
  rcases Nat.le_total first (data.length - start) with hfits | hends
  · rw [Nat.min_eq_left hfits, ← List.take_add]
    congr 1
    omega
  · have hall : (data.drop start).length ≤ data.length - start := by simp
    rw [Nat.min_eq_right hends, List.take_of_length_le (Nat.le_trans hall (Nat.le_trans hends h)),
      List.take_of_length_le (Nat.le_trans hall hends), List.drop_of_length_le hall]
    simp

namespace Folder

theorem fill_eq_window (burst : Nat → Nat) (data : Bytes) (offset : Nat) {wanted fuel : Nat}
    (hfuel : wanted ≤ fuel) : fill burst data offset wanted fuel = data.window offset wanted := by
  induction fuel generalizing offset wanted with
  | zero =>
    obtain rfl := Nat.le_zero.mp hfuel
    simp [fill, Bytes.window]
  | succ fuel ih =>
    unfold fill
    split
    case h_1 hnone =>
      have hempty : wanted = 0 ∨ data.drop offset = [] := by
        rcases List.take_eq_nil_iff.mp hnone with hzero | hend
        · omega
        · exact .inr hend
      rcases hempty with rfl | hend
      · simp [Bytes.window]
      · simp [Bytes.window, hend]
    case h_2 part hpart =>
      -- The first read returns something, so that less is left to read.
      have hsome := List.length_pos_iff.mpr hpart
      rw [ih _ (by omega)]
      exact (data.window_split offset (Nat.min_le_left _ _)).symm

end Folder

/-! ## Files -/

/-- A part of what a storage holds. -/
inductive StoredPart where
  | record (ecu : EcuNo)
  | image (name : String)
  | header (name : String)
  deriving DecidableEq

/-- The path of the file of a part. -/
def StoredPart.path : StoredPart → Except StorageFault (List String)
  | record ecu => .ok (Folder.recordPath ecu)
  | image name => Folder.imagePath name ".bin"
  | header name => Folder.imagePath name ".hdr"

/-- What a memory holds for a part. -/
def Memory.part? (m : Memory) : StoredPart → Option Bytes
  | .record ecu => m.records.get? ecu
  | .image name => m.images.get? name
  | .header name => m.headers.get? name

/-- The characters of a number on at least `width` places. -/
def Column.digits (width n : Nat) : List Char :=
  List.replicate (width - (Nat.toDigits 10 n).length) '0' ++ Nat.toDigits 10 n

theorem Column.zeros_eq (width n : Nat) : zeros width n = String.ofList (digits width n) := by
  have hshown : toString n = String.ofList (Nat.toDigits 10 n) := rfl
  simp only [zeros, digits, hshown, String.length_ofList, String.ofList_append]

/-! ## Memory -/

namespace Memory

variable {m : Memory}

theorem readRecord_of_outage_eq_none (h : m.outage = none) (ecu : EcuNo) :
    Storage.readRecord m ecu = .ok (m.part? (.record ecu)) := by
  simp [Storage.readRecord, serve, h, part?]

theorem writeRecord_of_outage_eq_none (h : m.outage = none) (ecu : EcuNo) (data : Bytes) :
    Storage.writeRecord m ecu data = .ok (m.putRecord ecu data) := by
  simp [Storage.writeRecord, serve, h]

theorem readHeader_of_outage_eq_none (h : m.outage = none) (image : String) :
    Storage.readHeader m image = .ok (m.part? (.header image)) := by
  simp [Storage.readHeader, serve, h, part?]

theorem readImage_of_outage_eq_none (h : m.outage = none) (image : String) (offset wanted : Nat) :
    Storage.readImage m image offset wanted = match m.part? (.image image) with
      | none => .error (.noImage image)
      | some data => .ok (data.window offset wanted) := by
  cases himage : m.images.get? image <;> simp [Storage.readImage, serve, h, part?, himage]

/-- Puts data in place of a part. -/
def put (m : Memory) (data : Bytes) : StoredPart → Memory
  | .record ecu => m.putRecord ecu data
  | .image name => m.addImage name data
  | .header name => m.addHeader name data

theorem outage_put (m : Memory) (data : Bytes) (part : StoredPart) :
    (m.put data part).outage = m.outage := by
  cases part <;> rfl

theorem part?_put_self (m : Memory) (data : Bytes) (part : StoredPart) :
    (m.put data part).part? part = some data := by
  cases part <;> exact Dictionary.get?_insert_self _ _ _

theorem part?_put_of_ne (m : Memory) (data : Bytes) {part other : StoredPart}
    (hne : other ≠ part) : (m.put data part).part? other = m.part? other := by
  cases part with
  | record ecu =>
    cases other with
    | record ecu' =>
      exact Dictionary.get?_insert_of_ne _ (fun h => hne (congrArg StoredPart.record h)) _
    | image | header => rfl
  | image name =>
    cases other with
    | image name' =>
      exact Dictionary.get?_insert_of_ne _ (fun h => hne (congrArg StoredPart.image h)) _
    | record | header => rfl
  | header name =>
    cases other with
    | header name' =>
      exact Dictionary.get?_insert_of_ne _ (fun h => hne (congrArg StoredPart.header h)) _
    | record | image => rfl

end Memory

/-! ## Paths -/

namespace Folder

theorem goodName_iff (image : String) : goodName image = true ↔
    image ≠ "" ∧ image.toList.head? ≠ some '.' ∧ '/' ∉ image.toList ∧ '\\' ∉ image.toList := by
  have hempty : image ≠ "" ↔ image.toList ≠ [] := not_congr String.toList_eq_nil_iff.symm
  rw [hempty]
  unfold goodName
  cases image.toList with
  | nil => simp
  | cons c rest => simp [and_assoc]

/-- A record's name is short and plain. -/
theorem admits_recordPath (ecu : EcuNo) : (recordPath ecu).all admits = true := by
  have hplain : ∀ n : Fin 256,
      String.utf8Len (Column.digits 3 n) = 3 ∧ '\x00' ∉ Column.digits 3 n := by
    decide +kernel
  obtain ⟨hsize, hnul⟩ := hplain ⟨ecu.toNat, ecu.toNat_lt⟩
  have hzeros : (Column.zeros 3 ecu.toNat).utf8ByteSize = 3 := by
    rw [Column.zeros_eq, String.utf8ByteSize_ofList]
    exact hsize
  have hbytes : (recordName ecu).utf8ByteSize = 11 := by
    rw [recordName, String.utf8ByteSize_append, String.utf8ByteSize_append, hzeros]
    rfl
  have hchars : '\x00' ∉ (recordName ecu).toList := by
    simp [recordName, Column.zeros_eq, hnul]
  have hname : admits (recordName ecu) = true := by
    simp [admits, hbytes, hchars, maxName]
  simp only [recordPath, List.all_cons, List.all_nil, hname, Bool.and_true]
  decide

theorem admits_firmware {name : String} (h : admits name = true) :
    ["firmware", name].all admits = true := by
  simp only [List.all_cons, List.all_nil, h, Bool.and_true]
  decide

theorem eq_of_imagePath {image ending : String} {path : List String}
    (h : imagePath image ending = .ok path) : path = ["firmware", image ++ ending] := by
  unfold imagePath at h
  split at h
  case isTrue => exact (Except.ok.inj h).symm
  case isFalse => cases h

end Folder

namespace StoredPart

open Folder

theorem path_record (ecu : EcuNo) : (record ecu).path = .ok (recordPath ecu) := rfl

theorem path_image {name : String} (h : goodName name = true) :
    (image name).path = .ok ["firmware", name ++ ".bin"] :=
  if_pos h

theorem path_header {name : String} (h : goodName name = true) :
    (header name).path = .ok ["firmware", name ++ ".hdr"] :=
  if_pos h

/-- The path of the file of a part, if the part has a good name. -/
def file : StoredPart → List String
  | record ecu => recordPath ecu
  | image name => ["firmware", name ++ ".bin"]
  | header name => ["firmware", name ++ ".hdr"]

theorem eq_file_of_path {part : StoredPart} {path : List String} (h : part.path = .ok path) :
    path = part.file := by
  cases part with
  | record ecu => exact (Except.ok.inj h).symm
  | image name | header name => exact eq_of_imagePath h

theorem append_bin_ne (name other : String) : name ++ ".bin" ≠ other ++ ".hdr" := by
  intro h
  have hbin : ".bin".toList = ['.', 'b', 'i', 'n'] := String.toList_ofList
  have hhdr : ".hdr".toList = ['.', 'h', 'd', 'r'] := String.toList_ofList
  have hlist := congrArg String.toList h
  simp only [String.toList_append, hbin, hhdr] at hlist
  exact absurd (List.append_inj_right' hlist rfl) (by decide)

theorem file_injective : Function.Injective file := by
  intro a b h
  cases a with
  | record ecu =>
    cases b with
    | record other =>
      have hpath : recordPath ecu = recordPath other := h
      by_contra hne
      exact recordPath_ne (fun heq : ecu = other => hne (congrArg record heq)) hpath
    | image | header => simp [file, recordPath] at h
  | image name =>
    cases b with
    | record => simp [file, recordPath] at h
    | image => simpa [file] using h
    | header other => exact absurd (by simpa [file] using h) (append_bin_ne name other)
  | header name =>
    cases b with
    | record => simp [file, recordPath] at h
    | image other => exact absurd (by simpa [file] using h.symm) (append_bin_ne other name)
    | header => simpa [file] using h

/-- No two parts share a file. -/
theorem path_injective {a b : StoredPart} {path : List String} (ha : a.path = .ok path)
    (hb : b.path = .ok path) : a = b :=
  file_injective ((eq_file_of_path ha).symm.trans (eq_file_of_path hb))

/-- The file of a part lies in a folder. -/
theorem ne_singleton {part : StoredPart} {path : List String} (h : part.path = .ok path)
    (name : String) : path ≠ [name] := by
  rw [eq_file_of_path h]
  cases part <;> simp [file, recordPath]

theorem dropLast_file (part : StoredPart) :
    part.file.dropLast = ["records"] ∨ part.file.dropLast = ["firmware"] := by
  cases part with
  | record => exact .inl rfl
  | image | header => exact .inr rfl

end StoredPart

/-! ## Holding the same -/

/-- A folder and a memory that hold the same, with a folder wherever a file may have to be. -/
structure Alike (f : Folder) (m : Memory) : Prop where
  serves : m.outage = none
  holds : ∀ part path, StoredPart.path part = .ok path →
    f.nodes.get? path = (m.part? part).map .file
  open_records : ∀ old, f.nodes.get? ["records"] ≠ some (.file old)
  open_firmware : ∀ old, f.nodes.get? ["firmware"] ≠ some (.file old)

namespace Alike

open Folder

variable {f : Folder} {m : Memory}

theorem find_eq (h : Alike f m) {part : StoredPart} {path : List String}
    (hpath : part.path = .ok path) (hnames : path.all admits = true) :
    f.find path = .ok ((m.part? part).map .file) := by
  have hopen : ∀ old, f.nodes.get? path.dropLast ≠ some (.file old) := by
    rw [StoredPart.eq_file_of_path hpath]
    rcases part.dropLast_file with hfolder | hfolder
    · rw [hfolder]
      exact h.open_records
    · rw [hfolder]
      exact h.open_firmware
  rw [Folder.find_eq hnames hopen, h.holds part path hpath]

theorem content_eq (h : Alike f m) {part : StoredPart} {path : List String}
    (hpath : part.path = .ok path) (hnames : path.all admits = true) :
    f.content path = .ok (m.part? part) := by
  rw [content, h.find_eq hpath hnames]
  cases m.part? part with
  | none => rfl
  | some data => rfl

/-- A folder for the records changes nothing about what is held. -/
theorem putFolder (h : Alike f m) : Alike (f.putFolder ["records"]) m where
  serves := h.serves
  holds part path hpath := by
    rw [get?_putFolder_of_ne f (StoredPart.ne_singleton hpath _), h.holds part path hpath]
  open_records old := by
    rw [get?_putFolder_self f h.open_records]
    simp
  open_firmware old := by
    rw [get?_putFolder_of_ne f (by decide)]
    exact h.open_firmware old

/-- What is put into both is held by both. -/
theorem put (h : Alike f m) {part : StoredPart} {path : List String}
    (hpath : part.path = .ok path) (data : Bytes) :
    Alike { f with nodes := f.nodes.insert path (.file data) } (m.put data part) where
  serves := (m.outage_put data part).trans h.serves
  holds other path' hpath' := by
    by_cases hother : other = part
    · subst hother
      obtain rfl := Except.ok.inj (hpath.symm.trans hpath')
      rw [Memory.part?_put_self]
      exact Dictionary.get?_insert_self _ _ _
    · have hne : path' ≠ path := by
        rintro rfl
        exact hother (StoredPart.path_injective hpath' hpath)
      rw [m.part?_put_of_ne data hother, ← h.holds other path' hpath']
      exact Dictionary.get?_insert_of_ne _ hne _
  open_records old := by
    rw [Dictionary.get?_insert_of_ne _ (StoredPart.ne_singleton hpath _).symm]
    exact h.open_records old
  open_firmware old := by
    rw [Dictionary.get?_insert_of_ne _ (StoredPart.ne_singleton hpath _).symm]
    exact h.open_firmware old

/-- A record is written in a folder that holds the same as a memory. -/
theorem exists_writeRecord (h : Alike f m) (ecu : EcuNo) (data : Bytes) :
    ∃ f', Storage.writeRecord f ecu data = .ok f' ∧ Alike f' (m.putRecord ecu data) := by
  refine ⟨_, ?_, h.putFolder.put (StoredPart.path_record ecu) data⟩
  have hcontent := h.putFolder.content_eq (StoredPart.path_record ecu) (admits_recordPath ecu)
  dsimp only [Storage.writeRecord]
  split
  case h_1 old hold => exact absurd hold (h.open_records old)
  case h_2 => rw [putFile, hcontent]

end Alike

/-! ## Requests -/

namespace StorageRequest

/-- The image of a request has a name that can be one of an image. -/
def Named : StorageRequest → Prop
  | readImage image _ _ | readHeader image =>
    image ≠ "" ∧ image.toList.head? ≠ some '.' ∧ '/' ∉ image.toList ∧ '\\' ∉ image.toList
  | _ => True

/-- A device takes the name of the file and the position where reading ends. -/
def Taken : StorageRequest → Prop
  | readImage image offset wanted =>
    Folder.admits (image ++ ".bin") = true ∧ offset + wanted ≤ Folder.maxOffset
  | readHeader image => Folder.admits (image ++ ".hdr") = true
  | _ => True

end StorageRequest

namespace Alike

variable {f : Folder} {m : Memory} {q : StorageRequest}

/-- A request leaves both alike. -/
theorem serve (h : Alike f m) (q : StorageRequest) :
    Alike (Storage.serve f q).1 (Storage.serve m q).1 := by
  cases q with
  | readRecord | readImage | readHeader => exact h
  | writeRecord ecu data =>
    obtain ⟨f', hf', halike⟩ := h.exists_writeRecord ecu data
    have hm' := Memory.writeRecord_of_outage_eq_none h.serves ecu data
    simpa only [Storage.serve, hf', hm'] using halike

theorem readHeader_eq (h : Alike f m) {image : String} (hname : Folder.goodName image = true)
    (hadmits : Folder.admits (image ++ ".hdr") = true) :
    Storage.readHeader f image = .ok (m.part? (.header image)) := by
  have hpath := StoredPart.path_header hname
  calc
    _ = f.content ["firmware", image ++ ".hdr"] := congrArg (· >>= f.content) hpath
    _ = _ := h.content_eq hpath (Folder.admits_firmware hadmits)

/-- An image is read from its file, if the device takes the file's name and the position where
reading ends. -/
theorem readImage_eq (h : Alike f m) {image : String} (hname : Folder.goodName image = true)
    (hadmits : Folder.admits (image ++ ".bin") = true) {offset wanted : Nat}
    (hend : offset + wanted ≤ Folder.maxOffset) :
    Storage.readImage f image offset wanted = match m.part? (.image image) with
      | none => .error (.noImage image)
      | some data => .ok (data.window offset wanted) := by
  have hpath : Folder.imagePath image ".bin" = _ := StoredPart.path_image hname
  have hfind := h.find_eq (StoredPart.path_image hname) (Folder.admits_firmware hadmits)
  dsimp only [Storage.readImage]
  rw [hpath]
  simp only [bind, Except.bind, hfind]
  cases m.part? (.image image) with
  | none => rfl
  | some data =>
    dsimp only [Option.map_some]
    rw [if_neg (Nat.not_lt.mpr hend), Folder.fill_eq_window _ _ _ (Nat.le_refl wanted)]

/-- A request that the device takes is answered alike. -/
theorem answer_eq (h : Alike f m) (hnamed : q.Named) (htaken : q.Taken) :
    (Storage.serve f q).2 = (Storage.serve m q).2 := by
  cases q with
  | readRecord ecu =>
    have hf : Storage.readRecord f ecu = .ok (m.part? (.record ecu)) :=
      h.content_eq (StoredPart.path_record ecu) (Folder.admits_recordPath ecu)
    simp only [Storage.serve, hf, Memory.readRecord_of_outage_eq_none h.serves]
  | writeRecord ecu data =>
    obtain ⟨f', hf', -⟩ := h.exists_writeRecord ecu data
    simp only [Storage.serve, hf', Memory.writeRecord_of_outage_eq_none h.serves]
  | readHeader image =>
    have hf := h.readHeader_eq ((Folder.goodName_iff image).mpr hnamed) htaken
    simp only [Storage.serve, hf, Memory.readHeader_of_outage_eq_none h.serves]
  | readImage image offset wanted =>
    have hf := h.readImage_eq ((Folder.goodName_iff image).mpr hnamed) htaken.1 htaken.2
    simp only [Storage.serve, hf, Memory.readImage_of_outage_eq_none h.serves]

end Alike

theorem Storage.length_answers {σ : Type} [Storage σ] (s : σ) (requests : List StorageRequest) :
    (answers s requests).length = requests.length := by
  induction requests generalizing s with
  | nil => rfl
  | cons q later ih => exact congrArg (· + 1) (ih _)

/-- In every list of requests those that the device takes are answered alike. -/
theorem Alike.answers_getElem? {f : Folder} {m : Memory} (h : Alike f m)
    {requests : List StorageRequest} (hnamed : ∀ q ∈ requests, q.Named) {i : Nat}
    {q : StorageRequest} (hq : requests[i]? = some q) (htaken : q.Taken) :
    (Storage.answers f requests)[i]? = (Storage.answers m requests)[i]? := by
  induction requests generalizing f m i with
  | nil => cases hq
  | cons first later ih =>
    cases i with
    | zero =>
      obtain rfl : first = q := Option.some.inj hq
      exact congrArg some (h.answer_eq (hnamed first List.mem_cons_self) htaken)
    | succ i => exact ih (h.serve first) (fun q hq => hnamed q (.tail _ hq)) hq

/-- A folder and a memory that hold the same answer every list of requests alike, if the names can
be those of images and the device takes the names of their files and the positions.  Of any other
list they answer alike the requests that the device takes.  No two parts share a file. -/
theorem Folder.answers_as_memory {f : Folder} {m : Memory} (h : Alike f m)
    (requests : List StorageRequest) (hnamed : ∀ q ∈ requests, q.Named) :
    ((∀ q ∈ requests, q.Taken) → Storage.answers f requests = Storage.answers m requests) ∧
    (∀ (i : Nat) q, requests[i]? = some q → StorageRequest.Taken q →
      (Storage.answers f requests)[i]? = (Storage.answers m requests)[i]?) ∧
    ∀ a b path, StoredPart.path a = .ok path → StoredPart.path b = .ok path → a = b := by
  refine ⟨fun htaken => List.ext_getElem? fun i => ?_, fun i q => h.answers_getElem? hnamed,
    fun a b path => StoredPart.path_injective⟩
  cases hq : requests[i]? with
  | some q => exact h.answers_getElem? hnamed hq (htaken q (List.mem_of_getElem? hq))
  | none =>
    have hlength := List.getElem?_eq_none_iff.mp hq
    rw [List.getElem?_eq_none (by rwa [Storage.length_answers]),
      List.getElem?_eq_none (by rwa [Storage.length_answers])]

/-- A folder and a memory without records, images and headers are alike. -/
theorem alike_fresh (burst : Nat → Nat) : Alike { Folder.fresh with burst } {} where
  serves := rfl
  holds part path hpath := by
    have hnone : Folder.fresh.nodes.get? path = none :=
      Dictionary.get?_insert_of_ne _ (StoredPart.ne_singleton hpath _) _
    rw [hnone]
    cases part <;> rfl
  open_records old := by
    have hnone : Folder.fresh.nodes.get? ["records"] = none := rfl
    rw [hnone]
    simp
  open_firmware old := by
    have hfolder : Folder.fresh.nodes.get? ["firmware"] = some .folder := rfl
    rw [hfolder]
    simp

/-! ## A folder that is read two bytes at a time -/

/-- A memory that holds the image of an application. -/
def smallMemory : Memory :=
  Memory.put {} [1, 2, 3, 4, 5] (.image "app")

/-- A folder with the same image, of which one read returns two bytes. -/
def smallFolder : Folder where
  nodes := Folder.fresh.nodes.insert ["firmware", "app" ++ ".bin"] (.file [1, 2, 3, 4, 5])
  burst := fun _ => 2

theorem alike_small : Alike smallFolder smallMemory :=
  (alike_fresh fun _ => 2).put (StoredPart.path_image (by decide)) [1, 2, 3, 4, 5]

/-- Requests for a record, before and after it is written, for images and for a header. -/
def smallRequests : List StorageRequest :=
  [.readRecord 7, .writeRecord 7 [8], .readRecord 7, .readImage "app" 1 48, .readImage "none" 0 48,
    .readHeader "app"]

theorem small_folder_answers : Storage.answers smallFolder smallRequests =
      Storage.answers smallMemory smallRequests ∧
    (Storage.answers smallFolder smallRequests)[3]? = some (.read (.ok [2, 3, 4, 5])) := by
  have hnamed : ∀ q ∈ smallRequests, q.Named := by
    simp [smallRequests, StorageRequest.Named]
  have htaken : ∀ q ∈ smallRequests, q.Taken := by
    simp [smallRequests, StorageRequest.Taken, Folder.maxOffset]
    decide
  obtain ⟨hsame, -⟩ := Folder.answers_as_memory alike_small smallRequests hnamed
  refine ⟨hsame htaken, ?_⟩
  rw [hsame htaken]
  rfl

end VehicleGateway
