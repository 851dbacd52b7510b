import VehicleGateway.Document.Access
import VehicleGateway.Keys.Entropy
import VehicleGateway.Keys.Vault
import VehicleGateway.Ecu.Record
import VehicleGateway.Message

/-!
# What a bench is given

Reads values out of the steps of a script.  Scripts are well formed, so a value that makes no sense
is read as a default.
-/

namespace VehicleGateway.Reading

open Document

/-- Bytes given in hexadecimal, or as `len` bytes of which number `i` is `i * mul + add`. -/
def blob (d : Document) : Bytes :=
  if d.has "hex" then d.bytes "hex"
  else (List.range (d.nat "len")).map fun i => .ofNat (i * d.nat "mul" + d.nat "add")

/-- The block of sixteen bytes. -/
def blockOf (data : Bytes) : Block := (Block.ofBytes? data).getD Block.zero

/-- The block under a name. -/
def block (d : Document) (name : String) : Block := blockOf (d.bytes name)

/-- The identity under a name. -/
def identity (d : Document) (name : String) : ElementId :=
  (ElementId.ofBytes? (d.bytes name)).getD ElementId.wildcard

/-- The status of a name. -/
def status (name : String) : Status := (Status.all.find? (·.name = name)).getD .normal

/-- The byte order of a name. -/
def order (name : String) : ByteOrder := (ByteOrder.all.find? (·.name = name)).getD .big

/-- A record with the fields that are given. -/
def recordWith (r : EcuRecord) (d : Document) : EcuRecord where
  protocol :=
    if d.has "protocol" then (Protocol.all.find? (·.name = d.str "protocol")).getD .can
    else r.protocol
  interface := d.octet "interface" r.interface.toNat
  status := if d.has "status" then status (d.str "status") else r.status
  order := if d.has "endianness" then order (d.str "endianness") else r.order
  secure := d.flag "secure_capable" r.secure
  version := if d.has "firmware_version" then d.quad "firmware_version" else r.version

/-- A record, in which most fields have defaults. -/
def record (d : Document) : EcuRecord := recordWith { protocol := .can, interface := 0 } d

/-- Records, each of which may stand for several. -/
def records (ds : List Document) : List EcuRecord :=
  ds.flatMap fun d => List.replicate (d.nat "repeat" 1) (record d)

/-- A slot by name; user slots may have any number. -/
def slotOf (name : String) : KeySlot :=
  if name = "master" then .master
  else if name = "boot_mac_key" then .bootMac
  else if name = "ram" then .ram
  else .user (.ofNat ((name.drop 4).toString.toNat?.getD 0))

/-- The slot under a name. -/
def slot (d : Document) (name : String) : KeySlot := slotOf (d.str name)

/-- Flags given as a number or by name. -/
def flags : Document → KeyFlags
  | .int n => .ofBits n.toNat
  | d =>
    { writeProtection := d.flag "write_protection", bootProtection := d.flag "boot_protection",
      debuggerProtection := d.flag "debugger_protection", macOnly := d.flag "key_usage",
      wildcard := d.flag "wildcard" }

/-- Two blocks under a name. -/
def halves (d : Document) (name : String) : Block × Block :=
  (blockOf ((d.bytes name).take 16), blockOf ((d.bytes name).drop 16))

/-- A block with one byte changed. -/
def flip (b : Block) (i x : Nat) : Block :=
  blockOf (b.toList.set i ((b.toList.getD i 0) ^^^ .ofNat x))

/-- An order with one byte changed. -/
def tampered (o : KeyOrder) (d : Document) : KeyOrder :=
  let i := d.nat "byte"
  let x := d.nat "xor"
  match d.str "field" with
  | "m1" => { o with address := flip o.address i x }
  | "m2" =>
    if i < 16 then { o with terms := flip o.terms i x }
    else { o with secret := flip o.secret (i - 16) x }
  | "m3" => { o with code := flip o.code i x }
  | _ => o

/-- An order, given as it is or by what it says. -/
def keyOrder (d : Document) : Except ElementFault KeyOrder :=
  if d.has "m1" then
    let (terms, secret) := halves d "m2"
    .ok { address := block d "m1", terms, secret, code := block d "m3" }
  else
    (KeyOrder.make (block d "auth_key") (slot d "auth") (slot d "key") (block d "new_key")
      (d.nat "counter") (flags (d.field "flags")) (identity d "uid")).map
        (tampered · (d.field "tamper"))

/-- A command, or why the order in it cannot be made. -/
def command (d : Document) : Except ElementFault Command :=
  let s := slot d "slot"
  let data := d.bytes "data"
  let start := block d "iv"
  match d.str "cmd" with
  | "ENC_ECB" => .ok (.encryptEach s data)
  | "DEC_ECB" => .ok (.decryptEach s data)
  | "ENC_CBC" => .ok (.encryptChain s start data)
  | "DEC_CBC" => .ok (.decryptChain s start data)
  | "GENERATE_MAC" => .ok (.makeMac s data)
  | "VERIFY_MAC" => .ok (.checkMac s data (block d "mac"))
  | "RND" => .ok .random
  | "LOAD_KEY" => (keyOrder d).map .loadKey
  | "LOAD_PLAIN_KEY" => .ok (.loadPlainKey (block d "key"))
  | "GET_ID" => .ok (.identify (block d "challenge"))
  | "DEBUG_CHAL" => .ok .debugChallenge
  | _ => .ok (.debugAuthorize (block d "auth"))

/-- A source of blocks that do not repeat. -/
def entropy (n : Nat) : Block := Entropy.drawn Block.zero n

/-- An element with the identity that is given. -/
def element (d : Document) : Element := { identity := identity d "uid", entropy }

/-- The outage that is given; nothing ends it. -/
def outage (d : Document) : Option String := (d.field "reason").toText?

/-- A frame. -/
def frame (d : Document) (data : Bytes) : Frame := ⟨d.octet "interface", d.quad "id", data⟩

end VehicleGateway.Reading
