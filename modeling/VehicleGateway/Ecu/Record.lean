import VehicleGateway.Bytes

/-!
# ECU records

What the gateway knows about one ECU, and the codes and names of its fields.
-/

namespace VehicleGateway

/-- The protocol an ECU speaks. -/
inductive Protocol where
  | can
  | canFd
  | lin
  | ethernet
  deriving DecidableEq, Repr

/-- The operational status of an ECU. -/
inductive Status where
  | normal
  | sleeping
  | updating
  | corrupted
  | unresponsive
  | fault
  deriving DecidableEq, Repr

/-- The order in which an ECU writes the bytes of a word. -/
inductive ByteOrder where
  | little
  | big
  deriving DecidableEq, Repr

/-- What the gateway knows about an ECU. -/
structure EcuRecord where
  protocol : Protocol
  /-- The interface on which the ECU is reached. -/
  interface : UInt8
  status : Status := .normal
  order : ByteOrder := .big
  /-- Whether the ECU takes encrypted firmware. -/
  secure : Bool := false
  version : UInt32 := 0
  deriving DecidableEq, Repr

/-- A field of a record with codes that mean nothing. -/
inductive CodedField where
  | protocol
  | status
  | order
  deriving DecidableEq, Repr

/-- The name of a field in diagnostics. -/
def CodedField.title : CodedField → String
  | .protocol => "Protocol"
  | .status => "EcuStatus"
  | .order => "Endianness"

/-- Why bytes are no record. -/
inductive RecordFault where
  | length (n : Nat)
  | format (value : UInt8)
  | checksum
  | field (which : CodedField) (value : UInt8)
  deriving DecidableEq, Repr

/-- The wording of a fault. -/
def RecordFault.message : RecordFault → String
  | .length n => s!"Record length {n} does not match expected length"
  | .format v => s!"Unsupported record format {v.toNat}"
  | .checksum => "Record checksum mismatch"
  | .field f v => s!"Invalid {f.title} value {v.toNat}"

namespace Protocol

/-- The code of a protocol in records and reports. -/
def code : Protocol → UInt8
  | .can => 0
  | .canFd => 1
  | .lin => 2
  | .ethernet => 3

/-- The protocol with a code. -/
def ofCode (c : UInt8) : Except RecordFault Protocol :=
  if c = 0 then .ok .can
  else if c = 1 then .ok .canFd
  else if c = 2 then .ok .lin
  else if c = 3 then .ok .ethernet
  else .error (.field .protocol c)

/-- The name of a protocol in configurations. -/
def name : Protocol → String
  | .can => "can"
  | .canFd => "can-fd"
  | .lin => "lin"
  | .ethernet => "ethernet"

/-- The name of a protocol in diagnostics. -/
def title : Protocol → String
  | .can => "Can"
  | .canFd => "CanFd"
  | .lin => "Lin"
  | .ethernet => "Ethernet"

/-- Every protocol. -/
def all : List Protocol := [.can, .canFd, .lin, .ethernet]

theorem ofCode_code (p : Protocol) : ofCode p.code = .ok p := by
  cases p <;> rfl

end Protocol

namespace Status

/-- The code of a status in records and reports. -/
def code : Status → UInt8
  | .normal => 0
  | .sleeping => 1
  | .updating => 2
  | .corrupted => 3
  | .unresponsive => 4
  | .fault => 5

/-- The status with a code. -/
def ofCode (c : UInt8) : Except RecordFault Status :=
  if c = 0 then .ok .normal
  else if c = 1 then .ok .sleeping
  else if c = 2 then .ok .updating
  else if c = 3 then .ok .corrupted
  else if c = 4 then .ok .unresponsive
  else if c = 5 then .ok .fault
  else .error (.field .status c)

/-- The name of a status. -/
def name : Status → String
  | .normal => "normal"
  | .sleeping => "sleeping"
  | .updating => "updating"
  | .corrupted => "corrupted"
  | .unresponsive => "unresponsive"
  | .fault => "fault"

/-- The name of a status in diagnostics. -/
def title : Status → String
  | .normal => "Normal"
  | .sleeping => "Sleeping"
  | .updating => "Updating"
  | .corrupted => "Corrupted"
  | .unresponsive => "Unresponsive"
  | .fault => "Fault"

/-- Every status. -/
def all : List Status := [.normal, .sleeping, .updating, .corrupted, .unresponsive, .fault]

theorem ofCode_code (s : Status) : ofCode s.code = .ok s := by
  cases s <;> rfl

end Status

namespace ByteOrder

/-- The code of a byte order in records and reports. -/
def code : ByteOrder → UInt8
  | .little => 0
  | .big => 1

/-- The byte order with a code. -/
def ofCode (c : UInt8) : Except RecordFault ByteOrder :=
  if c = 0 then .ok .little
  else if c = 1 then .ok .big
  else .error (.field .order c)

/-- The name of a byte order in configurations. -/
def name : ByteOrder → String
  | .little => "little"
  | .big => "big"

/-- The name of a byte order in diagnostics. -/
def title : ByteOrder → String
  | .little => "Little"
  | .big => "Big"

/-- Every byte order. -/
def all : List ByteOrder := [.little, .big]

/-- The word that four bytes spell in this order. -/
def word : ByteOrder → UInt8 → UInt8 → UInt8 → UInt8 → UInt32
  | .little => Bytes.wordLittle
  | .big => Bytes.wordBig

/-- The bytes of a word in this order. -/
def ofWord : ByteOrder → UInt32 → Bytes
  | .little => Bytes.ofWordLittle
  | .big => Bytes.ofWordBig

theorem ofCode_code (o : ByteOrder) : ofCode o.code = .ok o := by
  cases o <;> rfl

end ByteOrder
end VehicleGateway
