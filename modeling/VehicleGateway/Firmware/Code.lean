import VehicleGateway.Bytes

/-!
# The firmware handshake

Single bytes that the gateway and an ECU exchange during an update, the codes that tell firmware
messages apart, and the sizes of what is transferred.
-/

namespace VehicleGateway.Firmware

/-- Asks an ECU to enter its loader. -/
def reset : UInt8 := 0xA0

/-- Answers `reset`. -/
def resetDone : UInt8 := 0xA1

/-- Announces plain chunks. -/
def beginPlain : UInt8 := 0xB0

/-- Announces encrypted chunks; the ECU answers with a challenge. -/
def beginSecure : UInt8 := 0xB1

/-- Answers `beginPlain`. -/
def ready : UInt8 := 0xBA

/-- Answers a chunk. -/
def chunkTaken : UInt8 := 0xC1

/-- Says that the image is complete. -/
def finish : UInt8 := 0xE0

/-- Answers `finish`. -/
def finished : UInt8 := 0xE1

/-- Refuses, at any step. -/
def refusal : UInt8 := 0x15

/-- The code of a message with a single handshake byte. -/
def control : UInt8 := 0x00

/-- The code of a message with a chunk. -/
def chunk : UInt8 := 0x01

/-- The code of a message from an ECU. -/
def response : UInt8 := 0x80

/-- The number of image bytes in a chunk. -/
def chunkSize : Nat := 48

/-- The number of bytes in a challenge. -/
def challengeSize : Nat := 16

end VehicleGateway.Firmware
