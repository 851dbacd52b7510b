import VehicleGateway.Text.Visible

/-!
# Key slots

A secure element has a slot for the master key, one for the boot key, ten for keys of users and one
for a key that is loaded in the clear.  Slots have numbers in messages and names in configurations.
-/

namespace VehicleGateway

/-- A key slot.  Only the user slots 1 to 10 exist. -/
inductive KeySlot where
  | master
  | bootMac
  | user (n : UInt8)
  | ram
  deriving DecidableEq, Repr

namespace KeySlot

/-- The number of user slots. -/
def userSlots : Nat := 10

/-- Whether a slot exists. -/
def exists? : KeySlot → Bool
  | user n => 1 ≤ n.toNat && n.toNat ≤ userSlots
  | _ => true

/-- The number of a slot in messages. -/
def number? : KeySlot → Option UInt8
  | master => some 1
  | bootMac => some 2
  | user n => if (user n).exists? then some (n + 3) else none
  | ram => some 14

/-- The slot with a number. -/
def ofNumber? (n : UInt8) : Option KeySlot :=
  if n = 1 then some master
  else if n = 2 then some bootMac
  else if 4 ≤ n ∧ n ≤ 13 then some (user (n - 3))
  else if n = 14 then some ram
  else none

/-- Whether a slot exists and is written by key updates only. -/
def guarded (s : KeySlot) : Bool :=
  s.exists? && s != ram

/-- The name of a slot. -/
def name : KeySlot → String
  | master => "master"
  | bootMac => "boot_mac_key"
  | user n => "key_" ++ toString n.toNat
  | ram => "ram"

/-- The value of decimal digits, if there is one and it is below 256. -/
def digits? : List Char → Option UInt8
  | [] => none
  | cs =>
    let value := cs.foldl (fun (v : Option Nat) c => match v with
      | some n => if c.isDigit then some (n * 10 + (c.toNat - 48)) else none
      | none => none) (some 0)
    match value with
    | some n => if n < 256 then some (.ofNat n) else none
    | none => none

/-- The user number at the end of a name, which may begin with a plus sign. -/
def userNumber? : List Char → Option UInt8
  | '+' :: rest => digits? rest
  | cs => digits? cs

/-- Why a text names no slot. -/
inductive NameFault where
  | unknown (text : String)
  | outOfRange (text : String)
  deriving DecidableEq, Repr

/-- The wording of a fault. -/
def NameFault.message : NameFault → String
  | .unknown text => "Unknown key slot: " ++ text
  | .outOfRange text => "Key slot out of range: " ++ text

/-- The slot of a name.  Letters of ASCII count without regard to case. -/
def ofName (text : String) : Except NameFault KeySlot :=
  let lower := text.toList.map Char.toLower
  let found : Option KeySlot :=
    if lower = "master".toList ∨ lower = "master_ecu_key".toList then some master
    else if lower = "boot_mac_key".toList then some bootMac
    else if lower = "ram".toList ∨ lower = "ram_key".toList then some ram
    else match lower with
      | 'k' :: 'e' :: 'y' :: '_' :: rest => (userNumber? rest).map user
      | _ => none
  match found with
  | none => .error (.unknown text)
  | some s => if s.exists? then .ok s else .error (.outOfRange text)

end KeySlot
end VehicleGateway
