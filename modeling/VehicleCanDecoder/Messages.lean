import VehicleCanDecoder.Cpp

/-! The ROS messages that the code reads and writes, and `CanFrame`, its own form of a CAN frame. -/

namespace VehicleCanDecoder

/-- `builtin_interfaces/Time`. -/
structure Stamp where
  sec : Int32
  nanosec : UInt32
  deriving DecidableEq

/-- A stamp of a time since the epoch. -/
def Stamp.Valid (s : Stamp) : Prop := 0 ≤ s.sec.toInt ∧ s.nanosec.toNat < 10 ^ 9

instance (s : Stamp) : Decidable s.Valid := inferInstanceAs (Decidable (_ ∧ _))

/-- `std_msgs/Header`. -/
structure Header where
  stamp : Stamp
  frameId : ByteString
  deriving DecidableEq

/-- `can_msgs/Frame`: the identifier has no flag bits, the flags are fields. -/
structure Frame where
  header : Header
  id : UInt32
  isRtr : Bool
  isExtended : Bool
  isError : Bool
  dlc : UInt8
  data : Payload
  deriving DecidableEq

structure CanFrame where
  id : UInt32
  data : Payload
  dlc : UInt8
  timestamp : Double
  deriving DecidableEq

structure Signal where
  nameId : UInt16
  value : Single
  deriving DecidableEq

structure SignalGroup where
  header : Header
  domain : ByteString
  signals : List Signal
  deriving DecidableEq

/-- `SignalDiagnostic`; the counters are those of the node. -/
structure SignalDiagnostic where
  header : Header
  canTopic : ByteString
  framesReceived : Nat
  framesDecoded : Nat
  framesUnknown : Nat
  decodeErrors : Nat
  timedOutSignals : List ByteString
  deriving DecidableEq

structure SignalEntry where
  id : UInt16
  name : ByteString
  unitId : UInt16
  deriving DecidableEq

structure VehicleSchema where
  header : Header
  schemaVersion : ByteString
  signalTable : List SignalEntry
  unitTable : List ByteString
  deriving DecidableEq

end VehicleCanDecoder
