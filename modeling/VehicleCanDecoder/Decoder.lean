import VehicleCanDecoder.Messages
import VehicleCanDecoder.Lib.UnorderedMap

/-! `DbcDecoder`: the messages of a DBC by their identifier, and the signals that a payload carries.
The DBC library is outside: a network is the list of messages that it parsed, and each signal brings
the functions that extract its raw value and scale it. -/

namespace VehicleCanDecoder

/-- `dbcppp::ISignal`. -/
structure ISignal where
  name : ByteString
  decode : Payload → UInt64
  rawToPhys : UInt64 → Double

/-- `dbcppp::IMessage`. -/
structure IMessage where
  id : UInt64
  name : ByteString
  signals : List ISignal

/-- `dbcppp::INetwork`, at its address. -/
structure INetwork where
  addr : Nat
  messages : List IMessage

/-- A pointer to a message: the address of the network that owns it, and its position there. -/
structure MessagePtr where
  network : Nat
  index : Nat
  deriving DecidableEq

structure RawSignal where
  name : ByteString
  value : Double
  canId : UInt32
  deriving DecidableEq

/-- What comes of opening a DBC file and parsing it. -/
inductive DbcSource
  | missing
  | parserThrows
  | null
  | parsed (network : INetwork)

structure DbcDecoder.Impl where
  network : Option INetwork
  msgMap : UnorderedMap UInt64 MessagePtr

/-- A decoder; `impl` is null after a move. -/
structure DbcDecoder where
  impl : Option DbcDecoder.Impl
  loaded : Bool

namespace DbcDecoder

def fresh : DbcDecoder := ⟨some ⟨none, ∅⟩, false⟩

/-- The body of the loop of `build_map`: of duplicates, the first stays. -/
def Impl.addMessage (addr : Nat) (m : UnorderedMap UInt64 MessagePtr) (entry : IMessage × Nat) :
    UnorderedMap UInt64 MessagePtr :=
  (m.emplace entry.1.id ⟨addr, entry.2⟩).1

def Impl.buildMap (impl : Impl) : Impl :=
  match impl.network with
  | none => { impl with msgMap := ∅ }
  | some network =>
    { impl with msgMap := network.messages.zipIdx.foldl (addMessage network.addr) ∅ }

/-- The message behind a pointer; none behind a dangling one. -/
def Impl.deref (impl : Impl) (p : MessagePtr) : Option IMessage :=
  match impl.network with
  | none => none
  | some network => if network.addr = p.network then network.messages[p.index]? else none

/-- `load`; none where it dereferences a null `impl`. -/
def load (d : DbcDecoder) (source : DbcSource) : Option (DbcDecoder × Bool) :=
  match source with
  | .missing => some ({ d with loaded := false }, false)
  -- The right-hand side of the assignment comes first, so `impl` is not reached.
  | .parserThrows => some ({ d with loaded := false }, false)
  | .null => d.impl.map fun impl => (⟨some { impl with network := none }, false⟩, false)
  | .parsed network => d.impl.map fun impl =>
    (⟨some { impl with network := some network }.buildMap, true⟩, true)

/-- The lookup of `decode`: the message for an identifier. -/
def messageFor (d : DbcDecoder) (canId : UInt32) : Option IMessage :=
  if d.loaded then do
    let impl ← d.impl
    let ptr ← impl.msgMap.lookup canId.toUInt64
    impl.deref ptr
  else none

/-- The loop of `decode` over the signals of the message. -/
def decodeSignals (msg : IMessage) (canId : UInt32) (data : Payload) : List RawSignal :=
  msg.signals.map fun sig => ⟨sig.name, sig.rawToPhys (sig.decode data), canId⟩

def decode (d : DbcDecoder) (canId : UInt32) (data : Payload) (_dlc : UInt8) :
    Option (List RawSignal) :=
  (d.messageFor canId).map fun msg => decodeSignals msg canId data

/-- `decode` pointer by pointer; none where it dereferences a null or a dangling one. -/
def Checked.decode (d : DbcDecoder) (canId : UInt32) (data : Payload) (_dlc : UInt8) :
    Option (Option (List RawSignal)) :=
  if !d.loaded then some none
  else do
    let impl ← d.impl
    match impl.msgMap.lookup canId.toUInt64 with
    | none => some none
    | some ptr => do
      let msg ← impl.deref ptr
      some (some (decodeSignals msg canId data))

/-- `known_ids`; none where it dereferences a null `impl`. -/
def Checked.knownIds (order : HashOrder) (d : DbcDecoder) : Option (UnorderedSet UInt32) :=
  if !d.loaded then some ∅
  else do
    let impl ← d.impl
    some ((impl.msgMap.items order).foldl (fun ids kv => ids.insert kv.1.toUInt32) ∅)

/-- The move constructor: the new decoder, and the other one after it. -/
def moveConstruct (other : DbcDecoder) : DbcDecoder × DbcDecoder :=
  (⟨other.impl, other.loaded⟩, ⟨none, false⟩)

/-- The move assignment from another decoder: both after it.  What `impl` had is destroyed. -/
def moveAssign (d other : DbcDecoder) : DbcDecoder × DbcDecoder :=
  ({ d with impl := other.impl, loaded := other.loaded }, ⟨none, false⟩)

/-! ### The map of a loaded decoder -/

theorem lookup_foldl_addMessage (addr : Nat) (entries : List (IMessage × Nat))
    (m : UnorderedMap UInt64 MessagePtr) (id : UInt64) :
    (entries.foldl (Impl.addMessage addr) m).lookup id =
      (m.lookup id).or ((entries.find? (·.1.id = id)).map fun e => ⟨addr, e.2⟩) :=
  UnorderedMap.lookup_foldl_emplace (fun e : IMessage × Nat => e.1.id)
    (fun e => MessagePtr.mk addr e.2) entries m id

theorem find?_zipIdx (messages : List IMessage) (id : UInt64) (start : Nat) :
    (messages.zipIdx start).find? (·.1.id = id) =
      (messages.findIdx? (·.id = id)).bind fun i => messages[i]?.map fun msg => (msg, start + i) := by
  induction messages generalizing start with
  | nil => rfl
  | cons msg rest ih =>
    rw [List.zipIdx_cons, List.find?_cons, List.findIdx?_cons]
    by_cases hId : msg.id = id
    · simp [hId]
    · simp only [hId, decide_false, ih, Bool.false_eq_true, if_false, Option.bind_map,
        Function.comp_def, List.getElem?_cons_succ]
      congr 1
      funext i
      rw [show start + 1 + i = start + (i + 1) by omega]

/-- An identifier is mapped to the first message with it. -/
theorem lookup_buildMap {impl : Impl} {network : INetwork} (h : impl.network = some network)
    (id : UInt64) : impl.buildMap.msgMap.lookup id =
      (network.messages.findIdx? (·.id = id)).map fun i => ⟨network.addr, i⟩ := by
  simp only [Impl.buildMap, h, lookup_foldl_addMessage, AList.lookup_empty, Option.none_or,
    find?_zipIdx, Nat.zero_add]
  cases hIdx : network.messages.findIdx? (·.id = id) with
  | none => rfl
  | some i =>
    obtain ⟨hi, -, -⟩ := List.findIdx?_eq_some_iff_getElem.mp hIdx
    simp [List.getElem?_eq_getElem hi]

/-- What a decoder is once it has loaded a network. -/
theorem load_parsed {d d' : DbcDecoder} {network : INetwork} {ok : Bool}
    (h : d.load (.parsed network) = some (d', ok)) :
    ∃ impl : Impl, impl.network = some network ∧ d' = ⟨some impl.buildMap, true⟩ := by
  cases hImpl : d.impl with
  | none => simp [load, hImpl] at h
  | some impl =>
    simp only [load, hImpl, Option.map_some, Option.some.injEq, Prod.mk.injEq] at h
    exact ⟨{ impl with network := some network }, rfl, h.1.symm⟩

/-- A decoder that has loaded a network finds the first message with the identifier. -/
theorem messageFor_parsed {d d' : DbcDecoder} {network : INetwork} {ok : Bool}
    (h : d.load (.parsed network) = some (d', ok)) (canId : UInt32) :
    d'.messageFor canId = network.messages.find? (·.id = canId.toUInt64) := by
  obtain ⟨impl, hNetwork, rfl⟩ := load_parsed h
  simp only [messageFor, if_true, Option.bind_eq_bind, Option.bind_some]
  rw [lookup_buildMap hNetwork]
  cases hIdx : network.messages.findIdx? (·.id = canId.toUInt64) with
  | none =>
    simp only [Option.map_none, Option.bind_none]
    rw [List.findIdx?_eq_none_iff] at hIdx
    exact (List.find?_eq_none.mpr (by simpa using hIdx)).symm
  | some i =>
    obtain ⟨hi, hAt, hBefore⟩ := List.findIdx?_eq_some_iff_getElem.mp hIdx
    simp only [Option.map_some, Option.bind_some, Impl.deref, Impl.buildMap, hNetwork, if_true,
      List.getElem?_eq_getElem hi]
    symm
    rw [List.find?_eq_some_iff_getElem]
    exact ⟨hAt, i, hi, rfl, fun j hj => by simpa using hBefore j hj⟩

/-! ### Decoders whose pointers are good -/

/-- The decoder owns the network, and each pointer of its map is to a message there that has the
identifier. -/
def Owns (d : DbcDecoder) (network : INetwork) : Prop :=
  ∃ impl, d.impl = some impl ∧ impl.network = some network ∧
    ∀ id ptr, impl.msgMap.lookup id = some ptr → ptr.network = network.addr ∧
      ∃ msg, network.messages[ptr.index]? = some msg ∧ msg.id = id

theorem owns_of_load {d d' : DbcDecoder} {network : INetwork} {ok : Bool}
    (h : d.load (.parsed network) = some (d', ok)) : d'.Owns network := by
  obtain ⟨impl, hNetwork, rfl⟩ := load_parsed h
  refine ⟨_, rfl, ?_, fun id ptr hPtr => ?_⟩
  · simp only [Impl.buildMap, hNetwork]
  · rw [lookup_buildMap hNetwork, Option.map_eq_some_iff] at hPtr
    obtain ⟨i, hIdx, rfl⟩ := hPtr
    obtain ⟨hi, hId, -⟩ := List.findIdx?_eq_some_iff_getElem.mp hIdx
    exact ⟨rfl, _, List.getElem?_eq_getElem hi, by simpa using hId⟩

/-- A decoder that owns a network once it is loaded dereferences no bad pointer. -/
theorem Checked.decode_eq {d : DbcDecoder} (h : d.loaded = true → ∃ network, d.Owns network)
    (canId : UInt32) (data : Payload) (dlc : UInt8) :
    Checked.decode d canId data dlc = some (d.decode canId data dlc) := by
  unfold Checked.decode DbcDecoder.decode messageFor
  cases hLoaded : d.loaded with
  | false => rfl
  | true =>
    obtain ⟨network, impl, hImpl, hNetwork, hPtrs⟩ := h hLoaded
    simp only [hImpl, Bool.not_true, Bool.false_eq_true, if_false, if_true, Option.bind_eq_bind,
      Option.bind_some]
    cases hLookup : impl.msgMap.lookup canId.toUInt64 with
    | none => rfl
    | some ptr =>
      obtain ⟨hAddr, msg, hMsg, -⟩ := hPtrs _ ptr hLookup
      simp [Impl.deref, hNetwork, hAddr, hMsg]

theorem Checked.knownIds_isSome {d : DbcDecoder} (h : d.loaded = true → ∃ network, d.Owns network)
    (order : HashOrder) : (Checked.knownIds order d).isSome := by
  unfold Checked.knownIds
  cases hLoaded : d.loaded with
  | false => rfl
  | true =>
    obtain ⟨network, impl, hImpl, -, -⟩ := h hLoaded
    simp [hImpl]

end DbcDecoder

end VehicleCanDecoder
