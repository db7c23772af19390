import VehicleCanDecoder.Decoder
import VehicleCanDecoder.Lib.Machine
import VehicleCanDecoder.Lib.Objects

/-! The life of decoders: any number of them, loaded, read, moved and destroyed in any order.  What
has been done to a decoder is recorded apart from what it holds: whether it has been emptied by a
move, and the network of the last successful load that has reached it.  The decoders follow these
records, up to a load into a decoder that a move has emptied. -/

namespace VehicleCanDecoder

inductive DecoderOp
  | construct (id : ObjectId)
  | load (id : ObjectId) (source : DbcSource)
  | decode (id : ObjectId) (canId : UInt32) (data : Payload) (dlc : UInt8)
  | knownIds (id : ObjectId) (order : HashOrder)
  | moveConstruct (id other : ObjectId)
  | moveAssign (id other : ObjectId)
  | destroy (id : ObjectId)

/-- The parser returns, a network or null. -/
def DbcSource.returns : DbcSource → Bool
  | .null => true
  | .parsed _ => true
  | _ => false

namespace DbcDecoder

/-- One operation on the decoders; none where it dereferences a bad pointer. -/
def step (decoders : Objects ObjectId DbcDecoder) : DecoderOp → Option (Objects ObjectId DbcDecoder)
  | .construct id => some (decoders.construct id fresh)
  | .load id source => decoders.tryCall id fun d => (d.load source).map Prod.fst
  | .decode id canId data dlc => decoders.query id fun d => Checked.decode d canId data dlc
  | .knownIds id order => decoders.query id (Checked.knownIds order)
  | .moveConstruct id other => some (decoders.moveConstruct id other moveConstruct)
  | .moveAssign id other => some (decoders.moveAssign id other moveAssign)
  | .destroy id => some (decoders.erase id)

def run (ops : List DecoderOp) : Option (Objects ObjectId DbcDecoder) := ops.foldlM step ∅

/-! ### Records -/

/-- What has been done to a decoder.  It is emptied by a move from it, and by a move to it from one
that is empty. -/
structure Record where
  emptied : Bool
  lastLoad : Option INetwork

def Record.load (h : Record) : DbcSource → Record
  | .parsed network => { h with lastLoad := some network }
  | _ => h

def record (records : Objects ObjectId Record) : DecoderOp → Objects ObjectId Record
  | .construct id => records.construct id ⟨false, none⟩
  | .load id source => records.call id (Record.load · source)
  | .decode .. => records
  | .knownIds .. => records
  | .moveConstruct id other => records.moveConstruct id other fun h => (h, ⟨true, none⟩)
  | .moveAssign id other => records.moveAssign id other fun _ h => (h, ⟨true, none⟩)
  | .destroy id => records.erase id

def records (ops : List DecoderOp) : Objects ObjectId Record := ops.foldl record ∅

/-- A load for which the parser returns, into a decoder that is emptied. -/
def LoadsEmptied (records : Objects ObjectId Record) : DecoderOp → Prop
  | .load id source => source.returns = true ∧ ∃ h, records.lookup id = some h ∧ h.emptied = true
  | _ => False

/-- The pointers of each loaded decoder are to the network that it owns, which is from the last
successful load that has reached it. -/
def Sound (decoders : Objects ObjectId DbcDecoder) (records : Objects ObjectId Record) : Prop :=
  ∀ id d, decoders.lookup id = some d → d.loaded = true →
    ∃ h network, records.lookup id = some h ∧ h.lastLoad = some network ∧ d.Owns network

/-- No operation of the program dereferences a bad pointer, and every state on the way is sound. -/
def Safe (ops : List DecoderOp) : Prop :=
  ∀ done, done <+: ops → ∃ decoders, run done = some decoders ∧ Sound decoders (records done)

/-! ### Decoders follow their records -/

structure Tracks (d : DbcDecoder) (h : Record) : Prop where
  emptied : d.impl = none ↔ h.emptied = true
  loaded : d.loaded = true → ∃ network, h.lastLoad = some network ∧ d.Owns network

theorem Tracks.owns {d : DbcDecoder} {h : Record} (hTracks : Tracks d h) (hLoaded : d.loaded = true) :
    ∃ network, d.Owns network := by
  obtain ⟨network, -, hOwns⟩ := hTracks.loaded hLoaded
  exact ⟨network, hOwns⟩

theorem Tracks.emptied_by_move : Tracks ⟨none, false⟩ ⟨true, none⟩ := ⟨by simp, by simp⟩

/-- A load follows the record, unless the parser returns and the decoder is emptied. -/
theorem Tracks.load {d : DbcDecoder} {h : Record} (hTracks : Tracks d h) {source : DbcSource}
    (hGuard : ¬ (source.returns = true ∧ h.emptied = true)) :
    ∃ d', (d.load source).map Prod.fst = some d' ∧ Tracks d' (h.load source) := by
  have hImpl : source.returns = true → ∃ impl, d.impl = some impl := by
    intro hReturns
    refine Option.ne_none_iff_exists'.mp fun hNone => hGuard ⟨hReturns, hTracks.emptied.mp hNone⟩
  cases source with
  | missing => exact ⟨_, rfl, hTracks.emptied, by simp⟩
  | parserThrows => exact ⟨_, rfl, hTracks.emptied, by simp⟩
  | null =>
    obtain ⟨impl, hImpl⟩ := hImpl rfl
    have hEmptied := hTracks.emptied
    rw [hImpl] at hEmptied
    have hLoad : d.load .null = some (⟨some { impl with network := none }, false⟩, false) := by
      simp [DbcDecoder.load, hImpl]
    rw [hLoad]
    exact ⟨_, rfl, by simpa [Record.load] using hEmptied, by simp⟩
  | parsed network =>
    obtain ⟨impl, hImpl⟩ := hImpl rfl
    have hEmptied := hTracks.emptied
    rw [hImpl] at hEmptied
    have hLoad : d.load (.parsed network) =
        some (⟨some { impl with network := some network }.buildMap, true⟩, true) := by
      simp [DbcDecoder.load, hImpl]
    rw [hLoad]
    refine ⟨_, rfl, by simpa [Record.load] using hEmptied, fun _ => ⟨network, rfl, ?_⟩⟩
    exact owns_of_load hLoad

theorem step_tracks {decoders : Objects ObjectId DbcDecoder} {records : Objects ObjectId Record}
    (h : UnorderedMap.Related Tracks decoders records) {op : DecoderOp}
    (hGuard : ¬ LoadsEmptied records op) : ∃ decoders', step decoders op = some decoders' ∧
      UnorderedMap.Related Tracks decoders' (record records op) := by
  cases op with
  | construct id => exact ⟨_, rfl, Objects.related_construct h id ⟨by simp [fresh], by simp [fresh]⟩⟩
  | load id source =>
    refine Objects.related_tryCall h id fun d hist hLookup hTracks => hTracks.load ?_
    rintro ⟨hReturns, hEmptied⟩
    exact hGuard ⟨hReturns, hist, hLookup, hEmptied⟩
  | decode id canId data dlc =>
    refine Objects.related_query h id fun d hist hTracks => ?_
    rw [Checked.decode_eq hTracks.owns]
    rfl
  | knownIds id order =>
    exact Objects.related_query h id fun d hist hTracks => Checked.knownIds_isSome hTracks.owns order
  | moveConstruct id other =>
    exact ⟨_, rfl, Objects.related_moveConstruct h id other fun d hist hTracks =>
      ⟨⟨hTracks.emptied, hTracks.loaded⟩, Tracks.emptied_by_move⟩⟩
  | moveAssign id other =>
    exact ⟨_, rfl, Objects.related_moveAssign h id other fun d hist d' hist' _ hTracks =>
      ⟨⟨hTracks.emptied, hTracks.loaded⟩, Tracks.emptied_by_move⟩⟩
  | destroy id => exact ⟨_, rfl, h.erase id⟩

theorem step_stuck {decoders : Objects ObjectId DbcDecoder} {records : Objects ObjectId Record}
    (h : UnorderedMap.Related Tracks decoders records) {op : DecoderOp}
    (hEmptied : LoadsEmptied records op) : step decoders op = none := by
  cases op with
  | load id source =>
    obtain ⟨hReturns, hist, hLookup, hEmptied⟩ := hEmptied
    rcases h.cases id with ⟨-, hNone⟩ | ⟨d, hist', hd, hHist, hTracks⟩
    · rw [hLookup] at hNone
      contradiction
    · obtain rfl := Option.some.inj (hLookup.symm.trans hHist)
      have hNull := hTracks.emptied.mpr hEmptied
      unfold step Objects.tryCall
      cases source <;> simp_all [DbcDecoder.load, DbcSource.returns]
  | _ => exact absurd hEmptied id

theorem follows : Machine.Follows step record (UnorderedMap.Related Tracks)
    (fun records op => ¬ LoadsEmptied records op) where
  follow h := step_tracks h
  stuck h hGuard := step_stuck h (not_not.mp hGuard)

theorem run_related {ops : List DecoderOp} {decoders : Objects ObjectId DbcDecoder}
    (h : run ops = some decoders) : UnorderedMap.Related Tracks decoders (records ops) :=
  follows.related UnorderedMap.related_empty h

theorem run_isSome_iff (ops : List DecoderOp) : (run ops).isSome ↔
    ∀ done op, done ++ [op] <+: ops → ¬ LoadsEmptied (records done) op :=
  follows.isSome_iff UnorderedMap.related_empty ops

theorem sound_of_run {ops : List DecoderOp} {decoders : Objects ObjectId DbcDecoder}
    (h : run ops = some decoders) : Sound decoders (records ops) := by
  intro id d hd hLoaded
  rcases (run_related h).cases id with ⟨hNone, -⟩ | ⟨d', hist, hd', hHist, hTracks⟩
  · rw [hd] at hNone
    contradiction
  · obtain rfl := Option.some.inj (hd.symm.trans hd')
    obtain ⟨network, hLast, hOwns⟩ := hTracks.loaded hLoaded
    exact ⟨hist, network, hHist, hLast, hOwns⟩

/-- A program over decoders is safe exactly when it never loads a file, for which the parser
returns, into a decoder that a move has emptied. -/
theorem safe_iff (ops : List DecoderOp) :
    Safe ops ↔ ∀ done op, done ++ [op] <+: ops → ¬ LoadsEmptied (records done) op := by
  constructor
  · intro hSafe
    obtain ⟨decoders, hRun, -⟩ := hSafe ops List.prefix_rfl
    exact (run_isSome_iff ops).mp (by rw [hRun]; rfl)
  · intro hNone done hPrefix
    have hDone := (run_isSome_iff done).mpr fun before op hBefore =>
      hNone before op (hBefore.trans hPrefix)
    obtain ⟨decoders, hRun⟩ := Option.isSome_iff_exists.mp hDone
    exact ⟨decoders, hRun, sound_of_run hRun⟩

/-- A decoder is loaded, moved from, and loaded again. -/
def reuseAfterMove : List DecoderOp :=
  [.construct 0, .load 0 (.parsed ⟨1, []⟩), .moveConstruct 1 0, .load 0 (.parsed ⟨2, []⟩)]

theorem reuseAfterMove_unsafe : run reuseAfterMove = none ∧ ¬ Safe reuseAfterMove := by
  have hRun : run reuseAfterMove = none := rfl
  refine ⟨hRun, fun hSafe => ?_⟩
  obtain ⟨decoders, hSome, -⟩ := hSafe _ List.prefix_rfl
  rw [hRun] at hSome
  contradiction

end DbcDecoder

end VehicleCanDecoder
