import TrustLedger.Foundation.Bytes
import TrustLedger.Foundation.Chance

/-! What the simulated cluster runs on: the seeded generator, the transport that delays, drops,
duplicates and severs, and the disk that loses what was not flushed. Traffic and write counters
are left out, nothing reads them.
-/

namespace TrustLedger.Simulator

open Foundation

section Generator

/-- A number between `low` and `high`, both included; an empty range is a panic. -/
def genRange (low high : U64) : Chance U64 := do
  let draw ← Chance.draw
  if inRange : low ≤ high then
    return ⟨low.val + draw.val % (high.val - low.val + 1), by
      have below : draw.val % (high.val - low.val + 1) < high.val - low.val + 1 :=
        Nat.mod_lt _ (Nat.succ_pos _)
      omega⟩
  else
    Chance.ofOption none

/-- A probability, as the number of draws that come out true. -/
abbrev Rate := Fin (2 ^ 64 + 1)

def genBool (rate : Rate) : Chance Bool := do
  let draw ← Chance.draw
  return decide (draw.val < rate.val)

variable {may : Prop}

theorem genRange_ends {low high : U64} {P : U64 → Prop} (empty : high < low → may)
    (holds : ∀ value, low ≤ value → value ≤ high → P value)
    : (genRange low high).Ends may P := by
  refine Chance.Ends.bind (Chance.ends_draw (P := fun _ => True) fun _ => trivial) ?_
  intro draw _
  split
  · rename_i inRange
    have below : draw.val % (high.val - low.val + 1) < high.val - low.val + 1 :=
      Nat.mod_lt _ (Nat.succ_pos _)
    refine Chance.ends_pure (holds _ ?_ ?_)
    · exact Nat.le_add_right _ _
    · change low.val + draw.val % (high.val - low.val + 1) ≤ high.val
      rw [Fin.le_def] at inRange
      omega
  · rename_i outside
    exact Chance.ends_ofOption (fun _ never => nomatch never)
      fun _ => empty (Fin.not_le.mp outside)

theorem genBool_ends {rate : Rate} {P : Bool → Prop} (holds : ∀ value, P value)
    : (genBool rate).Ends may P :=
  (Chance.ends_draw (P := fun _ => True) fun _ => trivial).bind
    fun _ _ => Chance.ends_pure (holds _)

end Generator

/-- A message on its way. -/
structure SimPacket (T : Type) where
  fromId : U64
  toId : U64
  payload : T
  deriving DecidableEq

/-- Latency bounds and fault rates. -/
structure NetworkConfig where
  minLatencyTicks : U64 := 1
  maxLatencyTicks : U64 := 10
  dropRate : Rate := 0
  duplicateRate : Rate := 0

/-- A payload and when it is due; equal times keep the order of scheduling. -/
structure ScheduledEvent (T : Type) where
  executeAt : U64
  sequence : U64
  payload : T

/-- Order of execution. -/
def ScheduledEvent.before {T : Type} (event other : ScheduledEvent T) : Bool :=
  event.executeAt < other.executeAt
    || (event.executeAt = other.executeAt && event.sequence < other.sequence)

/-- The queue of scheduled packets is kept in order of execution. -/
structure SimNetwork (T : Type) where
  config : NetworkConfig
  queue : List (ScheduledEvent (SimPacket T)) := []
  sequenceCounter : U64 := 0
  isolated : Finset U64 := ∅
  partitions : List (Finset U64 × Finset U64) := []

namespace SimNetwork

variable {T : Type}

/-- No isolation and no partition separates the two. -/
def canCommunicate (network : SimNetwork T) (fromId toId : U64) : Bool :=
  !(fromId ∈ network.isolated || toId ∈ network.isolated)
    && network.partitions.all fun (setA, setB) =>
      !((fromId ∈ setA && toId ∈ setB) || (fromId ∈ setB && toId ∈ setA))

def insertEvent (event : ScheduledEvent (SimPacket T))
    : List (ScheduledEvent (SimPacket T)) → List (ScheduledEvent (SimPacket T))
  | [] => [event]
  | first :: rest =>
      if event.before first then event :: first :: rest else first :: insertEvent event rest

/-- Schedule a packet under the next sequence number. -/
def schedule (network : SimNetwork T) (executeAt : U64) (packet : SimPacket T) : SimNetwork T :=
  let sequence := saturatingAdd network.sequenceCounter 1
  { network with
    sequenceCounter := sequence
    queue := insertEvent ⟨executeAt, sequence, packet⟩ network.queue }

/-- Send a packet: it may be cut off, dropped, delayed and delivered twice. -/
def send (network : SimNetwork T) (packet : SimPacket T) (now : U64)
    : Chance (SimNetwork T) := do
  if network.canCommunicate packet.fromId packet.toId then
    if ← genBool network.config.dropRate then
      return network
    let delay ← genRange network.config.minLatencyTicks network.config.maxLatencyTicks
    let network := network.schedule (saturatingAdd now delay) packet
    if ← genBool network.config.duplicateRate then
      let extra ← genRange 1 3
      return network.schedule (saturatingAdd now (saturatingAdd delay extra)) packet
    return network
  else
    return network

/-- Take the packets due by `now` out of the queue; those cut off in the meantime are lost. -/
def drainReady (network : SimNetwork T) (now : U64) : List (SimPacket T) × SimNetwork T :=
  let due := network.queue.takeWhile fun event => event.executeAt ≤ now
  let ready := due.filter fun event =>
    network.canCommunicate event.payload.fromId event.payload.toId
  (ready.map ScheduledEvent.payload,
    { network with queue := network.queue.dropWhile fun event => event.executeAt ≤ now })

def isolate (network : SimNetwork T) (nodeId : U64) : SimNetwork T :=
  { network with isolated := insert nodeId network.isolated }

def unisolate (network : SimNetwork T) (nodeId : U64) : SimNetwork T :=
  { network with isolated := network.isolated.erase nodeId }

def partition (network : SimNetwork T) (setA setB : Finset U64) : SimNetwork T :=
  { network with partitions := network.partitions ++ [(setA, setB)] }

def heal (network : SimNetwork T) : SimNetwork T :=
  { network with isolated := ∅, partitions := [] }

/-- The later network has only packets of the earlier one and new ones with `fresh`. -/
structure Carries (network : SimNetwork T) (fresh : SimPacket T → Prop) (network' : SimNetwork T)
    : Prop where
  config : network'.config = network.config
  packets
    : ∀ event ∈ network'.queue,
        (∃ old ∈ network.queue, old.payload = event.payload) ∨ fresh event.payload

variable {network mid network' : SimNetwork T} {fresh : SimPacket T → Prop}

theorem Carries.refl (network : SimNetwork T) (fresh : SimPacket T → Prop)
    : network.Carries fresh network :=
  ⟨rfl, fun event queued => .inl ⟨event, queued, rfl⟩⟩

theorem Carries.trans (first : network.Carries fresh mid) (later : mid.Carries fresh network')
    : network.Carries fresh network' := by
  refine ⟨later.config.trans first.config, ?_⟩
  intro event queued
  rcases later.packets event queued with ⟨old, kept, same⟩ | new
  · rw [← same]
    exact first.packets old kept
  · exact .inr new

/-- What holds of all packets in flight and of the new ones holds of those in flight after. -/
theorem Carries.forall {P : SimPacket T → Prop} (carries : network.Carries fresh network')
    (before : ∀ event ∈ network.queue, P event.payload) (new : ∀ packet, fresh packet → P packet)
    : ∀ event ∈ network'.queue, P event.payload := by
  intro event queued
  rcases carries.packets event queued with ⟨old, kept, same⟩ | sent
  · rw [← same]
    exact before old kept
  · exact new _ sent

theorem mem_insertEvent {event other : ScheduledEvent (SimPacket T)}
    {queue : List (ScheduledEvent (SimPacket T))}
    : other ∈ insertEvent event queue ↔ other = event ∨ other ∈ queue := by
  induction queue with
  | nil => simp [insertEvent]
  | cons first rest ih =>
      unfold insertEvent
      split
      · simp
      · simp only [List.mem_cons, ih]
        tauto

theorem schedule_carries (executeAt : U64) {packet : SimPacket T} (new : fresh packet)
    : network.Carries fresh (network.schedule executeAt packet) := by
  refine ⟨rfl, fun event queued => ?_⟩
  rcases mem_insertEvent.mp queued with rfl | kept
  · exact .inr new
  · exact .inl ⟨event, kept, rfl⟩

theorem send_ends {may : Prop} {packet : SimPacket T} (now : U64) (new : fresh packet)
    (latency : network.config.maxLatencyTicks < network.config.minLatencyTicks → may)
    : (network.send packet now).Ends may fun network' => network.Carries fresh network' := by
  unfold send
  split
  · refine (genBool_ends (P := fun _ => True) fun _ => trivial).bind fun dropped _ => ?_
    cases dropped with
    | true => exact Chance.ends_pure (.refl network fresh)
    | false =>
        simp only [Bool.false_eq_true, if_false]
        refine (genRange_ends (P := fun _ => True) latency fun _ _ _ => trivial).bind
          fun delay _ => ?_
        refine (genBool_ends (P := fun _ => True) fun _ => trivial).bind fun twice _ => ?_
        cases twice with
        | false => exact Chance.ends_pure (schedule_carries _ new)
        | true =>
            refine (genRange_ends (P := fun _ => True) (fun never => ?_)
              fun _ _ _ => trivial).bind fun extra _ => ?_
            · exact absurd never (by decide)
            · exact Chance.ends_pure ((schedule_carries _ new).trans (schedule_carries _ new))
  · exact Chance.ends_pure (.refl network fresh)

theorem drainReady_carries (network : SimNetwork T) (now : U64) (fresh : SimPacket T → Prop)
    : network.Carries fresh (network.drainReady now).2 :=
  ⟨rfl, fun event queued => .inl ⟨event, (List.dropWhile_sublist _).subset queued, rfl⟩⟩

theorem mem_drainReady {now : U64} {packet : SimPacket T}
    (ready : packet ∈ (network.drainReady now).1)
    : ∃ event ∈ network.queue, event.payload = packet := by
  obtain ⟨event, due, same⟩ := List.mem_map.mp ready
  exact ⟨event, (List.takeWhile_sublist _).subset (List.mem_filter.mp due).1, same⟩

end SimNetwork

/-- Durable bytes, and bytes written but not flushed. -/
structure SimDisk where
  flushed : Bytes := []
  buffered : Bytes := []

namespace SimDisk

def write (disk : SimDisk) (data : Bytes) : SimDisk :=
  { disk with buffered := disk.buffered ++ data }

def sync (disk : SimDisk) : SimDisk :=
  { flushed := disk.flushed ++ disk.buffered, buffered := [] }

/-- The bytes a torn write of `length` bytes leaves behind a flushed log. -/
def fragment (length : Nat) : Bytes :=
  (List.range length).map fun i => UInt8.ofNat i + 0xEE

/-- Lose what was not flushed. A torn write leaves a prefix of it on the disk, or, when all was
flushed, a fragment of invalid bytes.
-/
def crash (disk : SimDisk) (tornWrite : Bool) : Chance SimDisk := do
  if tornWrite && !disk.buffered.isEmpty then
    let longest := max disk.buffered.length 2 - 1
    let tornLen ← genRange 1 (Fin.ofNat _ longest)
    return { flushed := disk.flushed ++ disk.buffered.take tornLen.val, buffered := [] }
  else if tornWrite && !disk.flushed.isEmpty then
    let tornLen ← genRange 1 15
    return { flushed := disk.flushed ++ fragment tornLen.val, buffered := [] }
  else
    return { disk with buffered := [] }

def truncateDurable (disk : SimDisk) (len : Nat) : SimDisk :=
  { disk with flushed := disk.flushed.take len }

theorem sync_write {disk : SimDisk} (settled : disk.buffered = []) (data : Bytes)
    : (disk.write data).sync = { flushed := disk.flushed ++ data, buffered := [] } := by
  simp [write, sync, settled]

/-- A crash of a disk with everything flushed adds nothing or a fragment. -/
theorem crash_ends {may : Prop} {disk : SimDisk} (settled : disk.buffered = []) (tornWrite : Bool)
    : (disk.crash tornWrite).Ends may fun disk' =>
        ∃ length, disk' = { flushed := disk.flushed ++ fragment length, buffered := [] } := by
  unfold crash
  rw [settled]
  simp only [List.isEmpty_nil, Bool.not_true, Bool.and_false, Bool.false_eq_true, if_false]
  split
  · refine (genRange_ends (P := fun _ => True) (fun never => ?_)
      fun _ _ _ => trivial).bind fun length _ => Chance.ends_pure ⟨length.val, rfl⟩
    exact absurd never (by decide)
  · exact Chance.ends_pure ⟨0, by simp [fragment]⟩

end SimDisk

end TrustLedger.Simulator
