import Sdr.Lib.Dict
import Sdr.Protocol.Packets
import Mathlib.Data.Int.Bitwise

/-!
# AppState — per-stream packet statistics

Model of the stream statistics of `rpi/backend/sdr_backend/state.py`.  A Python `dict` is a finite
map with unique keys; the code below never depends on its iteration order.  `& 0xFFFFFFFF` of a
Python integer of either sign is its residue modulo `2 ^ 32`.
-/

namespace Sdr
namespace Backend

open Lib Protocol

structure StreamStats where
  streamId : Int
  packets : Nat := 0
  lostPackets : Nat := 0
  timestampGaps : Nat := 0
  adcOrCount : Nat := 0
  fifoOverflowCount : Nat := 0
  lastSeq : Option Int := none
  lastTimestamp : Option Int := none
  lastFrequencyHz : Int := 0
  lastIqSampleRateHz : Int := 0
  lastBandwidthHz : Int := 0
  lastFlags : Int := 0
  deriving DecidableEq, Repr

namespace StreamStats

/-- What a header adds to `lost_packets`. -/
def lostBefore (stats : StreamStats) (header : SdrIqHeader) : Nat :=
  match stats.lastSeq with
  | none => 0
  | some lastSeq =>
      let expectedSeq := (lastSeq + 1) % 2 ^ 32
      if header.seq ≠ expectedSeq then ((header.seq - expectedSeq) % 2 ^ 32).toNat else 0

/-- What a header adds to `timestamp_gaps`. -/
def gapBefore (stats : StreamStats) (header : SdrIqHeader) : Nat :=
  match stats.lastTimestamp with
  | none => 0
  | some lastTimestamp =>
      -- The step expected is the length of the new packet, not of the one before it.
      let expectedTs := (lastTimestamp + header.nextTimestampDelta) % 2 ^ 64
      if header.adcTimestamp ≠ expectedTs then 1 else 0

/-- The body of `ingest_iq_header`, on the statistics of the header's stream. -/
def ingest (stats : StreamStats) (header : SdrIqHeader) : StreamStats :=
  { stats with
    lostPackets := stats.lostPackets + stats.lostBefore header
    timestampGaps := stats.timestampGaps + stats.gapBefore header
    adcOrCount :=
      if Int.land header.flags SDR_IQ_FLAG_ADC_OR ≠ 0 then stats.adcOrCount + 1
      else stats.adcOrCount
    fifoOverflowCount :=
      if Int.land header.flags SDR_IQ_FLAG_FIFO_OVERFLOW ≠ 0 then stats.fifoOverflowCount + 1
      else stats.fifoOverflowCount
    packets := stats.packets + 1
    lastSeq := some header.seq
    lastTimestamp := some header.adcTimestamp
    lastFrequencyHz := header.frequencyHz
    lastIqSampleRateHz := header.iqSampleRateHz
    lastBandwidthHz := header.bandwidthHz
    lastFlags := header.flags }

end StreamStats

structure AppState where
  streams : Dict Int StreamStats := ∅

namespace AppState

/-- `self.streams.setdefault(stream_id, StreamStats(stream_id))`. -/
def statsOf (state : AppState) (streamId : Int) : StreamStats :=
  (state.streams.lookup streamId).getD { streamId := streamId }

def ingestIqHeader (state : AppState) (header : SdrIqHeader) : AppState × StreamStats :=
  let stats := (state.statsOf header.streamId).ingest header
  ({ state with streams := state.streams.insert header.streamId stats }, stats)

/-- No stream has a lost packet or a timestamp gap. -/
def NoLoss (state : AppState) : Prop :=
  ∀ streamId stats, state.streams.lookup streamId = some stats →
    stats.lostPackets = 0 ∧ stats.timestampGaps = 0

theorem statsOf_ingestIqHeader (state : AppState) (header : SdrIqHeader) (streamId : Int) :
    (state.ingestIqHeader header).1.statsOf streamId =
      if streamId = header.streamId then (state.statsOf streamId).ingest header
      else state.statsOf streamId := by
  unfold ingestIqHeader
  by_cases h : streamId = header.streamId
  · rw [if_pos h, h]
    simp [statsOf]
  · rw [if_neg h]
    simp [statsOf, AList.lookup_insert_ne h]

/-- A stream that has no statistics yet counts as one with none lost. -/
theorem noLoss_iff_statsOf (state : AppState) :
    state.NoLoss ↔
      ∀ streamId, (state.statsOf streamId).lostPackets = 0 ∧
        (state.statsOf streamId).timestampGaps = 0 := by
  constructor
  · intro h streamId
    cases hlookup : state.streams.lookup streamId with
    | none =>
        simp [statsOf, hlookup]
    | some stats =>
        simpa [statsOf, hlookup] using h streamId stats hlookup
  · intro h streamId stats hlookup
    simpa [statsOf, hlookup] using h streamId

/-- Counters never go down: they are zero after a header exactly when they were and it adds none. -/
theorem noLoss_ingestIqHeader_iff (state : AppState) (header : SdrIqHeader) :
    (state.ingestIqHeader header).1.NoLoss ↔
      state.NoLoss ∧ (state.statsOf header.streamId).lostBefore header = 0 ∧
        (state.statsOf header.streamId).gapBefore header = 0 := by
  rw [noLoss_iff_statsOf, noLoss_iff_statsOf]
  simp only [statsOf_ingestIqHeader]
  constructor
  · intro h
    -- The header's own stream gives the two increments; a sum of counters is zero only if both are.
    have hself := h header.streamId
    simp only [if_true, StreamStats.ingest] at hself
    refine ⟨?_, by omega, by omega⟩
    intro streamId
    have hid := h streamId
    split_ifs at hid
    · simp only [StreamStats.ingest] at hid
      omega
    · exact hid
  · rintro ⟨h, hlost, hgap⟩ streamId
    split_ifs with hid
    · rw [hid]
      have hself := h header.streamId
      simp only [StreamStats.ingest]
      omega
    · exact h streamId

end AppState

namespace StreamStats

/-- Nothing is counted as lost exactly when the sequence number is the next one. -/
theorem lostBefore_eq_zero {stats : StreamStats} {header : SdrIqHeader} {lastSeq : Int}
    (hlast : stats.lastSeq = some lastSeq) (hlow : 0 ≤ header.seq) (hhigh : header.seq < 2 ^ 32) :
    stats.lostBefore header = 0 ↔ header.seq = (lastSeq + 1) % 2 ^ 32 := by
  have hpos : 0 ≤ (lastSeq + 1) % 2 ^ 32 := Int.emod_nonneg _ (by decide)
  have hlt : (lastSeq + 1) % 2 ^ 32 < 2 ^ 32 := Int.emod_lt_of_pos _ (by decide)
  simp only [lostBefore, hlast]
  split_ifs with hne
  · -- Two different words differ by a nonzero residue.
    have hmod : 0 < (header.seq - (lastSeq + 1) % 2 ^ 32) % 2 ^ 32 := by omega
    constructor
    · intro h
      omega
    · intro h
      exact absurd h hne
  · simpa using hne

theorem gapBefore_eq_zero {stats : StreamStats} {header : SdrIqHeader} {lastTimestamp : Int}
    (hlast : stats.lastTimestamp = some lastTimestamp) :
    stats.gapBefore header = 0 ↔
      header.adcTimestamp = (lastTimestamp + header.nextTimestampDelta) % 2 ^ 64 := by
  simp only [gapBefore, hlast]
  split_ifs with hne
  · simpa using hne
  · simpa using hne

end StreamStats

end Backend
end Sdr
