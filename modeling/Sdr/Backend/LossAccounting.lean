import Sdr.Backend.AppState
import Sdr.Lib.Machine

/-!
# LossAccounting — what the statistics of a stream say about its losses

Some packets of a stream are lost on the way, the others are counted by `ingest_iq_header` in the order
they were sent, mixed with the packets of other streams.  Sequence numbers and timestamps wrap at their
widths, so a gap is seen only modulo `2 ^ 32` and `2 ^ 64`.

`SentPacket` is what the headers of one configuration have in common, `Accounted` is what the counters say
about the packets that arrived.
-/

namespace Sdr
namespace Backend

open Lib Protocol

/-! ## The packets of one configuration -/

/-- Packet `n` of a stream that starts at number `seq` and time `timestamp`, `delta` samples each. -/
structure SentPacket (seq timestamp delta : Int) (n : Nat) (header : SdrIqHeader) : Prop where
  seq : header.seq = (seq + n) % 2 ^ 32
  adcTimestamp : header.adcTimestamp = (timestamp + n * delta) % 2 ^ 64
  delta : header.nextTimestampDelta = delta

/-- From one packet to the next that arrives: fewer are lost than either counter can count. -/
def ArrivesAfter (delta : Int) (n m : Nat) : Prop :=
  n < m ∧ m - n < 2 ^ 32 ∧ ((m : Int) - n) * delta < 2 ^ 64

def isAdcOr (header : SdrIqHeader) : Bool :=
  decide (Int.land header.flags SDR_IQ_FLAG_ADC_OR ≠ 0)

def isFifoOverflow (header : SdrIqHeader) : Bool :=
  decide (Int.land header.flags SDR_IQ_FLAG_FIFO_OVERFLOW ≠ 0)

/-- The places between neighbours where packets are missing. -/
def gaps (ns : List Nat) : Nat :=
  (ns.zip ns.tail).countP (fun p => decide (p.1 + 1 < p.2))

/-- The counters of a stream whose packets `ns` have arrived, with these headers. -/
structure Accounted (ns : List Nat) (headers : List SdrIqHeader) (stats : StreamStats) : Prop where
  packets : stats.packets = ns.length
  lostPackets : (stats.lostPackets : Int) = ((ns.getLastD 0 : Int) - ns.headD 0 + 1) - ns.length
  timestampGaps : stats.timestampGaps = gaps ns
  adcOrCount : stats.adcOrCount = headers.countP isAdcOr
  fifoOverflowCount : stats.fifoOverflowCount = headers.countP isFifoOverflow

/-! ## One packet -/

namespace StreamStats

section Packet

variable {seq timestamp delta : Int} {n m : Nat} {stats : StreamStats} {header : SdrIqHeader}

theorem lostBefore_sent (hlast : stats.lastSeq = some ((seq + n) % 2 ^ 32))
    (hsent : SentPacket seq timestamp delta m header) (hafter : ArrivesAfter delta n m) :
    (stats.lostBefore header : Int) = (m : Int) - n - 1 := by
  obtain ⟨hlt, hgap, -⟩ := hafter
  simp only [lostBefore, hlast, hsent.seq]
  split_ifs with hne
  · omega
  · -- The number is the expected one, and the gap is below the modulus.
    omega

theorem gapBefore_sent (hdelta : 0 < delta)
    (hlast : stats.lastTimestamp = some ((timestamp + n * delta) % 2 ^ 64))
    (hsent : SentPacket seq timestamp delta m header) (hafter : ArrivesAfter delta n m) :
    stats.gapBefore header = if n + 1 < m then 1 else 0 := by
  obtain ⟨hlt, -, hgap⟩ := hafter
  -- What is missing between the two packets, in samples.
  obtain ⟨missing, hmissing⟩ : ∃ missing : Int, missing = ((m : Int) - n - 1) * delta := ⟨_, rfl⟩
  have hnonneg : 0 ≤ missing := by
    rw [hmissing]
    exact mul_nonneg (by omega) (le_of_lt hdelta)
  have hsplit : (m : Int) * delta = n * delta + delta + missing := by
    rw [hmissing]
    ring
  have hbound : missing + delta < 2 ^ 64 := by
    calc
      missing + delta = ((m : Int) - n) * delta := by rw [hmissing]; ring
      _ < 2 ^ 64 := hgap
  have hzero : missing = 0 ↔ ¬n + 1 < m := by
    rw [hmissing, mul_eq_zero, or_iff_left (ne_of_gt hdelta)]
    omega
  simp only [gapBefore, hlast, hsent.adcTimestamp, hsent.delta, hsplit]
  by_cases hnext : n + 1 < m
  · have hpos : missing ≠ 0 := fun h => hzero.1 h hnext
    rw [if_pos hnext, if_pos (by omega)]
  · have hnone := hzero.2 hnext
    rw [if_neg hnext, if_neg (by omega)]

end Packet

/-! ## The packets of one stream -/

section Run

variable {seq timestamp delta : Int}

/-- The counters after more packets, from the last one on. -/
structure Counts (before : StreamStats) (n : Nat) (ns : List Nat) (headers : List SdrIqHeader)
    (stats : StreamStats) : Prop where
  packets : stats.packets = before.packets + ns.length
  lostPackets : (stats.lostPackets : Int) =
    before.lostPackets + ((ns.getLastD n : Int) - n - ns.length)
  timestampGaps : stats.timestampGaps = before.timestampGaps + gaps (n :: ns)
  adcOrCount : stats.adcOrCount = before.adcOrCount + headers.countP isAdcOr
  fifoOverflowCount : stats.fifoOverflowCount =
    before.fifoOverflowCount + headers.countP isFifoOverflow

theorem ingest_flags (stats : StreamStats) (header : SdrIqHeader) :
    (stats.ingest header).adcOrCount =
        stats.adcOrCount + (if isAdcOr header = true then 1 else 0) ∧
      (stats.ingest header).fifoOverflowCount =
        stats.fifoOverflowCount + (if isFifoOverflow header = true then 1 else 0) := by
  constructor
  · by_cases h : Int.land header.flags SDR_IQ_FLAG_ADC_OR ≠ 0
    · simp [ingest, isAdcOr, h]
    · simp [ingest, isAdcOr, h]
  · by_cases h : Int.land header.flags SDR_IQ_FLAG_FIFO_OVERFLOW ≠ 0
    · simp [ingest, isFifoOverflow, h]
    · simp [ingest, isFifoOverflow, h]

theorem counts_runFrom (hdelta : 0 < delta) {stats : StreamStats} {n : Nat} {ns : List Nat}
    {headers : List SdrIqHeader} (hseq : stats.lastSeq = some ((seq + n) % 2 ^ 32))
    (htimestamp : stats.lastTimestamp = some ((timestamp + n * delta) % 2 ^ 64))
    (hchain : List.IsChain (ArrivesAfter delta) (n :: ns))
    (hsent : List.Forall₂ (SentPacket seq timestamp delta) ns headers) :
    Counts stats n ns headers (runFrom ingest stats headers) := by
  induction hsent generalizing stats n with
  | nil =>
      exact ⟨rfl, by simp, rfl, rfl, rfl⟩
  | @cons m header ns headers hm _ ih =>
      obtain ⟨hafter, hrest⟩ := List.isChain_cons_cons.1 hchain
      have hlost := lostBefore_sent hseq hm hafter
      have hgap := gapBefore_sent hdelta htimestamp hm hafter
      obtain ⟨hor, hfifo⟩ := ingest_flags stats header
      have hseqNext : (stats.ingest header).lastSeq = some ((seq + m) % 2 ^ 32) :=
        congrArg some hm.seq
      have hnext := ih hseqNext (congrArg some hm.adcTimestamp) hrest
      have hpackets : (stats.ingest header).packets = stats.packets + 1 := rfl
      have hlostNext : (stats.ingest header).lostPackets =
          stats.lostPackets + stats.lostBefore header := rfl
      have hgapNext : (stats.ingest header).timestampGaps =
          stats.timestampGaps + stats.gapBefore header := rfl
      rw [runFrom_cons]
      refine ⟨?_, ?_, ?_, ?_, ?_⟩
      · rw [hnext.packets, hpackets, List.length_cons]
        omega
      · rw [hnext.lostPackets, hlostNext, List.getLastD_cons, List.length_cons]
        push_cast
        omega
      · rw [hnext.timestampGaps, hgapNext, hgap]
        simp [gaps, List.countP_cons]
        omega
      · rw [hnext.adcOrCount, hor, List.countP_cons]
        omega
      · rw [hnext.fifoOverflowCount, hfifo, List.countP_cons]
        omega

end Run

end StreamStats

/-! ## Streams side by side -/

namespace AppState

/-- One call of `ingest_iq_header`, without its result. -/
def ingested (state : AppState) (header : SdrIqHeader) : AppState :=
  (state.ingestIqHeader header).1

/-- The headers of one stream, in the order of their arrival. -/
def ofStream (streamId : Int) (headers : List SdrIqHeader) : List SdrIqHeader :=
  headers.filter (fun header => decide (header.streamId = streamId))

def ofOthers (streamId : Int) (headers : List SdrIqHeader) : List SdrIqHeader :=
  headers.filter (fun header => decide (header.streamId ≠ streamId))

section Streams

variable {state : AppState} {streamId : Int}

theorem lookup_ingested (state : AppState) (header : SdrIqHeader) (streamId : Int) :
    (state.ingested header).streams.lookup streamId =
      if header.streamId = streamId then some ((state.statsOf streamId).ingest header)
      else state.streams.lookup streamId := by
  unfold ingested ingestIqHeader
  by_cases h : header.streamId = streamId
  · rw [if_pos h, h]
    simp
  · rw [if_neg h]
    exact AList.lookup_insert_ne (Ne.symm h)

/-- A stream's statistics come from its own headers. -/
theorem lookup_runFrom (streamId : Int) (headers : List SdrIqHeader) (state : AppState) :
    (runFrom ingested state headers).streams.lookup streamId =
      if ofStream streamId headers = [] then state.streams.lookup streamId
      else some (runFrom StreamStats.ingest (state.statsOf streamId) (ofStream streamId headers)) := by
  induction headers generalizing state with
  | nil =>
      rfl
  | cons header headers ih =>
      have hlookup := lookup_ingested state header streamId
      rw [runFrom_cons, ih]
      by_cases h : header.streamId = streamId
      · have hown : ofStream streamId (header :: headers) = header :: ofStream streamId headers :=
          List.filter_cons_of_pos (by simpa using h)
        have hstats : (state.ingested header).statsOf streamId =
            (state.statsOf streamId).ingest header := by
          rw [statsOf, hlookup, if_pos h]
          rfl
        rw [hown, if_neg (List.cons_ne_nil _ _), runFrom_cons, hstats]
        split_ifs with hnil
        · rw [hlookup, if_pos h, hnil]
          rfl
        · rfl
      · have hown : ofStream streamId (header :: headers) = ofStream streamId headers :=
          List.filter_cons_of_neg (by simpa using h)
        have hstats : (state.ingested header).statsOf streamId = state.statsOf streamId := by
          rw [statsOf, hlookup, if_neg h]
          rfl
        rw [hown, hstats, hlookup, if_neg h]

theorem ofStream_ofOthers {other : Int} (h : other ≠ streamId) (headers : List SdrIqHeader) :
    ofStream other (ofOthers streamId headers) = ofStream other headers := by
  rw [ofStream, ofOthers, List.filter_filter]
  apply List.filter_congr
  intro header _
  by_cases hid : header.streamId = other
  · simp [hid, h]
  · simp [hid]

/-- Whatever arrives of a configuration, in whatever company, is accounted for; the other streams do
not notice. -/
theorem loss_accounting_exact {seq timestamp delta : Int} (hdelta : 0 < delta)
    (hnew : state.streams.lookup streamId = none) {first : Nat} {ns : List Nat}
    {headers : List SdrIqHeader} (hchain : List.IsChain (ArrivesAfter delta) (first :: ns))
    (hsent : List.Forall₂ (SentPacket seq timestamp delta) (first :: ns) (ofStream streamId headers)) :
    (∃ stats, (runFrom ingested state headers).streams.lookup streamId = some stats ∧
        Accounted (first :: ns) (ofStream streamId headers) stats) ∧
      ∀ other, other ≠ streamId →
        (runFrom ingested state headers).streams.lookup other =
          (runFrom ingested state (ofOthers streamId headers)).streams.lookup other := by
  constructor
  · obtain ⟨header, rest, hfirst, hrest, hown⟩ := List.forall₂_cons_left_iff.1 hsent
    have hfresh : state.statsOf streamId = { streamId := streamId } := by
      rw [statsOf, hnew]
      rfl
    -- The first packet has nothing before it to be compared with.
    have hseq : (({ streamId := streamId } : StreamStats).ingest header).lastSeq =
        some ((seq + first) % 2 ^ 32) := congrArg some hfirst.seq
    have hcounts := StreamStats.counts_runFrom hdelta hseq (congrArg some hfirst.adcTimestamp) hchain
      hrest
    obtain ⟨hor, hfifo⟩ :=
      StreamStats.ingest_flags ({ streamId := streamId } : StreamStats) header
    have haccounted : Accounted (first :: ns) (header :: rest)
        (runFrom StreamStats.ingest ({ streamId := streamId } : StreamStats) (header :: rest)) := by
      rw [runFrom_cons]
      refine ⟨?_, ?_, ?_, ?_, ?_⟩
      · rw [hcounts.packets, List.length_cons, Nat.add_comm]
        rfl
      · rw [hcounts.lostPackets, List.getLastD_cons, List.length_cons, List.headD_cons]
        simp only [StreamStats.ingest, StreamStats.lostBefore]
        push_cast
        omega
      · rw [hcounts.timestampGaps]
        simp [StreamStats.ingest, StreamStats.gapBefore]
      · rw [hcounts.adcOrCount, hor, List.countP_cons, Nat.zero_add, Nat.add_comm]
      · rw [hcounts.fifoOverflowCount, hfifo, List.countP_cons, Nat.zero_add, Nat.add_comm]
    rw [lookup_runFrom, hown, if_neg (List.cons_ne_nil _ _), hfresh]
    exact ⟨_, rfl, haccounted⟩
  · intro other hother
    rw [lookup_runFrom, lookup_runFrom, ofStream_ofOthers hother]

/-- Packet `n` of stream 0, whose number and timestamp wrap after the first. -/
def wrapping (n : Nat) (flags : Int) : SdrIqHeader :=
  { seq := (2 ^ 32 - 1 + n) % 2 ^ 32
    adcTimestamp := (2 ^ 64 - 1 + n * 256000) % 2 ^ 64
    sampleCount := 256
    flags := flags }

/-- Packets 0, 1 and 4 arrive, with one of another stream between them. -/
def lossyRun : List SdrIqHeader :=
  [wrapping 0 1, wrapping 1 0, { streamId := 7, seq := 99 }, wrapping 4 3]

theorem loss_accounting_exact_lossyRun :
    ∃ stats, (runFrom ingested {} lossyRun).streams.lookup 0 = some stats ∧
      stats.packets = 3 ∧ stats.lostPackets = 2 ∧ stats.timestampGaps = 1 ∧
        stats.adcOrCount = 2 ∧ stats.fifoOverflowCount = 1 := by
  have hown : ofStream 0 lossyRun = [wrapping 0 1, wrapping 1 0, wrapping 4 3] := by decide
  have hsent : List.Forall₂ (SentPacket (2 ^ 32 - 1) (2 ^ 64 - 1) 256000) [0, 1, 4]
      (ofStream 0 lossyRun) := by
    rw [hown]
    exact .cons ⟨rfl, rfl, rfl⟩ (.cons ⟨rfl, rfl, rfl⟩ (.cons ⟨rfl, rfl, rfl⟩ .nil))
  have hnew : ({} : AppState).streams.lookup 0 = none := rfl
  have hchain : List.IsChain (ArrivesAfter 256000) [0, 1, 4] := by simp [ArrivesAfter]
  obtain ⟨⟨stats, hlookup, haccounted⟩, -⟩ :=
    loss_accounting_exact (by decide) hnew hchain hsent
  have hlost : (stats.lostPackets : Int) = 2 := haccounted.lostPackets
  rw [hown] at haccounted
  exact ⟨stats, hlookup, haccounted.packets, Int.ofNat.inj hlost, haccounted.timestampGaps,
    haccounted.adcOrCount, haccounted.fifoOverflowCount⟩

end Streams

end AppState

end Backend
end Sdr
