import Sdr.Backend.AppState
import Sdr.Lib.Machine
import Sdr.Simulator.StreamState
import Mathlib.Data.BitVec

/-!
# Retuning — loss counters across reconfigurations

`Device` is a transmitter that keeps the sequence and timestamp rules of the protocol: a `set_rx`
restarts the numbering of its stream, with a timestamp of the device's choosing, and marks the next
packet with `DISCONTINUITY | CONFIG_CHANGED`; every other packet continues the numbering.  The fake
device is one of them (`follows_sendIqPacket`, `follows_resetForEnable`).

`Link` joins a device to the backend's statistics over a network that delivers every packet once and
in order.  `AppState.ingest_iq_header` never looks at the `DISCONTINUITY` flag, so it counts a restart
as loss unless the restart happens to continue the old numbering; `noLoss_iff_seamless` says that this
is the only way anything is counted.
-/

namespace Sdr
namespace Backend

open Lib Protocol

/-! ## A device that follows the rules -/

structure RxConfig where
  frequencyHz : BitVec 64
  iqSampleRateHz : BitVec 32
  bandwidthHz : BitVec 32
  decimation : BitVec 32
  sampleCount : BitVec 16
  deriving DecidableEq

/-- A stream as it stands before its next packet. -/
structure RxStream where
  config : RxConfig
  seq : BitVec 32
  adcTimestamp : BitVec 64
  firstPacket : Bool
  deriving DecidableEq

namespace RxStream

/-- `decimation * sample_count`. -/
def ticks (r : RxStream) : BitVec 64 :=
  r.config.decimation.setWidth 64 * r.config.sampleCount.setWidth 64

/-- The next header; `flags` are the conditions the device reports besides the restart. -/
def header (r : RxStream) (streamId flags : BitVec 16) : SdrIqHeader where
  streamId := streamId.toNat
  seq := r.seq.toNat
  adcTimestamp := r.adcTimestamp.toNat
  frequencyHz := r.config.frequencyHz.toNat
  iqSampleRateHz := r.config.iqSampleRateHz.toNat
  bandwidthHz := r.config.bandwidthHz.toNat
  sampleCount := r.config.sampleCount.toNat
  flags := (flags ||| (if r.firstPacket then 0xC else 0)).toNat
  decimation := r.config.decimation.toNat
  payloadBytes := 4 * r.config.sampleCount.toNat

def next (r : RxStream) : RxStream :=
  { r with seq := r.seq + 1, adcTimestamp := r.adcTimestamp + r.ticks, firstPacket := false }

end RxStream

/-- The enabled streams, and the number and timestamp of the last packet each stream has sent. -/
structure Device where
  streams : BitVec 16 → Option RxStream := fun _ => none
  lastSent : BitVec 16 → Option (BitVec 32 × BitVec 64) := fun _ => none

inductive DeviceEvent
  | setRx (streamId : BitVec 16) (config : RxConfig) (adcTimestamp : BitVec 64)
  | stop (streamId : BitVec 16)
  | send (streamId flags : BitVec 16)

/-! ## Device and backend -/

structure Link where
  device : Device := {}
  backend : AppState := {}

namespace Link

def step (l : Link) : DeviceEvent → Link
  | .setRx streamId config adcTimestamp =>
      { l with
        device :=
          { l.device with
            streams := Function.update l.device.streams streamId
              (some { config := config, seq := 0, adcTimestamp := adcTimestamp,
                      firstPacket := true }) } }
  | .stop streamId =>
      { l with
        device := { l.device with streams := Function.update l.device.streams streamId none } }
  | .send streamId flags =>
      match l.device.streams streamId with
      | none => l
      | some r =>
          { device :=
              { streams := Function.update l.device.streams streamId (some r.next)
                lastSent := Function.update l.device.lastSent streamId
                  (some (r.seq, r.adcTimestamp)) }
            backend := (l.backend.ingestIqHeader (r.header streamId flags)).1 }

/-- The event sends no first packet of an epoch, or one that continues what its stream sent last: the
old number was the largest one, and the timestamp is one packet further. -/
def Seamless (l : Link) : DeviceEvent → Prop
  | .send streamId _ =>
      ∀ r, l.device.streams streamId = some r → r.firstPacket = true →
        ∀ last, l.device.lastSent streamId = some last →
          last.1.toNat = 2 ^ 32 - 1 ∧ r.adcTimestamp = last.2 + r.ticks
  | _ => True

/-- The backend remembers what the device sent last, and an epoch under way continues it. -/
structure InStep (l : Link) : Prop where
  remembers : ∀ streamId : BitVec 16,
    (l.backend.statsOf streamId.toNat).lastSeq =
        (l.device.lastSent streamId).map (fun last => (last.1.toNat : Int)) ∧
      (l.backend.statsOf streamId.toNat).lastTimestamp =
        (l.device.lastSent streamId).map (fun last => (last.2.toNat : Int))
  continues : ∀ streamId r, l.device.streams streamId = some r → r.firstPacket = false →
    ∃ last, l.device.lastSent streamId = some last ∧ r.seq = last.1 + 1 ∧
      r.adcTimestamp = last.2 + r.ticks
  restarts : ∀ streamId r, l.device.streams streamId = some r → r.firstPacket = true → r.seq = 0

/-! ## One packet -/

section Send

variable {l : Link} {streamId flags : BitVec 16} {r : RxStream}

theorem nextTimestampDelta_header (r : RxStream) (streamId flags : BitVec 16) :
    (r.header streamId flags).nextTimestampDelta = r.ticks.toNat := by
  have hd := r.config.decimation.isLt
  have hn := r.config.sampleCount.isLt
  -- A 32-bit and a 16-bit factor: the product does not wrap.
  have hlt : r.config.decimation.toNat * r.config.sampleCount.toNat < 2 ^ 64 :=
    Nat.lt_of_le_of_lt (Nat.mul_le_mul (Nat.le_of_lt_succ hd) (Nat.le_of_lt_succ hn)) (by decide)
  simp only [SdrIqHeader.nextTimestampDelta, RxStream.header, RxStream.ticks, BitVec.toNat_mul,
    BitVec.toNat_setWidth]
  rw [← Nat.mul_mod, Nat.mod_eq_of_lt hlt]
  push_cast
  rfl

theorem toNat_add_eq_iff {w : Nat} (x y z : BitVec w) :
    (x.toNat : Int) = ((y.toNat : Int) + (z.toNat : Int)) % 2 ^ w ↔ x = y + z := by
  have hcast : ((y.toNat : Int) + (z.toNat : Int)) % 2 ^ w = ((y + z).toNat : Int) := by
    rw [BitVec.toNat_add]
    push_cast
    rfl
  rw [hcast]
  constructor
  · intro h
    exact BitVec.eq_of_toNat_eq (by exact_mod_cast h)
  · intro h
    rw [h]

/-- The backend counts nothing exactly when the packet continues what it has seen last. -/
theorem counts_nothing_iff {stats : StreamStats} {last : BitVec 32 × BitVec 64}
    (hseq : stats.lastSeq = some (last.1.toNat : Int))
    (hts : stats.lastTimestamp = some (last.2.toNat : Int)) :
    (stats.lostBefore (r.header streamId flags) = 0 ∧
        stats.gapBefore (r.header streamId flags) = 0) ↔
      r.seq = last.1 + 1 ∧ r.adcTimestamp = last.2 + r.ticks := by
  have hlt : (r.header streamId flags).seq < 2 ^ 32 := by
    have := r.seq.isLt
    simp only [RxStream.header]
    omega
  have hlow : 0 ≤ (r.header streamId flags).seq := Int.natCast_nonneg _
  rw [StreamStats.lostBefore_eq_zero hseq hlow hlt, StreamStats.gapBefore_eq_zero hts,
    nextTimestampDelta_header]
  exact and_congr (toNat_add_eq_iff r.seq last.1 1) (toNat_add_eq_iff r.adcTimestamp last.2 r.ticks)

theorem seamless_send_iff (hl : l.InStep) (hr : l.device.streams streamId = some r)
    {last : BitVec 32 × BitVec 64} (hlast : l.device.lastSent streamId = some last) :
    l.Seamless (.send streamId flags) ↔ r.seq = last.1 + 1 ∧ r.adcTimestamp = last.2 + r.ticks := by
  cases hfirst : r.firstPacket with
  | false =>
      -- An epoch under way always continues, and the condition asks nothing of it.
      rcases hl.continues streamId r hr hfirst with ⟨last', hlast', hseq, hts⟩
      rw [hlast] at hlast'
      cases hlast'
      constructor
      · intro _
        exact ⟨hseq, hts⟩
      · intro _ r' hr' hfirst'
        rw [hr] at hr'
        cases hr'
        rw [hfirst] at hfirst'
        exact absurd hfirst' (by decide)
  | true =>
      -- A restart has number zero, which follows only the largest number.
      have hzero : r.seq = last.1 + 1 ↔ last.1.toNat = 2 ^ 32 - 1 := by
        rw [hl.restarts streamId r hr hfirst]
        have hlt := last.1.isLt
        constructor
        · intro h
          have htoNat : (0 : BitVec 32).toNat = (last.1 + 1).toNat := congrArg BitVec.toNat h
          simp [BitVec.toNat_add] at htoNat
          omega
        · intro h
          apply BitVec.eq_of_toNat_eq
          simp [BitVec.toNat_add, h]
      rw [hzero]
      constructor
      · intro h
        exact h r hr hfirst last hlast
      · intro h r' hr' _ last' hlast'
        rw [hr] at hr'
        rw [hlast] at hlast'
        cases hr'
        cases hlast'
        exact h

theorem step_send (hr : l.device.streams streamId = some r) :
    l.step (.send streamId flags) =
      { device :=
          { streams := Function.update l.device.streams streamId (some r.next)
            lastSent := Function.update l.device.lastSent streamId (some (r.seq, r.adcTimestamp)) }
        backend := (l.backend.ingestIqHeader (r.header streamId flags)).1 } := by
  simp only [step, hr]

theorem toNat_eq_streamId_iff {id : BitVec 16} :
    (id.toNat : Int) = (r.header streamId flags).streamId ↔ id = streamId := by
  simp only [RxStream.header]
  constructor
  · intro h
    exact BitVec.eq_of_toNat_eq (by exact_mod_cast h)
  · intro h
    rw [h]

theorem inStep_send (hl : l.InStep) (hr : l.device.streams streamId = some r) :
    (l.step (.send streamId flags)).InStep := by
  rw [step_send hr]
  refine ⟨?_, ?_, ?_⟩
  · intro id
    simp only [AppState.statsOf_ingestIqHeader, toNat_eq_streamId_iff]
    by_cases hid : id = streamId
    · rw [if_pos hid, hid, Function.update_self]
      exact ⟨rfl, rfl⟩
    · rw [if_neg hid, Function.update_of_ne hid]
      exact hl.remembers id
  · intro id r' hr' hfirst
    simp only at hr' ⊢
    by_cases hid : id = streamId
    · rw [hid, Function.update_self] at hr'
      rw [hid, Function.update_self]
      cases hr'
      exact ⟨_, rfl, rfl, rfl⟩
    · rw [Function.update_of_ne hid] at hr' ⊢
      exact hl.continues id r' hr' hfirst
  · intro id r' hr' hfirst
    simp only at hr'
    by_cases hid : id = streamId
    · rw [hid, Function.update_self] at hr'
      cases hr'
      exact absurd hfirst (by simp [RxStream.next])
    · rw [Function.update_of_ne hid] at hr'
      exact hl.restarts id r' hr' hfirst

/-- A packet leaves the counters at zero exactly when it continues its stream. -/
theorem noLoss_send_iff (hl : l.InStep) (hr : l.device.streams streamId = some r) :
    (l.step (.send streamId flags)).backend.NoLoss ↔
      l.backend.NoLoss ∧ l.Seamless (.send streamId flags) := by
  rcases hl.remembers streamId with ⟨hseq, hts⟩
  rw [step_send hr, AppState.noLoss_ingestIqHeader_iff]
  refine and_congr_right (fun _ => ?_)
  cases hlast : l.device.lastSent streamId with
  | none =>
      -- The first packet of a stream is compared with nothing.
      rw [hlast] at hseq hts
      constructor
      · intro _ _ _ _ last hsome
        rw [hlast] at hsome
        exact absurd hsome (by simp)
      · intro _
        exact ⟨by simp [StreamStats.lostBefore, RxStream.header, hseq],
          by simp [StreamStats.gapBefore, RxStream.header, hts]⟩
  | some last =>
      rw [hlast] at hseq hts
      rw [seamless_send_iff hl hr hlast]
      exact counts_nothing_iff hseq hts

end Send

/-! ## Runs -/

theorem inStep_init : ({} : Link).InStep := by
  refine ⟨?_, ?_, ?_⟩
  · intro _
    exact ⟨rfl, rfl⟩
  · intro _ _ h
    exact absurd h (by simp)
  · intro _ _ h
    exact absurd h (by simp)

theorem inStep_step (l : Link) (e : DeviceEvent) (hl : l.InStep) : (l.step e).InStep := by
  cases e with
  | setRx streamId config adcTimestamp =>
      refine ⟨hl.remembers, ?_, ?_⟩
      · intro id r hr hfirst
        simp only [step] at hr ⊢
        by_cases hid : id = streamId
        · rw [hid, Function.update_self] at hr
          cases hr
          exact absurd hfirst (by simp)
        · rw [Function.update_of_ne hid] at hr
          exact hl.continues id r hr hfirst
      · intro id r hr hfirst
        simp only [step] at hr
        by_cases hid : id = streamId
        · rw [hid, Function.update_self] at hr
          cases hr
          rfl
        · rw [Function.update_of_ne hid] at hr
          exact hl.restarts id r hr hfirst
  | stop streamId =>
      -- A stop takes a stream away and leaves the others, so nothing new has to be shown.
      have hold : ∀ id r, (l.step (.stop streamId)).device.streams id = some r →
          l.device.streams id = some r := by
        intro id r hr
        simp only [step] at hr
        by_cases hid : id = streamId
        · rw [hid, Function.update_self] at hr
          exact absurd hr (by simp)
        · rw [Function.update_of_ne hid] at hr
          exact hr
      exact ⟨hl.remembers, fun id r hr => hl.continues id r (hold id r hr),
        fun id r hr => hl.restarts id r (hold id r hr)⟩
  | send streamId flags =>
      cases hr : l.device.streams streamId with
      | none =>
          simpa only [step, hr] using hl
      | some r =>
          exact inStep_send hl hr

theorem noLoss_step_iff (l : Link) (e : DeviceEvent) (hl : l.InStep) :
    (l.step e).backend.NoLoss ↔ l.backend.NoLoss ∧ l.Seamless e := by
  cases e with
  | setRx streamId config adcTimestamp =>
      simp [step, Seamless]
  | stop streamId =>
      simp [step, Seamless]
  | send streamId flags =>
      cases hr : l.device.streams streamId with
      | none =>
          simp [step, Seamless, hr]
      | some r =>
          exact noLoss_send_iff hl hr

/-- Over any run of reconfigurations, stops and packets, all of them delivered in order, nothing is
counted as lost exactly when every restart of a stream that had sent a packet before continues its
old numbering. -/
theorem noLoss_iff_seamless (es : List DeviceEvent) :
    (runFrom step {} es).backend.NoLoss ↔ Along step Seamless {} es := by
  -- The counters start at zero, and each step keeps them there exactly when it is seamless.
  have hrun := runFrom_iff_along (C := Seamless) (I := InStep)
    (P := fun l => l.backend.NoLoss) inStep_step noLoss_step_iff inStep_init es
  rw [hrun]
  refine and_iff_right ?_
  intro streamId stats h
  exact absurd h (by simp)

/-- 98.5 MHz at 1 MS/s, as the fake device streams it by default. -/
def defaultConfig : RxConfig where
  frequencyHz := 98500000
  iqSampleRateHz := 1000000
  bandwidthHz := 250000
  decimation := 250
  sampleCount := 256

/-- Two packets, a retune of the same stream, and the first packet after it. -/
def retune : List DeviceEvent :=
  [.setRx 0 defaultConfig 0, .send 0 0, .send 0 0, .setRx 0 defaultConfig 0, .send 0 0]

/-- The restart at zero after number one counts as almost `2 ^ 32` lost packets. -/
theorem not_noLoss_retune : ¬∀ es : List DeviceEvent, (runFrom step {} es).backend.NoLoss := by
  intro hall
  have hcounts : ((runFrom step {} retune).backend.streams.lookup 0).map
      (fun stats => (stats.lostPackets, stats.timestampGaps)) = some (2 ^ 32 - 2, 1) := by decide
  rcases Option.map_eq_some_iff.1 hcounts with ⟨stats, hlookup, hstats⟩
  have hzero := (hall retune 0 stats hlookup).1
  rw [Prod.mk.injEq, hzero] at hstats
  exact absurd hstats.1 (by decide)

end Link

/-! ## The fake device follows the rules -/

/-- A stream of the fake device in the terms of the rules. -/
structure Follows (config : Simulator.IqConfig) (streamId : BitVec 16)
    (stream : Simulator.StreamState) (r : RxStream) : Prop where
  streamId_eq : stream.streamId = streamId.toNat
  seq : stream.seq = r.seq.toNat
  adcTimestamp : stream.adcTimestamp = r.adcTimestamp.toNat
  firstPacket : stream.firstPacket = r.firstPacket
  frequencyHz : stream.frequencyHz = r.config.frequencyHz.toNat
  iqSampleRateHz : stream.iqSampleRateHz = r.config.iqSampleRateHz.toNat
  bandwidthHz : stream.bandwidthHz = r.config.bandwidthHz.toNat
  decimation : stream.decimation = r.config.decimation.toNat
  sampleCount : config.sampleCount = r.config.sampleCount.toNat

/-- The conditions a fake device reports with every packet. -/
def injectedFlags (config : Simulator.IqConfig) : BitVec 16 :=
  (if config.injectAdcOr then 1 else 0) ||| (if config.injectFifoOverflow then 2 else 0)

section Follows

variable {config : Simulator.IqConfig} {streamId : BitVec 16} {stream : Simulator.StreamState}
  {r : RxStream}

theorem packetFlags_follows (h : Follows config streamId stream r) :
    stream.packetFlags config = (r.header streamId (injectedFlags config)).flags := by
  simp only [Simulator.StreamState.packetFlags, RxStream.header, injectedFlags, h.firstPacket]
  cases r.firstPacket <;> cases config.injectAdcOr <;> cases config.injectFifoOverflow <;> decide

/-- The fake device sends the header of the rules and goes on to the next packet. -/
theorem follows_sendIqPacket (h : Follows config streamId stream r) :
    (stream.sendIqPacket config).1 = r.header streamId (injectedFlags config) ∧
      Follows config streamId (stream.sendIqPacket config).2 r.next := by
  have hheader : stream.iqHeader config = r.header streamId (injectedFlags config) := by
    have hflags := packetFlags_follows h
    simp only [RxStream.header] at hflags
    simp only [Simulator.StreamState.iqHeader, RxStream.header, h.streamId_eq, h.seq,
      h.adcTimestamp, h.frequencyHz, h.iqSampleRateHz, h.bandwidthHz, h.decimation, h.sampleCount,
      hflags]
  refine ⟨hheader, h.streamId_eq, ?_, ?_, rfl, h.frequencyHz, h.iqSampleRateHz, h.bandwidthHz,
    h.decimation, h.sampleCount⟩
  · have hnext := (Link.toNat_add_eq_iff (r.seq + 1) r.seq 1).2 rfl
    simp only [Simulator.StreamState.sendIqPacket, RxStream.next, h.seq]
    exact hnext.symm
  · have hnext := (Link.toNat_add_eq_iff (r.adcTimestamp + r.ticks) r.adcTimestamp r.ticks).2 rfl
    simp only [Simulator.StreamState.sendIqPacket, RxStream.next, hheader, h.adcTimestamp,
      Link.nextTimestampDelta_header]
    exact hnext.symm

/-- `reset_for_enable` is a restart at timestamp zero. -/
theorem follows_resetForEnable (h : Follows config streamId stream r) :
    Follows config streamId stream.resetForEnable
      { r with seq := 0, adcTimestamp := 0, firstPacket := true } :=
  ⟨h.streamId_eq, rfl, rfl, rfl, h.frequencyHz, h.iqSampleRateHz, h.bandwidthHz, h.decimation,
    h.sampleCount⟩

end Follows

end Backend
end Sdr
