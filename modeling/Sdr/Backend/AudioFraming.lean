import Sdr.Lib.Blocks
import Sdr.Lib.Machine
import Sdr.Lib.Struct
import Sdr.Lib.PyValue

/-!
# AudioFraming — the demodulator's audio, cut into frames

Model of `Demodulator` of `rpi/backend/sdr_backend/dsp.py`: `configure`, the entry of `process_sc16`,
and `_frame_pcm`, which cuts the audio into frames of `frame_samples` and keeps what is left over for
the next packet.

What stands between the two, from IQ samples to audio (`_demodulate`, `_resample`, `_deemphasis` and
`_condition_audio`), is floating point.  It is a parameter here, a function of the configuration, of
the filters' state and of the IQ samples; so is the conversion of one audio sample to 16 bits.

* `framePcm_cut` — one call cuts what was held over, together with the new audio;
* `listen_cut` — over a whole run of packets, the frames sent since the last change of the
  configuration and what is held over are a cutting of the audio since that change.
-/

namespace Sdr
namespace Backend

open Lib Lib.Struct

/-! ## Arrays of 16-bit samples -/

/-- The bytes of an array of `<i2`. -/
def tobytes (samples : List Int16) : List Byte :=
  samples.flatMap (fun sample => toBytes 2 sample.toUInt16.toNat)

/-- `np.frombuffer(payload, dtype="<i2")`, which raises where a byte is left over. -/
def frombuffer : List Byte → Option (List Int16)
  | [] => some []
  | low :: high :: rest =>
      (frombuffer rest).map (Int16.ofUInt16 (UInt16.ofNat (ofBytes [low, high])) :: ·)
  | [_] => none

theorem frombuffer_tobytes (samples : List Int16) : frombuffer (tobytes samples) = some samples := by
  induction samples with
  | nil =>
      rfl
  | cons sample samples ih =>
      have hread : UInt16.ofNat (ofBytes (toBytes 2 sample.toUInt16.toNat)) = sample.toUInt16 := by
        rw [ofBytes_toBytes, Nat.mod_eq_of_lt (b := 256 ^ 2) sample.toUInt16.toNat_lt]
        exact UInt16.ofNat_toNat
      calc
        frombuffer (tobytes (sample :: samples))
            = (frombuffer (tobytes samples)).map (Int16.ofUInt16
                (UInt16.ofNat (ofBytes (toBytes 2 sample.toUInt16.toNat))) :: ·) := rfl
        _ = some (sample :: samples) := by
          rw [hread, ih]
          rfl

/-! ## The demodulator -/

inductive DspFault
  /-- `np.frombuffer` raises: the payload does not hold whole samples. -/
  | bufferSize
  /-- The loop of `_frame_pcm` does not end. -/
  | spins
  deriving DecidableEq, Repr

/-- `φ` are the states of the filters (`_last_iq`, `_cw_phase` and `_deemph_last`), `α` the audio
samples. -/
structure Demodulator (φ α : Type) where
  frameSamples : Nat
  filters : φ
  mode : PyStr := py "WFM"
  inputRate : Int := 1000000
  tail : Option (List α) := none

namespace Demodulator

variable {φ α : Type}

/-- `Demodulator.__init__`; `fresh` is the filters' state there. -/
def init (fresh : φ) (audioSampleRateHz audioFrameMs : Nat) : Demodulator φ α where
  frameSamples := audioSampleRateHz * audioFrameMs / 1000
  filters := fresh

/-- `upper` is `str.upper`. -/
def configure (upper : PyStr → PyStr) (fresh : φ) (d : Demodulator φ α) (mode : PyStr)
    (inputRateHz : Int) : Demodulator φ α :=
  let mode := upper mode
  let d := if mode ≠ d.mode ∨ inputRateHz ≠ d.inputRate then
      { d with tail := none, filters := fresh }
    else
      d
  { d with mode := mode, inputRate := inputRateHz }

/-- What the last call left over. -/
def held (d : Demodulator φ α) : List α :=
  d.tail.getD []

theorem held_of_tail_none {d : Demodulator φ α} (h : d.tail = none) : d.held = [] := by
  simp [held, h]

section FramePcm

variable (convert : α → Int16)

/-- The audio of a call, behind the tail that is kept, if there is one and it is not empty. -/
def concatenate (tail : Option (List α)) (audio : List α) : List α :=
  match tail with
  | some tail => if tail.length ≠ 0 then tail ++ audio else audio
  | none => audio

/-- The bytes of one frame. -/
def pcm (chunk : List α) : List Byte :=
  tobytes (chunk.map convert)

/-- The loop of `_frame_pcm`, from `offset` on, in at most `fuel` turns. -/
def frameLoop (frameSamples : Nat) (audio : List α) :
    Nat → Nat → List (List Byte) → Except DspFault (List (List Byte) × Nat)
  | 0, _, _ => .error .spins
  | fuel + 1, offset, frames =>
      if offset + frameSamples ≤ audio.length then
        let chunk := (audio.drop offset).take frameSamples
        frameLoop frameSamples audio fuel (offset + frameSamples) (frames ++ [pcm convert chunk])
      else
        .ok (frames, offset)

/-- `_frame_pcm`.  A turn of its loop moves the offset on, unless `frame_samples` is zero, where the
loop does not end; so a turn per sample, and one more, are enough. -/
def framePcm (d : Demodulator φ α) (audio : List α) :
    Except DspFault (Demodulator φ α × List (List Byte)) := do
  let audio := concatenate d.tail audio
  let (frames, offset) ← frameLoop convert d.frameSamples audio (audio.length + 1) 0 []
  return ({ d with tail := some (audio.drop offset) }, frames)

/-- Successive calls of `_frame_pcm`, and the frames they return. -/
def framePcmAll (d : Demodulator φ α) :
    List (List α) → Except DspFault (Demodulator φ α × List (List Byte))
  | [] => .ok (d, [])
  | audio :: chunks => do
      let (d, frames) ← d.framePcm convert audio
      let (d, later) ← d.framePcmAll chunks
      return (d, frames ++ later)

end FramePcm

/-! ## Cutting -/

section Cutting

variable (convert : α → Int16)

theorem configure_of_same {upper : PyStr → PyStr} {fresh : φ} {d : Demodulator φ α} {mode : PyStr}
    {inputRateHz : Int} (hmode : upper mode = d.mode) (hrate : inputRateHz = d.inputRate) :
    d.configure upper fresh mode inputRateHz = d := by
  simp [configure, hmode, hrate]

theorem configure_of_change {upper : PyStr → PyStr} {fresh : φ} {d : Demodulator φ α} {mode : PyStr}
    {inputRateHz : Int} (h : upper mode ≠ d.mode ∨ inputRateHz ≠ d.inputRate) :
    d.configure upper fresh mode inputRateHz =
      { d with mode := upper mode, inputRate := inputRateHz, tail := none, filters := fresh } := by
  simp only [configure, if_pos h]

theorem concatenate_tail (d : Demodulator φ α) (audio : List α) :
    concatenate d.tail audio = d.held ++ audio := by
  cases htail : d.tail with
  | none =>
      simp [concatenate, held, htail]
  | some tail =>
      cases tail with
      | nil =>
          simp [concatenate, held, htail]
      | cons sample tail =>
          simp [concatenate, held, htail]

theorem frameLoop_cut {frameSamples : Nat} (hpos : 1 ≤ frameSamples) (audio : List α)
    (fuel offset : Nat) (frames : List (List Byte)) (hfuel : audio.length < offset + fuel)
    (hoffset : offset ≤ audio.length) :
    ∃ (blocks : List (List α)) (stop : Nat),
      frameLoop convert frameSamples audio fuel offset frames =
        .ok (frames ++ blocks.map (pcm convert), stop) ∧
      Cut frameSamples blocks (audio.drop stop) (audio.drop offset) := by
  induction fuel generalizing offset frames with
  | zero =>
      omega
  | succ fuel ih =>
      by_cases hmore : offset + frameSamples ≤ audio.length
      · let chunk := (audio.drop offset).take frameSamples
        rcases ih (offset + frameSamples) (frames ++ [pcm convert chunk]) (by omega) hmore with
          ⟨blocks, stop, hloop, hcut⟩
        refine ⟨chunk :: blocks, stop, ?_, ?_⟩
        · rw [frameLoop, if_pos hmore, hloop, List.map_cons, List.append_assoc]
          rfl
        · rw [← List.drop_drop] at hcut
          exact hcut.cons (by rw [List.length_drop]; omega)
      · refine ⟨[], offset, ?_, ?_⟩
        · rw [frameLoop, if_neg hmore]
          simp
        · exact Cut.nil (by rw [List.length_drop]; omega)

/-- One call cuts what was held over, together with the new audio. -/
theorem framePcm_cut {d : Demodulator φ α} (hpos : 1 ≤ d.frameSamples) (audio : List α) :
    ∃ (blocks : List (List α)) (tail : List α), d.framePcm convert audio =
        .ok ({ d with tail := some tail }, blocks.map (pcm convert)) ∧
      Cut d.frameSamples blocks tail (d.held ++ audio) := by
  let joined := concatenate d.tail audio
  rcases frameLoop_cut convert hpos joined (joined.length + 1) 0 [] (by omega) (by omega) with
    ⟨blocks, stop, hloop, hcut⟩
  refine ⟨blocks, joined.drop stop, ?_, ?_⟩
  · simp only [framePcm, joined] at hloop ⊢
    rw [hloop]
    rfl
  · rw [← concatenate_tail]
    exact hcut

/-- A call after another goes on where that one left off. -/
theorem framePcmAll_cut {d : Demodulator φ α} (hpos : 1 ≤ d.frameSamples)
    (hheld : d.held.length < d.frameSamples) (chunks : List (List α)) :
    ∃ (d' : Demodulator φ α) (blocks : List (List α)),
      d.framePcmAll convert chunks = .ok (d', blocks.map (pcm convert)) ∧
      Cut d.frameSamples blocks d'.held (d.held ++ chunks.flatten) := by
  induction chunks generalizing d with
  | nil =>
      exact ⟨d, [], rfl, by simpa using Cut.nil hheld⟩
  | cons audio chunks ih =>
      rcases framePcm_cut convert hpos audio with ⟨blocks, tail, hcall, hcut⟩
      rcases ih (d := { d with tail := some tail }) hpos hcut.short with
        ⟨d', more, hrun, hmore⟩
      refine ⟨d', blocks ++ more, ?_, ?_⟩
      · rw [framePcmAll, hcall, List.map_append]
        simp only [bind, Except.bind, hrun]
        rfl
      · have hwhole := hcut.extend hmore
        rwa [List.append_assoc, ← List.flatten_cons] at hwhole

/-- Nothing is lost, whatever the chunks are, and the frames do not tell where one ended. -/
theorem framePcmAll_lossless {d : Demodulator φ α} (hpos : 1 ≤ d.frameSamples) (htail : d.tail = none)
    (chunks : List (List α)) :
    ∃ (d' : Demodulator φ α) (frames : List (List Int16)),
      d.framePcmAll convert chunks = .ok (d', frames.map tobytes) ∧
      (∀ frame ∈ frames, frame.length = d.frameSamples) ∧
      d'.held.length < d.frameSamples ∧
      frames.flatten ++ d'.held.map convert = chunks.flatten.map convert ∧
      ∀ recut : List (List α), recut.flatten = chunks.flatten →
        ∃ d'', d.framePcmAll convert recut = .ok (d'', frames.map tobytes) := by
  have hheld := held_of_tail_none htail
  have hrun : ∀ chunks : List (List α), ∃ (d' : Demodulator φ α) (blocks : List (List α)),
      d.framePcmAll convert chunks = .ok (d', blocks.map (pcm convert)) ∧
      Cut d.frameSamples blocks d'.held chunks.flatten := by
    intro chunks
    have h := framePcmAll_cut convert hpos (by rw [hheld]; exact hpos) chunks
    rwa [hheld, List.nil_append] at h
  have hpcm : ∀ blocks : List (List α),
      blocks.map (pcm convert) = (blocks.map (List.map convert)).map tobytes := by
    intro blocks
    rw [List.map_map]
    rfl
  rcases hrun chunks with ⟨d', blocks, hall, hcut⟩
  have hsamples := hcut.map convert
  refine ⟨d', blocks.map (List.map convert), by rw [hall, hpcm], hsamples.block, hcut.short,
    hsamples.joined, ?_⟩
  intro recut hflatten
  rcases hrun recut with ⟨d'', blocks', hall', hcut'⟩
  -- Both runs cut the same audio, and there is only one way to cut it.
  rw [hflatten] at hcut'
  rcases hcut.unique hcut' with ⟨rfl, -⟩
  exact ⟨d'', by rw [hall', hpcm]⟩

/-- The demodulator as it is constructed without arguments. -/
theorem framePcmAll_lossless_of_init :
    ∃ (d' : Demodulator Unit Int) (frames : List (List Int16)),
      (init () 48000 20).framePcmAll Int16.ofInt [List.replicate 700 1, [], List.replicate 2000 2] =
        .ok (d', frames.map tobytes) ∧
      (∀ frame ∈ frames, frame.length = 960) ∧
      d'.held.length < 960 ∧
      frames.flatten ++ d'.held.map Int16.ofInt =
        (List.flatten [List.replicate 700 1, [], List.replicate 2000 2]).map Int16.ofInt ∧
      ∀ recut : List (List Int),
        recut.flatten = List.flatten [List.replicate 700 1, [], List.replicate 2000 2] →
        ∃ d'', (init () 48000 20).framePcmAll Int16.ofInt recut = .ok (d'', frames.map tobytes) :=
  framePcmAll_lossless Int16.ofInt (d := init () 48000 20) (by decide) rfl
    [List.replicate 700 1, [], List.replicate 2000 2]

end Cutting

/-! ## Packets -/

section Packets

variable (convert : α → Int16) (upper : PyStr → PyStr) (fresh : φ)
  (demodulate : PyStr → Int → φ → List (Int16 × Int16) → φ × List α)

/-- The samples as pairs; one that is left over is dropped. -/
def iqPairs : List Int16 → List (Int16 × Int16)
  | i :: q :: rest => (i, q) :: iqPairs rest
  | _ => []

/-- `process_sc16`; `demodulate` stands for what makes audio of the IQ samples. -/
def processSc16 (d : Demodulator φ α) (payload : List Byte) :
    Except DspFault (Demodulator φ α × List (List Byte)) :=
  if payload = [] then
    .ok (d, [])
  else
    match frombuffer payload with
    | none => .error .bufferSize
    | some raw =>
        if raw.length < 2 then
          .ok (d, [])
        else
          let (filters, audio) := demodulate d.mode d.inputRate d.filters (iqPairs raw)
          framePcm convert { d with filters := filters } audio

/-- The audio that a payload adds. -/
def audioOf (d : Demodulator φ α) (payload : List Byte) : List α :=
  match frombuffer payload with
  | none => []
  | some raw =>
      if raw.length < 2 then [] else (demodulate d.mode d.inputRate d.filters (iqPairs raw)).2

/-- A packet raises or is cut, together with what was held over. -/
theorem processSc16_cut {d : Demodulator φ α} (hpos : 1 ≤ d.frameSamples)
    (hheld : d.held.length < d.frameSamples) (payload : List Byte) :
    (d.processSc16 convert demodulate payload = .error .bufferSize ∧ frombuffer payload = none) ∨
    ∃ (d' : Demodulator φ α) (blocks : List (List α)),
      d.processSc16 convert demodulate payload = .ok (d', blocks.map (pcm convert)) ∧
      d'.frameSamples = d.frameSamples ∧
      Cut d.frameSamples blocks d'.held (d.held ++ d.audioOf demodulate payload) := by
  have hquiet : d.audioOf demodulate payload = [] →
      Cut d.frameSamples [] d.held (d.held ++ d.audioOf demodulate payload) := by
    intro hnone
    rw [hnone, List.append_nil]
    exact Cut.nil hheld
  unfold processSc16
  by_cases hempty : payload = []
  · refine .inr ⟨d, [], by rw [if_pos hempty]; rfl, rfl, hquiet ?_⟩
    simp [audioOf, hempty, frombuffer]
  · rw [if_neg hempty]
    cases hraw : frombuffer payload with
    | none =>
        exact .inl ⟨rfl, rfl⟩
    | some raw =>
        by_cases hshort : raw.length < 2
        · refine .inr ⟨d, [], by simp [hshort], rfl, hquiet ?_⟩
          simp [audioOf, hraw, hshort]
        · let made := demodulate d.mode d.inputRate d.filters (iqPairs raw)
          rcases framePcm_cut convert (d := { d with filters := made.1 }) hpos made.2 with
            ⟨blocks, tail, hcall, hcut⟩
          refine .inr ⟨{ d with filters := made.1, tail := some tail }, blocks, ?_, rfl, ?_⟩
          · simpa only [if_neg hshort] using hcall
          · simp only [audioOf, hraw, if_neg hshort]
            exact hcut

end Packets

end Demodulator

/-! ## Runs of packets -/

/-- What `_handle_iq` gives the demodulator: the mode of the state, and the packet's rate and
payload. -/
structure IqAudio where
  mode : PyStr
  inputRateHz : Int
  payload : List Byte

/-- The demodulator, with the audio and the frames since its configuration last changed. -/
structure Listening (φ α : Type) where
  demod : Demodulator φ α
  audio : List α := []
  frames : List (List Byte) := []

namespace Listening

variable {φ α : Type} (convert : α → Int16) (upper : PyStr → PyStr) (fresh : φ)
  (demodulate : PyStr → Int → φ → List (Int16 × Int16) → φ × List α)

/-- `configure`, as `_handle_iq` calls it for every packet. -/
def configure (l : Listening φ α) (mode : PyStr) (inputRateHz : Int) : Listening φ α :=
  if upper mode = l.demod.mode ∧ inputRateHz = l.demod.inputRate then
    { l with demod := l.demod.configure upper fresh mode inputRateHz }
  else
    { demod := l.demod.configure upper fresh mode inputRateHz }

def processSc16 (l : Listening φ α) (payload : List Byte) : Listening φ α :=
  match l.demod.processSc16 convert demodulate payload with
  | .error _ => l
  | .ok (demod, frames) =>
      { demod := demod
        audio := l.audio ++ l.demod.audioOf demodulate payload
        frames := l.frames ++ frames }

/-- The audio part of `_handle_iq`. -/
def step (l : Listening φ α) (packet : IqAudio) : Listening φ α :=
  (l.configure upper fresh packet.mode packet.inputRateHz).processSc16 convert demodulate
    packet.payload

/-- The frames and what is held over are the audio, in blocks of `frameSamples`. -/
def Framed (frameSamples : Nat) (l : Listening φ α) : Prop :=
  l.demod.frameSamples = frameSamples ∧ ∃ blocks : List (List α),
    l.frames = blocks.map (Demodulator.pcm convert) ∧ Cut frameSamples blocks l.demod.held l.audio

variable {convert upper fresh demodulate} {frameSamples : Nat} {l : Listening φ α}

theorem framed_configure (hpos : 1 ≤ frameSamples) (h : l.Framed convert frameSamples)
    (mode : PyStr) (inputRateHz : Int) :
    (l.configure upper fresh mode inputRateHz).Framed convert frameSamples := by
  unfold configure
  by_cases hsame : upper mode = l.demod.mode ∧ inputRateHz = l.demod.inputRate
  · rw [if_pos hsame, Demodulator.configure_of_same hsame.1 hsame.2]
    exact h
  · -- The tail goes with the old configuration, so the log starts over with nothing held.
    rw [if_neg hsame, Demodulator.configure_of_change (not_and_or.1 hsame)]
    exact ⟨h.1, [], rfl, Cut.nil hpos⟩

theorem framed_processSc16 (hpos : 1 ≤ frameSamples) (h : l.Framed convert frameSamples)
    (payload : List Byte) :
    (l.processSc16 convert demodulate payload).Framed convert frameSamples := by
  rcases h with ⟨hframe, blocks, hframes, hcut⟩
  have hstep := Demodulator.processSc16_cut convert demodulate
    (by rw [hframe]; exact hpos) (by rw [hframe]; exact hcut.short) payload
  unfold processSc16
  rcases hstep with ⟨hraise, -⟩ | ⟨d', more, hok, hkeep, hmore⟩
  · rw [hraise]
    exact ⟨hframe, blocks, hframes, hcut⟩
  · rw [hok]
    rw [hframe] at hkeep hmore
    exact ⟨hkeep, blocks ++ more, by rw [hframes, List.map_append], hcut.extend hmore⟩

/-- No frame holds audio of two configurations, and within one none is lost. -/
theorem listen_cut (hpos : 1 ≤ frameSamples) {d : Demodulator φ α}
    (hframe : d.frameSamples = frameSamples) (htail : d.tail = none) (packets : List IqAudio) :
    (runFrom (step convert upper fresh demodulate) { demod := d } packets).Framed convert
      frameSamples := by
  have hstart : Framed convert frameSamples ({ demod := d } : Listening φ α) := by
    refine ⟨hframe, [], rfl, ?_⟩
    rw [Demodulator.held_of_tail_none htail]
    exact Cut.nil hpos
  refine runFrom_inductive ?_ hstart packets
  intro l packet h
  apply framed_processSc16 hpos
  exact framed_configure hpos h packet.mode packet.inputRateHz

end Listening

end Backend
end Sdr
