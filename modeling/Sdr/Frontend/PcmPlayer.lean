import Mathlib.Data.List.Nodup
import Mathlib.Data.List.Basic
import Sdr.Lib.Machine

/-!
# PcmPlayer — the page's audio queue

Model of `PcmPlayerProcessor` of `rpi/frontend/public/audio-worklet.js`.  Frames arrive as messages
and wait in a queue of at most 64; `process` fills a block with their samples, and with zeros while
the queue is empty.  One offset says how far the frame at the head has been played.

The message handler cuts the queue at its front, where the frame that is being played stands, and
leaves the offset alone.  `Playback` is the player with a record of what arrived, of what left the
queue and how, and of what was played; its samples know the frame and the place they come from.

* `drops_whole_iff` — the player drops only whole frames, and plays the others from the first sample
  to the last, if and only if no frame arrives at a full queue whose head has been played in part;
* `forget_run` — without the record, `Playback` is the player.
-/

namespace Sdr
namespace Frontend

open Lib

universe u v

/-! ## The processor -/

/-- What `process` writes: a zero, a sample over 32768, or what reading past a frame's end gives. -/
inductive PcmOutput (σ : Type u)
  | silence
  | played (x : σ)
  | notANumber
  deriving DecidableEq, Repr

def PcmOutput.sample? {σ : Type u} : PcmOutput σ → Option σ
  | .played x => some x
  | _ => none

def PcmOutput.map {σ : Type u} {τ : Type v} (f : σ → τ) : PcmOutput σ → PcmOutput τ
  | .silence => .silence
  | .played x => .played (f x)
  | .notANumber => .notANumber

structure PcmPlayer (σ : Type u) where
  queue : List (List σ) := []
  offset : Nat := 0
  deriving DecidableEq, Repr

namespace PcmPlayer

variable {σ : Type u}

/-- `port.onmessage`, for an `ArrayBuffer`. -/
def message (p : PcmPlayer σ) (frame : List σ) : PcmPlayer σ :=
  let queue := p.queue ++ [frame]
  { p with queue := if queue.length > 64 then queue.drop (queue.length - 64) else queue }

/-- `frame[offset] / 32768.0`. -/
def sampleAt (frame : List σ) (offset : Nat) : PcmOutput σ :=
  match frame[offset]? with
  | some x => .played x
  | none => .notANumber

theorem sampleAt_of_lt {frame : List σ} {offset : Nat} (h : offset < frame.length) :
    sampleAt frame offset = .played frame[offset] := by
  simp [sampleAt, h]

/-- One turn of the loop of `process`, which writes one sample. -/
def playSample (p : PcmPlayer σ) : PcmPlayer σ × PcmOutput σ :=
  match p.queue with
  | [] => (p, .silence)
  | frame :: rest =>
      let output := sampleAt frame p.offset
      let offset := p.offset + 1
      if offset ≥ frame.length then
        ({ queue := rest, offset := 0 }, output)
      else
        ({ p with offset := offset }, output)

/-- `process` with a block of the given length. -/
def process (p : PcmPlayer σ) : Nat → PcmPlayer σ × List (PcmOutput σ)
  | 0 => (p, [])
  | length + 1 =>
      let (p, output) := p.playSample
      let (p, outputs) := p.process length
      (p, output :: outputs)

/-- The frames that `splice` takes off. -/
def spliced (p : PcmPlayer σ) (frame : List σ) : List (List σ) :=
  (p.queue ++ [frame]).take ((p.queue ++ [frame]).length - 64)

/-- The frame that `shift` takes off, if it does. -/
def shifted (p : PcmPlayer σ) : List (List σ) :=
  match p.queue with
  | [] => []
  | frame :: _ => if p.offset + 1 ≥ frame.length then [frame] else []

theorem message_queue (p : PcmPlayer σ) (frame : List σ) :
    (p.message frame).queue = (p.queue ++ [frame]).drop ((p.queue ++ [frame]).length - 64) := by
  simp only [message]
  split_ifs with h
  · rfl
  · rw [Nat.sub_eq_zero_of_le (Nat.le_of_not_lt h), List.drop_zero]

/-- What a message takes off the queue and what it leaves there. -/
theorem spliced_append_queue (p : PcmPlayer σ) (frame : List σ) :
    p.spliced frame ++ (p.message frame).queue = p.queue ++ [frame] := by
  rw [message_queue]
  exact List.take_append_drop _ _

theorem message_of_room {p : PcmPlayer σ} (h : p.queue.length < 64) (frame : List σ) :
    (p.message frame).queue = p.queue ++ [frame] := by
  have hfits : (p.queue ++ [frame]).length ≤ 64 := by
    rwa [List.length_append]
  rw [message_queue, Nat.sub_eq_zero_of_le hfits, List.drop_zero]

/-- A full queue loses its head. -/
theorem message_of_full {p : PcmPlayer σ} {head : List σ} {rest : List (List σ)}
    (h : p.queue = head :: rest) (hfull : p.queue.length = 64) (frame : List σ) :
    (p.message frame).queue = rest ++ [frame] ∧ p.spliced frame = [head] := by
  have hone : (p.queue ++ [frame]).length - 64 = 1 := by
    simp [hfull]
  rw [message_queue, spliced, hone, h]
  exact ⟨rfl, rfl⟩

theorem shifted_append_queue (p : PcmPlayer σ) : p.shifted ++ p.playSample.1.queue = p.queue := by
  cases hqueue : p.queue with
  | nil =>
      simp [shifted, playSample, hqueue]
  | cons frame rest =>
      by_cases hlast : p.offset + 1 ≥ frame.length
      · simp [shifted, playSample, hqueue, hlast]
      · simp [shifted, playSample, hqueue, hlast]

/-- A player that runs dry starts the next frame at its beginning. -/
theorem playSample_idle (p : PcmPlayer σ) (hidle : p.queue = [] → p.offset = 0)
    (h : p.playSample.1.queue = []) : p.playSample.1.offset = 0 := by
  cases hqueue : p.queue with
  | nil =>
      simpa [playSample, hqueue] using hidle hqueue
  | cons frame rest =>
      by_cases hlast : p.offset + 1 ≥ frame.length
      · simp [playSample, hqueue, hlast]
      · simp [playSample, hqueue, hlast] at h

theorem playSample_nil {p : PcmPlayer σ} (h : p.queue = []) : p.playSample = (p, .silence) := by
  simp [playSample, h]

section Head

variable {p : PcmPlayer σ} {frame : List σ} {rest : List (List σ)}

theorem playSample_output (h : p.queue = frame :: rest) (hoffset : p.offset < frame.length) :
    p.playSample.2 = .played frame[p.offset] := by
  by_cases hlast : p.offset + 1 ≥ frame.length
  · simp [playSample, h, hlast, sampleAt_of_lt hoffset]
  · simp [playSample, h, hlast, sampleAt_of_lt hoffset]

/-- In the middle of a frame. -/
theorem playSample_within (h : p.queue = frame :: rest) (hlt : p.offset + 1 < frame.length) :
    p.playSample.1 = { p with offset := p.offset + 1 } ∧ p.shifted = [] := by
  have hnot : ¬ p.offset + 1 ≥ frame.length := Nat.not_le.2 hlt
  simp [playSample, shifted, h, hnot]

/-- At the last sample of a frame. -/
theorem playSample_last (h : p.queue = frame :: rest) (hlast : p.offset + 1 = frame.length) :
    p.playSample.1 = { queue := rest, offset := 0 } ∧ p.shifted = [frame] := by
  have hge : p.offset + 1 ≥ frame.length := Nat.le_of_eq hlast.symm
  simp [playSample, shifted, h, hge]

end Head

/-! ## Samples are not looked at -/

section Map

variable {τ : Type v} (f : σ → τ)

def map (p : PcmPlayer σ) : PcmPlayer τ where
  queue := p.queue.map (List.map f)
  offset := p.offset

theorem message_map (p : PcmPlayer σ) (frame : List σ) :
    (p.map f).message (frame.map f) = (p.message frame).map f := by
  have hqueue : p.queue.map (List.map f) ++ [frame.map f] =
      (p.queue ++ [frame]).map (List.map f) := by
    simp
  simp only [message, map, hqueue, List.length_map]
  split_ifs
  · rw [List.map_drop]
  · rfl

theorem playSample_map (p : PcmPlayer σ) :
    (p.map f).playSample = (p.playSample.1.map f, p.playSample.2.map f) := by
  cases hqueue : p.queue with
  | nil =>
      simp [playSample, map, hqueue, PcmOutput.map]
  | cons frame rest =>
      have hread : sampleAt (frame.map f) p.offset = (sampleAt frame p.offset).map f := by
        cases h : frame[p.offset]? with
        | none =>
            simp [sampleAt, h, PcmOutput.map]
        | some x =>
            simp [sampleAt, h, PcmOutput.map]
      by_cases hlast : p.offset + 1 ≥ frame.length
      · simp [playSample, map, hqueue, hlast, hread]
      · simp [playSample, map, hqueue, hlast, hread]

end Map

end PcmPlayer

/-! ## The record -/

/-- A message's samples; there is at least one. -/
structure PcmFrame (σ : Type u) where
  samples : List σ
  nonempty : samples ≠ []

/-- A sample with the number of its frame, in the order they arrive, and its place there. -/
structure PcmSample (σ : Type u) where
  frame : Nat
  index : Nat
  value : σ
  deriving DecidableEq, Repr

def PcmFrame.mark {σ : Type u} (number : Nat) (frame : PcmFrame σ) : List (PcmSample σ) :=
  frame.samples.zipIdx.map (fun x => ⟨number, x.2, x.1⟩)

/-- A frame that left the queue, played to its end or discarded by the limit. -/
structure Departed (σ : Type u) where
  frame : List (PcmSample σ)
  discarded : Bool

section Departed

variable {σ : Type u}

def departedAs (discarded : Bool) (frames : List (List (PcmSample σ))) : List (Departed σ) :=
  frames.map (fun frame => ⟨frame, discarded⟩)

@[simp] theorem map_frame_departedAs (discarded : Bool) (frames : List (List (PcmSample σ))) :
    (departedAs discarded frames).map (·.frame) = frames := by
  simp [departedAs, Function.comp_def]

end Departed

/-- The player, with what arrived, what left its queue and what it wrote. -/
structure Playback (σ : Type u) where
  player : PcmPlayer (PcmSample σ) := {}
  arrivals : List (List (PcmSample σ)) := []
  departed : List (Departed σ) := []
  outputs : List (PcmOutput (PcmSample σ)) := []

inductive PlayerEvent (σ : Type u)
  | message (frame : PcmFrame σ)
  | process (length : Nat)

/-- An event, sample by sample. -/
inductive PlayerStep (σ : Type u)
  | message (frame : PcmFrame σ)
  | sample

def PlayerEvent.steps {σ : Type u} : PlayerEvent σ → List (PlayerStep σ)
  | .message frame => [.message frame]
  | .process length => List.replicate length .sample

namespace Playback

variable {σ : Type u}

def step (s : Playback σ) : PlayerStep σ → Playback σ
  | .message frame =>
      let marked := frame.mark s.arrivals.length
      { s with
        player := s.player.message marked
        arrivals := s.arrivals ++ [marked]
        departed := s.departed ++ departedAs true (s.player.spliced marked) }
  | .sample =>
      { s with
        player := s.player.playSample.1
        departed := s.departed ++ departedAs false s.player.shifted
        outputs := s.outputs ++ [s.player.playSample.2] }

/-- The samples that were played. -/
def played (s : Playback σ) : List (PcmSample σ) :=
  s.outputs.filterMap PcmOutput.sample?

/-- The frames that left the queue other than through the limit. -/
def finished (s : Playback σ) : List (List (PcmSample σ)) :=
  (s.departed.filter (fun d => !d.discarded)).map (·.frame)

/-- What should come next: a zero if the queue is empty, else the first sample of its head that was
not played yet. -/
def nextUnplayed [DecidableEq σ] (s : Playback σ) : PcmOutput (PcmSample σ) :=
  match s.player.queue with
  | [] => .silence
  | head :: _ =>
      match head.find? (fun x => x ∉ s.played) with
      | some x => .played x
      | none => .notANumber

/-- Every frame that arrived has left the queue or waits in it. -/
def Accounted (s : Playback σ) : Prop :=
  s.departed.map (·.frame) ++ s.player.queue = s.arrivals

/-- The frames that left the queue undiscarded were played from their first sample to their last,
each once and in their order, then the head up to the offset, and nothing else. -/
def Whole (s : Playback σ) : Prop :=
  s.played = s.finished.flatten ++ (s.player.queue.headD []).take s.player.offset

/-- The offset is inside the head. -/
def Inside (s : Playback σ) : Prop :=
  ∀ head ∈ s.player.queue.head?, s.player.offset < head.length

/-- What the queue is for. -/
structure Faithful [DecidableEq σ] (s : Playback σ) : Prop where
  next : s.player.playSample.2 = s.nextUnplayed
  accounted : s.Accounted
  whole : s.Whole
  inside : s.Inside

/-- A frame does not arrive at a full queue whose head has been played in part. -/
def Spares (s : Playback σ) : PlayerStep σ → Prop
  | .message _ => s.player.queue.length < 64 ∨ s.player.offset = 0
  | .sample => True

end Playback

/-! ## Forgetting the record -/

/-- A message, or a call of `process` and the block that it fills. -/
def PcmPlayer.handle {σ : Type u} (p : PcmPlayer σ) :
    PlayerEvent σ → PcmPlayer σ × List (PcmOutput σ)
  | .message frame => (p.message frame.samples, [])
  | .process length => p.process length

namespace Playback

variable {σ : Type u}

/-- The samples without their marks. -/
def output (s : Playback σ) : List (PcmOutput σ) :=
  s.outputs.map (PcmOutput.map PcmSample.value)

theorem map_value_mark (number : Nat) (frame : PcmFrame σ) :
    (frame.mark number).map PcmSample.value = frame.samples := by
  rw [PcmFrame.mark, List.map_map]
  exact List.zipIdx_map_fst 0 frame.samples

theorem forget_process (s : Playback σ) (length : Nat) :
    (runFrom step s (List.replicate length .sample)).player.map PcmSample.value =
        ((s.player.map PcmSample.value).process length).1 ∧
      (runFrom step s (List.replicate length .sample)).output =
        s.output ++ ((s.player.map PcmSample.value).process length).2 := by
  induction length generalizing s with
  | zero =>
      simp [PcmPlayer.process]
  | succ length ih =>
      -- One turn of the loop is one step, and the rest of the block follows it.
      have hturn := PcmPlayer.playSample_map PcmSample.value s.player
      rcases ih (s.step .sample) with ⟨hplayer, houtput⟩
      rw [List.replicate_succ, runFrom_cons, hplayer, houtput, PcmPlayer.process, hturn]
      refine ⟨rfl, ?_⟩
      simp [output, step]

theorem forget_event (s : Playback σ) (e : PlayerEvent σ) :
    (runFrom step s e.steps).player.map PcmSample.value =
        ((s.player.map PcmSample.value).handle e).1 ∧
      (runFrom step s e.steps).output = s.output ++ ((s.player.map PcmSample.value).handle e).2 := by
  cases e with
  | message frame =>
      have hmessage := PcmPlayer.message_map PcmSample.value s.player (frame.mark s.arrivals.length)
      rw [map_value_mark] at hmessage
      exact ⟨hmessage.symm, by simp [PlayerEvent.steps, PcmPlayer.handle, output, step]⟩
  | process length =>
      exact forget_process s length

/-- Without the record, a run is the player's: its queue, its offset and every block it fills. -/
theorem forget_run (events : List (PlayerEvent σ)) (s : Playback σ) :
    (runFrom step s (events.flatMap PlayerEvent.steps)).player.map PcmSample.value =
        runFrom (fun p e => (p.handle e).1) (s.player.map PcmSample.value) events ∧
      (runFrom step s (events.flatMap PlayerEvent.steps)).output =
        s.output ++ emits (fun p e => (p.handle e).1) (fun p e => (p.handle e).2)
          (s.player.map PcmSample.value) events := by
  induction events generalizing s with
  | nil =>
      simp
  | cons e events ih =>
      rcases forget_event s e with ⟨hplayer, houtput⟩
      rcases ih (runFrom step s e.steps) with ⟨hrest, hrestOutput⟩
      rw [List.flatMap_cons, runFrom_append, hrest, hrestOutput, hplayer, houtput]
      simp

end Playback

/-! ## What no step can break -/

section Numbered

variable {σ : Type u}

/-- Frames as they arrive: none is empty, and no sample comes twice. -/
structure Numbered (arrivals : List (List (PcmSample σ))) : Prop where
  nonempty : ∀ frame ∈ arrivals, frame ≠ []
  nodup : arrivals.flatten.Nodup
  number_lt : ∀ x ∈ arrivals.flatten, x.frame < arrivals.length

theorem mark_nodup (number : Nat) (frame : PcmFrame σ) : (frame.mark number).Nodup := by
  have hindex : (frame.mark number).map PcmSample.index = List.range' 0 frame.samples.length := by
    rw [PcmFrame.mark, List.map_map]
    exact List.zipIdx_map_snd 0 frame.samples
  exact List.Nodup.of_map _ (hindex ▸ List.nodup_range')

theorem frame_of_mem_mark {number : Nat} {frame : PcmFrame σ} {x : PcmSample σ}
    (h : x ∈ frame.mark number) : x.frame = number := by
  rcases List.mem_map.1 h with ⟨_, _, rfl⟩
  rfl

theorem Numbered.snoc {arrivals : List (List (PcmSample σ))} (h : Numbered arrivals)
    (frame : PcmFrame σ) : Numbered (arrivals ++ [frame.mark arrivals.length]) := by
  refine ⟨?_, ?_, ?_⟩
  · intro other hother
    rcases List.mem_append.1 hother with hother | hother
    · exact h.nonempty other hother
    · rw [List.mem_singleton.1 hother]
      simp [PcmFrame.mark, frame.nonempty]
  · rw [List.flatten_append, List.flatten_singleton, List.nodup_append]
    refine ⟨h.nodup, mark_nodup _ frame, ?_⟩
    intro x hx y hy heq
    -- The number of the new frame is larger than those given out before.
    have hlt := h.number_lt x hx
    rw [heq, frame_of_mem_mark hy] at hlt
    exact Nat.lt_irrefl _ hlt
  · intro x hx
    rw [List.flatten_append, List.flatten_singleton] at hx
    rw [List.length_append, List.length_singleton]
    rcases List.mem_append.1 hx with hx | hx
    · exact Nat.lt_succ_of_lt (h.number_lt x hx)
    · rw [frame_of_mem_mark hx]
      exact Nat.lt_succ_self _

end Numbered

namespace Playback

variable {σ : Type u}

/-- The record is complete, the queue within its limit, and the offset zero while it is empty. -/
structure Kept (s : Playback σ) : Prop where
  accounted : s.Accounted
  numbered : Numbered s.arrivals
  length_le : s.player.queue.length ≤ 64
  idle : s.player.queue = [] → s.player.offset = 0

theorem kept_init : Kept ({} : Playback σ) :=
  ⟨rfl, ⟨by simp, by simp, by simp⟩, by simp, fun _ => rfl⟩

theorem kept_message {s : Playback σ} (h : s.Kept) (frame : PcmFrame σ) :
    (s.step (.message frame)).Kept := by
  let marked := frame.mark s.arrivals.length
  have hlen : (s.player.message marked).queue.length = min 64 (s.player.queue.length + 1) := by
    rw [s.player.message_queue marked, List.length_drop, List.length_append, List.length_singleton]
    omega
  refine ⟨?_, h.numbered.snoc frame, ?_, ?_⟩
  · calc
      (s.departed ++ departedAs true (s.player.spliced marked)).map (·.frame) ++
            (s.player.message marked).queue
          = s.departed.map (·.frame) ++ (s.player.spliced marked ++
              (s.player.message marked).queue) := by
            simp
      _ = s.arrivals ++ [marked] := by
            rw [s.player.spliced_append_queue, ← List.append_assoc, h.accounted]
  · exact Nat.le_trans (Nat.le_of_eq hlen) (Nat.min_le_left _ _)
  · intro hnil
    have hzero : (s.player.message marked).queue.length = 0 := by
      rw [show (s.player.message marked).queue = [] from hnil]
      rfl
    omega

theorem kept_sample {s : Playback σ} (h : s.Kept) : (s.step .sample).Kept := by
  have hsplit := s.player.shifted_append_queue
  refine ⟨?_, h.numbered, ?_, ?_⟩
  · calc
      (s.departed ++ departedAs false s.player.shifted).map (·.frame) ++ s.player.playSample.1.queue
          = s.departed.map (·.frame) ++ (s.player.shifted ++ s.player.playSample.1.queue) := by
            simp
      _ = s.arrivals := by
            rw [hsplit, h.accounted]
  · have hlen := congrArg List.length hsplit
    have hle := h.length_le
    rw [List.length_append] at hlen
    simp only [step]
    omega
  · intro hnil
    exact s.player.playSample_idle h.idle hnil

theorem kept_step {s : Playback σ} (h : s.Kept) (e : PlayerStep σ) : (s.step e).Kept := by
  cases e with
  | message frame =>
      exact kept_message h frame
  | sample =>
      exact kept_sample h

/-- No sample comes twice, in the frames that left and those that wait. -/
theorem Kept.nodup {s : Playback σ} (h : s.Kept) :
    ((s.departed.map (·.frame)).flatten ++ s.player.queue.flatten).Nodup := by
  rw [← List.flatten_append, h.accounted]
  exact h.numbered.nodup

theorem Kept.apart {s : Playback σ} (h : s.Kept) :
    ∀ x ∈ (s.departed.map (·.frame)).flatten, x ∉ s.player.queue.flatten := by
  intro x hx hx'
  exact (List.nodup_append.1 h.nodup).2.2 x hx x hx' rfl

theorem mem_departed_of_finished {s : Playback σ} {x : PcmSample σ} (h : x ∈ s.finished.flatten) :
    x ∈ (s.departed.map (·.frame)).flatten := by
  rcases List.mem_flatten.1 h with ⟨frame, hframe, hx⟩
  rcases List.mem_map.1 hframe with ⟨d, hd, rfl⟩
  exact List.mem_flatten.2 ⟨d.frame, List.mem_map.2 ⟨d, List.mem_of_mem_filter hd, rfl⟩, hx⟩

/-! ## What is played -/

/-- The sample at the offset is the first that was not played. -/
theorem next_of_whole [DecidableEq σ] {s : Playback σ} (h : s.Kept) (hwhole : s.Whole)
    (hinside : s.Inside) : s.player.playSample.2 = s.nextUnplayed := by
  cases hqueue : s.player.queue with
  | nil =>
      simp [PcmPlayer.playSample_nil hqueue, nextUnplayed, hqueue]
  | cons head rest =>
      have hoffset : s.player.offset < head.length := hinside head (by simp [hqueue])
      have hplayed : s.played = s.finished.flatten ++ head.take s.player.offset := by
        simpa [Whole, hqueue] using hwhole
      have hnodup : head.Nodup := by
        have hwaiting := (List.nodup_append.1 h.nodup).2.1
        rw [hqueue, List.flatten_cons] at hwaiting
        exact (List.nodup_append.1 hwaiting).1
      have hfind : head.find? (fun x => x ∉ s.played) = some head[s.player.offset] := by
        rw [List.find?_eq_some_iff_getElem]
        refine ⟨?_, s.player.offset, hoffset, rfl, ?_⟩
        · -- Not in a frame that was finished, and not before the offset.
          have hhead : head[s.player.offset] ∈ s.player.queue.flatten := by
            simp [hqueue]
          have hfinished : head[s.player.offset] ∉ s.finished.flatten := fun hmem =>
            h.apart _ (mem_departed_of_finished hmem) hhead
          have htake : head[s.player.offset] ∉ head.take s.player.offset := by
            intro hmem
            rcases List.mem_take_iff_getElem.1 hmem with ⟨j, hj, heq⟩
            have hsame := hnodup.getElem_inj_iff.1 heq
            omega
          simp [hplayed, hfinished, htake]
        · intro j hj
          have hmem : head[j] ∈ head.take s.player.offset :=
            List.mem_take_iff_getElem.2 ⟨j, by omega, rfl⟩
          simp [hplayed, hmem]
      simp only [nextUnplayed, hqueue, hfind]
      exact PcmPlayer.playSample_output hqueue hoffset

theorem played_sample (s : Playback σ) :
    (s.step .sample).played = s.played ++ s.player.playSample.2.sample?.toList := by
  cases h : s.player.playSample.2.sample? with
  | none =>
      simp [played, step, h]
  | some x =>
      simp [played, step, h]

@[simp] theorem played_message (s : Playback σ) (frame : PcmFrame σ) :
    (s.step (.message frame)).played = s.played := rfl

@[simp] theorem offset_message (s : Playback σ) (frame : PcmFrame σ) :
    (s.step (.message frame)).player.offset = s.player.offset := rfl

theorem finished_sample (s : Playback σ) :
    (s.step .sample).finished = s.finished ++ s.player.shifted := by
  simp [finished, step, departedAs, List.filter_map, Function.comp_def]

theorem finished_message (s : Playback σ) (frame : PcmFrame σ) :
    (s.step (.message frame)).finished = s.finished := by
  simp [finished, step, departedAs]

section Step

variable {s : Playback σ}

/-- A sample is played, and the frame shifted off behind its last one. -/
theorem whole_inside_sample (h : s.Kept) (hwhole : s.Whole) (hinside : s.Inside) :
    (s.step .sample).Whole ∧ (s.step .sample).Inside := by
  cases hqueue : s.player.queue with
  | nil =>
      have hnone := PcmPlayer.playSample_nil hqueue
      have hshifted : s.player.shifted = [] := by
        simp [PcmPlayer.shifted, hqueue]
      refine ⟨?_, ?_⟩
      · rw [Whole, played_sample, finished_sample, hshifted]
        simpa [Whole, hnone, PcmOutput.sample?, step] using hwhole
      · simpa [Inside, step, hnone] using hinside
  | cons head rest =>
      have hoffset : s.player.offset < head.length := hinside head (by simp [hqueue])
      have hplayed : (s.step .sample).played =
          s.finished.flatten ++ head.take (s.player.offset + 1) := by
        rw [played_sample, PcmPlayer.playSample_output hqueue hoffset, hwhole,
          List.take_succ_eq_append_getElem hoffset]
        simp [hqueue, PcmOutput.sample?]
      by_cases hlast : s.player.offset + 1 = head.length
      · rcases PcmPlayer.playSample_last hqueue hlast with ⟨hplayer, hshifted⟩
        refine ⟨?_, ?_⟩
        · rw [Whole, hplayed, finished_sample, hshifted, hlast]
          simp [step, hplayer]
        · -- The next frame has a first sample.
          intro next hnext
          simp only [step, hplayer] at hnext ⊢
          have hmem : next ∈ s.arrivals := by
            rw [← h.accounted, hqueue]
            exact List.mem_append_right _ (List.mem_cons_of_mem _ (List.mem_of_mem_head? hnext))
          exact List.length_pos_iff.2 (h.numbered.nonempty next hmem)
      · rcases PcmPlayer.playSample_within hqueue (by omega) with ⟨hplayer, hshifted⟩
        refine ⟨?_, ?_⟩
        · rw [Whole, hplayed, finished_sample, hshifted]
          simp [step, hplayer, hqueue]
        · intro next hnext
          simp only [step, hplayer, hqueue, List.head?_cons, Option.mem_some_iff] at hnext ⊢
          subst hnext
          omega

/-- At the beginning of a frame a message does no harm, whatever it discards. -/
theorem whole_inside_message_of_zero (h : s.Kept) (hwhole : s.Whole) (hzero : s.player.offset = 0)
    (frame : PcmFrame σ) :
    (s.step (.message frame)).Whole ∧ (s.step (.message frame)).Inside := by
  refine ⟨?_, ?_⟩
  · simpa [Whole, finished_message, hzero] using hwhole
  · intro next hnext
    have hmem : next ∈ (s.step (.message frame)).arrivals := by
      rw [← (kept_message h frame).accounted]
      exact List.mem_append_right _ (List.mem_of_mem_head? hnext)
    rw [offset_message, hzero]
    exact List.length_pos_iff.2 ((kept_message h frame).numbered.nonempty next hmem)

/-- While there is room, the head stays the head. -/
theorem whole_inside_message_of_room {head : List (PcmSample σ)} {rest : List (List (PcmSample σ))}
    (hwhole : s.Whole) (hinside : s.Inside) (hqueue : s.player.queue = head :: rest)
    (hroom : s.player.queue.length < 64) (frame : PcmFrame σ) :
    (s.step (.message frame)).Whole ∧ (s.step (.message frame)).Inside := by
  have hnext : (s.step (.message frame)).player.queue =
      head :: (rest ++ [frame.mark s.arrivals.length]) := by
    have hroomed := PcmPlayer.message_of_room hroom (frame.mark s.arrivals.length)
    rwa [hqueue] at hroomed
  refine ⟨?_, ?_⟩
  · rw [Whole, finished_message, hnext]
    simpa [Whole, hqueue] using hwhole
  · simpa [Inside, hnext, hqueue] using hinside

/-- With the head played in part, a message to a full queue discards what was begun. -/
theorem not_whole_message_of_full {head : List (PcmSample σ)} {rest : List (List (PcmSample σ))}
    (h : s.Kept) (hwhole : s.Whole) (hinside : s.Inside) (hqueue : s.player.queue = head :: rest)
    (hfull : s.player.queue.length = 64) (hoffset : s.player.offset ≠ 0) (frame : PcmFrame σ) :
    ¬ (s.step (.message frame)).Whole := by
  intro hnext
  have hkept := kept_message h frame
  rcases PcmPlayer.message_of_full hqueue hfull (frame.mark s.arrivals.length) with
    ⟨hmessage, hspliced⟩
  have hlt : s.player.offset < head.length := hinside head (by simp [hqueue])
  -- The first sample of the old head was played; it would have to be one of the new head's.
  have hsame : head.take s.player.offset =
      ((s.step (.message frame)).player.queue.headD []).take s.player.offset := by
    have hplayed : s.played = s.finished.flatten ++
        ((s.step (.message frame)).player.queue.headD []).take s.player.offset := by
      simpa only [Whole, finished_message, played_message, offset_message] using hnext
    rw [hwhole, hqueue] at hplayed
    exact List.append_cancel_left hplayed
  have hfirst : head[0] ∈ head.take s.player.offset :=
    List.mem_take_iff_getElem.2 ⟨0, by omega, rfl⟩
  rw [hsame] at hfirst
  refine hkept.apart head[0] ?_ ?_
  · simp only [step, hspliced]
    simp
  · rw [show (s.step (.message frame)).player.queue =
      rest ++ [frame.mark s.arrivals.length] from hmessage] at hfirst ⊢
    have hnew := List.mem_of_mem_take hfirst
    cases rest with
    | nil =>
        simpa using hnew
    | cons next rest =>
        exact List.mem_append_left _ hnew

end Step

/-! ## Runs -/

section Run

variable [DecidableEq σ]

theorem Kept.faithful_iff {s : Playback σ} (h : s.Kept) : s.Faithful ↔ s.Whole ∧ s.Inside := by
  constructor
  · intro hfaithful
    exact ⟨hfaithful.whole, hfaithful.inside⟩
  · rintro ⟨hwhole, hinside⟩
    exact ⟨next_of_whole h hwhole hinside, h.accounted, hwhole, hinside⟩

theorem faithful_step_iff {s : Playback σ} (h : s.Kept) (hfaithful : s.Faithful) (e : PlayerStep σ) :
    (s.step e).Faithful ↔ s.Spares e := by
  rw [(kept_step h e).faithful_iff]
  rcases hfaithful with ⟨-, -, hwhole, hinside⟩
  cases e with
  | sample =>
      exact iff_of_true (whole_inside_sample h hwhole hinside) trivial
  | message frame =>
      by_cases hzero : s.player.offset = 0
      · exact iff_of_true (whole_inside_message_of_zero h hwhole hzero frame) (.inr hzero)
      · cases hqueue : s.player.queue with
        | nil =>
            exact absurd (h.idle hqueue) hzero
        | cons head rest =>
            by_cases hroom : s.player.queue.length < 64
            · exact iff_of_true (whole_inside_message_of_room hwhole hinside hqueue hroom frame)
                (.inl hroom)
            · have hfull : s.player.queue.length = 64 :=
                Nat.le_antisymm h.length_le (Nat.le_of_not_lt hroom)
              refine iff_of_false ?_ ?_
              · intro hnext
                exact not_whole_message_of_full h hwhole hinside hqueue hfull hzero frame hnext.1
              · exact not_or.2 ⟨hroom, hzero⟩

/-- At every moment of a run the next output is the next unplayed sample, and what was played are
whole frames, if and only if no frame arrives at a full queue whose head has been played in part. -/
theorem drops_whole_iff (events : List (PlayerEvent σ)) :
    (∀ done, done <+: events.flatMap PlayerEvent.steps → (runFrom step {} done).Faithful) ↔
      Along step Spares {} (events.flatMap PlayerEvent.steps) := by
  have hkept : ∀ done, (runFrom step ({} : Playback σ) done).Kept := fun done =>
    runFrom_inductive (I := Kept) (fun _ e h => kept_step h e) kept_init done
  have hinit : Faithful ({} : Playback σ) := by
    rw [kept_init.faithful_iff]
    exact ⟨rfl, by simp [Inside]⟩
  have hstep : ∀ (s : Playback σ) (e : PlayerStep σ), s.Kept ∧ s.Faithful →
      ((s.step e).Kept ∧ (s.step e).Faithful ↔ s.Spares e) := by
    intro s e h
    rw [and_iff_right (kept_step h.1 e)]
    exact faithful_step_iff h.1 h.2 e
  rw [← forall_prefix_iff_along hstep ⟨kept_init, hinit⟩]
  constructor
  · intro h done hdone
    exact ⟨hkept done, h done hdone⟩
  · intro h done hdone
    exact (h done hdone).2

end Run

/-- The head of a full queue is begun, and one more frame arrives. -/
theorem begun_frame_discarded :
    ¬ ∀ done, done <+:
        (List.replicate 64 (PlayerEvent.message (⟨[10, 20], by decide⟩ : PcmFrame Int)) ++
          [PlayerEvent.process 1, PlayerEvent.message ⟨[10, 20], by decide⟩]).flatMap
            PlayerEvent.steps →
        (runFrom step ({} : Playback Int) done).Faithful := by
  intro h
  -- The next output would be the second sample of a frame whose first was not played.
  have hnext := (h _ (List.prefix_refl _)).next
  revert hnext
  decide +kernel

end Playback

end Frontend
end Sdr
