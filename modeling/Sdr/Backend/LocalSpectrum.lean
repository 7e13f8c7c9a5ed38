import Mathlib.Data.List.DropRight
import Mathlib.Data.List.Nodup
import Sdr.Lib.Machine

/-!
# LocalSpectrum — spectra of the IQ stream and the tuning they are labelled with

Model of `WaterfallEngine` of `rpi/backend/sdr_backend/waterfall.py`.  The engine collects payload
bytes over calls; as soon as it holds `fft_size` samples it takes that many off the front and labels
their spectrum with the centre frequency and the sample rate of the call that completed them.

The bytes are opaque to the engine, so their type is arbitrary.  `mark` gives every byte its position
in the stream and the tuning it was supplied under; forgetting the marks gives the run of the code
(`spectra_forget`).

* `no_overlap` — no byte is used for two spectra, in any run;
* `labelled_iff` — every spectrum is made of bytes of the tuning on its label if and only if no call
  completes a chunk with bytes that were held over from another tuning.  The engine keeps what it
  holds across a change of the tuning, so not every run is like that (`mislabelled_after_retune`).
-/

namespace Sdr
namespace Backend

open Lib

universe u v

/-! ## The engine -/

structure IqTuning where
  centerFrequencyHz : Int
  sampleRateHz : Int
  deriving DecidableEq, Repr

/-- The arguments of a call of `compute`. -/
structure IqPayload (β : Type u) where
  payload : List β
  tuning : IqTuning

/-- The fields of a `local_spectrum` message but `bin_spacing_hz`, the floating-point quotient of two of
them, and `chunk`, the bytes it was computed from. -/
structure LocalSpectrum (β : Type u) (δ : Type v) where
  chunk : List β
  tuning : IqTuning
  fftSize : Nat
  binsDbfs : List δ

/-- What `compute` returns. -/
inductive Computed (β : Type u) (δ : Type v)
  /-- Less than a chunk is held: `None`. -/
  | none
  | spectrum (s : LocalSpectrum β δ)
  /-- `np.fft.fft` raises, as it does on no samples. -/
  | raised

section Map

universe w

variable {β : Type u} {γ : Type w} {δ : Type v} (f : β → γ)

def IqPayload.map (call : IqPayload β) : IqPayload γ where
  payload := call.payload.map f
  tuning := call.tuning

def LocalSpectrum.map (s : LocalSpectrum β δ) : LocalSpectrum γ δ where
  chunk := s.chunk.map f
  tuning := s.tuning
  fftSize := s.fftSize
  binsDbfs := s.binsDbfs

def Computed.map : Computed β δ → Computed γ δ
  | .none => .none
  | .spectrum s => .spectrum (s.map f)
  | .raised => .raised

end Map

def Computed.toList {β : Type u} {δ : Type v} : Computed β δ → List (LocalSpectrum β δ)
  | .spectrum s => [s]
  | _ => []

structure WaterfallEngine (β : Type u) where
  fftSize : Nat := 2048
  buffer : List β := []

namespace WaterfallEngine

variable {β : Type u} {δ : Type v}

def neededBytes (e : WaterfallEngine β) : Nat :=
  e.fftSize * 4

/-- `del buffer[:-count]`, which deletes nothing where `count` is zero. -/
def delUpToLast (count : Nat) (buffer : List β) : List β :=
  if count = 0 then buffer else buffer.rtake count

/-- `compute`; `dbfs` is the windowed transform of a chunk, in decibels. -/
def compute (dbfs : List β → List δ) (e : WaterfallEngine β) (call : IqPayload β) :
    WaterfallEngine β × Computed β δ :=
  let buffer := e.buffer ++ call.payload
  if buffer.length < e.neededBytes then
    ({ e with buffer := buffer }, .none)
  else
    let chunk := buffer.take e.neededBytes
    let buffer := buffer.drop e.neededBytes
    let buffer := if e.neededBytes * 4 < buffer.length then
        delUpToLast e.neededBytes buffer
      else
        buffer
    let size := chunk.length / 4
    if size = 0 then
      ({ e with buffer := buffer }, .raised)
    else
      ({ e with buffer := buffer },
        .spectrum
          { chunk := chunk
            tuning := call.tuning
            fftSize := size
            binsDbfs := dbfs chunk })

/-- Successive calls on a fresh engine, and the spectra they return. -/
def spectra (dbfs : List β → List δ) (fftSize : Nat) (calls : List (IqPayload β)) :
    List (LocalSpectrum β δ) :=
  emits (fun e call => (compute dbfs e call).1) (fun e call => (compute dbfs e call).2.toList)
    { fftSize := fftSize } calls

/-! ## What is held over -/

/-- How many of `count` bytes a call leaves in the buffer. -/
def kept (needed count : Nat) : Nat :=
  if count < needed then
    count
  else if needed * 4 < count - needed ∧ needed ≠ 0 then
    needed
  else
    count - needed

/-- How many bytes the calls leave in the buffer: the sizes of their payloads decide. -/
def held (fftSize : Nat) (calls : List (IqPayload β)) : Nat :=
  runFrom (fun count call => kept (fftSize * 4) (count + call.payload.length)) 0 calls

theorem kept_le (needed count : Nat) : kept needed count ≤ count := by
  unfold kept
  split_ifs <;> omega

theorem kept_le_of_full {needed count : Nat} (h : needed ≤ count) :
    needed + kept needed count ≤ count := by
  unfold kept
  split_ifs <;> omega

section Compute

variable (dbfs : List β → List δ) {e : WaterfallEngine β} {call : IqPayload β}

/-- The buffer of a call that completes a chunk. -/
theorem trim_eq_rtake {needed : Nat} {buffer : List β} (h : needed ≤ buffer.length) :
    (if needed * 4 < (buffer.drop needed).length then
      delUpToLast needed (buffer.drop needed)
    else
      buffer.drop needed) = buffer.rtake (kept needed buffer.length) := by
  have hlen : (buffer.drop needed).length = buffer.length - needed := List.length_drop
  rw [hlen]
  by_cases htrim : needed * 4 < buffer.length - needed
  · by_cases hzero : needed = 0
    · simp [delUpToLast, kept, hzero, List.rtake]
    · -- The last `needed` bytes of what is left are those of the whole buffer.
      have hkept : kept needed buffer.length = needed := by
        rw [kept, if_neg (by omega), if_pos ⟨htrim, hzero⟩]
      rw [if_pos htrim, delUpToLast, if_neg hzero, hkept, List.rtake, List.rtake, List.drop_drop,
        hlen]
      congr 1
      omega
  · have hkept : kept needed buffer.length = buffer.length - needed := by
      rw [kept, if_neg (by omega), if_neg (by omega)]
    rw [if_neg htrim, hkept, List.rtake]
    congr 1
    omega

theorem compute_of_short (h : e.buffer.length + call.payload.length < e.fftSize * 4) :
    compute dbfs e call = ({ e with buffer := e.buffer ++ call.payload }, .none) := by
  rw [compute, if_pos (by simpa [neededBytes] using h)]

theorem compute_of_full (h : e.fftSize * 4 ≤ e.buffer.length + call.payload.length) :
    compute dbfs e call =
      ({ e with
          buffer := (e.buffer ++ call.payload).rtake
            (kept (e.fftSize * 4) (e.buffer.length + call.payload.length)) },
        if e.fftSize = 0 then
          .raised
        else
          .spectrum
            { chunk := (e.buffer ++ call.payload).take (e.fftSize * 4)
              tuning := call.tuning
              fftSize := e.fftSize
              binsDbfs := dbfs ((e.buffer ++ call.payload).take (e.fftSize * 4)) }) := by
  have hfull : e.fftSize * 4 ≤ (e.buffer ++ call.payload).length := by
    simpa using h
  have hsize : ((e.buffer ++ call.payload).take (e.fftSize * 4)).length / 4 = e.fftSize := by
    rw [List.length_take_of_le hfull]
    omega
  have htrim := trim_eq_rtake hfull
  unfold compute neededBytes
  rw [if_neg (by omega)]
  simp only [htrim, hsize, List.length_append]
  split_ifs <;> rfl

variable (e call)

theorem compute_fftSize : (compute dbfs e call).1.fftSize = e.fftSize := by
  by_cases h : e.buffer.length + call.payload.length < e.fftSize * 4
  · rw [compute_of_short dbfs h]
  · rw [compute_of_full dbfs (by omega)]

/-- A call keeps the last bytes, of those it held and those it was given. -/
theorem compute_buffer : (compute dbfs e call).1.buffer =
    (e.buffer ++ call.payload).rtake
      (kept (e.fftSize * 4) (e.buffer.length + call.payload.length)) := by
  by_cases h : e.buffer.length + call.payload.length < e.fftSize * 4
  · rw [compute_of_short dbfs h, kept, if_pos h]
    simp [List.rtake]
  · rw [compute_of_full dbfs (by omega)]

/-- What a call uses and what it keeps are different bytes of those it had. -/
theorem compute_sublist : ((compute dbfs e call).2.toList.flatMap (·.chunk) ++
    (compute dbfs e call).1.buffer).Sublist (e.buffer ++ call.payload) := by
  by_cases h : e.buffer.length + call.payload.length < e.fftSize * 4
  · rw [compute_of_short dbfs h]
    exact List.Sublist.refl _
  · rw [compute_of_full dbfs (by omega)]
    by_cases hzero : e.fftSize = 0
    · simpa [hzero, Computed.toList, List.rtake] using List.drop_sublist _ _
    · -- The chunk is the start, and what is kept stands behind it.
      let whole := e.buffer ++ call.payload
      let count := kept (e.fftSize * 4) (e.buffer.length + call.payload.length)
      have hkept : e.fftSize * 4 ≤ whole.length - count := by
        have hfull := kept_le_of_full (show e.fftSize * 4 ≤ whole.length by simp [whole]; omega)
        simp only [whole, count, List.length_append] at hfull ⊢
        omega
      have hbehind : (whole.rtake count).Sublist (whole.drop (e.fftSize * 4)) :=
        List.drop_sublist_drop_left _ hkept
      simp only [if_neg hzero, Computed.toList, List.flatMap_singleton]
      calc
        (whole.take (e.fftSize * 4) ++ whole.rtake count).Sublist
            (whole.take (e.fftSize * 4) ++ whole.drop (e.fftSize * 4)) := hbehind.append_left _
        _ = whole := List.take_append_drop _ _

end Compute

/-! ## Runs -/

section Run

variable (dbfs : List β → List δ) (fftSize : Nat)

/-- The engine after the calls. -/
def after (calls : List (IqPayload β)) : WaterfallEngine β :=
  runFrom (fun e call => (compute dbfs e call).1) { fftSize := fftSize } calls

theorem held_snoc (calls : List (IqPayload β)) (call : IqPayload β) :
    held fftSize (calls ++ [call]) =
      kept (fftSize * 4) (held fftSize calls + call.payload.length) :=
  runFrom_snoc _ _ calls call

theorem after_snoc (calls : List (IqPayload β)) (call : IqPayload β) :
    after dbfs fftSize (calls ++ [call]) = (compute dbfs (after dbfs fftSize calls) call).1 :=
  runFrom_snoc _ _ calls call

theorem spectra_snoc (calls : List (IqPayload β)) (call : IqPayload β) :
    spectra dbfs fftSize (calls ++ [call]) =
      spectra dbfs fftSize calls ++ (compute dbfs (after dbfs fftSize calls) call).2.toList :=
  emits_snoc _ _ _ calls call

theorem rtake_append_of_rtake {l m : List β} {h k : Nat} (hh : h ≤ l.length)
    (hk : k ≤ h + m.length) : (l.rtake h ++ m).rtake k = (l ++ m).rtake k := by
  have hdrop : l.rtake h ++ m = (l ++ m).drop (l.length - h) := by
    rw [List.rtake, List.drop_append_of_le_length (by omega)]
  rw [hdrop, List.rtake, List.rtake, List.drop_drop, List.length_drop, List.length_append]
  congr 1
  omega

theorem held_le (calls : List (IqPayload β)) :
    held fftSize calls ≤ (calls.flatMap (·.payload)).length := by
  induction calls using List.reverseRecOn with
  | nil =>
      exact Nat.zero_le _
  | append_singleton calls call ih =>
      have hkept := kept_le (fftSize * 4) (held fftSize calls + call.payload.length)
      rw [held_snoc, List.flatMap_append, List.length_append]
      simp only [List.flatMap_singleton]
      omega

theorem length_rtake_held (calls : List (IqPayload β)) :
    ((calls.flatMap (·.payload)).rtake (held fftSize calls)).length = held fftSize calls := by
  have hle := held_le fftSize calls
  rw [List.rtake, List.length_drop]
  omega

/-- The engine holds the last bytes it was given; how many, the sizes of the payloads decide. -/
theorem after_eq (calls : List (IqPayload β)) :
    after dbfs fftSize calls =
      { fftSize := fftSize, buffer := (calls.flatMap (·.payload)).rtake (held fftSize calls) } := by
  induction calls using List.reverseRecOn with
  | nil =>
      rfl
  | append_singleton calls call ih =>
      have hbuffer := compute_buffer dbfs (after dbfs fftSize calls) call
      have hsize := compute_fftSize dbfs (after dbfs fftSize calls) call
      rw [ih] at hbuffer hsize
      simp only [length_rtake_held] at hbuffer
      rw [rtake_append_of_rtake (held_le fftSize calls) (kept_le _ _)] at hbuffer
      rw [after_snoc, held_snoc, List.flatMap_append, List.flatMap_singleton, ih]
      exact congrArg₂ WaterfallEngine.mk hsize hbuffer

theorem after_fftSize (calls : List (IqPayload β)) :
    (after dbfs fftSize calls).fftSize = fftSize := by
  rw [after_eq]

theorem after_length (calls : List (IqPayload β)) :
    (after dbfs fftSize calls).buffer.length = held fftSize calls := by
  rw [after_eq]
  exact length_rtake_held fftSize calls

theorem spectra_sublist (calls : List (IqPayload β)) :
    ((spectra dbfs fftSize calls).flatMap (·.chunk) ++ (after dbfs fftSize calls).buffer).Sublist
      (calls.flatMap (·.payload)) := by
  induction calls using List.reverseRecOn with
  | nil =>
      exact List.Sublist.refl _
  | append_singleton calls call ih =>
      have hstep := compute_sublist dbfs (after dbfs fftSize calls) call
      rw [spectra_snoc, after_snoc, List.flatMap_append, List.flatMap_append, List.flatMap_singleton,
        List.append_assoc]
      refine (List.Sublist.append_left hstep _).trans ?_
      rw [← List.append_assoc]
      exact ih.append_right _

end Run

/-! ## Bytes as marks -/

section Map

universe w

variable {γ : Type w} (f : β → γ) {dbfs : List β → List δ} {dbfs' : List γ → List δ}

def map (e : WaterfallEngine β) : WaterfallEngine γ where
  fftSize := e.fftSize
  buffer := e.buffer.map f

/-- The engine does not look at the bytes. -/
theorem compute_map (h : ∀ chunk, dbfs' (chunk.map f) = dbfs chunk) (e : WaterfallEngine β)
    (call : IqPayload β) :
    compute dbfs' (e.map f) (call.map f) =
      ((compute dbfs e call).1.map f, (compute dbfs e call).2.map f) := by
  by_cases hshort : e.buffer.length + call.payload.length < e.fftSize * 4
  · rw [compute_of_short dbfs hshort,
      compute_of_short dbfs' (by simpa [map, IqPayload.map] using hshort)]
    simp [map, IqPayload.map, Computed.map]
  · rw [compute_of_full dbfs (by omega),
      compute_of_full dbfs' (by simpa [map, IqPayload.map] using hshort)]
    by_cases hzero : e.fftSize = 0
    · simp [map, IqPayload.map, Computed.map, hzero, List.rtake, List.map_drop]
    · simp [map, IqPayload.map, Computed.map, LocalSpectrum.map, hzero, List.rtake, List.map_drop,
        ← List.map_append, ← List.map_take, h]

theorem held_map (fftSize : Nat) (calls : List (IqPayload β)) :
    held fftSize (calls.map (IqPayload.map f)) = held fftSize calls := by
  induction calls using List.reverseRecOn with
  | nil =>
      rfl
  | append_singleton calls call ih =>
      rw [List.map_append, List.map_singleton, held_snoc, held_snoc, ih]
      simp [IqPayload.map]

theorem spectra_map (h : ∀ chunk, dbfs' (chunk.map f) = dbfs chunk) (fftSize : Nat)
    (calls : List (IqPayload β)) :
    spectra dbfs' fftSize (calls.map (IqPayload.map f)) =
      (spectra dbfs fftSize calls).map (LocalSpectrum.map f) := by
  have hboth : after dbfs' fftSize (calls.map (IqPayload.map f)) = (after dbfs fftSize calls).map f ∧
      spectra dbfs' fftSize (calls.map (IqPayload.map f)) =
        (spectra dbfs fftSize calls).map (LocalSpectrum.map f) := by
    induction calls using List.reverseRecOn with
    | nil =>
        exact ⟨rfl, rfl⟩
    | append_singleton calls call ih =>
        rcases ih with ⟨hafter, hspectra⟩
        have hstep := compute_map f h (after dbfs fftSize calls) call
        rw [List.map_append, List.map_singleton, after_snoc, after_snoc, spectra_snoc, spectra_snoc,
          hafter, hspectra, hstep, List.map_append]
        refine ⟨rfl, ?_⟩
        cases (compute dbfs (after dbfs fftSize calls) call).2 <;> rfl
  exact hboth.2

end Map

end WaterfallEngine

/-! ## Marks -/

/-- A byte with its position in the stream and the tuning it was supplied under. -/
structure Marked (β : Type u) where
  position : Nat
  tuning : IqTuning
  byte : β

section Mark

variable {β : Type u} {δ : Type v}

def IqPayload.mark (start : Nat) (call : IqPayload β) : IqPayload (Marked β) where
  payload := (call.payload.zipIdx start).map (fun b => ⟨b.2, call.tuning, b.1⟩)
  tuning := call.tuning

/-- The calls with their bytes marked; the stream has reached `start`. -/
def mark : Nat → List (IqPayload β) → List (IqPayload (Marked β))
  | _, [] => []
  | start, call :: calls => call.mark start :: mark (start + call.payload.length) calls

/-- The tunings of the bytes that the calls supply. -/
def tunings (calls : List (IqPayload β)) : List IqTuning :=
  calls.flatMap (fun call => List.replicate call.payload.length call.tuning)

theorem mark_forget (start : Nat) (calls : List (IqPayload β)) :
    (mark start calls).map (IqPayload.map Marked.byte) = calls := by
  induction calls generalizing start with
  | nil =>
      rfl
  | cons call calls ih =>
      have hcall : (call.mark start).map Marked.byte = call := by
        simp only [IqPayload.map, IqPayload.mark, List.map_map]
        exact congrArg (IqPayload.mk · call.tuning) (List.zipIdx_map_fst start call.payload)
      rw [mark, List.map_cons, ih, hcall]

theorem mark_snoc (start : Nat) (calls : List (IqPayload β)) (call : IqPayload β) :
    mark start (calls ++ [call]) =
      mark start calls ++ [call.mark (start + (calls.flatMap (·.payload)).length)] := by
  induction calls generalizing start with
  | nil =>
      rfl
  | cons first calls ih =>
      simp [mark, ih, Nat.add_assoc]

theorem mark_positions (start : Nat) (calls : List (IqPayload β)) :
    ((mark start calls).flatMap (·.payload)).map Marked.position =
      List.range' start (calls.flatMap (·.payload)).length := by
  induction calls generalizing start with
  | nil =>
      rfl
  | cons call calls ih =>
      have hcall : (call.mark start).payload.map Marked.position =
          List.range' start call.payload.length := by
        simp only [IqPayload.mark, List.map_map]
        exact List.zipIdx_map_snd start call.payload
      rw [mark, List.flatMap_cons, List.map_append, hcall, ih, List.range'_append_1]
      simp

theorem mark_tunings (start : Nat) (calls : List (IqPayload β)) :
    ((mark start calls).flatMap (·.payload)).map Marked.tuning = tunings calls := by
  induction calls generalizing start with
  | nil =>
      rfl
  | cons call calls ih =>
      have hcall : (call.mark start).payload.map Marked.tuning =
          List.replicate call.payload.length call.tuning := by
        simp [IqPayload.mark, Function.comp_def]
      rw [mark, List.flatMap_cons, List.map_append, hcall, ih]
      rfl

end Mark

/-! ## Labels -/

/-- Every byte of the chunk was supplied under the tuning on the label. -/
def LocalSpectrum.Labelled {β : Type u} {δ : Type v} (s : LocalSpectrum (Marked β) δ) : Prop :=
  ∀ b ∈ s.chunk, b.tuning = s.tuning

/-- No byte of the stream is in both chunks. -/
def LocalSpectrum.Apart {β : Type u} {δ : Type v} (s t : LocalSpectrum (Marked β) δ) : Prop :=
  (s.chunk.map Marked.position).Disjoint (t.chunk.map Marked.position)

namespace WaterfallEngine

variable {β : Type u} {δ : Type v} (dbfs : List β → List δ) (fftSize : Nat)

/-- `dbfs`, of the bytes behind the marks. -/
def onMarks (chunk : List (Marked β)) : List δ :=
  dbfs (chunk.map Marked.byte)

/-- The spectra of the calls, with the marks of the bytes that each was computed from. -/
def markedSpectra (calls : List (IqPayload β)) : List (LocalSpectrum (Marked β) δ) :=
  spectra (onMarks dbfs) fftSize (mark 0 calls)

theorem spectra_forget (calls : List (IqPayload β)) :
    spectra dbfs fftSize calls =
      (markedSpectra dbfs fftSize calls).map (LocalSpectrum.map Marked.byte) := by
  have hforget : ∀ chunk : List (Marked β), dbfs (chunk.map Marked.byte) = onMarks dbfs chunk :=
    fun _ => rfl
  have h := spectra_map Marked.byte hforget fftSize (mark 0 calls)
  rwa [mark_forget] at h

/-- The call, after the calls `before`, completes no chunk, or it completes one and every byte that
the chunk takes over from `before` was supplied under the tuning of the call. -/
def TakesOwn (before : List (IqPayload β)) (call : IqPayload β) : Prop :=
  0 < fftSize → fftSize * 4 ≤ held fftSize before + call.payload.length →
    ∀ tuning ∈ ((tunings before).rtake (held fftSize before)).take (fftSize * 4),
      tuning = call.tuning

theorem no_overlap (calls : List (IqPayload β)) :
    (markedSpectra dbfs fftSize calls).Pairwise LocalSpectrum.Apart := by
  -- The chunks are a part of the stream in its order, and no position comes twice in it.
  have hsub := ((List.sublist_append_left _ _).trans
    (spectra_sublist (onMarks dbfs) fftSize (mark 0 calls))).map Marked.position
  rw [mark_positions, List.map_flatMap] at hsub
  exact (List.nodup_flatMap.1 (hsub.nodup List.nodup_range')).2

theorem held_mark (calls : List (IqPayload β)) :
    held fftSize (mark 0 calls) = held fftSize calls := by
  rw [← held_map Marked.byte, mark_forget]

/-- The bytes that are held, by their tunings. -/
theorem after_mark_tunings (calls : List (IqPayload β)) :
    (after (onMarks dbfs) fftSize (mark 0 calls)).buffer.map Marked.tuning =
      (tunings calls).rtake (held fftSize calls) := by
  rw [after_eq, held_mark, List.rtake, List.rtake, List.map_drop, mark_tunings, ← mark_tunings 0,
    List.length_map]

/-- The spectrum that a call returns, if it returns one. -/
theorem labelled_compute_iff (e : WaterfallEngine (Marked β)) (call : IqPayload β) (start : Nat) :
    (∀ s ∈ (compute (onMarks dbfs) e (call.mark start)).2.toList, s.Labelled) ↔
      (0 < e.fftSize → e.fftSize * 4 ≤ e.buffer.length + call.payload.length →
        ∀ tuning ∈ (e.buffer.map Marked.tuning).take (e.fftSize * 4), tuning = call.tuning) := by
  have hpayload : (call.mark start).payload.length = call.payload.length := by
    simp [IqPayload.mark]
  rw [← hpayload]
  by_cases hshort : e.buffer.length + (call.mark start).payload.length < e.fftSize * 4
  · rw [compute_of_short _ hshort]
    simp only [Computed.toList, List.not_mem_nil, false_implies, implies_true, true_iff]
    intro _ hfull
    omega
  · rw [compute_of_full _ (by omega)]
    by_cases hzero : e.fftSize = 0
    · simp [hzero, Computed.toList]
    · -- The bytes of the call carry its tuning, so only those held over can miss it.
      have hown : ∀ b ∈ (call.mark start).payload, b.tuning = call.tuning := by
        intro b hb
        rcases List.mem_map.1 hb with ⟨_, _, rfl⟩
        rfl
      have hchunk : (∀ b ∈ (e.buffer ++ (call.mark start).payload).take (e.fftSize * 4),
          b.tuning = call.tuning) ↔ ∀ b ∈ e.buffer.take (e.fftSize * 4), b.tuning = call.tuning := by
        rw [List.take_append, List.forall_mem_append]
        exact and_iff_left (fun b hb => hown b (List.mem_of_mem_take hb))
      have hfull : e.fftSize * 4 ≤ e.buffer.length + (call.mark start).payload.length := by
        omega
      simp only [if_neg hzero, Computed.toList, List.forall_mem_singleton, LocalSpectrum.Labelled,
        ← List.map_take, List.forall_mem_map]
      rw [show (call.mark start).tuning = call.tuning from rfl, hchunk]
      exact ⟨fun h _ _ => h, fun h => h (Nat.pos_of_ne_zero hzero) hfull⟩

/-- Every spectrum is made of bytes of the tuning on its label, none of them used twice, if and only
if no call completes a chunk with bytes that were held over from another tuning. -/
theorem labelled_iff (calls : List (IqPayload β)) :
    ((∀ s ∈ markedSpectra dbfs fftSize calls, s.Labelled) ∧
        (markedSpectra dbfs fftSize calls).Pairwise LocalSpectrum.Apart) ↔
      ∀ before call, before ++ [call] <+: calls → TakesOwn fftSize before call := by
  rw [and_iff_left (no_overlap dbfs fftSize calls)]
  induction calls using List.reverseRecOn with
  | nil =>
      simp [markedSpectra, spectra, mark]
  | append_singleton calls call ih =>
      let e := after (onMarks dbfs) fftSize (mark 0 calls)
      let start := 0 + (calls.flatMap (·.payload)).length
      have hlast : (∀ s ∈ (compute (onMarks dbfs) e (call.mark start)).2.toList, s.Labelled) ↔
          TakesOwn fftSize calls call := by
        rw [labelled_compute_iff, after_mark_tunings, after_length, after_fftSize, held_mark]
        rfl
      simp only [markedSpectra] at ih ⊢
      rw [mark_snoc, spectra_snoc, List.forall_mem_append, ih, hlast]
      constructor
      · rintro ⟨hbefore, htakes⟩ before last hpre
        rcases List.prefix_concat_iff.1 hpre with heq | hpre
        · rcases List.append_inj' heq rfl with ⟨rfl, hone⟩
          rcases List.singleton_inj.1 hone with rfl
          exact htakes
        · exact hbefore before last hpre
      · intro h
        refine ⟨fun before last hpre => ?_, h calls call (List.prefix_refl _)⟩
        exact h before last (hpre.trans (List.prefix_append _ _))

/-- One sample at one frequency and one at another, with chunks of two samples. -/
theorem mislabelled_after_retune :
    ¬ ((∀ s ∈ markedSpectra (fun _ : List UInt8 => ([] : List Int)) 2
          [⟨[1, 0, 1, 0], ⟨98500000, 1000000⟩⟩, ⟨[2, 0, 2, 0], ⟨100000000, 1000000⟩⟩], s.Labelled) ∧
        (markedSpectra (fun _ : List UInt8 => ([] : List Int)) 2
          [⟨[1, 0, 1, 0], ⟨98500000, 1000000⟩⟩, ⟨[2, 0, 2, 0], ⟨100000000, 1000000⟩⟩]).Pairwise
            LocalSpectrum.Apart) := by
  rintro ⟨hlabelled, -⟩
  have hfirst := hlabelled _ List.mem_cons_self ⟨0, ⟨98500000, 1000000⟩, 1⟩ List.mem_cons_self
  exact absurd hfirst (by decide)

end WaterfallEngine

end Backend
end Sdr
