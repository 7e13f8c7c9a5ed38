import Sdr.Backend.PsdSegments

/-!
# PsdIngest — what a segment can make `ingest` do

`unpack` checks neither the number of segments nor the number of bins.  A header that asks for no
segment at all completes its frame at once, and one that gives a range of frequencies and no bins makes
the computation of the spacing divide by zero, after the frame has left the buffers.
-/

namespace Sdr
namespace Backend
namespace PsdReassembler

open Lib Lib.Struct Protocol

universe u

/-- A header that `unpack` accepts. -/
structure AcceptedHeader where
  header : SdrPsdHeader
  accepted : ∃ data, SdrPsdHeader.unpack data = .ok header

/-- What the receiver does with its reassembler. -/
inductive PsdCall
  | ingest (accepted : AcceptedHeader) (payload : List Byte)
  | reset

/-- The reassembler after a call; an exception leaves it as it is at that point. -/
def afterCall (F : Type u) [PyFloat F] (r : PsdReassembler (List Byte)) :
    PsdCall → PsdReassembler (List Byte)
  | .ingest accepted payload => (r.ingest (F := F) accepted.header payload).1
  | .reset => r.reset

/-- `ingest` returns, and a frame only when it needs segments and all of them are there. -/
def Answers (F : Type u) [PyFloat F] (r : PsdReassembler (List Byte)) (header : SdrPsdHeader)
    (payload : List Byte) : Prop :=
  ∃ result : Option (PsdFrame F), (r.ingest header payload).2 = .ok result ∧
    (result.isSome = true → 0 < header.segmentCount ∧
      ∀ index : Nat, (index : Int) < header.segmentCount →
        ∃ segment, (r.received header payload).lookup (index : Int) = some segment)

/-- The header asks for segments, and the one that completes a frame does not ask for a division by
zero. -/
def Sound (r : PsdReassembler (List Byte)) (header : SdrPsdHeader) (payload : List Byte) : Prop :=
  header.segmentCount ≠ 0 ∧
    (Complete (r.received header payload) header.segmentCount → Spaced header)

variable {F : Type u} [PyFloat F] {r : PsdReassembler (List Byte)} {header : SdrPsdHeader}
  {payload : List Byte}

theorem answers_of_sound (hcount : 0 ≤ header.segmentCount) (h : Sound r header payload) :
    Answers F r header payload := by
  obtain ⟨hsome, hspaced⟩ := h
  by_cases hcomplete : Complete (r.received header payload) header.segmentCount
  · obtain ⟨frame, hframe⟩ := ingest_frame (F := F) hcomplete (hspaced hcomplete)
    refine ⟨some frame, hframe, ?_⟩
    intro _
    exact ⟨by omega, fun index hindex => hcomplete index (by omega)⟩
  · exact ⟨none, ingest_incomplete hcomplete, by simp⟩

theorem sound_of_answers (h : Answers F r header payload) : Sound r header payload := by
  obtain ⟨result, hresult, hframe⟩ := h
  have hspaced : Complete (r.received header payload) header.segmentCount → Spaced header := by
    intro hcomplete
    by_contra hnot
    rw [ingest_raises hcomplete hnot] at hresult
    exact absurd hresult (by simp)
  refine ⟨?_, hspaced⟩
  intro hzero
  -- Nothing is missing when nothing is asked for.
  have hcomplete : Complete (r.received header payload) header.segmentCount := by
    intro index hindex
    rw [hzero] at hindex
    exact absurd hindex (Nat.not_lt_zero index)
  obtain ⟨frame, hingest⟩ := ingest_frame (F := F) hcomplete (hspaced hcomplete)
  rw [hingest] at hresult
  cases hresult
  have hpos := (hframe rfl).1
  omega

/-- After any calls, `ingest` answers as it should exactly when the header asks for segments and does
not complete its frame with a range of frequencies and no bins. -/
theorem ingest_answers_iff (F : Type u) [PyFloat F] (calls : List PsdCall) (accepted : AcceptedHeader)
    (payload : List Byte) :
    Answers F (runFrom (afterCall F) {} calls) accepted.header payload ↔
      Sound (runFrom (afterCall F) {} calls) accepted.header payload := by
  obtain ⟨data, hdata⟩ := accepted.accepted
  constructor
  · exact sound_of_answers
  · exact answers_of_sound (counts_nonneg hdata).2.1

/-- A frame of one segment, from 0 Hz to 1 Hz, without bins. -/
def noBins : SdrPsdHeader where
  segmentCount := 1
  stopFrequencyHz := 1

theorem unpack_noBins : SdrPsdHeader.unpack ((noBins.pack).toOption.getD []) = .ok noBins := by
  decide +kernel

theorem noBins_raises :
    (({} : PsdReassembler (List Byte)).ingest (F := Rat) noBins []).2 = .error .zeroDivision ∧
      ¬Answers Rat (runFrom (afterCall Rat) {} []) (AcceptedHeader.mk noBins ⟨_, unpack_noBins⟩).header
        [] := by
  have hraises : (({} : PsdReassembler (List Byte)).ingest (F := Rat) noBins []).2 =
      .error .zeroDivision :=
    ingest_raises (by decide) (by decide)
  refine ⟨hraises, ?_⟩
  rintro ⟨result, hresult, _⟩
  exact absurd (hraises.symm.trans hresult) (by simp)

end PsdReassembler
end Backend
end Sdr
