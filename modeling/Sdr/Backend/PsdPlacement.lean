import Sdr.Backend.PsdSegments

/-!
# PsdPlacement — where the bins of a frame end up

The protocol gives bin `i` of a segment the place `bin_start + i` in its frame.  The reassembler joins
the payloads in the order of their indices, whatever they announce and however many bytes of them came,
and cuts the result at `total_bins`.  The two agree when the segments tile the frame: each is whole and
starts where the one before it ends (`Tiles`).
-/

namespace Sdr
namespace Backend

open Lib Lib.Struct Protocol
open PsdReassembler (Spaced)

universe u

/-! ## Placement -/

/-- Every bin sits at its own frequency: there are as many as announced, and those of a segment stand
from its `bin_start` on. -/
structure Placed {F : Type u} [PyFloat F] (segments : List PsdSegment) (frame : PsdFrame F) :
    Prop where
  length : (frame.binsDbfs.length : Int) = frame.totalBins
  entry : ∀ s ∈ segments, ∀ i : Nat, (i : Int) < s.1.binCount →
    ∃ q, (decodeQ8 s.2)[i]? = some q ∧
      frame.binsDbfs[s.1.binStart.toNat + i]? = some (binDbfs q)

/-- The segments cover the bins from `start` to `stop` one after the other, and each is whole. -/
def Tiles : Nat → List PsdSegment → Nat → Prop
  | start, [], stop => start = stop
  | start, s :: segments, stop =>
      s.2.length = 2 * s.1.binCount.toNat ∧ (0 < s.1.binCount → s.1.binStart = start) ∧
        Tiles (start + s.1.binCount.toNat) segments stop

theorem length_decodeQ8 (payload : List Byte) : (decodeQ8 payload).length = payload.length / 2 := by
  induction payload using decodeQ8.induct with
  | case1 low high rest ih =>
      rw [decodeQ8, List.length_cons, List.length_cons, List.length_cons, ih]
      omega
  | case2 payload hshort =>
      rcases payload with _ | ⟨low, _ | ⟨high, rest⟩⟩
      · rfl
      · simp [decodeQ8]
      · exact absurd rfl (hshort low high rest)

/-- After a whole number of bins the decoder is aligned again. -/
theorem decodeQ8_append {payload : List Byte} {n : Nat} (h : payload.length = 2 * n)
    (rest : List Byte) : decodeQ8 (payload ++ rest) = decodeQ8 payload ++ decodeQ8 rest := by
  induction n generalizing payload with
  | zero =>
      rw [List.length_eq_zero_iff.1 h]
      rfl
  | succ n ih =>
      match payload, h with
      | low :: high :: tail, h =>
          have htail : tail.length = 2 * n := by
            simp only [List.length_cons] at h
            omega
          simp only [List.cons_append, decodeQ8, ih htail]

/-- In a tiling, joining the payloads puts every bin where its segment says. -/
theorem decodeQ8_of_tiles {segments : List PsdSegment} {start stop : Nat}
    (h : Tiles start segments stop) :
    start + (decodeQ8 (segments.map Prod.snd).flatten).length = stop ∧
      ∀ s ∈ segments, ∀ i < s.1.binCount.toNat, start ≤ s.1.binStart.toNat ∧
        (decodeQ8 (segments.map Prod.snd).flatten)[s.1.binStart.toNat - start + i]? =
          (decodeQ8 s.2)[i]? := by
  induction segments generalizing start with
  | nil =>
      exact ⟨h, by simp⟩
  | cons s segments ih =>
      obtain ⟨hwhole, hstart, hrest⟩ := h
      obtain ⟨hlength, hentry⟩ := ih hrest
      have hlen := length_decodeQ8 s.2
      rw [List.map_cons, List.flatten_cons, decodeQ8_append hwhole]
      refine ⟨?_, ?_⟩
      · rw [List.length_append, hlen]
        omega
      · intro t ht i hi
        rcases List.mem_cons.1 ht with rfl | ht
        · have hzero : t.1.binStart.toNat = start := by
            rw [hstart (by omega)]
            rfl
          rw [hzero, Nat.sub_self, Nat.zero_add, List.getElem?_append_left (by omega)]
          exact ⟨Nat.le_refl start, rfl⟩
        · obtain ⟨hle, hget⟩ := hentry t ht i hi
          refine ⟨by omega, ?_⟩
          rw [← hget, List.getElem?_append_right (by omega), hlen]
          congr 1
          omega

theorem whole_of_tiles {segments : List PsdSegment} {start stop : Nat} (h : Tiles start segments stop) :
    ∀ s ∈ segments, s.2.length = 2 * s.1.binCount.toNat := by
  induction segments generalizing start with
  | nil =>
      simp
  | cons s segments ih =>
      intro t ht
      rcases List.mem_cons.1 ht with rfl | ht
      · exact h.1
      · exact ih h.2.2 t ht

theorem placed_of_tiles {F : Type u} [PyFloat F] {segments : List PsdSegment} {frame : PsdFrame F}
    (hpos : 0 ≤ frame.totalBins)
    (hbins : frame.binsDbfs =
      clipBins (decodeBins (segments.map Prod.snd).flatten) frame.totalBins)
    (h : Tiles 0 segments frame.totalBins.toNat) : Placed segments frame := by
  obtain ⟨hlength, hentry⟩ := decodeQ8_of_tiles h
  rw [Nat.zero_add] at hlength
  -- The bins are as many as announced, so none is cut off.
  have hall : frame.binsDbfs = (decodeQ8 (segments.map Prod.snd).flatten).map binDbfs := by
    rw [hbins, clipBins, if_neg (by omega), decodeBins]
    exact List.take_of_length_le (by rw [List.length_map]; omega)
  refine ⟨?_, ?_⟩
  · rw [hall, List.length_map]
    omega
  · intro s hs i hi
    have hlen := length_decodeQ8 s.2
    have hwhole := whole_of_tiles h s hs
    have hget := (hentry s hs i (by omega)).2
    have hin : (decodeQ8 s.2)[i]? = some (decodeQ8 s.2)[i] := List.getElem?_eq_getElem (by omega)
    refine ⟨_, hin, ?_⟩
    rw [hall, List.getElem?_map]
    rw [Nat.sub_zero, hin] at hget
    rw [hget]
    rfl

/-! ## Datagrams with other contents -/

/-- The datagrams carry the same header bytes and are of the same size. -/
def SameShape (d d' : List Byte) : Prop :=
  d'.length = d.length ∧ d'.take PSD_HEADER_SIZE = d.take PSD_HEADER_SIZE

/-- What can be seen of a segment without its contents. -/
def segmentShape (s : PsdSegment) : SdrPsdHeader × Nat :=
  (s.1, s.2.length)

theorem readSegment_of_sameShape {d d' : List Byte} (h : SameShape d d') {s : PsdSegment}
    (hread : readSegment d = some s) :
    ∃ s', readSegment d' = some s' ∧ segmentShape s' = segmentShape s := by
  obtain ⟨hlength, htake⟩ := h
  obtain ⟨hlong, hunpack, hpayload⟩ := readSegment_iff.1 hread
  refine ⟨(s.1, (d'.drop PSD_HEADER_SIZE).take s.1.payloadBytes.toNat), ?_, ?_⟩
  · exact readSegment_iff.2 ⟨by omega, by rw [htake]; exact hunpack, rfl⟩
  · rw [segmentShape, segmentShape, hpayload, List.length_take, List.length_take, List.length_drop,
      List.length_drop, hlength]

theorem alike_of_sameShape {d d' : List Byte} (h : SameShape d d') :
    Alike segmentShape segmentShape d d' := by
  have hsymm : SameShape d' d := ⟨h.1.symm, h.2.symm⟩
  unfold Alike
  cases hread : readSegment d with
  | none =>
      cases hread' : readSegment d' with
      | none =>
          rfl
      | some s' =>
          obtain ⟨s, hs, _⟩ := readSegment_of_sameShape hsymm hread'
          rw [hread] at hs
          exact absurd hs (by simp)
  | some s =>
      obtain ⟨s', hs', hshape⟩ := readSegment_of_sameShape h hread
      have hheader : s'.1 = s.1 := (Prod.ext_iff.1 hshape).1
      rw [hs', Option.map_some, Option.map_some, hshape, hheader]

section Refill

variable (fill : SdrPsdHeader → List Int)

/-- The segment with the bins `fill` in its payload, as far as it reaches. -/
def refillSegment (s : PsdSegment) : PsdSegment :=
  (s.1, ((fill s.1).flatMap Code.h.encode).take s.2.length)

def refill (d : List Byte) : List Byte :=
  match readSegment d with
  | none => d
  | some s =>
      d.take PSD_HEADER_SIZE ++
        ((refillSegment fill s).2 ++ (d.drop PSD_HEADER_SIZE).drop s.2.length)

variable {fill} (hfill : ∀ header, (fill header).length = header.binCount.toNat)

include hfill

theorem length_refillSegment {s : PsdSegment} (hs : Announced s) :
    (refillSegment fill s).2.length = s.2.length := by
  have hbytes : ((fill s.1).flatMap Code.h.encode).length = 2 * s.1.binCount.toNat := by
    rw [length_flatMap_blocks (fun q _ => Code.length_encode .h q), hfill]
    exact Nat.mul_comm _ _
  have hle := hs.length
  rw [refillSegment, List.length_take, hbytes]
  omega

theorem sameShape_refill (d : List Byte) : SameShape d (refill fill d) := by
  unfold refill
  cases hread : readSegment d with
  | none =>
      exact ⟨rfl, rfl⟩
  | some s =>
      obtain ⟨hlong, _, hpayload⟩ := readSegment_iff.1 hread
      have hlen := length_refillSegment hfill (announced_of_readSegment hread)
      have hle : s.2.length ≤ d.length - PSD_HEADER_SIZE := by
        rw [hpayload, List.length_take, List.length_drop]
        exact Nat.min_le_right _ _
      refine ⟨?_, ?_⟩
      · simp only [List.length_append, List.length_take, List.length_drop, hlen]
        omega
      · exact List.take_left' (by rw [List.length_take]; omega)

theorem readSegment_refill (d : List Byte) :
    readSegment (refill fill d) = (readSegment d).map (refillSegment fill) := by
  cases hread : readSegment d with
  | none =>
      rw [refill, hread]
      exact hread
  | some s =>
      obtain ⟨hlength, htake⟩ := sameShape_refill hfill d
      obtain ⟨hlong, hunpack, hpayload⟩ := readSegment_iff.1 hread
      have hlen := length_refillSegment hfill (announced_of_readSegment hread)
      refine readSegment_iff.2 ⟨by omega, by rw [htake]; exact hunpack, ?_⟩
      have hdrop : (refill fill d).drop PSD_HEADER_SIZE =
          (refillSegment fill s).2 ++ (d.drop PSD_HEADER_SIZE).drop s.2.length := by
        rw [refill, hread]
        exact List.drop_left' (by rw [List.length_take]; omega)
      have hsize : s.2.length = min s.1.payloadBytes.toNat (d.length - PSD_HEADER_SIZE) := by
        rw [hpayload, List.length_take, List.length_drop]
      rw [hdrop]
      by_cases hall : s.2.length = s.1.payloadBytes.toNat
      · exact (List.take_left' (by rw [hlen, hall]; rfl)).symm
      · -- The datagram is short, so nothing follows its payload.
        have hnil : (d.drop PSD_HEADER_SIZE).drop s.2.length = [] := by
          apply List.drop_eq_nil_of_le
          rw [List.length_drop]
          omega
        rw [hnil, List.append_nil]
        exact (List.take_of_length_le (by rw [hlen]; change _ ≤ s.1.payloadBytes.toNat; omega)).symm

theorem alike_refill (d : List Byte) : Alike (refillSegment fill) id d (refill fill d) := by
  rw [Alike, readSegment_refill hfill, Option.map_map]
  rfl

end Refill

/-! ## Marking one bin -/

section Mark

/-- All bins zero, except the first one of segment `k`. -/
def markBins (k : Int) (header : SdrPsdHeader) : List Int :=
  (List.range header.binCount.toNat).map
    (fun i => if header.segmentIndex = k ∧ i = 0 then 256 else 0)

theorem length_markBins (k : Int) (header : SdrPsdHeader) :
    (markBins k header).length = header.binCount.toNat := by
  simp [markBins]

theorem fits_markBins (k : Int) (header : SdrPsdHeader) : ∀ q ∈ markBins k header, Code.h.Fits q := by
  intro q hq
  rcases List.mem_map.1 hq with ⟨i, _, rfl⟩
  split_ifs
  · decide
  · decide

theorem markBins_of_ne {k : Int} {header : SdrPsdHeader} (h : header.segmentIndex ≠ k) :
    ∀ q ∈ markBins k header, q = 0 := by
  intro q hq
  rcases List.mem_map.1 hq with ⟨i, _, rfl⟩
  rw [if_neg (fun hi => h hi.1)]

theorem markBins_self {header : SdrPsdHeader} (h : 0 < header.binCount) :
    ∃ rest, markBins header.segmentIndex header = 256 :: rest ∧ ∀ q ∈ rest, q = 0 := by
  obtain ⟨n, hn⟩ : ∃ n, header.binCount.toNat = n + 1 := ⟨header.binCount.toNat - 1, by omega⟩
  refine ⟨(List.range n).map (fun _ => 0), ?_, by simp⟩
  rw [markBins, hn, List.range_succ_eq_map, List.map_cons, List.map_map]
  simp [Function.comp_def]

theorem eq_length_of_marked {zeros rest : List Int} {j : Nat} {x : Int} (hzeros : ∀ q ∈ zeros, q = 0)
    (hrest : ∀ q ∈ rest, q = 0) (hj : (zeros ++ 256 :: rest)[j]? = some x) (hx : x ≠ 0) :
    j = zeros.length := by
  rcases Nat.lt_trichotomy j zeros.length with hlt | heq | hgt
  · rw [List.getElem?_append_left hlt] at hj
    exact absurd (hzeros x (List.mem_of_getElem? hj)) hx
  · exact heq
  · obtain ⟨n, hn⟩ : ∃ n, j - zeros.length = n + 1 := ⟨j - zeros.length - 1, by omega⟩
    rw [List.getElem?_append_right (by omega), hn, List.getElem?_cons_succ] at hj
    exact absurd (hrest x (List.mem_of_getElem? hj)) hx

variable {fill : SdrPsdHeader → List Int}

/-- A whole segment takes all of its new bins. -/
theorem refillSegment_of_whole (hfill : ∀ header, (fill header).length = header.binCount.toNat)
    {s : PsdSegment} (hwhole : s.2.length = 2 * s.1.binCount.toNat) :
    refillSegment fill s = (s.1, (fill s.1).flatMap Code.h.encode) := by
  have hbytes : ((fill s.1).flatMap Code.h.encode).length = 2 * s.1.binCount.toNat := by
    rw [length_flatMap_blocks (fun q _ => Code.length_encode .h q), hfill]
    exact Nat.mul_comm _ _
  rw [refillSegment, hwhole, List.take_of_length_le (by omega)]

theorem decodeQ8_refilled (hfill : ∀ header, (fill header).length = header.binCount.toNat)
    (hfits : ∀ header, ∀ q ∈ fill header, Code.h.Fits q) {segments : List PsdSegment}
    (hwhole : ∀ s ∈ segments, s.2.length = 2 * s.1.binCount.toNat) :
    decodeQ8 ((segments.map (refillSegment fill)).map Prod.snd).flatten =
      segments.flatMap (fun s => fill s.1) := by
  have hflatten : ((segments.map (refillSegment fill)).map Prod.snd).flatten =
      (segments.flatMap (fun s => fill s.1)).flatMap Code.h.encode := by
    rw [List.flatMap_assoc, List.map_map, List.flatMap_def]
    congr 1
    apply List.map_congr_left
    intro s hs
    exact congrArg Prod.snd (refillSegment_of_whole hfill (hwhole s hs))
  rw [hflatten, decodeQ8_encode]
  intro q hq
  rcases List.mem_flatMap.1 hq with ⟨s, _, hq⟩
  exact hfits s.1 q hq

end Mark

/-! ## What placement needs -/

section Needed

variable {F : Type u} [PyFloat F]

/-- A segment whose bins are all placed has come whole. -/
theorem whole_of_placed {segments : List PsdSegment} {frame : PsdFrame F}
    (h : Placed segments frame) {s : PsdSegment} (hs : s ∈ segments) (hann : Announced s) :
    s.2.length = 2 * s.1.binCount.toNat := by
  have hle := hann.length
  by_cases hempty : s.1.binCount.toNat = 0
  · omega
  · obtain ⟨q, hq, _⟩ := h.entry s hs (s.1.binCount.toNat - 1) (by omega)
    have hlt := (List.getElem?_eq_some_iff.1 hq).1
    rw [length_decodeQ8] at hlt
    omega

def binsOf (segments : List PsdSegment) : Nat :=
  (segments.map (fun s => s.1.binCount.toNat)).sum

theorem length_flatMap_markBins (k : Int) (segments : List PsdSegment) :
    (segments.flatMap (fun s => markBins k s.1)).length = binsOf segments := by
  simp only [List.length_flatMap, length_markBins, binsOf]

/-- A marked bin that is placed shows where its segment starts. -/
theorem binStart_of_marked (hF : (binDbfs 0 : F) ≠ binDbfs 256) {pre post : List PsdSegment}
    {s : PsdSegment} {frame : PsdFrame F}
    (hwhole : ∀ t ∈ pre ++ s :: post, t.2.length = 2 * t.1.binCount.toNat)
    (hindex : ∀ t ∈ pre ++ post, t.1.segmentIndex ≠ s.1.segmentIndex) (hcount : 0 < s.1.binCount)
    (hpos : 0 ≤ frame.totalBins)
    (hbins : frame.binsDbfs = clipBins (decodeBins
      (((pre ++ s :: post).map (refillSegment (markBins s.1.segmentIndex))).map Prod.snd).flatten)
      frame.totalBins)
    (h : Placed ((pre ++ s :: post).map (refillSegment (markBins s.1.segmentIndex))) frame) :
    s.1.binStart.toNat = binsOf pre := by
  obtain ⟨rest, hself, hrest⟩ := markBins_self hcount
  have hzero {ts : List PsdSegment} (hts : ∀ t ∈ ts, t.1.segmentIndex ≠ s.1.segmentIndex) :
      ∀ q ∈ ts.flatMap (fun t => markBins s.1.segmentIndex t.1), q = 0 := by
    intro q hq
    rcases List.mem_flatMap.1 hq with ⟨t, ht, hq⟩
    exact markBins_of_ne (hts t ht) q hq
  -- The joined bins, with the mark where the segment begins.
  have hjoined : decodeQ8
      (((pre ++ s :: post).map (refillSegment (markBins s.1.segmentIndex))).map Prod.snd).flatten =
        pre.flatMap (fun t => markBins s.1.segmentIndex t.1) ++
          256 :: (rest ++ post.flatMap (fun t => markBins s.1.segmentIndex t.1)) := by
    rw [decodeQ8_refilled (length_markBins _) (fits_markBins _) hwhole, List.flatMap_append,
      List.flatMap_cons, hself, List.cons_append]
  -- The mark is the first bin of its segment.
  have hmark : refillSegment (markBins s.1.segmentIndex) s =
      (s.1, (256 :: rest).flatMap Code.h.encode) := by
    rw [refillSegment_of_whole (length_markBins _) (hwhole s (by simp)), hself]
  obtain ⟨q, hq, hentry⟩ := h.entry _ (List.mem_map_of_mem (by simp : s ∈ pre ++ s :: post)) 0 hcount
  rw [hmark] at hq hentry
  have hq256 : q = 256 := by
    rw [decodeQ8_encode] at hq
    · exact (Option.some.inj hq).symm
    · intro x hx
      exact fits_markBins s.1.segmentIndex s.1 x (by rw [hself]; exact hx)
  rw [hbins, clipBins, if_neg (by omega), decodeBins, hjoined, Nat.add_zero, hq256] at hentry
  rw [List.getElem?_take] at hentry
  split_ifs at hentry
  rw [List.getElem?_map] at hentry
  obtain ⟨x, hx, hshown⟩ := Option.map_eq_some_iff.1 hentry
  have hne : x ≠ 0 := by
    intro hx0
    rw [hx0] at hshown
    exact hF hshown
  have hplace := eq_length_of_marked (hzero (fun t ht => hindex t (by simp [ht]))) ?_ hx hne
  · rw [length_flatMap_markBins] at hplace
    exact hplace
  · intro y hy
    rcases List.mem_append.1 hy with hy | hy
    · exact hrest y hy
    · exact hzero (fun t ht => hindex t (by simp [ht])) y hy

theorem segmentIndex_ne {pre post : List PsdSegment} {s : PsdSegment}
    (hindex : ∀ (k : Nat) (t : PsdSegment), (pre ++ s :: post)[k]? = some t →
      t.1.segmentIndex = k) :
    ∀ t ∈ pre ++ post, t.1.segmentIndex ≠ s.1.segmentIndex := by
  have hself : s.1.segmentIndex = pre.length := hindex pre.length s (by simp)
  intro t ht
  rw [hself]
  rcases List.mem_append.1 ht with ht | ht
  · rcases List.getElem_of_mem ht with ⟨k, hk, rfl⟩
    rw [hindex k _ (by rw [List.getElem?_append_left hk, List.getElem?_eq_getElem hk])]
    omega
  · rcases List.getElem_of_mem ht with ⟨k, hk, rfl⟩
    rw [hindex (pre.length + 1 + k) _ (by
      rw [List.getElem?_append_right (by omega), show pre.length + 1 + k - pre.length = k + 1 by omega,
        List.getElem?_cons_succ, List.getElem?_eq_getElem hk])]
    omega

/-- Whole segments that start where the ones before them end tile their bins. -/
theorem tiles_of_starts {segments : List PsdSegment} {start : Nat}
    (hwhole : ∀ s ∈ segments, s.2.length = 2 * s.1.binCount.toNat)
    (hstart : ∀ pre s post, segments = pre ++ s :: post → 0 < s.1.binCount →
      s.1.binStart = ((start + binsOf pre : Nat) : Int)) :
    Tiles start segments (start + binsOf segments) := by
  induction segments generalizing start with
  | nil =>
      rfl
  | cons s segments ih =>
      refine ⟨hwhole s (by simp), hstart [] s segments rfl, ?_⟩
      have hsum : start + binsOf (s :: segments) =
          start + s.1.binCount.toNat + binsOf segments := by
        rw [binsOf, List.map_cons, List.sum_cons, Nat.add_assoc]
        rfl
      rw [hsum]
      refine ih (fun t ht => hwhole t (by simp [ht])) ?_
      intro pre t post hsplit hcount
      have hnext := hstart (s :: pre) t post (by rw [hsplit]; rfl) hcount
      rw [hnext, binsOf, List.map_cons, List.sum_cons, ← Nat.add_assoc]
      rfl

theorem stop_le_of_tiles {segments : List PsdSegment} {start stop bound : Nat}
    (h : Tiles start segments stop) (hstart : start ≤ bound)
    (hbound : ∀ s ∈ segments, 0 < s.1.binCount →
      s.1.binStart.toNat + s.1.binCount.toNat ≤ bound) : stop ≤ bound := by
  induction segments generalizing start with
  | nil =>
      rw [← h]
      exact hstart
  | cons s segments ih =>
      obtain ⟨_, hfirst, hrest⟩ := h
      refine ih hrest ?_ (fun t ht => hbound t (by simp [ht]))
      by_cases hcount : 0 < s.1.binCount
      · have hlast := hbound s (by simp) hcount
        rw [hfirst hcount] at hlast
        exact hlast
      · omega

/-- Tiles that are all placed end where the frame does. -/
theorem stop_of_placed {segments : List PsdSegment} {frame : PsdFrame F} {stop : Nat}
    (hpos : 0 ≤ frame.totalBins)
    (hbins : frame.binsDbfs =
      clipBins (decodeBins (segments.map Prod.snd).flatten) frame.totalBins)
    (h : Placed segments frame) (htiles : Tiles 0 segments stop) : stop = frame.totalBins.toNat := by
  have hlength := h.length
  refine Nat.le_antisymm (stop_le_of_tiles htiles (Nat.zero_le _) ?_) ?_
  · intro s hs hcount
    -- The last bin of the segment is one of the frame's.
    obtain ⟨_, _, hentry⟩ := h.entry s hs (s.1.binCount.toNat - 1) (by omega)
    have hlt := (List.getElem?_eq_some_iff.1 hentry).1
    omega
  · have hjoined := (decodeQ8_of_tiles htiles).1
    rw [hbins, clipBins, if_neg (by omega), decodeBins, List.length_take, List.length_map] at hlength
    omega

end Needed

/-! ## Runs -/

/-- In the run over `ds`, every frame that comes out has its bins in place. -/
def BinsPlaced (F : Type u) [PyFloat F] (ds : List (List Byte)) : Prop :=
  ∀ pre d post, ds = pre ++ d :: post → ∀ frame : PsdFrame F,
    (receive (receiveAll F pre) d).2 = .ok (some frame) →
      ∃ segments, segmentsUsed pre d = some segments ∧ Placed segments frame

/-- In the run over `ds`, the segments of every frame that can be shown tile it. -/
def LaidOut (ds : List (List Byte)) : Prop :=
  ∀ pre d post, ds = pre ++ d :: post → ∀ last segments, readSegment d = some last →
    segmentsUsed pre d = some segments → Spaced last.1 →
      Tiles 0 segments last.1.totalBins.toNat

theorem binsPlaced_of_laidOut {F : Type u} [PyFloat F] {ds : List (List Byte)} (h : LaidOut ds) :
    BinsPlaced F ds := by
  intro pre d post hsplit frame hframe
  rw [receiveAll_eq_mapPayload] at hframe
  obtain ⟨last, segments, hread, hused, hspaced, htotal, hbins⟩ := frame_eq_joined hframe
  refine ⟨segments, hused, ?_⟩
  have htiles := h pre d post hsplit last segments hread hused hspaced
  rw [← htotal] at htiles hbins
  refine placed_of_tiles ?_ hbins htiles
  rw [htotal]
  exact (announced_of_readSegment hread).totalBins

theorem tiles_of_shapes {segments segments' : List PsdSegment} {start stop : Nat}
    (hshapes : segments.map segmentShape = segments'.map segmentShape)
    (h : Tiles start segments stop) : Tiles start segments' stop := by
  induction segments generalizing segments' start with
  | nil =>
      rw [List.map_nil, eq_comm, List.map_eq_nil_iff] at hshapes
      rw [hshapes]
      exact h
  | cons s segments ih =>
      cases segments' with
      | nil =>
          exact absurd hshapes (by simp)
      | cons s' segments' =>
          rw [List.map_cons, List.map_cons, List.cons.injEq] at hshapes
          obtain ⟨hshape, hrest⟩ := hshapes
          obtain ⟨hheader, hlength⟩ : s.1 = s'.1 ∧ s.2.length = s'.2.length :=
            Prod.ext_iff.1 hshape
          unfold Tiles at h ⊢
          rw [← hheader, ← hlength]
          exact ⟨h.1, h.2.1, ih hrest h.2.2⟩

/-- Whether a run is laid out is seen without the contents. -/
theorem laidOut_of_sameShape {ds ds' : List (List Byte)} (hds : List.Forall₂ SameShape ds ds')
    (h : LaidOut ds) : LaidOut ds' := by
  intro pre' d' post' hsplit' last' segments' hread' hused' hspaced'
  rw [hsplit'] at hds
  have hpre := List.forall₂_take_append _ _ _ hds
  rcases List.forall₂_cons_right_iff.1 (List.forall₂_drop_append _ _ _ hds) with
    ⟨d, post, hd, _, hdrop⟩
  have hsplit : ds = ds.take pre'.length ++ d :: post := by
    rw [← hdrop, List.take_append_drop]
  have halike := alike_of_sameShape hd
  -- The two runs complete their frames at the same datagrams, with segments of the same shapes.
  have hshapes := segmentsUsed_of_alike (hpre.imp (fun _ _ => alike_of_sameShape)) halike
  rw [hused'] at hshapes
  obtain ⟨segments, hused, hmap⟩ := Option.map_eq_some_iff.1 hshapes
  rw [Alike, hread'] at halike
  obtain ⟨last, hread, hlast⟩ := Option.map_eq_some_iff.1 halike
  have hheader : last.1 = last'.1 := (Prod.ext_iff.1 hlast).1
  rw [← hheader] at hspaced' ⊢
  exact tiles_of_shapes hmap (h _ d post hsplit last segments hread hused hspaced')

section Refilled

variable {F : Type u} [PyFloat F] {ds pre post : List (List Byte)} {d : List Byte}
  {last : PsdSegment} {segments : List PsdSegment} {fill : SdrPsdHeader → List Int}

/-- The run with other contents completes the same frame, with the other contents in it. -/
theorem exists_refilled_frame
    (hall : ∀ ds', List.Forall₂ SameShape (pre ++ d :: post) ds' → BinsPlaced F ds')
    (hread : readSegment d = some last) (hused : segmentsUsed pre d = some segments)
    (hspaced : Spaced last.1) (hfill : ∀ header, (fill header).length = header.binCount.toNat) :
    ∃ frame : PsdFrame F, frame.totalBins = last.1.totalBins ∧
      frame.binsDbfs = clipBins (decodeBins
        ((segments.map (refillSegment fill)).map Prod.snd).flatten) frame.totalBins ∧
      Placed (segments.map (refillSegment fill)) frame := by
  have hshape : ∀ ds, List.Forall₂ SameShape ds (ds.map (refill fill)) := by
    intro ds
    rw [List.forall₂_map_right_iff]
    exact List.forall₂_same.2 (fun d _ => sameShape_refill hfill d)
  have halike : List.Forall₂ (Alike (refillSegment fill) id) pre (pre.map (refill fill)) := by
    rw [List.forall₂_map_right_iff]
    exact List.forall₂_same.2 (fun d _ => alike_refill hfill d)
  have hread' : readSegment (refill fill d) = some (refillSegment fill last) := by
    rw [readSegment_refill hfill, hread]
    rfl
  have hused' : segmentsUsed (pre.map (refill fill)) (refill fill d) =
      some (segments.map (refillSegment fill)) := by
    have h := segmentsUsed_of_alike halike (alike_refill hfill d)
    rw [hused] at h
    simpa using h.symm
  have hplaced := hall _ (hshape _) (pre.map (refill fill)) (refill fill d) (post.map (refill fill))
    (by simp)
  simp only [receiveAll_eq_mapPayload] at hplaced
  obtain ⟨frame, hframe⟩ := exists_frame (F := F) hread' hused' hspaced
  obtain ⟨last', segments', hlast', hsegments', _, htotal, hbins⟩ := frame_eq_joined hframe
  -- The frame that comes out is the one that the new contents make.
  rw [hread'] at hlast'
  cases hlast'
  have hsame : segments' = segments.map (refillSegment fill) := by
    rw [segmentsUsed] at hused'
    rw [hused'] at hsegments'
    exact (Option.some.inj hsegments').symm
  obtain ⟨used, hused'', hentries⟩ := hplaced frame hframe
  rw [hused'] at hused''
  cases hused''
  rw [hsame, ← htotal] at hbins
  exact ⟨frame, htotal, hbins, hentries⟩

theorem laidOut_of_binsPlaced (hF : (binDbfs 0 : F) ≠ binDbfs 256)
    (hall : ∀ ds', List.Forall₂ SameShape ds ds' → BinsPlaced F ds') : LaidOut ds := by
  intro pre d post hsplit last segments hread hused hspaced
  rw [hsplit] at hall
  have hann : ∀ s ∈ segments, Announced s := by
    intro s hs
    rcases List.getElem?_of_mem hs with ⟨k, hk⟩
    exact (stored_of_segmentsUsed hused hk).2
  -- The contents do not matter for what has come, so any will do.
  obtain ⟨frame, htotal, hbins, hplaced⟩ :=
    exists_refilled_frame hall hread hused hspaced (length_markBins 0)
  have hwhole : ∀ s ∈ segments, s.2.length = 2 * s.1.binCount.toNat := by
    intro s hs
    have hlen := length_refillSegment (length_markBins 0) (hann s hs)
    rw [← hlen]
    refine whole_of_placed hplaced (List.mem_map_of_mem hs) ?_
    exact ⟨(hann s hs).totalBins, (hann s hs).binStart, (hann s hs).binCount,
      hlen.trans_le (hann s hs).length⟩
  -- A mark in a segment shows where it starts.
  have hstart : ∀ before s after, segments = before ++ s :: after → 0 < s.1.binCount →
      s.1.binStart = ((0 + binsOf before : Nat) : Int) := by
    intro before s after hsegments hcount
    obtain ⟨marked, hmarkedTotal, hmarkedBins, hmarked⟩ :=
      exists_refilled_frame hall hread hused hspaced (length_markBins s.1.segmentIndex)
    have hindex : ∀ (k : Nat) (t : PsdSegment), segments[k]? = some t → t.1.segmentIndex = k :=
      fun k t hk => (stored_of_segmentsUsed hused hk).1
    have hpos := (hann s (by rw [hsegments]; simp)).binStart
    have hmarkedPos : 0 ≤ marked.totalBins := by
      rw [hmarkedTotal]
      exact (announced_of_readSegment hread).totalBins
    rw [hsegments] at hwhole hmarkedBins hmarked hindex
    have hplace := binStart_of_marked hF hwhole (segmentIndex_ne hindex) hcount hmarkedPos
      hmarkedBins hmarked
    omega
  have htiles := tiles_of_starts hwhole hstart
  rw [Nat.zero_add] at htiles
  have hshapes : segments.map segmentShape =
      (segments.map (refillSegment (markBins 0))).map segmentShape := by
    rw [List.map_map]
    apply List.map_congr_left
    intro s hs
    exact congrArg (Prod.mk s.1) (length_refillSegment (length_markBins 0) (hann s hs)).symm
  have hpos : 0 ≤ frame.totalBins := by
    rw [htotal]
    exact (announced_of_readSegment hread).totalBins
  have hstop := stop_of_placed hpos hbins hplaced (tiles_of_shapes hshapes htiles)
  rw [hstop, htotal] at htiles
  exact htiles

end Refilled

/-- Runs over datagrams of given headers and sizes, whatever their contents, place every bin exactly
when the segments of every frame tile it. -/
theorem bins_placed_iff_laid_out (F : Type u) [PyFloat F] (hF : (binDbfs 0 : F) ≠ binDbfs 256)
    (ds : List (List Byte)) :
    (∀ ds', List.Forall₂ SameShape ds ds' → BinsPlaced F ds') ↔ LaidOut ds := by
  constructor
  · exact laidOut_of_binsPlaced hF
  · intro h ds' hds
    exact binsPlaced_of_laidOut (laidOut_of_sameShape hds h)

/-! ## A frame of three bins -/

/-- A segment of a frame of three bins in two segments. -/
def threeBins (segmentIndex binStart binCount : Int) : SdrPsdHeader where
  totalBins := 3
  segmentIndex := segmentIndex
  segmentCount := 2
  binStart := binStart
  binCount := binCount
  payloadBytes := 2 * binCount

/-- A datagram with the bytes of the header in front. -/
def psdDatagram (header : SdrPsdHeader) (payload : List Byte) : List Byte :=
  match header.pack with
  | .ok bytes => bytes ++ payload
  | .error _ => []

def lastOfThree : List Byte :=
  psdDatagram (threeBins 1 2 1) [0, 3]

/-- Both bins of the first segment. -/
def firstOfThree : List Byte :=
  psdDatagram (threeBins 0 0 2) [0, 1, 0, 2]

/-- The first segment without its second bin. -/
def cutShort : List Byte :=
  psdDatagram (threeBins 0 0 2) [0, 1]

theorem readSegment_lastOfThree : readSegment lastOfThree = some (threeBins 1 2 1, [0, 3]) := by
  decide +kernel

theorem segmentsUsed_firstOfThree :
    segmentsUsed [] firstOfThree = none ∧
      segmentsUsed [firstOfThree] lastOfThree =
        some [(threeBins 0 0 2, [0, 1, 0, 2]), (threeBins 1 2 1, [0, 3])] := by
  decide +kernel

theorem segmentsUsed_cutShort :
    segmentsUsed [cutShort] lastOfThree =
      some [(threeBins 0 0 2, [0, 1]), (threeBins 1 2 1, [0, 3])] := by
  decide +kernel

theorem laidOut_firstOfThree : LaidOut [firstOfThree, lastOfThree] := by
  intro pre d post hsplit last segments hread hused _
  match pre, hsplit with
  | [], hsplit =>
      cases hsplit
      rw [segmentsUsed_firstOfThree.1] at hused
      exact absurd hused (by simp)
  | [first], hsplit =>
      cases hsplit
      rw [segmentsUsed_firstOfThree.2] at hused
      rw [readSegment_lastOfThree] at hread
      cases hused
      cases hread
      simp [Tiles, threeBins]
  | first :: second :: pre, hsplit =>
      exact absurd (congrArg List.length hsplit) (by simp)

theorem bins_placed_iff_laid_out_firstOfThree :
    (binDbfs 0 : Rat) ≠ binDbfs 256 ∧
      ∀ ds', List.Forall₂ SameShape [firstOfThree, lastOfThree] ds' → BinsPlaced Rat ds' := by
  have hF : (binDbfs 0 : Rat) ≠ binDbfs 256 := by decide +kernel
  exact ⟨hF, (bins_placed_iff_laid_out Rat hF [firstOfThree, lastOfThree]).2 laidOut_firstOfThree⟩

/-- The frame comes out with two bins, the last of them one place too early. -/
theorem cutShort_misplaced : ¬BinsPlaced Rat [cutShort, lastOfThree] := by
  intro h
  have hplaced := h [cutShort] lastOfThree [] rfl
  rw [receiveAll_eq_mapPayload] at hplaced
  obtain ⟨frame, hframe⟩ := exists_frame (F := Rat) readSegment_lastOfThree segmentsUsed_cutShort
    (by decide)
  obtain ⟨_, _, hentries⟩ := hplaced frame hframe
  obtain ⟨last, segments, hread, hused, _, htotal, hbins⟩ := frame_eq_joined hframe
  rw [readSegment_lastOfThree] at hread
  cases hread
  have hsegments := segmentsUsed_cutShort.symm.trans hused
  cases hsegments
  have hlength := hentries.length
  rw [htotal, hbins] at hlength
  have htwo : (decodeQ8 [0, 1, 0, 3]).length = 2 := by decide
  simp [clipBins, decodeBins, threeBins, htwo] at hlength

end Backend
end Sdr
