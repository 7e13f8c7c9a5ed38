import Mathlib.Data.List.Basic

/-!
# Blocks — lists made of blocks of one size

`l.flatMap f` with every `f x` of length `B` is a sequence of blocks: position `k * B + r` is
position `r` of block `k`.  A packet stream and a segmented frame are such lists.

`Cut` is the other direction: a list cut from its start into blocks, with less than a block left over.
There is one such cutting (`Cut.unique`), and it can be made piece by piece (`Cut.extend`).
-/

namespace Sdr
namespace Lib

universe u v

variable {α : Type u} {β : Type v} {f : α → List β} {B : Nat}

theorem length_flatMap_blocks {l : List α} (hf : ∀ x ∈ l, (f x).length = B) :
    (l.flatMap f).length = l.length * B := by
  induction l with
  | nil =>
      simp
  | cons x l ih =>
      have htail := ih (fun y hy => hf y (by simp [hy]))
      have hhead := hf x (by simp)
      simp [htail, hhead, Nat.succ_mul, Nat.add_comm]

/-- Dropping whole blocks leaves the blocks after them. -/
theorem drop_flatMap_blocks {l : List α} (hf : ∀ x ∈ l, (f x).length = B) (k : Nat) :
    (l.flatMap f).drop (k * B) = (l.drop k).flatMap f := by
  induction l generalizing k with
  | nil =>
      simp
  | cons x l ih =>
      cases k with
      | zero =>
          simp
      | succ k =>
          have htail := ih (fun y hy => hf y (by simp [hy])) k
          have hhead := hf x (by simp)
          -- The first block goes whole, and `k` blocks are left to drop.
          have hsplit : (k + 1) * B = (f x).length + k * B := by
            rw [hhead, Nat.succ_mul, Nat.add_comm]
          rw [List.flatMap_cons, hsplit, List.drop_length_add_append]
          simpa using htail

theorem getElem?_flatMap_blocks {l : List α} (hf : ∀ x ∈ l, (f x).length = B) {k r : Nat}
    (hr : r < B) : (l.flatMap f)[k * B + r]? = l[k]?.bind (fun x => (f x)[r]?) := by
  have hdrop : (l.flatMap f)[k * B + r]? = ((l.drop k).flatMap f)[r]? := by
    rw [← drop_flatMap_blocks hf, List.getElem?_drop]
  rw [hdrop]
  cases hk : l[k]? with
  | none =>
      have hlen : l.length ≤ k := List.getElem?_eq_none_iff.1 hk
      simp [List.drop_eq_nil_of_le hlen]
  | some x =>
      rcases List.getElem?_eq_some_iff.1 hk with ⟨hlt, hx⟩
      have hlen : (f x).length = B := hf x (hx ▸ List.getElem_mem hlt)
      rw [List.drop_eq_getElem_cons hlt, hx, List.flatMap_cons]
      simpa using List.getElem?_append_left (by omega)

/-- A position inside a prefix is a position of the whole list. -/
theorem getElem?_of_prefix {l m : List α} (h : l <+: m) {j : Nat} (hj : j < l.length) :
    m[j]? = l[j]? := by
  rcases h with ⟨rest, rfl⟩
  exact List.getElem?_append_left hj

/-- A piece at the start of a block, read from a prefix that covers it. -/
theorem take_drop_of_prefix_blocks {l : List α} {ws : List β} (h : ws <+: l.flatMap f)
    (hf : ∀ x ∈ l, (f x).length = B) {k m : Nat} (hm : 0 < m) (hmB : m ≤ B)
    (hk : k * B + m ≤ ws.length) :
    ∃ x, l[k]? = some x ∧ (ws.drop (k * B)).take m = (f x).take m := by
  have hlen := h.length_le
  rw [length_flatMap_blocks hf] at hlen
  have hlt : k < l.length := by
    -- Past the last block the prefix would be longer than the list.
    by_contra hge
    have hmul : l.length * B ≤ k * B := Nat.mul_le_mul_right _ (Nat.le_of_not_lt hge)
    omega
  refine ⟨l[k], List.getElem?_eq_getElem hlt, ?_⟩
  rcases h with ⟨rest, hrest⟩
  have hfx : (f l[k]).length = B := hf _ (List.getElem_mem hlt)
  -- Behind the first `k` blocks both lists start with block `k`.
  have hdrop : ws.drop (k * B) ++ rest = f l[k] ++ (l.drop (k + 1)).flatMap f := by
    rw [← List.flatMap_cons, ← List.drop_eq_getElem_cons hlt, ← drop_flatMap_blocks hf, ← hrest,
      List.drop_append_of_le_length (by omega)]
  calc
    (ws.drop (k * B)).take m = (ws.drop (k * B) ++ rest).take m :=
      (List.take_append_of_le_length (by rw [List.length_drop]; omega)).symm
    _ = (f l[k]).take m := by
      rw [hdrop, List.take_append_of_le_length (by omega)]

/-- The pieces of a list, one after the other, are the list. -/
theorem flatMap_pieces (l : List α) (size count : Nat) (h : l.length = count * size) :
    (List.range count).flatMap (fun i => (l.drop (i * size)).take size) = l := by
  induction count generalizing l with
  | zero =>
      have hnil : l = [] := List.eq_nil_of_length_eq_zero (by simpa using h)
      simp [hnil]
  | succ count ih =>
      have htail := ih (l.drop size) (by
        rw [List.length_drop, h, Nat.succ_mul]
        omega)
      -- Piece `i + 1` of the list is piece `i` of what is behind its first piece.
      have hshift : ∀ i : Nat, (l.drop ((i + 1) * size)).take size =
          ((l.drop size).drop (i * size)).take size := by
        intro i
        rw [List.drop_drop, Nat.succ_mul, Nat.add_comm]
      rw [List.range_succ_eq_map, List.flatMap_cons, List.flatMap_map]
      simp only [hshift, Nat.zero_mul, List.drop_zero, htail]
      exact List.take_append_drop size l

/-! ## Cuttings -/

/-- `whole`, cut from its start into blocks of `B`, with `rest` left over. -/
structure Cut (B : Nat) (blocks : List (List α)) (rest whole : List α) : Prop where
  block : ∀ block ∈ blocks, block.length = B
  short : rest.length < B
  joined : blocks.flatten ++ rest = whole

namespace Cut

variable {blocks : List (List α)} {rest whole : List α}

theorem nil (h : whole.length < B) : Cut B [] whole whole :=
  ⟨by simp, h, by simp⟩

theorem cons (h : Cut B blocks rest (whole.drop B)) (hB : B ≤ whole.length) :
    Cut B (whole.take B :: blocks) rest whole := by
  refine ⟨?_, h.short, ?_⟩
  · intro block hblock
    rcases List.mem_cons.1 hblock with rfl | hblock
    · exact List.length_take_of_le hB
    · exact h.block block hblock
  · rw [List.flatten_cons, List.append_assoc, h.joined, List.take_append_drop]

/-- What is left over is cut on together with what comes after it. -/
theorem extend {more : List (List α)} {rest' next : List α} (h : Cut B blocks rest whole)
    (h' : Cut B more rest' (rest ++ next)) : Cut B (blocks ++ more) rest' (whole ++ next) := by
  refine ⟨?_, h'.short, ?_⟩
  · intro block hblock
    rcases List.mem_append.1 hblock with hblock | hblock
    · exact h.block block hblock
    · exact h'.block block hblock
  · calc
      (blocks ++ more).flatten ++ rest' = blocks.flatten ++ (more.flatten ++ rest') := by
        rw [List.flatten_append, List.append_assoc]
      _ = blocks.flatten ++ rest ++ next := by
        rw [h'.joined, List.append_assoc]
      _ = whole ++ next := by
        rw [h.joined]

theorem map (h : Cut B blocks rest whole) (g : α → β) :
    Cut B (blocks.map (List.map g)) (rest.map g) (whole.map g) := by
  refine ⟨?_, by simpa using h.short, ?_⟩
  · intro block hblock
    rcases List.mem_map.1 hblock with ⟨original, hmem, rfl⟩
    simpa using h.block original hmem
  · rw [← h.joined, List.map_append, List.map_flatten]

theorem unique {blocks' : List (List α)} {rest' : List α} (h : Cut B blocks rest whole)
    (h' : Cut B blocks' rest' whole) : blocks = blocks' ∧ rest = rest' := by
  induction blocks generalizing blocks' whole with
  | nil =>
      cases blocks' with
      | nil =>
          exact ⟨rfl, by simpa using h.joined.trans h'.joined.symm⟩
      | cons block' blocks' =>
          -- A whole block does not fit into what the other cutting leaves over.
          have hlen := congrArg List.length (h.joined.trans h'.joined.symm)
          have hblock := h'.block block' (by simp)
          have hshort := h.short
          simp [hblock] at hlen
          omega
  | cons block blocks ih =>
      cases blocks' with
      | nil =>
          have hlen := congrArg List.length (h.joined.trans h'.joined.symm)
          have hblock := h.block block (by simp)
          have hshort := h'.short
          simp [hblock] at hlen
          omega
      | cons block' blocks' =>
          have hsame : block ++ (blocks.flatten ++ rest) = block' ++ (blocks'.flatten ++ rest') := by
            simpa using h.joined.trans h'.joined.symm
          have hlen : block.length = block'.length :=
            (h.block block (by simp)).trans (h'.block block' (by simp)).symm
          rcases List.append_inj hsame hlen with ⟨rfl, htail⟩
          have hleft : Cut B blocks rest (blocks.flatten ++ rest) :=
            ⟨fun b hb => h.block b (by simp [hb]), h.short, rfl⟩
          have hright : Cut B blocks' rest' (blocks.flatten ++ rest) :=
            ⟨fun b hb => h'.block b (by simp [hb]), h'.short, htail.symm⟩
          rcases ih hleft hright with ⟨rfl, rfl⟩
          exact ⟨rfl, rfl⟩

end Cut

end Lib
end Sdr
