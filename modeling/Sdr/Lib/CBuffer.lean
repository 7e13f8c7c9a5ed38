import Sdr.Lib.CString

/-!
# CBuffer — character arrays with checked access

A C array of characters of a fixed size.  A store outside the array, or reading a string that no NUL
ends, has no meaning in C; here it is `none`, so that a function that returns `some` has done neither.

* `store` and `read` are the two accesses, `storeAll` and `snprintf` are made of stores;
* `overwrite` is what a row of stores that stays inside leaves (`storeAll_eq`), and
  `read_overwrite` reads back a string that was written.
-/

namespace Sdr
namespace Lib

def nul : Char := '\x00'

/-- `char name[size]`. -/
@[ext]
structure CBuffer (size : Nat) where
  bytes : List Char
  length_bytes : bytes.length = size
  deriving DecidableEq, Repr

namespace CBuffer

variable {size : Nat}

/-- The array after `memset(…, 0, …)`. -/
def zeroed (size : Nat) : CBuffer size where
  bytes := List.replicate size nul
  length_bytes := List.length_replicate

/-- `b[i] = c`. -/
def store (b : CBuffer size) (i : Nat) (c : Char) : Option (CBuffer size) :=
  if i < size then
    some { bytes := b.bytes.set i c, length_bytes := by rw [List.length_set, b.length_bytes] }
  else
    none

/-- `b[i]`. -/
def load (b : CBuffer size) (i : Nat) : Option Char :=
  b.bytes[i]?

/-- A NUL ends the string in the array. -/
def Terminated (b : CBuffer size) : Prop :=
  nul ∈ b.bytes

instance (b : CBuffer size) : Decidable b.Terminated :=
  inferInstanceAs (Decidable (nul ∈ b.bytes))

/-- The array used as a string. -/
def read (b : CBuffer size) : Option CString :=
  if b.Terminated then some (b.bytes.takeWhile (· ≠ nul)) else none

/-- One store after the other, from `i` on. -/
def storeAll (b : CBuffer size) (i : Nat) : CString → Option (CBuffer size)
  | [] => some b
  | c :: text => (b.store i c).bind fun b => b.storeAll (i + 1) text

/-- `snprintf(b, n, …)` where the format comes to `text`: as much of it as leaves room for the NUL,
and the length it would have had. -/
def snprintf (b : CBuffer size) (n : Nat) (text : CString) : Option (CBuffer size × Nat) :=
  if n = 0 then
    some (b, text.length)
  else
    (b.storeAll 0 (text.take (n - 1) ++ [nul])).map fun b => (b, text.length)

/-! ## What a row of stores leaves -/

/-- The list with `text` in the place of its elements from `i` on. -/
def setFrom (bytes : List Char) (i : Nat) : CString → List Char
  | [] => bytes
  | c :: text => setFrom (bytes.set i c) (i + 1) text

@[simp] theorem length_setFrom (bytes : List Char) (i : Nat) (text : CString) :
    (setFrom bytes i text).length = bytes.length := by
  induction text generalizing bytes i with
  | nil =>
      rfl
  | cons c text ih =>
      rw [setFrom, ih, List.length_set]

theorem setFrom_append (bytes : List Char) (i : Nat) (s t : CString) :
    setFrom bytes i (s ++ t) = setFrom (setFrom bytes i s) (i + s.length) t := by
  induction s generalizing bytes i with
  | nil =>
      rfl
  | cons c s ih =>
      rw [List.cons_append, setFrom, ih, setFrom, List.length_cons, Nat.add_assoc, Nat.add_comm 1]

/-- Text that fits takes the place of what stood there. -/
theorem setFrom_eq {bytes : List Char} {i : Nat} {text : CString}
    (h : i + text.length ≤ bytes.length) :
    setFrom bytes i text = bytes.take i ++ text ++ bytes.drop (i + text.length) := by
  induction text generalizing bytes i with
  | nil =>
      simp [setFrom]
  | cons c text ih =>
      rw [List.length_cons] at h
      have hset : (bytes.set i c).take (i + 1) = bytes.take i ++ [c] := by
        rw [List.take_add_one, List.take_set_of_le (Nat.le_refl i),
          List.getElem?_set_self (by omega)]
        rfl
      rw [setFrom, ih (by rw [List.length_set]; omega), hset, List.drop_set_of_lt (by omega),
        List.length_cons]
      simp [Nat.add_assoc, Nat.add_comm 1]

def overwrite (b : CBuffer size) (i : Nat) (text : CString) : CBuffer size where
  bytes := setFrom b.bytes i text
  length_bytes := by rw [length_setFrom, b.length_bytes]

theorem bytes_overwrite {b : CBuffer size} {i : Nat} {text : CString} (h : i + text.length ≤ size) :
    (b.overwrite i text).bytes = b.bytes.take i ++ text ++ b.bytes.drop (i + text.length) :=
  setFrom_eq (by rw [b.length_bytes]; exact h)

theorem store_eq {b : CBuffer size} {i : Nat} (h : i < size) (c : Char) :
    b.store i c = some (b.overwrite i [c]) := by
  rw [store, if_pos h]
  rfl

theorem overwrite_append (b : CBuffer size) (i : Nat) (s t : CString) :
    b.overwrite i (s ++ t) = (b.overwrite i s).overwrite (i + s.length) t := by
  simp only [overwrite, setFrom_append]

theorem storeAll_eq {b : CBuffer size} {i : Nat} {text : CString} (h : i + text.length ≤ size) :
    b.storeAll i text = some (b.overwrite i text) := by
  induction text generalizing b i with
  | nil =>
      rfl
  | cons c text ih =>
      rw [List.length_cons] at h
      rw [storeAll, store_eq (by omega), Option.bind_some, ih (by omega)]
      rfl

/-- A string as a function that ends it leaves it at the start of an array. -/
def put (b : CBuffer size) (text : CString) : CBuffer size :=
  b.overwrite 0 (text ++ [nul])

theorem bytes_put {b : CBuffer size} {text : CString} (h : text.length < size) :
    (b.put text).bytes = text ++ nul :: b.bytes.drop (text.length + 1) := by
  have hfit : 0 + (text ++ [nul]).length ≤ size := by
    rw [List.length_append, List.length_singleton]
    omega
  rw [put, bytes_overwrite hfit]
  simp

theorem terminated_put {b : CBuffer size} {text : CString} (h : text.length < size) :
    (b.put text).Terminated := by
  rw [Terminated, bytes_put h]
  simp

theorem read_of_bytes {b : CBuffer size} {text rest : CString} (hb : b.bytes = text ++ nul :: rest)
    (hnul : nul ∉ text) : b.read = some text := by
  have hterm : b.Terminated := by
    rw [Terminated, hb]
    simp
  have hne : ∀ c ∈ text, decide (c ≠ nul) = true := by
    intro c hc
    exact decide_eq_true fun heq => hnul (heq ▸ hc)
  rw [read, if_pos hterm, hb, List.takeWhile_append_of_pos hne]
  simp

theorem read_put {b : CBuffer size} {text : CString} (h : text.length < size) (hnul : nul ∉ text) :
    (b.put text).read = some text :=
  read_of_bytes (bytes_put h) hnul

theorem load_put_last {b : CBuffer size} {text : CString} (hne : text ≠ [])
    (h : text.length < size) : (b.put text).load (text.length - 1) = text.getLast? := by
  have hpos := List.length_pos_of_ne_nil hne
  rw [load, bytes_put h, List.getElem?_append_left (by omega), List.getLast?_eq_getElem?]

/-- A NUL over the last character of a string takes it off. -/
theorem read_store_last {b : CBuffer size} {text : CString} (hne : text ≠ [])
    (h : text.length < size) (hnul : nul ∉ text) :
    ∃ b', (b.put text).store (text.length - 1) nul = some b' ∧ b'.read = some text.dropLast := by
  have hpos := List.length_pos_of_ne_nil hne
  have hfit : text.length - 1 + [nul].length ≤ size := by
    rw [List.length_singleton]
    omega
  have hbytes : ((b.put text).overwrite (text.length - 1) [nul]).bytes =
      text.dropLast ++ nul :: nul :: b.bytes.drop (text.length + 1) := by
    rw [bytes_overwrite hfit, bytes_put h, List.take_append_of_le_length (by omega),
      ← List.dropLast_eq_take, List.length_singleton, Nat.sub_add_cancel hpos, List.drop_left]
    simp
  refine ⟨_, store_eq (by omega) nul, read_of_bytes hbytes ?_⟩
  exact fun hmem => hnul (List.dropLast_subset text hmem)

/-- The first characters of a string that was put. -/
theorem take_put {b : CBuffer size} {text : CString} (h : text.length < size) :
    (b.put text).bytes.take text.length = text := by
  rw [bytes_put h, List.take_left]

/-- What was put last is there. -/
theorem put_overwrite {b : CBuffer size} {s t : CString} (hst : s.length ≤ t.length + 1)
    (h : t.length < size) : (b.overwrite 0 s).put t = b.put t := by
  have hs : 0 + s.length ≤ size := by
    omega
  apply CBuffer.ext
  rw [bytes_put h, bytes_put h, bytes_overwrite hs]
  simp only [List.take_zero, List.nil_append, Nat.zero_add]
  rw [List.drop_append, List.drop_eq_nil_of_le (by omega), List.nil_append, List.drop_drop]
  congr 3
  omega

/-! ## Reading -/

theorem nul_notMem_of_read {b : CBuffer size} {text : CString} (h : b.read = some text) :
    nul ∉ text := by
  unfold read at h
  split_ifs at h
  rw [← Option.some.inj h]
  intro hmem
  exact absurd (List.all_eq_true.1 List.all_takeWhile nul hmem) (by decide)

theorem terminated_of_read {b : CBuffer size} {text : CString} (h : b.read = some text) :
    b.Terminated := by
  unfold read at h
  split_ifs at h with hnul
  exact hnul

/-- A NUL that was stored ends a string. -/
theorem read_of_store {b b' : CBuffer size} {i : Nat} (h : b.store i nul = some b') :
    ∃ text, b'.read = some text := by
  unfold store at h
  split_ifs at h with hi
  have hmem : b'.Terminated := by
    rw [← Option.some.inj h, Terminated]
    exact List.mem_set (by rw [b.length_bytes]; exact hi) nul
  exact ⟨_, if_pos hmem⟩

/-- A NUL behind some characters ends the string that they begin. -/
theorem read_overwrite_nul {b : CBuffer size} {i : Nat} (h : i < size) :
    (b.overwrite i [nul]).read = some ((b.bytes.take i).takeWhile (· ≠ nul)) := by
  have hbytes : (b.overwrite i [nul]).bytes = b.bytes.take i ++ nul :: b.bytes.drop (i + 1) := by
    rw [bytes_overwrite (show i + [nul].length ≤ size from h), List.append_assoc]
    rfl
  have hterm : (b.overwrite i [nul]).Terminated := by
    rw [Terminated, hbytes]
    simp
  rw [read, if_pos hterm, hbytes, List.takeWhile_append]
  split_ifs with hall
  · rw [List.takeWhile_cons_of_neg (by simp), List.append_nil]
    exact congrArg some (List.takeWhile_prefix _ |>.eq_of_length hall).symm
  · rfl

/-! ## Formatting -/

/-- The array of `n` characters holds what fits of the text. -/
theorem snprintf_eq {b : CBuffer size} (hsize : size ≠ 0) (text : CString) :
    b.snprintf size text = some (b.put (text.take (size - 1)), text.length) := by
  have hfit : 0 + (text.take (size - 1) ++ [nul]).length ≤ size := by
    simp only [List.length_append, List.length_take, List.length_singleton]
    omega
  rw [snprintf, if_neg hsize, storeAll_eq hfit]
  rfl

end CBuffer

end Lib
end Sdr
