import Mathlib.Algebra.Order.Group.Nat
import Mathlib.Tactic.Ring
import Mathlib.Tactic.Positivity

/-!
# Struct — fixed little-endian records

A record format is a list of integer codes, each with a width in bytes and a signedness; it is laid
out little-endian with no padding, as Python's `struct` does for a format that starts with `<`.

* `pack` refuses a value that does not fit its code, `unpack` reads a record off the front of a byte
  string and ignores what follows;
* `unpack_pack` is the round trip and `pack_unpack` the one from the bytes, `length_of_pack` the size
  of a record, `getD_unpack` where in the bytes a value of it stands;
* `toBytes_add` cuts a wide integer into narrow ones, low part first.
-/

namespace Sdr
namespace Lib
namespace Struct

abbrev Byte := UInt8

/-! ## Unsigned little-endian integers -/

/-- The `n` low bytes of a natural number, least significant first. -/
def toBytes : Nat → Nat → List Byte
  | 0, _ => []
  | n + 1, v => UInt8.ofNat (v % 256) :: toBytes n (v / 256)

def ofBytes : List Byte → Nat
  | [] => 0
  | b :: bs => b.toNat + 256 * ofBytes bs

@[simp] theorem length_toBytes (n v : Nat) : (toBytes n v).length = n := by
  induction n generalizing v with
  | zero =>
      rfl
  | succ n ih =>
      simp [toBytes, ih]

theorem ofBytes_toBytes (n v : Nat) : ofBytes (toBytes n v) = v % 256 ^ n := by
  induction n generalizing v with
  | zero =>
      simp [toBytes, ofBytes, Nat.mod_one]
  | succ n ih =>
      -- The first byte is the residue modulo 256, the others are the quotient's.
      have hbyte : (UInt8.ofNat (v % 256)).toNat = v % 256 := by
        simp [UInt8.toNat_ofNat']
      rw [toBytes, ofBytes, ih, hbyte, Nat.pow_succ, Nat.mul_comm (256 ^ n) 256, Nat.mod_mul]

theorem toBytes_ofBytes (bs : List Byte) : toBytes bs.length (ofBytes bs) = bs := by
  induction bs with
  | nil =>
      rfl
  | cons b bs ih =>
      have hlt : b.toNat < 256 := b.toNat_lt
      have hlow : (b.toNat + 256 * ofBytes bs) % 256 = b.toNat := by
        omega
      have hhigh : (b.toNat + 256 * ofBytes bs) / 256 = ofBytes bs := by
        omega
      rw [List.length_cons, ofBytes, toBytes, hlow, hhigh, ih, UInt8.ofNat_toNat]

theorem ofBytes_lt (bs : List Byte) : ofBytes bs < 256 ^ bs.length := by
  induction bs with
  | nil =>
      simp [ofBytes]
  | cons b bs ih =>
      have hlt : b.toNat < 256 := b.toNat_lt
      rw [List.length_cons, ofBytes, Nat.pow_succ]
      omega

/-- A wide integer is its low part followed by its high part. -/
theorem toBytes_add (m n v : Nat) : toBytes (m + n) v = toBytes m v ++ toBytes n (v / 256 ^ m) := by
  induction m generalizing v with
  | zero =>
      simp [toBytes]
  | succ m ih =>
      have hdiv : v / 256 ^ (m + 1) = v / 256 / 256 ^ m := by
        rw [Nat.div_div_eq_div_mul, Nat.pow_succ, Nat.mul_comm]
      rw [Nat.succ_add, toBytes, toBytes, ih, hdiv]
      rfl

/-- Only the low part of an integer reaches its bytes. -/
theorem toBytes_mod (n v : Nat) : toBytes n (v % 256 ^ n) = toBytes n v := by
  induction n generalizing v with
  | zero =>
      rfl
  | succ n ih =>
      have hlow : v % 256 ^ (n + 1) % 256 = v % 256 :=
        Nat.mod_mod_of_dvd v (Dvd.intro_left (256 ^ n) rfl)
      have hhigh : v % 256 ^ (n + 1) / 256 = v / 256 % 256 ^ n := by
        rw [Nat.pow_succ, Nat.mul_comm, Nat.mod_mul_right_div_self]
      rw [toBytes, toBytes, hlow, hhigh, ih]

/-! ## Codes -/

/-- One integer of a record: how many bytes, and whether the top bit is a sign. -/
structure Code where
  bytes : Nat
  signed : Bool
  deriving DecidableEq, Repr

namespace Code

/-- `H`, `h`, `I` and `Q` of the format language. -/
def H : Code := { bytes := 2, signed := false }

def h : Code := { bytes := 2, signed := true }

def I : Code := { bytes := 4, signed := false }

def Q : Code := { bytes := 8, signed := false }

/-- How many values a code of this width has. -/
def range (c : Code) : Int :=
  256 ^ c.bytes

/-- The values a code can carry. -/
def Fits (c : Code) (v : Int) : Prop :=
  if c.signed then -(c.range / 2) ≤ v ∧ v < c.range / 2 else 0 ≤ v ∧ v < c.range

instance (c : Code) (v : Int) : Decidable (c.Fits v) :=
  inferInstanceAs (Decidable
    (if c.signed then -(c.range / 2) ≤ v ∧ v < c.range / 2 else 0 ≤ v ∧ v < c.range))

theorem fits_H {v : Int} : H.Fits v ↔ 0 ≤ v ∧ v < 2 ^ 16 := Iff.rfl

theorem fits_I {v : Int} : I.Fits v ↔ 0 ≤ v ∧ v < 2 ^ 32 := Iff.rfl

theorem fits_Q {v : Int} : Q.Fits v ↔ 0 ≤ v ∧ v < 2 ^ 64 := Iff.rfl

def encode (c : Code) (v : Int) : List Byte :=
  toBytes c.bytes (v % c.range).toNat

def decode (c : Code) (bs : List Byte) : Int :=
  if c.signed = true ∧ c.range / 2 ≤ ofBytes bs then (ofBytes bs : Int) - c.range else ofBytes bs

theorem range_pos (c : Code) : 0 < c.range := by
  unfold range
  positivity

@[simp] theorem length_encode (c : Code) (v : Int) : (c.encode v).length = c.bytes := by
  simp [encode]

theorem ofBytes_encode (c : Code) (v : Int) : (ofBytes (c.encode v) : Int) = v % c.range := by
  have hpos := c.range_pos
  have hnonneg : 0 ≤ v % c.range := Int.emod_nonneg v (by omega)
  have hlt : v % c.range < c.range := Int.emod_lt_of_pos v hpos
  -- The residue is taken in the integers and laid out as a natural number.
  have hcast : ((256 ^ c.bytes : Nat) : Int) = c.range := by
    simp [range]
  have hnat : (v % c.range).toNat < 256 ^ c.bytes := by
    omega
  rw [encode, ofBytes_toBytes, Nat.mod_eq_of_lt hnat]
  exact Int.toNat_of_nonneg hnonneg

theorem decode_encode {c : Code} {v : Int} (hv : c.Fits v) : c.decode (c.encode v) = v := by
  have hpos := c.range_pos
  have hvalue := c.ofBytes_encode v
  unfold Fits at hv
  unfold decode
  rw [hvalue]
  cases hs : c.signed with
  | false =>
      rw [hs] at hv
      simp only [Bool.false_eq_true, if_false] at hv
      simp [Int.emod_eq_of_lt hv.1 hv.2]
  | true =>
      rw [hs] at hv
      simp only [if_true] at hv
      by_cases hneg : v < 0
      · -- A negative value is stored shifted up by the range of the code.
        have hmod : v % c.range = v + c.range := by
          rw [← Int.add_emod_right]
          exact Int.emod_eq_of_lt (by omega) (by omega)
        rw [hmod, if_pos ⟨rfl, by omega⟩]
        omega
      · have hmod : v % c.range = v := Int.emod_eq_of_lt (by omega) (by omega)
        rw [hmod, if_neg (by omega)]

theorem ofBytes_lt_range {c : Code} {bs : List Byte} (hbs : bs.length = c.bytes) :
    (ofBytes bs : Int) < c.range := by
  have hlt := ofBytes_lt bs
  rw [hbs] at hlt
  unfold range
  exact_mod_cast hlt

/-- Any bytes of the right number are a value of the code. -/
theorem fits_decode {c : Code} {bs : List Byte} (hc : 0 < c.bytes) (hbs : bs.length = c.bytes) :
    c.Fits (c.decode bs) := by
  have hlt := ofBytes_lt_range hbs
  -- The range is even, so that its two halves are as many negative as other values.
  have heven : c.range / 2 * 2 = c.range := by
    rcases Nat.exists_eq_add_of_lt hc with ⟨n, hn⟩
    have hrange : c.range = 256 ^ n * 256 := by
      rw [range, hn, Nat.zero_add, Int.pow_succ]
    omega
  unfold Fits decode
  cases c.signed with
  | false =>
      simp only [Bool.false_eq_true, false_and, if_false]
      omega
  | true =>
      simp only [true_and, if_true]
      split_ifs <;> omega

theorem encode_decode {c : Code} {bs : List Byte} (hbs : bs.length = c.bytes) :
    c.encode (c.decode bs) = bs := by
  have hlt := ofBytes_lt_range hbs
  have hmod : c.decode bs % c.range = ofBytes bs := by
    unfold decode
    split_ifs
    · rw [Int.sub_emod_right, Int.emod_eq_of_lt (by omega) hlt]
    · exact Int.emod_eq_of_lt (by omega) hlt
  rw [encode, hmod, Int.toNat_natCast, ← hbs, toBytes_ofBytes]

/-- An unsigned code reads its bytes as they are. -/
theorem decode_unsigned {c : Code} (hc : c.signed = false) (bs : List Byte) :
    c.decode bs = ofBytes bs := by
  simp [decode, hc]

theorem range_eq_natCast (c : Code) : c.range = ((256 ^ c.bytes : Nat) : Int) := by
  simp [range]

theorem fits_natCast {c : Code} (hc : c.signed = false) {n : Nat} (h : n < 256 ^ c.bytes) :
    c.Fits n := by
  have hrange := c.range_eq_natCast
  unfold Fits
  rw [hc, hrange]
  simp only [Bool.false_eq_true, if_false]
  omega

theorem encode_natCast (c : Code) (n : Nat) : c.encode n = toBytes c.bytes n := by
  have hmod : ((n : Int) % c.range).toNat = n % 256 ^ c.bytes := by
    rw [range_eq_natCast, ← Int.natCast_mod, Int.toNat_natCast]
  rw [encode, hmod, toBytes_mod]

/-- A register fits the code of its width. -/
theorem fits_toNat {w : Nat} {c : Code} (x : BitVec w) (hc : c.signed = false)
    (hw : w = 8 * c.bytes) : c.Fits x.toNat := by
  have hpow : (2 : Nat) ^ w = 256 ^ c.bytes := by
    rw [hw, Nat.pow_mul]
  refine fits_natCast hc ?_
  rw [← hpow]
  exact x.isLt

theorem fits_toInt (x : BitVec 16) : h.Fits x.toInt := by
  have hlow := BitVec.le_toInt x
  have hhigh := BitVec.toInt_lt (x := x)
  have hrange : h.range = 65536 := by decide
  unfold Fits
  rw [hrange]
  simp only [h, if_true]
  omega

/-- A signed code lays a register out as the unsigned one does. -/
theorem encode_toInt (x : BitVec 16) : h.encode x.toInt = toBytes 2 x.toNat := by
  have hx := x.isLt
  have hrange : h.range = 65536 := by decide
  have hmod : (x.toInt % 65536).toNat = x.toNat := by
    rw [BitVec.toInt_eq_toNat_cond]
    split
    all_goals omega
  rw [encode, hrange, hmod]
  rfl

end Code

/-! ## Records -/

/-- `none` when the values do not match the codes in number or do not fit them. -/
def pack : List Code → List Int → Option (List Byte)
  | [], [] => some []
  | c :: cs, v :: vs =>
      if c.Fits v then
        match pack cs vs with
        | some bs => some (c.encode v ++ bs)
        | none => none
      else
        none
  | _, _ => none

/-- Reads a record off the front of a byte string that is long enough. -/
def unpack : List Code → List Byte → List Int
  | [], _ => []
  | c :: cs, bs => c.decode (bs.take c.bytes) :: unpack cs (bs.drop c.bytes)

/-- Size of a record in bytes. -/
def size (cs : List Code) : Nat :=
  (cs.map Code.bytes).sum

theorem pack_cons_eq_some {c : Code} {cs : List Code} {v : Int} {vs : List Int} {bs : List Byte} :
    pack (c :: cs) (v :: vs) = some bs ↔
      c.Fits v ∧ ∃ tail, pack cs vs = some tail ∧ bs = c.encode v ++ tail := by
  constructor
  · intro h
    by_cases hv : c.Fits v
    · cases htail : pack cs vs with
      | none =>
          simp [pack, hv, htail] at h
      | some tail =>
          refine ⟨hv, tail, rfl, ?_⟩
          simpa [pack, hv, htail] using h.symm
    · simp [pack, hv] at h
  · rintro ⟨hv, tail, htail, rfl⟩
    simp [pack, hv, htail]

/-- Values that fit their codes are packed one after the other. -/
theorem pack_of_fits {cs : List Code} {vs : List Int} (h : List.Forall₂ Code.Fits cs vs) :
    pack cs vs = some (List.zipWith Code.encode cs vs).flatten := by
  induction h with
  | nil =>
      rfl
  | cons hv _ ih =>
      exact pack_cons_eq_some.2 ⟨hv, _, ih, rfl⟩

theorem length_of_pack {cs : List Code} {vs : List Int} {bs : List Byte}
    (h : pack cs vs = some bs) : bs.length = size cs := by
  induction cs generalizing vs bs with
  | nil =>
      cases vs with
      | nil =>
          simp [pack] at h
          simp [h, size]
      | cons v vs =>
          simp [pack] at h
  | cons c cs ih =>
      cases vs with
      | nil =>
          simp [pack] at h
      | cons v vs =>
          rcases pack_cons_eq_some.1 h with ⟨_, tail, htail, rfl⟩
          have hlen := ih htail
          simp [size] at hlen ⊢
          omega

/-- What was packed is read back, whatever bytes follow it. -/
theorem unpack_pack {cs : List Code} {vs : List Int} {bs : List Byte} (rest : List Byte)
    (h : pack cs vs = some bs) : unpack cs (bs ++ rest) = vs := by
  induction cs generalizing vs bs with
  | nil =>
      cases vs with
      | nil =>
          rfl
      | cons v vs =>
          simp [pack] at h
  | cons c cs ih =>
      cases vs with
      | nil =>
          simp [pack] at h
      | cons v vs =>
          rcases pack_cons_eq_some.1 h with ⟨hv, tail, htail, rfl⟩
          -- The first value is cut off at its width, so the rest of the record starts right behind it.
          have hlen : (c.encode v).length = c.bytes := c.length_encode v
          rw [unpack, List.append_assoc, List.take_left' hlen, List.drop_left' hlen,
            Code.decode_encode hv, ih htail]

@[simp] theorem length_unpack (cs : List Code) (bs : List Byte) :
    (unpack cs bs).length = cs.length := by
  induction cs generalizing bs with
  | nil =>
      rfl
  | cons c cs ih =>
      simp [unpack, ih]

/-- Reading a record and packing it again gives back its bytes. -/
theorem pack_unpack {cs : List Code} {bs : List Byte} (hcs : ∀ c ∈ cs, 0 < c.bytes)
    (hbs : size cs ≤ bs.length) : pack cs (unpack cs bs) = some (bs.take (size cs)) := by
  induction cs generalizing bs with
  | nil =>
      simp [pack, unpack, size]
  | cons c cs ih =>
      have hsize : size (c :: cs) = c.bytes + size cs := by
        simp [size]
      have hlen : (bs.take c.bytes).length = c.bytes := by
        rw [List.length_take]
        omega
      have htail : pack cs (unpack cs (bs.drop c.bytes)) = some ((bs.drop c.bytes).take (size cs)) :=
        ih (fun c' hc' => hcs c' (List.mem_cons_of_mem c hc')) (by rw [List.length_drop]; omega)
      refine pack_cons_eq_some.2
        ⟨Code.fits_decode (hcs c List.mem_cons_self) hlen, _, htail, ?_⟩
      rw [Code.encode_decode hlen, hsize, List.take_add]

/-- The bytes of a record from `offset` on, as many as a value of the record takes. -/
def bytesAt (bs : List Byte) (offset width : Nat) : List Byte :=
  (bs.drop offset).take width

/-- A value stands behind the values before it. -/
theorem getD_unpack {cs : List Code} {i : Nat} {c : Code} (hc : cs[i]? = some c) (bs : List Byte) :
    (unpack cs bs).getD i 0 = c.decode (bytesAt bs (size (cs.take i)) c.bytes) := by
  induction cs generalizing i bs with
  | nil =>
      simp at hc
  | cons c' cs ih =>
      cases i with
      | zero =>
          have hhead : c' = c := by
            simpa using hc
          simp [unpack, bytesAt, size, hhead]
      | succ i =>
          have hrest := ih (List.getElem?_cons_succ.symm.trans hc) (bs.drop c'.bytes)
          rw [unpack, List.getD_cons_succ, hrest]
          simp [bytesAt, size, List.drop_drop]

end Struct
end Lib
end Sdr
