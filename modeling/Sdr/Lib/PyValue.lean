import Mathlib.Algebra.Group.Int.Defs
import Mathlib.Algebra.Group.Nat.Defs
import Mathlib.Data.List.Basic

/-!
# PyValue — Python's text and the values of a JSON document

A Python string is a list of code points, lone surrogates included; a float is its sign, mantissa and
exponent, or one of the values that are no number.  `PyValue` is what `json.loads` can return.

* `pyInt`, `pyBool` and `pyStr` are `int(x)`, `bool(x)` and `str(x)` at such a value, with the
  exceptions `int` raises and their messages;
* `PyTables` holds what these take from the Unicode database and from the float formatter.
-/

namespace Sdr
namespace Lib

/-! ## Text -/

/-- A code point; the surrogates `U+D800` to `U+DFFF` are among them. -/
abbrev CodePoint := Fin 0x110000

instance codePoint_neZero : @NeZero Nat Zero.ofOfNat0 0x110000 := ⟨by decide⟩

instance codePoint_lawfulBEq : LawfulBEq CodePoint := inferInstance

abbrev PyStr := List CodePoint

def CodePoint.ofChar (c : Char) : CodePoint :=
  ⟨c.toNat, by
    rcases c.valid with h | h
    · exact Nat.lt_trans h (by decide)
    · exact h.2⟩

/-- A text without surrogates as a Python string. -/
def py (text : String) : PyStr :=
  text.toList.map CodePoint.ofChar

def isSurrogate (c : CodePoint) : Bool :=
  decide (0xD800 ≤ c.val) && decide (c.val ≤ 0xDFFF)

theorem CodePoint.ofChar_injective : Function.Injective CodePoint.ofChar := by
  intro a b h
  have hval : a.toNat = b.toNat := by
    simpa [CodePoint.ofChar] using h
  exact Char.toNat_inj.1 hval

@[simp] theorem py_inj {a b : String} : py a = py b ↔ a = b := by
  rw [py, py, List.map_inj_right (fun _ _ h => CodePoint.ofChar_injective h), String.toList_inj]

theorem isSurrogate_ofChar (c : Char) : isSurrogate (CodePoint.ofChar c) = false := by
  have hval : (CodePoint.ofChar c).val = c.toNat := rfl
  have hvalid : c.toNat < 0xD800 ∨ 0xDFFF < c.toNat ∧ c.toNat < 0x110000 := c.valid
  unfold isSurrogate
  rw [hval, Bool.and_eq_false_iff, decide_eq_false_iff_not, decide_eq_false_iff_not]
  omega

/-- No code point of a text is a surrogate. -/
def Encodable (s : PyStr) : Prop :=
  ∀ c ∈ s, isSurrogate c = false

-- By going through the text, not through all code points.
instance (s : PyStr) : Decidable (Encodable s) :=
  decidable_of_iff (s.all (fun c => !isSurrogate c) = true) (by simp [Encodable])

theorem encodable_py (text : String) : Encodable (py text) := by
  intro c hc
  rcases List.mem_map.1 hc with ⟨ch, _, rfl⟩
  exact isSurrogate_ofChar ch

@[simp] theorem encodable_append {s t : PyStr} : Encodable (s ++ t) ↔ Encodable s ∧ Encodable t := by
  simp only [Encodable, List.mem_append, or_imp, forall_and]

theorem newline_mem_py {text : String} : (0x0A : CodePoint) ∈ py text ↔ '\n' ∈ text.toList := by
  have hnewline : CodePoint.ofChar '\n' = 0x0A := rfl
  rw [py, ← hnewline, List.mem_map_of_injective CodePoint.ofChar_injective]

/-- The decimal digits of an integer. -/
def decimalText (n : Int) : PyStr :=
  py (toString n)

theorem newline_notMem_decimalText (n : Int) : (0x0A : CodePoint) ∉ decimalText n := by
  have hdigits (m : Nat) : '\n' ∉ Nat.toDigits 10 m := by
    intro h
    exact absurd (Nat.isDigit_of_mem_toDigits (by decide) (by decide) h) (by decide)
  rw [decimalText, newline_mem_py]
  cases n with
  | ofNat m =>
      show '\n' ∉ (Nat.repr m).toList
      rw [Nat.toList_repr]
      exact hdigits m
  | negSucc m =>
      show '\n' ∉ ("-" ++ Nat.repr (m + 1)).toList
      rw [String.toList_append, Nat.toList_repr]
      intro h
      rcases List.mem_append.1 h with h | h
      · exact absurd h (by decide)
      · exact hdigits (m + 1) h

/-! ## Floats -/

/-- A float that is a number is `mantissa * 2 ^ exponent` with its sign, which a zero has too. -/
inductive PyFloat
  | finite (negative : Bool) (mantissa : Nat) (exponent : Int)
  | infinity (negative : Bool)
  | nan
  deriving DecidableEq, Repr

/-! ## Exceptions -/

/-- The exceptions that conversions, lookups, divisions, packing and sockets raise. -/
inductive PyError
  | typeError (message : PyStr)
  | valueError (message : PyStr)
  | overflowError (message : PyStr)
  | keyError (key : PyStr)
  | zeroDivisionError
  | structError
  | osError
  deriving DecidableEq, Repr

namespace PyFloat

def signed (negative : Bool) (n : Nat) : Int :=
  if negative then -(n : Int) else n

/-- `int(x)`: towards zero. -/
def toInt : PyFloat → Except PyError Int
  | .finite negative mantissa exponent =>
      .ok (signed negative
        (if 0 ≤ exponent then mantissa * 2 ^ exponent.toNat else mantissa / 2 ^ (-exponent).toNat))
  | .infinity _ => .error (.overflowError (py "cannot convert float infinity to integer"))
  | .nan => .error (.valueError (py "cannot convert float NaN to integer"))

/-- `x == n`. -/
def eqInt (n : Int) : PyFloat → Bool
  | .finite negative mantissa exponent =>
      if 0 ≤ exponent then signed negative (mantissa * 2 ^ exponent.toNat) == n
      else signed negative mantissa == n * 2 ^ (-exponent).toNat
  | _ => false

def isZero : PyFloat → Bool
  | .finite _ mantissa _ => mantissa == 0
  | _ => false

/-- The bits of a quotient below its leading 53 are rounded away, ties to even. -/
def roundQuotient (numerator denominator : Nat) : Nat :=
  let quotient := numerator / denominator
  let remainder := numerator % denominator
  if 2 * remainder < denominator then quotient
  else if 2 * remainder > denominator then quotient + 1
  else if quotient % 2 = 0 then quotient
  else quotient + 1

/-- The double nearest to `numerator / denominator`: 53 bits of mantissa, exponents from -1074 to
971, infinity beyond them. -/
def nearest (negative : Bool) (numerator denominator : Nat) : PyFloat :=
  if numerator = 0 then .finite negative 0 0
  else
    -- The exponent that leaves 53 bits before the point, or one more.
    let exponent : Int := max (-1074) ((Nat.log2 numerator : Int) - Nat.log2 denominator - 53)
    let scaled (e : Int) : Nat :=
      if 0 ≤ e then roundQuotient numerator (denominator * 2 ^ e.toNat)
      else roundQuotient (numerator * 2 ^ (-e).toNat) denominator
    let exponent := if scaled exponent < 2 ^ 53 then exponent else exponent + 1
    let mantissa := scaled exponent
    if exponent < 971 ∨ (exponent = 971 ∧ mantissa < 2 ^ 53) then
      .finite negative mantissa exponent
    else
      .infinity negative

/-- The float of a decimal literal `digits * 10 ^ exponent`. -/
def ofDecimal (negative : Bool) (digits : Nat) (exponent : Int) : PyFloat :=
  if 0 ≤ exponent then nearest negative (digits * 10 ^ exponent.toNat) 1
  else nearest negative digits (10 ^ (-exponent).toNat)

example : ofDecimal false 25 (-1) = .finite false 0x14000000000000 (-51) := by decide +kernel

example : ofDecimal true 1 999 = .infinity true := by decide +kernel

end PyFloat

/-! ## Values -/

/-- A dictionary lists its entries in the order their keys were first set. -/
inductive PyValue
  | none
  | bool (b : Bool)
  | int (n : Int)
  | float (f : PyFloat)
  | str (s : PyStr)
  | list (items : List PyValue)
  | dict (entries : List (PyStr × PyValue))
  deriving Repr

abbrev PyDict := List (PyStr × PyValue)

namespace PyValue

mutual

def beq : PyValue → PyValue → Bool
  | .none, .none => true
  | .bool a, .bool b => a == b
  | .int a, .int b => a == b
  | .float a, .float b => a == b
  | .str a, .str b => a == b
  | .list a, .list b => beqItems a b
  | .dict a, .dict b => beqEntries a b
  | _, _ => false

def beqItems : List PyValue → List PyValue → Bool
  | [], [] => true
  | a :: as, b :: bs => beq a b && beqItems as bs
  | _, _ => false

def beqEntries : List (PyStr × PyValue) → List (PyStr × PyValue) → Bool
  | [], [] => true
  | (k, a) :: as, (l, b) :: bs => k == l && beq a b && beqEntries as bs
  | _, _ => false

end

mutual

theorem beq_iff : ∀ a b : PyValue, beq a b = true ↔ a = b
  | .none, b => by cases b <;> simp [beq]
  | .bool a, b => by cases b <;> simp [beq]
  | .int a, b => by cases b <;> simp [beq]
  | .float a, b => by cases b <;> simp [beq]
  | .str a, b => by cases b <;> simp [beq]
  | .list as, b => by
      cases b with
      | list bs => simp [beq, beqItems_iff as bs]
      | _ => simp [beq]
  | .dict as, b => by
      cases b with
      | dict bs => simp [beq, beqEntries_iff as bs]
      | _ => simp [beq]

theorem beqItems_iff : ∀ as bs : List PyValue, beqItems as bs = true ↔ as = bs
  | [], bs => by cases bs <;> simp [beqItems]
  | a :: as, bs => by
      cases bs with
      | nil => simp [beqItems]
      | cons b bs => simp [beqItems, beq_iff a b, beqItems_iff as bs]

theorem beqEntries_iff : ∀ as bs : List (PyStr × PyValue), beqEntries as bs = true ↔ as = bs
  | [], bs => by cases bs <;> simp [beqEntries]
  | (k, a) :: as, bs => by
      cases bs with
      | nil => simp [beqEntries]
      | cons entry bs =>
          rcases entry with ⟨l, b⟩
          simp [beqEntries, beq_iff a b, beqEntries_iff as bs]

end

instance : DecidableEq PyValue :=
  fun a b => decidable_of_iff (beq a b = true) (beq_iff a b)

end PyValue

namespace PyDict

/-- `d.get(key)`, `none` for a key that is not there. -/
def get? (d : PyDict) (key : String) : Option PyValue :=
  d.lookup (py key)

/-- `d.get(key, default)`. -/
def getD (d : PyDict) (key : String) (default : PyValue) : PyValue :=
  (d.get? key).getD default

/-- `d[key] = value`. -/
def set (d : PyDict) (key : PyStr) (value : PyValue) : PyDict :=
  if (List.lookup key d).isSome then
    d.map (fun entry => if entry.1 = key then (key, value) else entry)
  else
    d ++ [(key, value)]

/-- `{**d, **e}`: the keys of `d` keep their places, the new ones follow in the order of `e`. -/
def update (d e : PyDict) : PyDict :=
  d.map (fun entry => (entry.1, (List.lookup entry.1 e).getD entry.2)) ++
    e.filter (fun entry => (List.lookup entry.1 d).isNone)

section Update

variable {κ : Type} {ν : Type} [BEq κ] [LawfulBEq κ]

theorem lookup_map_value (f : κ → ν → ν) (d : List (κ × ν)) (key : κ) :
    (d.map (fun entry => (entry.1, f entry.1 entry.2))).lookup key = (d.lookup key).map (f key) := by
  induction d with
  | nil =>
      rfl
  | cons entry d ih =>
      rcases entry with ⟨k, v⟩
      rw [List.map_cons, List.lookup_cons, List.lookup_cons]
      cases h : key == k with
      | false =>
          simpa using ih
      | true =>
          rw [eq_of_beq h]
          rfl

theorem lookup_filter_key (p : κ → Bool) (d : List (κ × ν)) {key : κ} (hkey : p key = true) :
    (d.filter (fun entry => p entry.1)).lookup key = d.lookup key := by
  induction d with
  | nil =>
      rfl
  | cons entry d ih =>
      rcases entry with ⟨k, v⟩
      rw [List.filter_cons, List.lookup_cons]
      cases h : key == k with
      | false =>
          -- Another entry is passed over, whether it was kept or not.
          cases hp : p k with
          | false =>
              simpa using ih
          | true =>
              simpa [List.lookup_cons, h] using ih
      | true =>
          rw [eq_of_beq h] at hkey
          simp [hkey, List.lookup_cons, h]

end Update

theorem lookup_update (d e : PyDict) (key : PyStr) :
    List.lookup key (d.update e) = (List.lookup key e).or (List.lookup key d) := by
  rw [update, List.lookup_append, lookup_map_value (fun k v => (List.lookup k e).getD v)]
  cases h : List.lookup key d with
  | none =>
      rw [lookup_filter_key (fun k => (List.lookup k d).isNone) e (by simp [h])]
      simp
  | some v =>
      cases List.lookup key e with
      | none =>
          rfl
      | some w =>
          rfl

@[simp] theorem get?_update (d e : PyDict) (key : String) :
    (d.update e).get? key = (e.get? key).or (d.get? key) :=
  lookup_update d e (py key)

end PyDict

/-! ## Tables -/

/-- What the interpreter takes from the Unicode database and from the float formatter, and how deep a
document may be nested. -/
structure PyTables where
  isPrintable : CodePoint → Bool
  isSpace : CodePoint → Bool
  decimal : CodePoint → Option (Fin 10)
  floatRepr : PyFloat → String
  recursionLimit : Nat
  not_printable : ∀ c, isSurrogate c = true → isPrintable c = false
  floatRepr_line : ∀ f, '\n' ∉ (floatRepr f).toList

/-- Tables that know the characters of ASCII only. -/
def PyTables.ascii : PyTables where
  isPrintable c := decide (0x20 ≤ c.val) && decide (c.val < 0x7F)
  isSpace _ := false
  decimal _ := none
  floatRepr _ := "0.0"
  recursionLimit := 1000
  not_printable := by
    intro c h
    simp only [isSurrogate, Bool.and_eq_true, decide_eq_true_eq, Bool.and_eq_false_iff,
      decide_eq_false_iff_not] at h ⊢
    omega
  floatRepr_line := by simp

section Conversions

variable (T : PyTables)

/-! ## `repr` and `str` -/

def hexDigit (n : Nat) : CodePoint :=
  CodePoint.ofChar (Nat.digitChar (n % 16))

/-- The last `width` hexadecimal digits. -/
def hexDigits : Nat → Nat → PyStr
  | 0, _ => []
  | width + 1, n => hexDigits width (n / 16) ++ [hexDigit n]

theorem encodable_hexDigits (width n : Nat) : Encodable (hexDigits width n) := by
  induction width generalizing n with
  | zero =>
      intro c hc
      exact absurd hc (by simp [hexDigits])
  | succ width ih =>
      refine encodable_append.2 ⟨ih (n / 16), ?_⟩
      intro c hc
      rw [List.mem_singleton.1 hc]
      exact isSurrogate_ofChar _

/-- One character of a string's `repr` between quotes of the given kind. -/
def reprChar (quote c : CodePoint) : PyStr :=
  if c = quote ∨ c = 0x5C then [0x5C, c]
  else if c = 0x09 then py "\\t"
  else if c = 0x0A then py "\\n"
  else if c = 0x0D then py "\\r"
  else if c.val < 0x20 ∨ c = 0x7F then py "\\x" ++ hexDigits 2 c.val
  else if c.val < 0x7F ∨ T.isPrintable c = true then [c]
  else if c.val < 0x100 then py "\\x" ++ hexDigits 2 c.val
  else if c.val < 0x10000 then py "\\u" ++ hexDigits 4 c.val
  else py "\\U" ++ hexDigits 8 c.val

/-- Double quotes only around a string that has single ones and no double ones. -/
def reprStr (s : PyStr) : PyStr :=
  let quote : CodePoint := if 0x27 ∈ s ∧ 0x22 ∉ s then 0x22 else 0x27
  [quote] ++ s.flatMap (reprChar T quote) ++ [quote]

/-- What `repr` shows of a string can be encoded even if the string cannot. -/
theorem encodable_reprStr (s : PyStr) : Encodable (reprStr T s) := by
  have hlow {c : CodePoint} (h : c.val < 0x80) : isSurrogate c = false := by
    simp only [isSurrogate, Bool.and_eq_false_iff, decide_eq_false_iff_not]
    omega
  have hone {c : CodePoint} (h : isSurrogate c = false) : Encodable [c] := by
    simpa [Encodable] using h
  have hchar (quote : CodePoint) (hquote : quote.val < 0x80) (c : CodePoint) :
      Encodable (reprChar T quote c) := by
    unfold reprChar
    split_ifs with h1 h2 h3 h4 h5 h6 h7 h8
    · have hc : c.val < 0x80 := by
        rcases h1 with rfl | rfl
        · exact hquote
        · decide
      simp [Encodable, hlow hc, hlow (c := 0x5C) (by decide)]
    · exact encodable_py _
    · exact encodable_py _
    · exact encodable_py _
    · exact encodable_append.2 ⟨encodable_py _, encodable_hexDigits 2 c.val⟩
    · refine hone ?_
      rcases h6 with h6 | h6
      · exact hlow (by omega)
      · -- A surrogate is not printable.
        by_contra hsurrogate
        rw [T.not_printable c (by simpa using hsurrogate)] at h6
        exact absurd h6 (by decide)
    · exact encodable_append.2 ⟨encodable_py _, encodable_hexDigits 2 c.val⟩
    · exact encodable_append.2 ⟨encodable_py _, encodable_hexDigits 4 c.val⟩
    · exact encodable_append.2 ⟨encodable_py _, encodable_hexDigits 8 c.val⟩
  have hquoted (quote : CodePoint) (hquote : quote.val < 0x80) :
      Encodable ([quote] ++ s.flatMap (reprChar T quote) ++ [quote]) := by
    refine encodable_append.2 ⟨encodable_append.2 ⟨hone (hlow hquote), ?_⟩, hone (hlow hquote)⟩
    intro d hd
    rcases List.mem_flatMap.1 hd with ⟨c, _, hdc⟩
    exact hchar quote hquote c d hdc
  unfold reprStr
  dsimp only
  split_ifs
  · exact hquoted 0x22 (by decide)
  · exact hquoted 0x27 (by decide)

mutual

def pyRepr : PyValue → PyStr
  | .none => py "None"
  | .bool b => py (if b then "True" else "False")
  | .int n => decimalText n
  | .float f => py (T.floatRepr f)
  | .str s => reprStr T s
  | .list items => py "[" ++ pyReprItems items ++ py "]"
  | .dict entries => py "\x7b" ++ pyReprEntries entries ++ py "\x7d"

def pyReprItems : List PyValue → PyStr
  | [] => []
  | [v] => pyRepr v
  | v :: rest => pyRepr v ++ py ", " ++ pyReprItems rest

def pyReprEntries : List (PyStr × PyValue) → PyStr
  | [] => []
  | [(k, v)] => reprStr T k ++ py ": " ++ pyRepr v
  | (k, v) :: rest => reprStr T k ++ py ": " ++ pyRepr v ++ py ", " ++ pyReprEntries rest

end

/-- `str(x)`: a string is left as it is. -/
def pyStr : PyValue → PyStr
  | .str s => s
  | v => pyRepr T v

/-! ## `bool` and `int` -/

def pyBool : PyValue → Bool
  | .none => false
  | .bool b => b
  | .int n => n != 0
  | .float f => !f.isZero
  | .str s => !s.isEmpty
  | .list items => !items.isEmpty
  | .dict entries => !entries.isEmpty

/-- `x == n`; `True` is one and `False` is zero. -/
def pyEqInt (n : Int) : PyValue → Bool
  | .bool b => (if b then 1 else 0) == n
  | .int m => m == n
  | .float f => f.eqInt n
  | _ => false

/-- `isinstance(x, int)`, which a `bool` is too. -/
def isInt : PyValue → Bool
  | .bool _ => true
  | .int _ => true
  | _ => false

/-- A blank or a digit outside ASCII counts as the ASCII one. -/
def toAscii (c : CodePoint) : CodePoint :=
  if c.val < 127 then c
  else if T.isSpace c then 0x20
  else
    match T.decimal c with
    | some d => ⟨0x30 + d.val, by omega⟩
    | none => 0x3F

def isAsciiSpace (c : CodePoint) : Bool :=
  c == 0x20 || (decide (0x09 ≤ c.val) && decide (c.val ≤ 0x0D))

def isAsciiDigit (c : CodePoint) : Bool :=
  decide (0x30 ≤ c.val) && decide (c.val ≤ 0x39)

def digitsValue (digits : PyStr) : Nat :=
  digits.foldl (fun n c => 10 * n + (c.val - 0x30)) 0

/-- `sys.get_int_max_str_digits()`. -/
def maxStrDigits : Nat := 4300

def trimSpace (s : PyStr) : PyStr :=
  ((s.dropWhile isAsciiSpace).reverse.dropWhile isAsciiSpace).reverse

/-- The sign and the digits of an integer literal, blanks around it and single underscores between
its digits allowed. -/
def intLiteral (s : PyStr) : Option (Bool × PyStr) :=
  let text := trimSpace (s.map (toAscii T))
  let signed : Bool × PyStr :=
    match text with
    | c :: rest => if c = 0x2D then (true, rest) else if c = 0x2B then (false, rest) else (false, text)
    | [] => (false, [])
  let groups := signed.2.splitOn 0x5F
  if groups.all (fun group => !group.isEmpty && group.all isAsciiDigit) then
    some (signed.1, groups.flatten)
  else
    none

/-- `int(s)` for a string. -/
def intOfStr (s : PyStr) : Except PyError Int :=
  match intLiteral T s with
  | none =>
      .error (.valueError
        (py "invalid literal for int() with base 10: " ++ (reprStr T s).take 200))
  | some (negative, digits) =>
      if maxStrDigits < digits.length then
        .error (.valueError
          (py "Exceeds the limit (4300 digits) for integer string conversion: value has " ++
            decimalText digits.length ++
            py " digits; use sys.set_int_max_str_digits() to increase the limit"))
      else
        .ok (PyFloat.signed negative (digitsValue digits))

/-- The exception of `int` at a value that is neither a number nor a string. -/
def notANumber (typeName : String) : PyError :=
  .typeError
    (py "int() argument must be a string, a bytes-like object or a real number, not '" ++
      py typeName ++ py "'")

def pyInt : PyValue → Except PyError Int
  | .none => .error (notANumber "NoneType")
  | .bool b => .ok (if b then 1 else 0)
  | .int n => .ok n
  | .float f => f.toInt
  | .str s => intOfStr T s
  | .list _ => .error (notANumber "list")
  | .dict _ => .error (notANumber "dict")

/-- The message of the exception, if it has one, can be encoded. -/
def PyError.MessageEncodable : PyError → Prop
  | .typeError message | .valueError message | .overflowError message => Encodable message
  | _ => True

theorem messageEncodable_of_pyInt {v : PyValue} {e : PyError} (h : pyInt T v = .error e) :
    e.MessageEncodable := by
  have hnumber (typeName : String) : (notANumber typeName).MessageEncodable :=
    encodable_append.2 ⟨encodable_append.2 ⟨encodable_py _, encodable_py _⟩, encodable_py _⟩
  cases v with
  | none =>
      cases h
      exact hnumber _
  | bool b =>
      cases h
  | int n =>
      cases h
  | float f =>
      cases f with
      | finite negative mantissa exponent => cases h
      | infinity negative =>
          cases h
          exact encodable_py _
      | nan =>
          cases h
          exact encodable_py _
  | str s =>
      simp only [pyInt, intOfStr] at h
      split at h
      · cases h
        refine encodable_append.2 ⟨encodable_py _, ?_⟩
        intro c hc
        exact encodable_reprStr T s c (List.mem_of_mem_take hc)
      · split at h
        · cases h
          exact encodable_append.2
            ⟨encodable_append.2 ⟨encodable_py _, encodable_py _⟩, encodable_py _⟩
        · cases h
  | list items =>
      cases h
      exact hnumber _
  | dict entries =>
      cases h
      exact hnumber _

end Conversions

end Lib
end Sdr
