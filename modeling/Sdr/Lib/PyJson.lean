import Sdr.Lib.PyValue

/-!
# PyJson — UTF-8 and JSON as Python reads and writes them

* `decodeUtf8` and `encodeUtf8` are the strict codec: a surrogate has no encoding;
* `loads` reads a document with the extensions of Python's `json` (`NaN`, `Infinity`, lone
  surrogates from `\u` escapes), the last of several entries of one key wins, and a document nested
  deeper than the recursion limit is refused;
* `dumps` writes one without blanks and with only quotes, backslashes and control characters escaped.

What is written is always a single line (`newline_notMem_dumps`), and it can be encoded exactly when no
string in the value has a surrogate (`encodable_dumps`).
-/

namespace Sdr
namespace Lib

/-! ## UTF-8 -/

def utf8Char (c : CodePoint) : List UInt8 :=
  let n := c.val
  if n < 0x80 then [UInt8.ofNat n]
  else if n < 0x800 then [UInt8.ofNat (0xC0 + n / 64), UInt8.ofNat (0x80 + n % 64)]
  else if n < 0x10000 then
    [UInt8.ofNat (0xE0 + n / 4096), UInt8.ofNat (0x80 + n / 64 % 64), UInt8.ofNat (0x80 + n % 64)]
  else
    [UInt8.ofNat (0xF0 + n / 262144), UInt8.ofNat (0x80 + n / 4096 % 64),
      UInt8.ofNat (0x80 + n / 64 % 64), UInt8.ofNat (0x80 + n % 64)]

/-- `s.encode("utf-8")`; `none` is the `UnicodeEncodeError`. -/
def encodeUtf8 (s : PyStr) : Option (List UInt8) :=
  if Encodable s then some (s.flatMap utf8Char) else none

/-- A byte below 128 stands for the character of the same code only. -/
theorem val_eq_of_mem_utf8Char {c : CodePoint} {b : UInt8} (hb : b.toNat < 128)
    (h : b ∈ utf8Char c) : c.val = b.toNat := by
  have hbyte (n : Nat) (heq : b = UInt8.ofNat n) : n % 256 = b.toNat := by
    rw [heq, UInt8.toNat_ofNat']
  have hc := c.isLt
  unfold utf8Char at h
  dsimp only at h
  split_ifs at h with h1 h2 h3
  · rw [List.mem_singleton] at h
    have hval := hbyte _ h
    omega
  · -- Every byte of a longer form is at least 128.
    simp only [List.mem_cons, List.not_mem_nil, or_false] at h
    rcases h with h | h
    all_goals
      have := hbyte _ h
      omega
  · simp only [List.mem_cons, List.not_mem_nil, or_false] at h
    rcases h with h | h | h
    all_goals
      have := hbyte _ h
      omega
  · simp only [List.mem_cons, List.not_mem_nil, or_false] at h
    rcases h with h | h | h | h
    all_goals
      have := hbyte _ h
      omega

theorem newline_mem_utf8Char {c : CodePoint} (h : (10 : UInt8) ∈ utf8Char c) : c = 0x0A :=
  Fin.ext (val_eq_of_mem_utf8Char (by decide) h)

def isTail (b : UInt8) : Bool :=
  decide (0x80 ≤ b.toNat) && decide (b.toNat ≤ 0xBF)

/-- `data.decode("utf-8")`: no overlong forms, no surrogates, nothing beyond `U+10FFFF`. -/
def decodeUtf8 : List UInt8 → Option PyStr
  | [] => some []
  | b :: rest =>
    if b.toNat < 0x80 then (decodeUtf8 rest).map (Fin.ofNat _ b.toNat :: ·)
    else
      match rest with
      | [] => none
      | b₁ :: rest₁ =>
        if !isTail b₁ then none
        else
          let two := b.toNat % 32 * 64 + b₁.toNat % 64
          if 0xC2 ≤ b.toNat ∧ b.toNat ≤ 0xDF then (decodeUtf8 rest₁).map (Fin.ofNat _ two :: ·)
          else
            match rest₁ with
            | [] => none
            | b₂ :: rest₂ =>
              if !isTail b₂ then none
              else
                let three := (b.toNat % 16 * 64 + b₁.toNat % 64) * 64 + b₂.toNat % 64
                if 0xE0 ≤ b.toNat ∧ b.toNat ≤ 0xEF then
                  if three < 0x800 ∨ isSurrogate (Fin.ofNat _ three) = true then none
                  else (decodeUtf8 rest₂).map (Fin.ofNat _ three :: ·)
                else
                  match rest₂ with
                  | [] => none
                  | b₃ :: rest₃ =>
                    let four :=
                      ((b.toNat % 8 * 64 + b₁.toNat % 64) * 64 + b₂.toNat % 64) * 64 +
                        b₃.toNat % 64
                    if 0xF0 ≤ b.toNat ∧ b.toNat ≤ 0xF4 ∧ isTail b₃ = true ∧ 0x10000 ≤ four ∧
                        four < 0x110000 then
                      (decodeUtf8 rest₃).map (Fin.ofNat _ four :: ·)
                    else none

/-! ## `json.loads` -/

namespace PyJson

def isBlank (c : CodePoint) : Bool :=
  c == 0x20 || c == 0x09 || c == 0x0A || c == 0x0D

def skipBlanks (s : PyStr) : PyStr :=
  s.dropWhile isBlank

/-- `some` of the rest when the text starts with the word. -/
def afterWord (word : String) (s : PyStr) : Option PyStr :=
  if (py word).isPrefixOf s then some (s.drop (py word).length) else none

def hexValue (c : CodePoint) : Option Nat :=
  if 0x30 ≤ c.val ∧ c.val ≤ 0x39 then some (c.val - 0x30)
  else if 0x61 ≤ c.val ∧ c.val ≤ 0x66 then some (c.val - 0x61 + 10)
  else if 0x41 ≤ c.val ∧ c.val ≤ 0x46 then some (c.val - 0x41 + 10)
  else none

def hexUnit (a b c d : CodePoint) : Option CodePoint := do
  let a ← hexValue a
  let b ← hexValue b
  let c ← hexValue c
  let d ← hexValue d
  return Fin.ofNat _ (((a * 16 + b) * 16 + c) * 16 + d)

/-- The character after a backslash, other than `u`. -/
def unescape (c : CodePoint) : Option CodePoint :=
  if c = 0x22 ∨ c = 0x5C ∨ c = 0x2F then some c
  else if c = 0x62 then some 0x08
  else if c = 0x66 then some 0x0C
  else if c = 0x6E then some 0x0A
  else if c = 0x72 then some 0x0D
  else if c = 0x74 then some 0x09
  else none

/-- The characters of a string literal up to its closing quote, and the text behind it.  A control
character in it is an error. -/
def scanUnits : PyStr → Option (PyStr × PyStr)
  | [] => none
  | c :: rest =>
    if c = 0x22 then some ([], rest)
    else if c = 0x5C then
      match rest with
      | [] => none
      | e :: rest =>
        if e = 0x75 then
          match rest with
          | h₀ :: h₁ :: h₂ :: h₃ :: rest =>
            match hexUnit h₀ h₁ h₂ h₃, scanUnits rest with
            | some u, some (s, behind) => some (u :: s, behind)
            | _, _ => none
          | _ => none
        else
          match unescape e, scanUnits rest with
          | some u, some (s, behind) => some (u :: s, behind)
          | _, _ => none
    else if c.val < 0x20 then none
    else (scanUnits rest).map fun r => (c :: r.1, r.2)

/-- A high surrogate followed by a low one is the character they encode.  Text that was decoded from
UTF-8 has no surrogates of its own, so both come from escapes. -/
def joinSurrogates : PyStr → PyStr
  | high :: low :: rest =>
    if 0xD800 ≤ high.val ∧ high.val ≤ 0xDBFF ∧ 0xDC00 ≤ low.val ∧ low.val ≤ 0xDFFF then
      Fin.ofNat _ (0x10000 + (high.val - 0xD800) * 0x400 + (low.val - 0xDC00)) ::
        joinSurrogates rest
    else high :: joinSurrogates (low :: rest)
  | s => s

/-- `scanstring`, from behind the opening quote. -/
def scanString (s : PyStr) : Option (PyStr × PyStr) :=
  (scanUnits s).map fun r => (joinSurrogates r.1, r.2)

/-- The digits behind a decimal point, when there are any. -/
def scanFraction (s : PyStr) : PyStr × PyStr :=
  match s with
  | c :: rest =>
    if c = 0x2E ∧ rest.takeWhile isAsciiDigit ≠ [] then
      (rest.takeWhile isAsciiDigit, rest.dropWhile isAsciiDigit)
    else ([], s)
  | [] => ([], [])

/-- The sign and the digits of an exponent, when there are any. -/
def scanExponent (s : PyStr) : Option (Bool × PyStr) × PyStr :=
  match s with
  | c :: rest =>
    if c = 0x65 ∨ c = 0x45 then
      let signed : Bool × PyStr :=
        match rest with
        | d :: tail => if d = 0x2D then (true, tail) else if d = 0x2B then (false, tail) else (false, rest)
        | [] => (false, [])
      if signed.2.takeWhile isAsciiDigit ≠ [] then
        (some (signed.1, signed.2.takeWhile isAsciiDigit), signed.2.dropWhile isAsciiDigit)
      else (none, s)
    else (none, s)
  | [] => (none, [])

/-- A number; without fraction and exponent it is an integer, of at most as many digits as `int`
takes. -/
def scanNumber (s : PyStr) : Option (PyValue × PyStr) :=
  let negative : Bool := s.head? = some 0x2D
  let unsigned := if negative then s.tail else s
  let whole := unsigned.takeWhile isAsciiDigit
  -- A leading zero is a number of its own.
  let whole := if whole.head? = some 0x30 then whole.take 1 else whole
  if whole.isEmpty then none
  else
    let (fraction, rest) := scanFraction (unsigned.drop whole.length)
    let (exponent, rest) := scanExponent rest
    if fraction.isEmpty ∧ exponent.isNone then
      if maxStrDigits < whole.length then none
      else some (.int (PyFloat.signed negative (digitsValue whole)), rest)
    else
      let power : Int :=
        match exponent with
        | some (negative, digits) => PyFloat.signed negative (digitsValue digits)
        | none => 0
      some (.float (PyFloat.ofDecimal negative (digitsValue (whole ++ fraction))
        (power - fraction.length)), rest)

/-- The literals that are no numbers. -/
def scanWord (s : PyStr) : Option (PyValue × PyStr) :=
  ((afterWord "null" s).map fun rest => (PyValue.none, rest)) <|>
    ((afterWord "true" s).map fun rest => (.bool true, rest)) <|>
    ((afterWord "false" s).map fun rest => (.bool false, rest)) <|>
    ((afterWord "NaN" s).map fun rest => (.float .nan, rest)) <|>
    ((afterWord "Infinity" s).map fun rest => (.float (.infinity false), rest)) <|>
    ((afterWord "-Infinity" s).map fun rest => (.float (.infinity true), rest))

section Containers

variable (value : PyStr → Option (PyValue × PyStr))

/-- The elements of an array up to its closing bracket; each takes at least one character, so the
length of the text bounds their number. -/
def scanElements : Nat → PyStr → Option (List PyValue × PyStr)
  | 0, _ => none
  | bound + 1, s =>
    match value s with
    | none => none
    | some (v, rest) =>
      match skipBlanks rest with
      | [] => none
      | c :: rest =>
        if c = 0x5D then some ([v], rest)
        else if c = 0x2C then
          (scanElements bound (skipBlanks rest)).map fun r => (v :: r.1, r.2)
        else none

/-- The entries of an object up to its closing brace. -/
def scanEntries : Nat → PyStr → Option (PyDict × PyStr)
  | 0, _ => none
  | bound + 1, s =>
    match s with
    | [] => none
    | q :: rest =>
      if q ≠ 0x22 then none
      else
        match scanString rest with
        | none => none
        | some (key, rest) =>
          match skipBlanks rest with
          | [] => none
          | colon :: rest =>
            if colon ≠ 0x3A then none
            else
              match value (skipBlanks rest) with
              | none => none
              | some (v, rest) =>
                match skipBlanks rest with
                | [] => none
                | c :: rest =>
                  if c = 0x7D then some ([(key, v)], rest)
                  else if c = 0x2C then
                    (scanEntries bound (skipBlanks rest)).map fun r => ((key, v) :: r.1, r.2)
                  else none

end Containers

/-- The dictionary of a list of entries: a later entry replaces the value of an earlier one. -/
def dictOf (entries : PyDict) : PyDict :=
  entries.foldl (fun d entry => PyDict.set d entry.1 entry.2) []

/-- One value, nested at most as deep as the first argument allows. -/
def scanOnce : Nat → PyStr → Option (PyValue × PyStr)
  | 0, _ => none
  | depth + 1, s =>
    match s with
    | [] => none
    | c :: rest =>
      if c = 0x22 then (scanString rest).map fun r => (.str r.1, r.2)
      else if c = 0x7B then
        if (skipBlanks rest).head? = some 0x7D then some (.dict [], (skipBlanks rest).tail)
        else
          (scanEntries (scanOnce depth) rest.length (skipBlanks rest)).map fun r =>
            (.dict (dictOf r.1), r.2)
      else if c = 0x5B then
        if (skipBlanks rest).head? = some 0x5D then some (.list [], (skipBlanks rest).tail)
        else
          (scanElements (scanOnce depth) rest.length (skipBlanks rest)).map fun r => (.list r.1, r.2)
      else scanWord s <|> scanNumber s

/-- `json.loads(s)`; `none` is the exception. -/
def loads (T : PyTables) (s : PyStr) : Option PyValue :=
  -- A byte order mark in front is an error of its own.
  if s.head? = some 0xFEFF then none
  else
    match scanOnce T.recursionLimit (skipBlanks s) with
    | some (v, rest) => if (skipBlanks rest).isEmpty then some v else none
    | none => none

/-! ## `json.dumps` -/

def dumpChar (c : CodePoint) : PyStr :=
  if c = 0x22 ∨ c = 0x5C then [0x5C, c]
  else if c = 0x08 then py "\\b"
  else if c = 0x0C then py "\\f"
  else if c = 0x0A then py "\\n"
  else if c = 0x0D then py "\\r"
  else if c = 0x09 then py "\\t"
  else if c.val < 0x20 then py "\\u" ++ hexDigits 4 c.val
  else [c]

def dumpStr (s : PyStr) : PyStr :=
  py "\"" ++ s.flatMap dumpChar ++ py "\""

section Dumps

variable (T : PyTables)

def dumpFloat (f : PyFloat) : PyStr :=
  match f with
  | .nan => py "NaN"
  | .infinity negative => py (if negative then "-Infinity" else "Infinity")
  | .finite _ _ _ => py (T.floatRepr f)

mutual

/-- `json.dumps(v, separators=(",", ":"), ensure_ascii=False)`. -/
def dumps : PyValue → PyStr
  | .none => py "null"
  | .bool b => py (if b then "true" else "false")
  | .int n => decimalText n
  | .float f => dumpFloat T f
  | .str s => dumpStr s
  | .list items => py "[" ++ dumpItems items ++ py "]"
  | .dict entries => py "\x7b" ++ dumpEntries entries ++ py "\x7d"

def dumpItems : List PyValue → PyStr
  | [] => []
  | [v] => dumps v
  | v :: rest => dumps v ++ py "," ++ dumpItems rest

def dumpEntries : List (PyStr × PyValue) → PyStr
  | [] => []
  | [(k, v)] => dumpStr k ++ py ":" ++ dumps v
  | (k, v) :: rest => dumpStr k ++ py ":" ++ dumps v ++ py "," ++ dumpEntries rest

end

/-! ## What is written can be sent as one line -/

mutual

/-- No string in the value, keys included, has a surrogate. -/
def encodable : PyValue → Bool
  | .str s => decide (Encodable s)
  | .list items => encodableItems items
  | .dict entries => encodableEntries entries
  | _ => true

def encodableItems : List PyValue → Bool
  | [] => true
  | v :: rest => encodable v && encodableItems rest

def encodableEntries : List (PyStr × PyValue) → Bool
  | [] => true
  | (k, v) :: rest => decide (Encodable k) && encodable v && encodableEntries rest

end

@[simp] theorem encodable_none : encodable .none = true := by simp [encodable]

@[simp] theorem encodable_bool (b : Bool) : encodable (.bool b) = true := by simp [encodable]

@[simp] theorem encodable_int (n : Int) : encodable (.int n) = true := by simp [encodable]

@[simp] theorem encodable_float (f : PyFloat) : encodable (.float f) = true := by simp [encodable]

@[simp] theorem encodable_str (s : PyStr) : encodable (.str s) = true ↔ Encodable s := by
  simp [encodable]

@[simp] theorem encodable_list (items : List PyValue) :
    encodable (.list items) = true ↔ ∀ v ∈ items, encodable v = true := by
  rw [encodable]
  induction items with
  | nil =>
      simp [encodableItems]
  | cons v rest ih =>
      simp [encodableItems, ih]

@[simp] theorem encodable_dict_cons (k : PyStr) (v : PyValue) (rest : List (PyStr × PyValue)) :
    encodable (.dict ((k, v) :: rest)) = true ↔
      Encodable k ∧ encodable v = true ∧ encodable (.dict rest) = true := by
  simp [encodable, encodableEntries, and_assoc]

theorem encodable_dumpChar (c : CodePoint) : Encodable (dumpChar c) ↔ isSurrogate c = false := by
  have hlow (h : c.val < 0x80) : isSurrogate c = false := by
    simp only [isSurrogate, Bool.and_eq_false_iff, decide_eq_false_iff_not]
    omega
  unfold dumpChar
  split_ifs with h1 h2 h3 h4 h5 h6 h7
  · have hc : isSurrogate c = false := by
      rcases h1 with rfl | rfl
      · exact hlow (by decide)
      · exact hlow (by decide)
    have hslash : isSurrogate 0x5C = false := by decide +kernel
    simp [Encodable, hc, hslash]
  · exact iff_of_true (encodable_py _) (hlow (by rw [h2]; decide))
  · exact iff_of_true (encodable_py _) (hlow (by rw [h3]; decide))
  · exact iff_of_true (encodable_py _) (hlow (by rw [h4]; decide))
  · exact iff_of_true (encodable_py _) (hlow (by rw [h5]; decide))
  · exact iff_of_true (encodable_py _) (hlow (by rw [h6]; decide))
  · simp [encodable_py, encodable_hexDigits, hlow (by omega)]
  · simp [Encodable]

theorem encodable_dumpStr (s : PyStr) : Encodable (dumpStr s) ↔ Encodable s := by
  unfold dumpStr
  simp only [encodable_append, encodable_py, true_and, and_true]
  constructor
  · intro h c hc
    refine (encodable_dumpChar c).1 ?_
    intro d hd
    exact h d (List.mem_flatMap.2 ⟨c, hc, hd⟩)
  · intro h d hd
    rcases List.mem_flatMap.1 hd with ⟨c, hc, hdc⟩
    exact (encodable_dumpChar c).2 (h c hc) d hdc

theorem encodable_dumpFloat (f : PyFloat) : Encodable (dumpFloat T f) := by
  unfold dumpFloat
  split
  all_goals exact encodable_py _

mutual

theorem encodable_dumps : ∀ v : PyValue, Encodable (dumps T v) ↔ encodable v = true
  | .none => by simp [dumps, encodable, encodable_py]
  | .bool b => by simp [dumps, encodable, encodable_py]
  | .int n => by simp [dumps, encodable, decimalText, encodable_py]
  | .float f => by simp [dumps, encodable, encodable_dumpFloat]
  | .str s => by simp [dumps, encodable, encodable_dumpStr]
  | .list items => by
      simp [dumps, encodable, encodable_py, encodable_dumpItems items]
  | .dict entries => by
      simp [dumps, encodable, encodable_py, encodable_dumpEntries entries]

theorem encodable_dumpItems : ∀ items : List PyValue,
    Encodable (dumpItems T items) ↔ encodableItems items = true
  | [] => by simp [dumpItems, encodableItems, Encodable]
  | [v] => by simp [dumpItems, encodableItems, encodable_dumps v]
  | v :: w :: rest => by
      simp [dumpItems, encodableItems, encodable_py, encodable_dumps v,
        encodable_dumpItems (w :: rest)]

theorem encodable_dumpEntries : ∀ entries : List (PyStr × PyValue),
    Encodable (dumpEntries T entries) ↔ encodableEntries entries = true
  | [] => by simp [dumpEntries, encodableEntries, Encodable]
  | [(k, v)] => by
      simp [dumpEntries, encodableEntries, encodable_py, encodable_dumpStr, encodable_dumps v]
  | (k, v) :: entry :: rest => by
      simp [dumpEntries, encodableEntries, encodable_py, encodable_dumpStr, encodable_dumps v,
        encodable_dumpEntries (entry :: rest), and_assoc]

end

theorem notMem_hexDigits {c : CodePoint} (hdigit : ∀ d < 16, hexDigit d ≠ c) (width n : Nat) :
    c ∉ hexDigits width n := by
  induction width generalizing n with
  | zero =>
      simp [hexDigits]
  | succ width ih =>
      have hmod : hexDigit n = hexDigit (n % 16) := by simp [hexDigit]
      intro h
      rcases List.mem_append.1 h with h | h
      · exact ih (n / 16) h
      · rw [List.mem_singleton, hmod] at h
        exact hdigit (n % 16) (Nat.mod_lt n (by decide)) h.symm

theorem newline_notMem_dumpChar (c : CodePoint) : (0x0A : CodePoint) ∉ dumpChar c := by
  unfold dumpChar
  split_ifs with h1 h2 h3 h4 h5 h6 h7
  · rcases h1 with rfl | rfl
    · decide
    · decide
  · decide +kernel
  · decide +kernel
  · decide +kernel
  · decide +kernel
  · decide +kernel
  · intro h
    rcases List.mem_append.1 h with h | h
    · exact absurd h (by decide +kernel)
    · exact notMem_hexDigits (by decide +kernel) 4 c.val h
  · intro h
    exact h4 (List.mem_singleton.1 h).symm

theorem newline_notMem_dumpStr (s : PyStr) : (0x0A : CodePoint) ∉ dumpStr s := by
  have hquote : (0x0A : CodePoint) ∉ py "\"" := by decide +kernel
  intro h
  rcases List.mem_append.1 h with h | h
  · rcases List.mem_append.1 h with h | h
    · exact hquote h
    · rcases List.mem_flatMap.1 h with ⟨c, _, hc⟩
      exact newline_notMem_dumpChar c hc
  · exact hquote h

theorem newline_notMem_dumpFloat (f : PyFloat) : (0x0A : CodePoint) ∉ dumpFloat T f := by
  unfold dumpFloat
  split
  · decide +kernel
  · split
    · decide +kernel
    · decide +kernel
  · rw [newline_mem_py]
    exact T.floatRepr_line _

mutual

theorem newline_notMem_dumps : ∀ v : PyValue, (0x0A : CodePoint) ∉ dumps T v
  | .none => by
      rw [dumps]
      decide +kernel
  | .bool b => by
      rw [dumps]
      cases b <;> decide +kernel
  | .int n => by
      rw [dumps]
      exact newline_notMem_decimalText n
  | .float f => by
      rw [dumps]
      exact newline_notMem_dumpFloat T f
  | .str s => by
      rw [dumps]
      exact newline_notMem_dumpStr s
  | .list items => by
      simp [dumps, newline_mem_py, newline_notMem_dumpItems items]
  | .dict entries => by
      simp [dumps, newline_mem_py, newline_notMem_dumpEntries entries]

theorem newline_notMem_dumpItems : ∀ items : List PyValue, (0x0A : CodePoint) ∉ dumpItems T items
  | [] => by simp [dumpItems]
  | [v] => by simp [dumpItems, newline_notMem_dumps v]
  | v :: w :: rest => by
      simp [dumpItems, newline_mem_py, newline_notMem_dumps v,
        newline_notMem_dumpItems (w :: rest)]

theorem newline_notMem_dumpEntries : ∀ entries : List (PyStr × PyValue),
    (0x0A : CodePoint) ∉ dumpEntries T entries
  | [] => by simp [dumpEntries]
  | [(k, v)] => by
      simp [dumpEntries, newline_mem_py, newline_notMem_dumpStr, newline_notMem_dumps v]
  | (k, v) :: entry :: rest => by
      simp [dumpEntries, newline_mem_py, newline_notMem_dumpStr, newline_notMem_dumps v,
        newline_notMem_dumpEntries (entry :: rest)]

end

end Dumps

end PyJson

end Lib
end Sdr
