import Mathlib.Algebra.Group.Nat.Defs
import Mathlib.Data.List.Basic

/-!
# CString — the C library's string functions on character lists

A C string is the list of its characters before the terminating NUL, each byte the `Char` of the
same code.  A pointer into a string is the suffix it points at; the null pointer is `none`.  Only
what a hand-written scanner calls is here, with the behaviour the C standard gives it.
-/

namespace Sdr
namespace Lib

abbrev CString := List Char

namespace CString

/-- A literal is checked as the list of its characters: `toList` is slow to evaluate. -/
theorem forall_mem_ofList {p : Char → Prop} [DecidablePred p] {text : CString}
    (h : text.all (fun c => decide (p c)) = true) : ∀ c ∈ (String.ofList text).toList, p c := by
  simpa using h

/-- `strstr(hay, needle)`: the suffix at the first occurrence. -/
def strstr (needle : CString) : CString → Option CString
  | [] => if needle.isPrefixOf [] then some [] else none
  | c :: rest => if needle.isPrefixOf (c :: rest) then some (c :: rest) else strstr needle rest

/-- `strchr(s, wanted)` for a character other than NUL. -/
def strchr (wanted : Char) : CString → Option CString
  | [] => none
  | c :: rest => if c = wanted then some (c :: rest) else strchr wanted rest

theorem suffix_of_strstr {needle text p : CString} (h : strstr needle text = some p) :
    p <:+ text := by
  induction text with
  | nil =>
      rw [strstr] at h
      split_ifs at h
      exact Option.some.inj h ▸ List.suffix_refl _
  | cons c text ih =>
      rw [strstr] at h
      split_ifs at h
      · exact Option.some.inj h ▸ List.suffix_refl _
      · exact (ih h).trans (List.suffix_cons c text)

theorem suffix_of_strchr {wanted : Char} {text p : CString} (h : strchr wanted text = some p) :
    p <:+ text := by
  induction text with
  | nil =>
      cases h
  | cons c text ih =>
      rw [strchr] at h
      split_ifs at h
      · exact Option.some.inj h ▸ List.suffix_refl _
      · exact (ih h).trans (List.suffix_cons c text)

/-- `isspace` in the C locale. -/
def isSpace (c : Char) : Bool :=
  c == ' ' || c == '\t' || c == '\n' || c == '\x0b' || c == '\x0c' || c == '\r'

def digitsToNat (digits : CString) : Nat :=
  digits.foldl (fun n c => 10 * n + (c.toNat - '0'.toNat)) 0

/-- The optional sign in front of a number; `true` is negative. -/
def signOf : CString → Bool × CString
  | '-' :: rest => (true, rest)
  | '+' :: rest => (false, rest)
  | rest => (false, rest)

def llongMin : Int := -9223372036854775808

def llongMax : Int := 9223372036854775807

/-- `strtoll(p, &end, 10)`: `none` when no conversion is made (`end == p`), and a value outside the
64-bit range is clamped to it. -/
def strtoll (p : CString) : Option Int :=
  let signed := signOf (p.dropWhile isSpace)
  let digits := signed.2.takeWhile Char.isDigit
  if digits.isEmpty then
    none
  else
    let value : Int := if signed.1 then -(digitsToNat digits : Int) else digitsToNat digits
    -- Out of range the library returns the nearest bound and sets `errno`, which no caller reads.
    some (max llongMin (min llongMax value))

/-- `%d`, `%u`, `%lld` and `%llu` for a value of the argument's own type. -/
def decimal (value : Int) : CString :=
  (toString value).toList

/-- What `vsnprintf` leaves in a buffer of `size` characters, its NUL not counted. -/
def fitted (size : Nat) (text : CString) : CString :=
  text.take (size - 1)

/-- The string of the bytes of a buffer that has no NUL among them. -/
def ofBytes (bytes : List UInt8) : CString :=
  bytes.map fun b => Char.ofNat b.toNat

/-! ## Searching for a word in double quotes -/

section Quoted

variable {word gap rest : CString}

/-- The pattern `"\"%s\""`. -/
def quoted (word : CString) : CString :=
  '"' :: (word ++ ['"'])

theorem strstr_skip (hgap : '"' ∉ gap) :
    strstr (quoted word) (gap ++ rest) = strstr (quoted word) rest := by
  induction gap with
  | nil =>
      rfl
  | cons c gap ih =>
      have hc : '"' ≠ c := fun heq => hgap (heq ▸ List.mem_cons_self)
      have hprefix : (quoted word).isPrefixOf (c :: (gap ++ rest)) = false := by
        simp [quoted, List.isPrefixOf, hc]
      rw [List.cons_append, strstr, hprefix]
      exact ih (fun hmem => hgap (List.mem_cons_of_mem c hmem))

theorem strstr_none (hgap : '"' ∉ gap) : strstr (quoted word) gap = none := by
  rw [← List.append_nil gap, strstr_skip hgap]
  rfl

theorem strstr_hit :
    strstr (quoted word) ('"' :: (word ++ '"' :: rest)) = some ('"' :: (word ++ '"' :: rest)) := by
  have hprefix : quoted word <+: '"' :: (word ++ '"' :: rest) := ⟨rest, by simp [quoted]⟩
  rw [strstr, if_pos (List.isPrefixOf_iff_prefix.2 hprefix)]

/-- Two words that end at a quote are the same if their quoted texts start alike. -/
theorem word_eq_of_quoted (hword : '"' ∉ word) (hgap : '"' ∉ gap)
    (h : quoted word <+: '"' :: (gap ++ '"' :: rest)) : word = gap := by
  have htake {w t : CString} (hw : '"' ∉ w) : (w ++ '"' :: t).takeWhile (· ≠ '"') = w := by
    rw [List.takeWhile_append_of_pos]
    · simp
    · intro c hc
      exact decide_eq_true (fun heq => hw (heq ▸ hc))
  rcases h with ⟨t, ht⟩
  have heq : word ++ '"' :: t = gap ++ '"' :: rest := by
    simpa [quoted] using ht
  rw [← htake (t := t) hword, heq, htake hgap]

/-- Text between two quotes is passed over unless it is the word. -/
theorem strstr_miss (hword : '"' ∉ word) (hgap : '"' ∉ gap) (hne : gap ≠ word) :
    strstr (quoted word) ('"' :: (gap ++ '"' :: rest)) = strstr (quoted word) ('"' :: rest) := by
  have hprefix : ¬ quoted word <+: '"' :: (gap ++ '"' :: rest) := by
    intro h
    exact hne (word_eq_of_quoted hword hgap h).symm
  rw [strstr, if_neg (fun h => hprefix (List.isPrefixOf_iff_prefix.1 h)), strstr_skip hgap]

/-- Behind the last quote there is nothing to find. -/
theorem strstr_last (hgap : '"' ∉ gap) : strstr (quoted word) ('"' :: gap) = none := by
  have hprefix : ¬ quoted word <+: '"' :: gap := by
    rintro ⟨t, ht⟩
    have heq : word ++ '"' :: t = gap := by
      simpa [quoted] using ht
    exact hgap (heq ▸ by simp)
  rw [strstr, if_neg (fun h => hprefix (List.isPrefixOf_iff_prefix.1 h)), strstr_none hgap]

end Quoted

theorem strchr_skip {wanted : Char} {gap rest : CString} (hgap : wanted ∉ gap) :
    strchr wanted (gap ++ rest) = strchr wanted rest := by
  induction gap with
  | nil =>
      rfl
  | cons c gap ih =>
      have hc : c ≠ wanted := fun heq => hgap (heq ▸ List.mem_cons_self)
      rw [List.cons_append, strchr, if_neg hc]
      exact ih (fun hmem => hgap (List.mem_cons_of_mem c hmem))

/-! ## Reading a number back -/

theorem decimal_ofNat (n : Nat) : decimal n = Nat.toDigits 10 n := by
  show (Nat.repr n).toList = _
  exact Nat.toList_repr

theorem decimal_negSucc (n : Nat) : decimal (Int.negSucc n) = '-' :: Nat.toDigits 10 (n + 1) := by
  show ("-" ++ Nat.repr (n + 1)).toList = _
  rw [String.toList_append, Nat.toList_repr]
  rfl

theorem isDigit_of_mem_toDigits {n : Nat} {c : Char} (h : c ∈ Nat.toDigits 10 n) :
    c.isDigit = true :=
  Nat.isDigit_of_mem_toDigits (by decide) (by decide) h

theorem mem_decimal {n : Int} {c : Char} (h : c ∈ decimal n) : c = '-' ∨ c.isDigit = true := by
  cases n with
  | ofNat m =>
      rw [Int.ofNat_eq_natCast, decimal_ofNat] at h
      exact Or.inr (isDigit_of_mem_toDigits h)
  | negSucc m =>
      rw [decimal_negSucc, List.mem_cons] at h
      exact h.imp_right isDigit_of_mem_toDigits

/-- A number below `10 ^ k` has at most `k` digits. -/
theorem length_decimal_natCast_le {n k : Nat} (hk : 0 < k) (h : n < 10 ^ k) :
    (decimal n).length ≤ k := by
  rw [decimal_ofNat]
  exact (Nat.length_toDigits_le_iff (by decide) hk).2 h

/-- And one more for the sign. -/
theorem length_decimal_le {n : Int} {k : Nat} (hk : 0 < k) (h : n.natAbs < 10 ^ k) :
    (decimal n).length ≤ k + 1 := by
  cases n with
  | ofNat m =>
      exact Nat.le_succ_of_le (length_decimal_natCast_le hk h)
  | negSucc m =>
      rw [decimal_negSucc, List.length_cons]
      exact Nat.succ_le_succ ((Nat.length_toDigits_le_iff (by decide) hk).2 h)

theorem toDigits_injective : Function.Injective (Nat.toDigits 10) := by
  intro a b h
  calc
    a = Nat.ofDigitChars 10 (Nat.toDigits 10 a) 0 := Nat.ofDigitChars_ten_toDigits.symm
    _ = Nat.ofDigitChars 10 (Nat.toDigits 10 b) 0 := by rw [h]
    _ = b := Nat.ofDigitChars_ten_toDigits

theorem decimal_injective : Function.Injective decimal := by
  have hsign (m n : Nat) : Nat.toDigits 10 m ≠ '-' :: Nat.toDigits 10 n := by
    intro h
    have hdigit : '-'.isDigit = true := isDigit_of_mem_toDigits (h ▸ List.mem_cons_self)
    exact absurd hdigit (by decide)
  intro a b h
  cases a with
  | ofNat m =>
      cases b with
      | ofNat n =>
          exact congrArg Int.ofNat (toDigits_injective (by simpa [decimal_ofNat] using h))
      | negSucc n =>
          exact absurd (by simpa [decimal_ofNat, decimal_negSucc] using h) (hsign m (n + 1))
  | negSucc m =>
      cases b with
      | ofNat n =>
          exact absurd (by simpa [decimal_ofNat, decimal_negSucc] using h.symm) (hsign n (m + 1))
      | negSucc n =>
          have hdigits : Nat.toDigits 10 (m + 1) = Nat.toDigits 10 (n + 1) := by
            simpa [decimal_negSucc] using h
          exact congrArg Int.negSucc (Nat.succ.inj (toDigits_injective hdigits))

theorem toDigits_cons (n : Nat) :
    ∃ d ds, Nat.toDigits 10 n = d :: ds ∧ d.isDigit = true := by
  cases h : Nat.toDigits 10 n with
  | nil => exact absurd h Nat.toDigits_ne_nil
  | cons d ds => exact ⟨d, ds, rfl, isDigit_of_mem_toDigits (h ▸ List.mem_cons_self)⟩

theorem decimal_cons (n : Int) :
    ∃ c text, decimal n = c :: text ∧ (c = '-' ∨ c.isDigit = true) := by
  cases n with
  | ofNat m =>
      rcases toDigits_cons m with ⟨d, ds, h, hd⟩
      exact ⟨d, ds, (decimal_ofNat m).trans h, Or.inr hd⟩
  | negSucc m =>
      exact ⟨'-', _, decimal_negSucc m, Or.inl rfl⟩

theorem signOf_digit {d : Char} (hd : d.isDigit = true) (rest : CString) :
    signOf ((d :: rest).dropWhile isSpace) = (false, d :: rest) := by
  have hne {c : Char} (hc : c.isDigit = false) : d ≠ c := by
    rintro rfl
    exact absurd (hd.symm.trans hc) (by decide)
  have hspace : isSpace d = false := by
    simp [isSpace, hne (c := ' ') (by decide), hne (c := '\t') (by decide),
      hne (c := '\n') (by decide), hne (c := '\x0b') (by decide), hne (c := '\x0c') (by decide),
      hne (c := '\r') (by decide)]
  rw [List.dropWhile_cons_of_neg (by simp [hspace])]
  unfold signOf
  split
  · next heq => exact absurd (List.cons.inj heq).1 (hne (by decide))
  · next heq => exact absurd (List.cons.inj heq).1 (hne (by decide))
  · rfl

/-- The digits of a number are read back, up to what follows them. -/
theorem takeWhile_toDigits (n : Nat) {stop : Char} (hstop : stop.isDigit = false) (rest : CString) :
    (Nat.toDigits 10 n ++ stop :: rest).takeWhile Char.isDigit = Nat.toDigits 10 n := by
  rw [List.takeWhile_append_of_pos (fun c hc => isDigit_of_mem_toDigits hc)]
  simp [hstop]

theorem digitsToNat_toDigits (n : Nat) : digitsToNat (Nat.toDigits 10 n) = n := by
  have h := Nat.ofDigitChars_ten_toDigits (n := n)
  rwa [Nat.ofDigitChars_eq_foldl] at h

theorem strtoll_decimal {n : Int} (hmin : llongMin ≤ n) (hmax : n ≤ llongMax) {stop : Char}
    (hstop : stop.isDigit = false) (rest : CString) :
    strtoll (decimal n ++ stop :: rest) = some n := by
  have hclamp : max llongMin (min llongMax n) = n := by omega
  cases n with
  | ofNat m =>
      rcases toDigits_cons m with ⟨d, ds, hcons, hd⟩
      have hunsigned : signOf ((decimal (Int.ofNat m) ++ stop :: rest).dropWhile isSpace) =
          (false, Nat.toDigits 10 m ++ stop :: rest) := by
        rw [Int.ofNat_eq_natCast, decimal_ofNat, hcons]
        exact signOf_digit hd _
      rw [strtoll, hunsigned]
      simp only [takeWhile_toDigits m hstop rest, digitsToNat_toDigits]
      rw [if_neg (by simp [hcons])]
      exact congrArg some hclamp
  | negSucc m =>
      rcases toDigits_cons (m + 1) with ⟨d, ds, hcons, hd⟩
      have hsigned : signOf ((decimal (Int.negSucc m) ++ stop :: rest).dropWhile isSpace) =
          (true, Nat.toDigits 10 (m + 1) ++ stop :: rest) := by
        rw [decimal_negSucc]
        rfl
      rw [strtoll, hsigned]
      simp only [takeWhile_toDigits (m + 1) hstop rest, digitsToNat_toDigits]
      rw [if_neg (by simp [hcons])]
      exact congrArg some hclamp

end CString

end Lib
end Sdr
