import Sdr.Bridge.SdrControl
import Sdr.Protocol.Control

/-!
# ScanLine — what the bridge's scanner reads of a line the client wrote

The client writes an object with `encode_json_line`; the bridge looks for a key in quotes anywhere in
the text and takes what stands behind the next colon.  On an object whose values are numbers, strings
and the three words this comes to `scannedAt`: the entry of the key, or, if a string before it ends in
the key, the entry behind that string.
-/

namespace Sdr
namespace Bridge

open Lib Lib.CString Protocol

/-! ## Characters of a line -/

/-- A Python string as the bytes it is sent as. -/
def lineText (s : PyStr) : CString :=
  ofBytes (s.flatMap utf8Char)

@[simp] theorem lineText_nil : lineText [] = [] := rfl

@[simp] theorem lineText_append (s t : PyStr) : lineText (s ++ t) = lineText s ++ lineText t := by
  simp [lineText, ofBytes]

theorem lineText_cons (c : CodePoint) (s : PyStr) : lineText (c :: s) = lineText [c] ++ lineText s :=
  lineText_append [c] s

theorem toNat_ofNat_byte (b : UInt8) : (Char.ofNat b.toNat).toNat = b.toNat := by
  have hb := b.toNat_lt
  have hvalid : b.toNat.isValidChar := Or.inl (by omega)
  rw [Char.ofNat, dif_pos hvalid]
  rfl

theorem lineText_ascii {c : CodePoint} (h : c.val < 0x80) : lineText [c] = [Char.ofNat c.val] := by
  simp [lineText, ofBytes, utf8Char, h, Nat.mod_eq_of_lt (show c.val < 256 by omega)]

/-- A character of ASCII in the line is that character of the text. -/
theorem mem_of_mem_lineText {ch : Char} {s : PyStr} (hch : ch.toNat < 0x80) (h : ch ∈ lineText s) :
    CodePoint.ofChar ch ∈ s := by
  rcases List.mem_map.1 h with ⟨b, hb, hbch⟩
  rcases List.mem_flatMap.1 hb with ⟨c, hc, hbc⟩
  have hval : ch.toNat = b.toNat := by
    rw [← hbch, toNat_ofNat_byte]
  have hcode : c = CodePoint.ofChar ch := by
    apply Fin.ext
    rw [val_eq_of_mem_utf8Char (by omega) hbc, ← hval]
    rfl
  exact hcode ▸ hc

/-- Outside ASCII no byte of a character is one of ASCII. -/
theorem lineText_wide {c : CodePoint} (h : 0x80 ≤ c.val) :
    ∃ ch rest, lineText [c] = ch :: rest ∧ 0x80 ≤ ch.toNat := by
  have hne : lineText [c] ≠ [] := by
    simp only [lineText, ofBytes, List.flatMap_singleton, ne_eq, List.map_eq_nil_iff]
    unfold utf8Char
    dsimp only
    split_ifs
    all_goals simp
  rcases List.exists_cons_of_ne_nil hne with ⟨ch, rest, hcons⟩
  refine ⟨ch, rest, hcons, ?_⟩
  by_contra hlow
  have hmem := mem_of_mem_lineText (s := [c]) (by omega) (hcons ▸ List.mem_cons_self)
  have hval : ch.toNat = c.val := congrArg Fin.val (List.mem_singleton.1 hmem)
  omega

theorem lineText_map_ofChar {w : CString} (h : ∀ c ∈ w, c.toNat < 0x80) :
    lineText (w.map CodePoint.ofChar) = w := by
  induction w with
  | nil =>
      rfl
  | cons c w ih =>
      have hc : (CodePoint.ofChar c).val < 0x80 := h c List.mem_cons_self
      have hchar : Char.ofNat (CodePoint.ofChar c).val = c := Char.ofNat_toNat c
      rw [List.map_cons, lineText_cons, lineText_ascii hc, hchar,
        ih (fun d hd => h d (List.mem_cons_of_mem c hd))]
      rfl

theorem map_ofChar_lineText {s : PyStr} (h : ∀ c ∈ s, c.val < 0x80) :
    (lineText s).map CodePoint.ofChar = s := by
  induction s with
  | nil =>
      rfl
  | cons c s ih =>
      have hc := h c List.mem_cons_self
      have hvalid : c.val.isValidChar := Or.inl (by omega)
      have hchar : CodePoint.ofChar (Char.ofNat c.val) = c := by
        apply Fin.ext
        show (Char.ofNat c.val).toNat = c.val
        rw [Char.ofNat, dif_pos hvalid]
        rfl
      rw [lineText_cons, lineText_ascii hc, List.map_append,
        ih (fun d hd => h d (List.mem_cons_of_mem c hd))]
      simp [hchar]

theorem lineText_py {text : String} (h : ∀ c ∈ text.toList, c.toNat < 0x80) :
    lineText (py text) = text.toList :=
  lineText_map_ofChar h

/-! ## String literals -/

/-- What stands between the quotes of a string in the line. -/
def strBody (s : PyStr) : CString :=
  lineText (s.flatMap PyJson.dumpChar)

@[simp] theorem strBody_append (s t : PyStr) : strBody (s ++ t) = strBody s ++ strBody t := by
  simp [strBody]

theorem strBody_cons (c : CodePoint) (s : PyStr) : strBody (c :: s) = strBody [c] ++ strBody s :=
  strBody_append [c] s

/-- A character that is written without an escape. -/
def PlainChar (c : CodePoint) : Prop :=
  c ≠ 0x22 ∧ c ≠ 0x5C ∧ 0x20 ≤ c.val

instance : DecidablePred PlainChar :=
  fun c => inferInstanceAs (Decidable (c ≠ 0x22 ∧ c ≠ 0x5C ∧ 0x20 ≤ c.val))

theorem dumpChar_plain {c : CodePoint} (h : PlainChar c) : PyJson.dumpChar c = [c] := by
  rcases h with ⟨hquote, hslash, hlow⟩
  have hne (d : CodePoint) (hd : d.val < 0x20) : c ≠ d := by
    rintro rfl
    omega
  unfold PyJson.dumpChar
  rw [if_neg (by simp [hquote, hslash]), if_neg (hne _ (by decide)), if_neg (hne _ (by decide)),
    if_neg (hne _ (by decide)), if_neg (hne _ (by decide)), if_neg (hne _ (by decide)),
    if_neg (by omega)]

/-- Any other character is a backslash and something, in which only a quote is a quote. -/
theorem dumpChar_escaped {c : CodePoint} (h : ¬ PlainChar c) :
    ∃ tail, PyJson.dumpChar c = 0x5C :: tail ∧ (c ≠ 0x22 → (0x22 : CodePoint) ∉ tail) := by
  have hnotMem (text : String) (hdec : (0x22 : CodePoint) ∉ py text) :
      c ≠ 0x22 → (0x22 : CodePoint) ∉ py text := fun _ => hdec
  unfold PyJson.dumpChar
  split_ifs with h1 h2 h3 h4 h5 h6 h7
  · refine ⟨[c], rfl, ?_⟩
    intro hc hmem
    exact hc (List.mem_singleton.1 hmem).symm
  · exact ⟨py "b", by decide +kernel, hnotMem _ (by decide +kernel)⟩
  · exact ⟨py "f", by decide +kernel, hnotMem _ (by decide +kernel)⟩
  · exact ⟨py "n", by decide +kernel, hnotMem _ (by decide +kernel)⟩
  · exact ⟨py "r", by decide +kernel, hnotMem _ (by decide +kernel)⟩
  · exact ⟨py "t", by decide +kernel, hnotMem _ (by decide +kernel)⟩
  · have hslash : py "\\u" = 0x5C :: py "u" := by decide +kernel
    refine ⟨py "u" ++ hexDigits 4 c.val, by rw [hslash]; rfl, ?_⟩
    intro _ hmem
    rcases List.mem_append.1 hmem with hmem | hmem
    · exact absurd hmem (by decide +kernel)
    · exact PyJson.notMem_hexDigits (by decide +kernel) 4 c.val hmem
  · push Not at h1
    exact absurd ⟨h1.1, h1.2, by omega⟩ h

theorem strBody_plain {s : PyStr} (h : ∀ c ∈ s, PlainChar c) : strBody s = lineText s := by
  have hchars : s.flatMap PyJson.dumpChar = s := by
    induction s with
    | nil =>
        rfl
    | cons c s ih =>
        rw [List.flatMap_cons, dumpChar_plain (h c List.mem_cons_self),
          ih (fun d hd => h d (List.mem_cons_of_mem c hd))]
        rfl
  rw [strBody, hchars]

theorem strBody_quote (s : PyStr) : strBody (0x22 :: s) = '\\' :: '"' :: strBody s := by
  have hquote : strBody [0x22] = ['\\', '"'] := by decide +kernel
  rw [strBody_cons, hquote]
  rfl

theorem quote_notMem_strBody {s : PyStr} (h : (0x22 : CodePoint) ∉ s) : '"' ∉ strBody s := by
  intro hmem
  rcases List.mem_flatMap.1 (mem_of_mem_lineText (by decide) hmem) with ⟨c, hc, hquote⟩
  have hne : c ≠ 0x22 := fun heq => h (heq ▸ hc)
  by_cases hplain : PlainChar c
  · rw [dumpChar_plain hplain] at hquote
    exact hne (List.mem_singleton.1 hquote).symm
  · rcases dumpChar_escaped hplain with ⟨tail, htail, hnotMem⟩
    rw [htail, List.mem_cons] at hquote
    rcases hquote with hquote | hquote
    · exact absurd hquote (by decide +kernel)
    · exact hnotMem hne hquote

/-! ## Words -/

/-- Letters, digits and underscores, as in every key the bridge looks up. -/
def IsWord (w : CString) : Prop :=
  ∀ c ∈ w, c.isAlphanum = true ∨ c = '_'

instance : DecidablePred IsWord :=
  fun w => List.decidableBAll (fun c : Char => c.isAlphanum = true ∨ c = '_') w

theorem IsWord.notMem {w : CString} (hw : IsWord w) {c : Char} (hc : c.isAlphanum = false)
    (hne : c ≠ '_') : c ∉ w := by
  intro hmem
  rcases hw c hmem with h | h
  · exact absurd (h.symm.trans hc) (by decide)
  · exact hne h

theorem IsWord.toNat_bounds {w : CString} (hw : IsWord w) :
    ∀ c ∈ w, 0x30 ≤ c.toNat ∧ c.toNat < 0x80 := by
  intro c hc
  rcases hw c hc with h | rfl
  · have hcode : (decide (c.val ≥ 'A'.val ∧ c.val ≤ 'Z'.val) ||
        (c.val ≥ 'a'.val && c.val ≤ 'z'.val) || (c.val ≥ '0'.val && c.val ≤ '9'.val)) = true := h
    simp only [Bool.or_eq_true, Bool.and_eq_true, decide_eq_true_eq, ge_iff_le,
      UInt32.le_iff_toNat_le] at hcode
    have hranges : ((0x41 ≤ c.toNat ∧ c.toNat ≤ 0x5A) ∨ (0x61 ≤ c.toNat ∧ c.toNat ≤ 0x7A)) ∨
        (0x30 ≤ c.toNat ∧ c.toNat ≤ 0x39) := hcode
    omega
  · decide

theorem IsWord.ascii {w : CString} (hw : IsWord w) : ∀ c ∈ w, c.toNat < 0x80 :=
  fun c hc => (hw.toNat_bounds c hc).2

theorem IsWord.plain {w : CString} (hw : IsWord w) : ∀ c ∈ w, PlainChar (CodePoint.ofChar c) := by
  intro c hc
  refine ⟨?_, ?_, ?_⟩
  · intro h
    have heq : c = '"' := CodePoint.ofChar_injective h
    exact hw.notMem (by decide) (by decide) (heq ▸ hc)
  · intro h
    have heq : c = '\\' := CodePoint.ofChar_injective h
    exact hw.notMem (by decide) (by decide) (heq ▸ hc)
  · exact Nat.le_trans (by decide) (hw.toNat_bounds c hc).1

theorem mem_strBody_of_mem {s : PyStr} {c : CodePoint} {ch : Char} (hc : c ∈ s)
    (hch : ch ∈ strBody [c]) : ch ∈ strBody s := by
  rcases List.append_of_mem hc with ⟨before, behind, rfl⟩
  rw [strBody_append, strBody_cons]
  simp [hch]

/-- Only the text of a word is written as that word. -/
theorem strBody_eq_word_iff {s : PyStr} {w : CString} (hw : IsWord w) :
    strBody s = w ↔ s = w.map CodePoint.ofChar := by
  constructor
  · intro h
    have hplain : ∀ c ∈ s, PlainChar c := by
      intro c hc
      by_contra hescaped
      rcases dumpChar_escaped hescaped with ⟨tail, htail, _⟩
      have hslash : '\\' ∈ strBody [c] := by
        have hone : lineText [0x5C] = ['\\'] := by decide +kernel
        rw [strBody, List.flatMap_singleton, htail, lineText_cons, hone]
        exact List.mem_cons_self
      exact hw.notMem (by decide) (by decide) (h ▸ mem_strBody_of_mem hc hslash)
    have hascii : ∀ c ∈ s, c.val < 0x80 := by
      intro c hc
      by_contra hwide
      rcases lineText_wide (Nat.le_of_not_lt hwide) with ⟨ch, rest, hcons, hge⟩
      have hone : strBody [c] = lineText [c] :=
        strBody_plain (fun d hd => List.mem_singleton.1 hd ▸ hplain c hc)
      have hmem : ch ∈ w :=
        h ▸ mem_strBody_of_mem hc (hone ▸ hcons ▸ List.mem_cons_self)
      have hlt := hw.ascii ch hmem
      omega
    rw [← h, strBody_plain hplain]
    exact (map_ofChar_lineText hascii).symm
  · rintro rfl
    rw [strBody_plain, lineText_map_ofChar hw.ascii]
    intro c hc
    rcases List.mem_map.1 hc with ⟨d, hd, rfl⟩
    exact hw.plain d hd

/-! ## What is found for a key -/

/-- The part of a text behind its last double quote. -/
def behindQuotes : PyStr → PyStr
  | [] => []
  | c :: s => if 0x22 ∈ s then behindQuotes s else if c = 0x22 then s else c :: s

/-- A string that ends in the key, from its start or from a quote in it: in the line the key then
stands between two quotes. -/
def EndsIn (key : String) : PyValue → Prop
  | .str s => behindQuotes s = py key
  | _ => False

instance (key : String) : DecidablePred (EndsIn key)
  | .str s => inferInstanceAs (Decidable (behindQuotes s = py key))
  | .none | .bool _ | .int _ | .float _ | .list _ | .dict _ => isFalse id

/-- The value the scanner takes for a key, and the entries behind it. -/
def scannedAt (key : String) : PyDict → Option (PyValue × PyDict)
  | [] => none
  | (k, v) :: rest =>
    if k = py key then some (v, rest)
    -- The next colon is that of the entry behind the string.
    else if EndsIn key v then rest.head?.map fun entry => (entry.2, rest.tail)
    else scannedAt key rest

def scanned (key : String) (entries : PyDict) : Option PyValue :=
  (scannedAt key entries).map Prod.fst

/-- The values of a flat object, floats left aside. -/
def Scalar : PyValue → Prop
  | .none | .bool _ | .int _ | .str _ => True
  | _ => False

/-- Every key is written without an escape and has no colon. -/
structure Scannable (entries : PyDict) : Prop where
  plain : ∀ entry ∈ entries, ∀ c ∈ entry.1, PlainChar c
  noColon : ∀ entry ∈ entries, (0x3A : CodePoint) ∉ entry.1
  scalar : ∀ entry ∈ entries, Scalar entry.2

theorem Scannable.tail {entry : PyStr × PyValue} {entries : PyDict}
    (h : Scannable (entry :: entries)) : Scannable entries :=
  ⟨fun e he => h.plain e (List.mem_cons_of_mem _ he),
    fun e he => h.noColon e (List.mem_cons_of_mem _ he),
    fun e he => h.scalar e (List.mem_cons_of_mem _ he)⟩

theorem scannable_fieldsOf {fields : List (String × PyValue)}
    (h : ∀ field ∈ fields, IsWord field.1.toList ∧ Scalar field.2) :
    Scannable (fieldsOf fields) where
  plain := by
    intro entry hentry c hc
    rcases List.mem_map.1 hentry with ⟨field, hfield, rfl⟩
    rcases List.mem_map.1 hc with ⟨ch, hch, rfl⟩
    exact (h field hfield).1.plain ch hch
  noColon := by
    intro entry hentry hcolon
    rcases List.mem_map.1 hentry with ⟨field, hfield, rfl⟩
    rcases List.mem_map.1 hcolon with ⟨ch, hch, heq⟩
    have hch' : ch = ':' := CodePoint.ofChar_injective heq
    exact (h field hfield).1.notMem (by decide) (by decide) (hch' ▸ hch)
  scalar := by
    intro entry hentry
    rcases List.mem_map.1 hentry with ⟨field, hfield, rfl⟩
    exact (h field hfield).2

theorem behindQuotes_of_notMem {s : PyStr} (h : (0x22 : CodePoint) ∉ s) : behindQuotes s = s := by
  cases s with
  | nil =>
      rfl
  | cons c s =>
      rw [List.mem_cons, not_or] at h
      rw [behindQuotes, if_neg h.2, if_neg (Ne.symm h.1)]

theorem behindQuotes_append (p s : PyStr) : behindQuotes (p ++ 0x22 :: s) = behindQuotes s := by
  induction p with
  | nil =>
      rw [List.nil_append, behindQuotes]
      by_cases h : (0x22 : CodePoint) ∈ s
      · rw [if_pos h]
      · rw [if_neg h, if_pos rfl, behindQuotes_of_notMem h]
  | cons c p ih =>
      rw [List.cons_append, behindQuotes, if_pos (by simp), ih]

theorem scanned_cons_of_ne {key : String} {k : PyStr} {v : PyValue} (hk : k ≠ py key)
    (hv : ¬ EndsIn key v) (rest : PyDict) : scanned key ((k, v) :: rest) = scanned key rest := by
  rw [scanned, scannedAt, if_neg hk, if_neg hv, scanned]

/-- Where no other entry is a string that ends in the key, its own entry is found. -/
theorem scanned_eq_get? {key : String} {entries : PyDict}
    (h : ∀ entry ∈ entries, entry.1 ≠ py key → ¬ EndsIn key entry.2) :
    scanned key entries = entries.get? key := by
  induction entries with
  | nil =>
      rfl
  | cons entry entries ih =>
      rcases entry with ⟨k, v⟩
      by_cases hk : k = py key
      · subst hk
        simp [scanned, scannedAt, PyDict.get?]
      · have hbeq : (py key == k) = false := beq_false_of_ne (Ne.symm hk)
        rw [scanned_cons_of_ne hk (h (k, v) List.mem_cons_self hk),
          ih (fun entry hentry => h entry (List.mem_cons_of_mem _ hentry))]
        simp [PyDict.get?, List.lookup_cons, hbeq]

section Found

variable {word gap rest : CString}

/-- The colon behind the first place where the word stands in quotes. -/
def found (word text : CString) : Option CString :=
  (strstr (quoted word) text).bind fun p => strchr ':' (p.drop (quoted word).length)

theorem found_hit : found word ('"' :: (word ++ '"' :: rest)) = strchr ':' rest := by
  have hdrop : ('"' :: (word ++ '"' :: rest)).drop (quoted word).length = rest := by
    simp [quoted]
  rw [found, strstr_hit, Option.bind_some, hdrop]

theorem found_miss (hword : '"' ∉ word) (hgap : '"' ∉ gap) (hne : gap ≠ word) :
    found word ('"' :: (gap ++ '"' :: rest)) = found word ('"' :: rest) := by
  rw [found, strstr_miss hword hgap hne, found]

theorem found_last (hgap : '"' ∉ gap) : found word ('"' :: gap) = none := by
  rw [found, strstr_last hgap, Option.bind_none]

theorem found_skip (hgap : '"' ∉ gap) : found word (gap ++ rest) = found word rest := by
  rw [found, strstr_skip hgap, found]

theorem found_none (hgap : '"' ∉ gap) : found word gap = none := by
  rw [found, strstr_none hgap, Option.bind_none]

/-- Text behind a closing quote is passed over if it has a character that no word has. -/
theorem found_behind (hword : IsWord word) (hgap : '"' ∉ gap) {c : Char} (hc : c ∈ gap)
    (hsep : c.isAlphanum = false ∧ c ≠ '_') (rest : CString) :
    found word ('"' :: (gap ++ rest)) = found word rest := by
  have hquote : '"' ∉ word := hword.notMem (by decide) (by decide)
  by_cases hmem : '"' ∈ rest
  · -- The next quote ends a text that is not the word.
    rcases List.eq_append_cons_of_mem hmem with ⟨init, tail, rfl, hinit⟩
    have hne : gap ++ init ≠ word := by
      intro heq
      exact hword.notMem hsep.1 hsep.2 (heq ▸ List.mem_append_left _ hc)
    rw [← List.append_assoc, found_miss hquote (by simp [hgap, hinit]) hne, found_skip hinit]
  · rw [found_last (by simp [hgap, hmem]), found_none hmem]

/-- A string is passed over, its own quotes included, unless it ends in the word. -/
theorem found_strBody (hword : IsWord word) (s : PyStr) :
    found word ('"' :: (strBody s ++ '"' :: rest)) =
      if behindQuotes s = word.map CodePoint.ofChar then strchr ':' rest
      else found word ('"' :: rest) := by
  have hquote : '"' ∉ word := hword.notMem (by decide) (by decide)
  -- By induction on the text behind a part without quotes.
  suffices hsplit : ∀ p : PyStr, (0x22 : CodePoint) ∉ p →
      found word ('"' :: (strBody (p ++ s) ++ '"' :: rest)) =
        if behindQuotes (p ++ s) = word.map CodePoint.ofChar then strchr ':' rest
        else found word ('"' :: rest) from hsplit [] (by simp)
  induction s with
  | nil =>
      intro p hp
      rw [List.append_nil, behindQuotes_of_notMem hp]
      split_ifs with h
      · rw [(strBody_eq_word_iff hword).2 h, found_hit]
      · exact found_miss hquote (quote_notMem_strBody hp)
          (fun heq => h ((strBody_eq_word_iff hword).1 heq))
  | cons c s ih =>
      intro p hp
      by_cases hc : c = 0x22
      · subst hc
        have hslash : strBody p ++ ['\\'] ≠ word := by
          rintro rfl
          exact hword.notMem (c := '\\') (by decide) (by decide) (by simp)
        have hgap : '"' ∉ strBody p ++ ['\\'] := by
          simp [quote_notMem_strBody hp]
        have htext : '"' :: (strBody (p ++ 0x22 :: s) ++ '"' :: rest) =
            '"' :: ((strBody p ++ ['\\']) ++ '"' :: (strBody s ++ '"' :: rest)) := by
          simp [strBody_quote]
        rw [htext, found_miss hquote hgap hslash, behindQuotes_append]
        exact ih [] (by simp)
      · have hassoc : p ++ c :: s = (p ++ [c]) ++ s := by simp
        rw [hassoc]
        exact ih (p ++ [c]) (by simp [hp, Ne.symm hc])

end Found

/-! ## Reading an object -/

section Object

variable (T : PyTables)

def valueText (v : PyValue) : CString :=
  lineText (PyJson.dumps T v)

/-- The text of an object from behind its opening brace. -/
def entriesText (entries : PyDict) : CString :=
  lineText (PyJson.dumpEntries T entries) ++ ['\x7d']

/-- The text of an object from behind one of its values. -/
def tailText : PyDict → CString
  | [] => ['\x7d']
  | entry :: rest => ',' :: entriesText T (entry :: rest)

theorem lineText_dumpStr (s : PyStr) :
    lineText (PyJson.dumpStr s) = '"' :: (strBody s ++ ['"']) := by
  have hquote : lineText (py "\"") = ['"'] := by decide +kernel
  rw [PyJson.dumpStr, lineText_append, lineText_append, hquote]
  rfl

theorem lineText_dumps_dict (entries : PyDict) :
    lineText (PyJson.dumps T (.dict entries)) = '\x7b' :: entriesText T entries := by
  have hopen : lineText (py "\x7b") = ['\x7b'] := by decide +kernel
  have hclose : lineText (py "\x7d") = ['\x7d'] := by decide +kernel
  rw [PyJson.dumps, lineText_append, lineText_append, hopen, hclose]
  rfl

theorem entriesText_nil : entriesText T [] = ['\x7d'] := by
  simp [entriesText, PyJson.dumpEntries]

theorem entriesText_cons (k : PyStr) (v : PyValue) (rest : PyDict) :
    entriesText T ((k, v) :: rest) =
      '"' :: (strBody k ++ '"' :: ':' :: (valueText T v ++ tailText T rest)) := by
  have hcolon : lineText (py ":") = [':'] := by decide +kernel
  have hcomma : lineText (py ",") = [','] := by decide +kernel
  cases rest with
  | nil =>
      simp [entriesText, tailText, valueText, PyJson.dumpEntries, lineText_dumpStr, hcolon]
  | cons entry rest =>
      simp [entriesText, tailText, valueText, PyJson.dumpEntries, lineText_dumpStr, hcolon, hcomma]

theorem valueText_str (s : PyStr) : valueText T (.str s) = '"' :: (strBody s ++ ['"']) := by
  rw [valueText, PyJson.dumps, lineText_dumpStr]

theorem valueText_int (n : Int) : valueText T (.int n) = decimal n := by
  rw [valueText, PyJson.dumps, decimalText, lineText_py]
  · rfl
  · intro c hc
    rcases mem_decimal hc with rfl | h
    · decide
    · exact IsWord.ascii (w := [c]) (by simp [IsWord, Char.isAlphanum, h]) c List.mem_cons_self

theorem valueText_bool (b : Bool) : valueText T (.bool b) = trueFalse b := by
  rw [valueText, PyJson.dumps]
  cases b <;> decide +kernel

theorem valueText_none : valueText T .none = "null".toList := by
  rw [valueText, PyJson.dumps]
  decide +kernel

/-- A value that is no string has no quote in it. -/
theorem quote_notMem_valueText {v : PyValue} (hv : Scalar v) (hstr : ∀ s, v ≠ .str s) :
    '"' ∉ valueText T v := by
  cases v with
  | none =>
      rw [valueText_none]
      decide
  | bool b =>
      rw [valueText_bool]
      cases b <;> decide
  | int n =>
      rw [valueText_int]
      intro h
      rcases mem_decimal h with h | h
      · exact absurd h (by decide)
      · exact absurd h (by decide)
  | str s => exact absurd rfl (hstr s)
  | float _ | list _ | dict _ => exact hv.elim

variable {T} {key : String}

/-- Behind a string the next colon is that of the next entry. -/
theorem strchr_tailText {rest : PyDict} (hrest : Scannable rest) :
    strchr ':' (tailText T rest) =
      rest.head?.map fun entry => ':' :: (valueText T entry.2 ++ tailText T rest.tail) := by
  cases rest with
  | nil =>
      rfl
  | cons entry rest =>
      rcases entry with ⟨k, v⟩
      have hk : strBody k = lineText k := strBody_plain (hrest.plain (k, v) List.mem_cons_self)
      have hcolon : ':' ∉ lineText k := by
        intro h
        exact hrest.noColon (k, v) List.mem_cons_self (mem_of_mem_lineText (by decide) h)
      have htext : tailText T ((k, v) :: rest) =
          (',' :: '"' :: (lineText k ++ ['"'])) ++ ':' :: (valueText T v ++ tailText T rest) := by
        rw [tailText, entriesText_cons, hk]
        simp
      rw [htext, strchr_skip (by simp [hcolon])]
      rfl

section Keyed

variable (hkey : IsWord key.toList)
include hkey

/-- Behind a value the search goes on with the next entry. -/
theorem found_tailText {gap : CString} (hgap : '"' ∉ gap) (rest : PyDict) :
    found key.toList ('"' :: (gap ++ tailText T rest)) =
      found key.toList (entriesText T rest) := by
  cases rest with
  | nil =>
      have hnone : found key.toList ['\x7d'] = none := found_none (by decide)
      rw [entriesText_nil, hnone]
      exact found_last (by simp [tailText, hgap])
  | cons entry rest =>
      have htext : gap ++ tailText T (entry :: rest) =
          (gap ++ [',']) ++ entriesText T (entry :: rest) := by
        simp [tailText]
      rw [htext]
      exact found_behind hkey (by simp [hgap]) (c := ',') (by simp) (by decide) _

/-- A value is passed over unless it is a string that ends in the key. -/
theorem found_valueText {v : PyValue} (hv : Scalar v) (rest : PyDict) :
    found key.toList ('"' :: ':' :: (valueText T v ++ tailText T rest)) =
      if EndsIn key v then strchr ':' (tailText T rest)
      else found key.toList (entriesText T rest) := by
  have hquote : '"' ∉ key.toList := hkey.notMem (by decide) (by decide)
  by_cases hstr : ∃ s, v = .str s
  · rcases hstr with ⟨s, rfl⟩
    have hcolon : [':'] ≠ key.toList := by
      intro heq
      exact hkey.notMem (c := ':') (by decide) (by decide) (heq ▸ List.mem_cons_self)
    have htext : ':' :: (valueText T (.str s) ++ tailText T rest) =
        [':'] ++ '"' :: (strBody s ++ '"' :: tailText T rest) := by
      simp [valueText_str]
    have hrest : found key.toList ('"' :: tailText T rest) =
        found key.toList (entriesText T rest) :=
      found_tailText hkey (List.not_mem_nil) rest
    rw [htext, found_miss hquote (by simp) hcolon, found_strBody hkey, hrest]
    rfl
  · push Not at hstr
    have hends : ¬ EndsIn key v := by
      cases v with
      | str s => exact absurd rfl (hstr s)
      | none | bool _ | int _ | float _ | list _ | dict _ => exact id
    rw [if_neg hends]
    have hgap : '"' ∉ ':' :: valueText T v := by
      simp [quote_notMem_valueText T hv hstr]
    exact found_tailText hkey hgap rest

theorem found_entriesText {entries : PyDict} (h : Scannable entries) :
    found key.toList (entriesText T entries) =
      (scannedAt key entries).map fun r => ':' :: (valueText T r.1 ++ tailText T r.2) := by
  have hquote : '"' ∉ key.toList := hkey.notMem (by decide) (by decide)
  induction entries with
  | nil =>
      rw [entriesText_nil, found_none (by decide)]
      rfl
  | cons entry rest ih =>
      rcases entry with ⟨k, v⟩
      have hplain : ∀ c ∈ k, PlainChar c := h.plain (k, v) List.mem_cons_self
      have hnoQuote : '"' ∉ strBody k :=
        quote_notMem_strBody (fun hmem => (hplain _ hmem).1 rfl)
      have hv : Scalar v := h.scalar (k, v) List.mem_cons_self
      have hmiss (hk : k ≠ py key) : strBody k ≠ key.toList :=
        fun heq => hk ((strBody_eq_word_iff hkey).1 heq)
      rw [entriesText_cons, scannedAt]
      split_ifs with hk hends
      · rw [(strBody_eq_word_iff hkey).2 hk, found_hit]
        rfl
      · rw [found_miss hquote hnoQuote (hmiss hk), found_valueText hkey hv, if_pos hends,
          strchr_tailText h.tail, Option.map_map]
        rfl
      · rw [found_miss hquote hnoQuote (hmiss hk), found_valueText hkey hv, if_neg hends]
        exact ih h.tail

end Keyed

/-- What is found is a value of the object. -/
theorem mem_of_scannedAt {entries rest : PyDict} {v : PyValue}
    (h : scannedAt key entries = some (v, rest)) : ∃ k, (k, v) ∈ entries := by
  induction entries with
  | nil =>
      cases h
  | cons entry entries ih =>
      rcases entry with ⟨k, w⟩
      rw [scannedAt] at h
      split_ifs at h with hk hends
      · cases h
        exact ⟨k, List.mem_cons_self⟩
      · cases entries with
        | nil => cases h
        | cons entry entries =>
            cases h
            exact ⟨entry.1, by simp⟩
      · rcases ih h with ⟨k', hmem⟩
        exact ⟨k', List.mem_cons_of_mem _ hmem⟩

theorem mem_of_scanned {entries : PyDict} {v : PyValue} (h : scanned key entries = some v) :
    ∃ k, (k, v) ∈ entries := by
  rcases Option.map_eq_some_iff.1 h with ⟨r, hat, rfl⟩
  exact mem_of_scannedAt hat

theorem scalar_of_scannedAt {entries rest : PyDict} {v : PyValue} (h : Scannable entries)
    (hat : scannedAt key entries = some (v, rest)) : Scalar v := by
  rcases mem_of_scannedAt hat with ⟨k, hmem⟩
  exact h.scalar (k, v) hmem

theorem ne_of_number {c d : Char} (hc : c = '-' ∨ c.isDigit = true)
    (hd : d ≠ '-' ∧ d.isDigit = false) : c ≠ d := by
  rintro rfl
  rcases hc with rfl | hc
  · exact hd.1 rfl
  · exact absurd (hc.symm.trans hd.2) (by decide)

/-- A value starts with a character that is no blank. -/
theorem dropWhile_valueText {v : PyValue} (hv : Scalar v) (rest : CString) :
    (valueText T v ++ rest).dropWhile (fun c => c == ' ' || c == '\t') = valueText T v ++ rest := by
  have hhead {c : Char} {text : CString} (h : (c == ' ' || c == '\t') = false) :
      (c :: text).dropWhile (fun c => c == ' ' || c == '\t') = c :: text := by
    simp [h]
  cases v with
  | none =>
      rw [valueText_none]
      exact hhead (by decide)
  | bool b =>
      rw [valueText_bool]
      cases b
      · exact hhead (by decide)
      · exact hhead (by decide)
  | int n =>
      rw [valueText_int]
      rcases decimal_cons n with ⟨c, text, hcons, hc⟩
      rw [hcons]
      have hspace : c ≠ ' ' := ne_of_number hc (by decide)
      have htab : c ≠ '\t' := ne_of_number hc (by decide)
      exact hhead (by simp [hspace, htab])
  | str s =>
      rw [valueText_str]
      exact hhead (by decide)
  | float _ | list _ | dict _ => exact hv.elim

/-- The line of an object. -/
def objectLine (T : PyTables) (entries : PyDict) : CString :=
  lineText (PyJson.dumps T (.dict entries))

/-- What the client sends is the line and the newline that ends it. -/
theorem ofBytes_sent {entries : PyDict} {body : List UInt8}
    (hsent : encodeJsonLine T entries = some (body ++ [10])) :
    ofBytes body = objectLine T entries := by
  have hnewline : (py "\n").flatMap utf8Char = [10] := by decide +kernel
  unfold encodeJsonLine encodeUtf8 at hsent
  split_ifs at hsent
  have hbody := Option.some.inj hsent
  rw [List.flatMap_append, hnewline] at hbody
  rw [objectLine, lineText, List.append_cancel_right hbody]

theorem jsonFindValue_eq_found (line : CString) (key : String) :
    jsonFindValue line key = (found key.toList line).map fun p =>
      (p.drop 1).dropWhile (fun c => c == ' ' || c == '\t') :=
  rfl

theorem found_objectLine (entries : PyDict) :
    found key.toList (objectLine T entries) = found key.toList (entriesText T entries) := by
  have hbrace : '"' ∉ ['\x7b'] := by decide
  rw [objectLine, lineText_dumps_dict]
  exact found_skip hbrace

theorem jsonFindValue_objectLine (hkey : IsWord key.toList) {entries : PyDict}
    (h : Scannable entries) :
    jsonFindValue (objectLine T entries) key =
      (scannedAt key entries).map fun r => valueText T r.1 ++ tailText T r.2 := by
  rw [jsonFindValue_eq_found, found_objectLine, found_entriesText hkey h, Option.map_map]
  cases hat : scannedAt key entries with
  | none =>
      rfl
  | some r =>
      exact congrArg some (dropWhile_valueText (scalar_of_scannedAt h hat) (tailText T r.2))

/-! ## The three readers -/

def asInt : PyValue → Option Int
  | .int n => some n
  | _ => none

def asBool : PyValue → Option Bool
  | .bool b => some b
  | _ => none

/-- What a buffer of `valueSize` characters takes of a string: its text up to the first quote, if that
and the NUL fit. -/
def asText (valueSize : Nat) : PyValue → Option CString
  | .str s =>
    let text := (strBody s).takeWhile (· ≠ '"')
    if text.length < valueSize then some text else none
  | _ => none

/-- A text without quotes is taken whole or not at all. -/
theorem asText_of_notMem {s : PyStr} (h : (0x22 : CodePoint) ∉ s) (valueSize : Nat) :
    asText valueSize (.str s) =
      if (strBody s).length < valueSize then some (strBody s) else none := by
  have hne : ∀ c ∈ strBody s, decide (c ≠ '"') = true :=
    fun c hc => decide_eq_true (fun heq => quote_notMem_strBody h (heq ▸ hc))
  have hall : (strBody s).takeWhile (· ≠ '"') = strBody s := by
    calc
      (strBody s).takeWhile (· ≠ '"') = (strBody s ++ []).takeWhile (· ≠ '"') := by
        rw [List.append_nil]
      _ = strBody s := by
        rw [List.takeWhile_append_of_pos hne]
        simp
  rw [asText, hall]

theorem tailText_cons (rest : PyDict) :
    ∃ stop text, tailText T rest = stop :: text ∧ stop.isDigit = false := by
  cases rest with
  | nil => exact ⟨'\x7d', [], rfl, by decide⟩
  | cons entry rest => exact ⟨',', _, rfl, by decide⟩

theorem strtoll_valueText {v : PyValue} (hv : Scalar v)
    (hrange : ∀ n, v = .int n → llongMin ≤ n ∧ n ≤ llongMax) {stop : Char}
    (hstop : stop.isDigit = false) (rest : CString) :
    strtoll (valueText T v ++ stop :: rest) = asInt v := by
  cases v with
  | none =>
      rw [valueText_none]
      rfl
  | bool b =>
      rw [valueText_bool]
      cases b
      · rfl
      · rfl
  | int n =>
      rw [valueText_int]
      exact strtoll_decimal (hrange n rfl).1 (hrange n rfl).2 hstop rest
  | str s =>
      rw [valueText_str]
      rfl
  | float _ | list _ | dict _ => exact hv.elim

theorem jsonFindNumber_objectLine (hkey : IsWord key.toList) {entries : PyDict}
    (h : Scannable entries)
    (hrange : ∀ n, scanned key entries = some (.int n) → llongMin ≤ n ∧ n ≤ llongMax) :
    jsonFindNumber (objectLine T entries) key = (scanned key entries).bind asInt := by
  rw [scanned] at hrange
  rw [jsonFindNumber, jsonFindValue_objectLine hkey h, scanned]
  cases hat : scannedAt key entries with
  | none =>
      rfl
  | some r =>
      rcases tailText_cons (T := T) r.2 with ⟨stop, text, htail, hstop⟩
      rw [Option.map_some, Option.bind_some, htail]
      refine strtoll_valueText (scalar_of_scannedAt h hat) ?_ hstop text
      intro n hn
      exact hrange n (by rw [hat, ← hn]; rfl)

/-- The comparison with the two words at the start of a value. -/
theorem trueFalse_valueText {v : PyValue} (hv : Scalar v) (rest : CString) :
    (if "true".toList.isPrefixOf (valueText T v ++ rest) then some true
      else if "false".toList.isPrefixOf (valueText T v ++ rest) then some false
      else none) = asBool v := by
  cases v with
  | none =>
      rw [valueText_none]
      rfl
  | bool b =>
      rw [valueText_bool]
      cases b
      · rfl
      · rfl
  | int n =>
      rcases decimal_cons n with ⟨c, text, hcons, hc⟩
      have ht : ('t' == c) = false := beq_false_of_ne (ne_of_number hc (by decide)).symm
      have hf : ('f' == c) = false := beq_false_of_ne (ne_of_number hc (by decide)).symm
      rw [valueText_int, hcons]
      simp [List.isPrefixOf, ht, hf, asBool]
  | str s =>
      rw [valueText_str]
      rfl
  | float _ | list _ | dict _ => exact hv.elim

theorem jsonFindBool_objectLine (hkey : IsWord key.toList) {entries : PyDict}
    (h : Scannable entries) :
    jsonFindBool (objectLine T entries) key = (scanned key entries).bind asBool := by
  rw [jsonFindBool, jsonFindValue_objectLine hkey h, scanned]
  cases hat : scannedAt key entries with
  | none =>
      rfl
  | some r =>
      exact trueFalse_valueText (scalar_of_scannedAt h hat) (tailText T r.2)

theorem scanString_append {text : CString} (htext : '"' ∉ text) (room : Nat) (rest : CString) :
    scanString room (text ++ '"' :: rest) = if text.length ≤ room then some text else none := by
  induction text generalizing room with
  | nil =>
      cases room <;> rfl
  | cons c text ih =>
      have hc : c ≠ '"' := fun heq => htext (heq ▸ List.mem_cons_self)
      cases room with
      | zero =>
          simp [scanString, hc]
      | succ room =>
          rw [List.cons_append, scanString, if_neg hc,
            ih (fun hmem => htext (List.mem_cons_of_mem c hmem))]
          simp only [List.length_cons, Nat.add_le_add_iff_right]
          split_ifs
          · rfl
          · rfl

/-- A text that is closed by a quote is one without quotes that is closed by its first. -/
theorem takeWhile_closed (text rest : CString) :
    ∃ rest', text ++ '"' :: rest = text.takeWhile (· ≠ '"') ++ '"' :: rest' := by
  induction text with
  | nil =>
      exact ⟨rest, rfl⟩
  | cons c text ih =>
      by_cases hc : c = '"'
      · subst hc
        exact ⟨text ++ '"' :: rest, by simp⟩
      · rcases ih with ⟨rest', h⟩
        refine ⟨rest', ?_⟩
        rw [List.takeWhile_cons_of_pos (by simp [hc]), List.cons_append, List.cons_append, h]

theorem scannable_buildRequest {fields : List (String × PyValue)}
    (h : ∀ field ∈ fields, IsWord field.1.toList ∧ Scalar field.2) (requestId : Int) (cmd : String) :
    Scannable (buildRequest requestId cmd (fieldsOf fields)) := by
  have hmessage : buildRequest requestId cmd (fieldsOf fields) =
      fieldsOf (("request_id", .int requestId) :: ("cmd", .str (py cmd)) :: fields) := rfl
  have hid : IsWord "request_id".toList := CString.forall_mem_ofList (by decide)
  have hcmd : IsWord "cmd".toList := CString.forall_mem_ofList (by decide)
  rw [hmessage]
  refine scannable_fieldsOf ?_
  intro field hfield
  rcases List.mem_cons.1 hfield with rfl | hfield
  · exact ⟨hid, trivial⟩
  rcases List.mem_cons.1 hfield with rfl | hfield
  · exact ⟨hcmd, trivial⟩
  · exact h field hfield

/-- The number and the name of a request are passed over. -/
theorem scanned_buildRequest {cmd : String} (hid : "request_id" ≠ key) (hname : "cmd" ≠ key)
    (hcmd : ¬ EndsIn key (.str (py cmd))) (requestId : Int) (fields : PyDict) :
    scanned key (buildRequest requestId cmd fields) = scanned key fields := by
  have hid' : py "request_id" ≠ py key := by simpa using hid
  have hname' : py "cmd" ≠ py key := by simpa using hname
  calc
    scanned key (buildRequest requestId cmd fields)
        = scanned key ((py "cmd", .str (py cmd)) :: fields) :=
          scanned_cons_of_ne hid' (v := .int requestId) (fun h => h) _
    _ = scanned key fields := scanned_cons_of_ne hname' hcmd _

/-- What `json_find_string` copies from the place of a value on. -/
def quotedText (valueSize : Nat) : CString → Option CString
  | '"' :: rest => scanString (valueSize - 1) rest
  | _ => none

theorem jsonFindString_eq {valueSize : Nat} (hsize : valueSize ≠ 0) (line : CString)
    (key : String) :
    jsonFindString line key valueSize = (jsonFindValue line key).bind (quotedText valueSize) := by
  rw [jsonFindString, if_neg hsize]
  rfl

/-- The copying loop at the start of a value. -/
theorem quotedText_valueText {v : PyValue} (hv : Scalar v) {valueSize : Nat}
    (hsize : valueSize ≠ 0) (rest : CString) :
    quotedText valueSize (valueText T v ++ rest) = asText valueSize v := by
  cases v with
  | none =>
      rw [valueText_none]
      rfl
  | bool b =>
      rw [valueText_bool]
      cases b
      · rfl
      · rfl
  | int n =>
      rcases decimal_cons n with ⟨c, text, hcons, hc⟩
      have hquote : c ≠ '"' := ne_of_number hc (by decide)
      rw [valueText_int, hcons]
      simp [quotedText, hquote, asText]
  | str s =>
      have hclosed : '"' ∉ (strBody s).takeWhile (· ≠ '"') := by
        intro hmem
        have hne := List.all_eq_true.1 List.all_takeWhile '"' hmem
        exact absurd hne (by decide)
      rcases takeWhile_closed (strBody s) rest with ⟨rest', hsplit⟩
      have htext : valueText T (.str s) ++ rest =
          '"' :: ((strBody s).takeWhile (· ≠ '"') ++ '"' :: rest') := by
        rw [valueText_str, ← hsplit]
        simp
      rw [htext]
      simp only [quotedText, asText, scanString_append hclosed]
      exact if_congr (by omega) rfl rfl
  | float _ | list _ | dict _ => exact hv.elim

theorem jsonFindString_objectLine (hkey : IsWord key.toList) {entries : PyDict}
    (h : Scannable entries) {valueSize : Nat} (hsize : valueSize ≠ 0) :
    jsonFindString (objectLine T entries) key valueSize =
      (scanned key entries).bind (asText valueSize) := by
  rw [jsonFindString_eq hsize, jsonFindValue_objectLine hkey h, scanned]
  cases hat : scannedAt key entries with
  | none =>
      rfl
  | some r =>
      exact quotedText_valueText (scalar_of_scannedAt h hat) hsize (tailText T r.2)

end Object

end Bridge
end Sdr
