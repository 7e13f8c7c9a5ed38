import Sdr.Bridge.ReachableControl
import Sdr.Bridge.ScanLine

/-!
# RxValidation — what the checks of `cmd_set_rx` let through

A number of a request is narrowed to the type of its field before it is checked, and a sample format
that does not fit the buffer counts as one that is not there.  The checks are exact on the requests
whose fields survive the narrowing; any other request that passes is taken for one it is not.
-/

namespace Sdr
namespace Bridge

open Lib Lib.CString Protocol

/-! ## Requests -/

/-- A field of a `set_rx` that starts or retunes the stream. -/
inductive RequestField
  | streamId (n : Int)
  | adcChannel (n : Int)
  | frequencyHz (n : Int)
  | iqSampleRateHz (n : Int)
  | bandwidthHz (n : Int)
  | sampleFormat (s : PyStr)
  | mode (s : PyStr)
  | enable
  deriving DecidableEq

namespace RequestField

def name : RequestField → String
  | .streamId _ => "stream_id"
  | .adcChannel _ => "adc_channel"
  | .frequencyHz _ => "frequency_hz"
  | .iqSampleRateHz _ => "iq_sample_rate_hz"
  | .bandwidthHz _ => "bandwidth_hz"
  | .sampleFormat _ => "sample_format"
  | .mode _ => "mode"
  | .enable => "enable"

def value : RequestField → PyValue
  | .streamId n | .adcChannel n | .frequencyHz n | .iqSampleRateHz n | .bandwidthHz n => .int n
  | .sampleFormat s | .mode s => .str s
  | .enable => .bool true

/-- The keys that `cmd_set_rx` looks up. -/
def keys : List String :=
  ["stream_id", "adc_channel", "frequency_hz", "iq_sample_rate_hz", "bandwidth_hz", "sample_format",
    "mode", "enable"]

/-- Numbers are of `int64_t`, texts have no quotes and no backslashes; the mode is not one of the
keys. -/
def Admissible : RequestField → Prop
  | .streamId n | .adcChannel n | .frequencyHz n | .iqSampleRateHz n | .bandwidthHz n =>
      -2 ^ 63 ≤ n ∧ n < 2 ^ 63
  | .sampleFormat s => (0x22 : CodePoint) ∉ s ∧ (0x5C : CodePoint) ∉ s
  | .mode s => (0x22 : CodePoint) ∉ s ∧ (0x5C : CodePoint) ∉ s ∧ ∀ key ∈ keys, s ≠ py key
  | .enable => True

instance : DecidablePred Admissible
  | .streamId n | .adcChannel n | .frequencyHz n | .iqSampleRateHz n | .bandwidthHz n =>
      inferInstanceAs (Decidable (-2 ^ 63 ≤ n ∧ n < 2 ^ 63))
  | .sampleFormat s => inferInstanceAs (Decidable ((0x22 : CodePoint) ∉ s ∧ (0x5C : CodePoint) ∉ s))
  | .mode s =>
      inferInstanceAs (Decidable
        ((0x22 : CodePoint) ∉ s ∧ (0x5C : CodePoint) ∉ s ∧ ∀ key ∈ keys, s ≠ py key))
  | .enable => isTrue trivial

/-- The field is in range as requested. -/
def InRange : RequestField → Prop
  | .streamId n => n = 0
  | .adcChannel n => n = 0 ∨ n = 1
  | .frequencyHz n => 500000 ≤ n ∧ n ≤ 108000000
  | .iqSampleRateHz n => n = 125000 ∨ n = 250000 ∨ n = 500000 ∨ n = 1000000
  | .bandwidthHz n => 0 ≤ n ∧ n < 2 ^ 32
  | .sampleFormat s => s = py "SC16_LE"
  | .mode _ | .enable => True

/-- The field passes its check once it is narrowed. -/
def Passes : RequestField → Prop
  | .streamId n => toInt32 n = 0
  | .adcChannel n => toInt32 n = 0 ∨ toInt32 n = 1
  | .frequencyHz n =>
      500000 ≤ (BitVec.ofInt 64 n).toNat ∧ (BitVec.ofInt 64 n).toNat ≤ 108000000
  | .iqSampleRateHz n => supportedRate (BitVec.ofInt 32 n) = true
  | .sampleFormat s => s = py "SC16_LE" ∨ 24 ≤ (strBody s).length
  | .bandwidthHz _ | .mode _ | .enable => True

instance : DecidablePred Passes
  | .streamId n => inferInstanceAs (Decidable (toInt32 n = 0))
  | .adcChannel n => inferInstanceAs (Decidable (toInt32 n = 0 ∨ toInt32 n = 1))
  | .frequencyHz n =>
      inferInstanceAs (Decidable
        (500000 ≤ (BitVec.ofInt 64 n).toNat ∧ (BitVec.ofInt 64 n).toNat ≤ 108000000))
  | .iqSampleRateHz n => inferInstanceAs (Decidable (supportedRate (BitVec.ofInt 32 n) = true))
  | .sampleFormat s => inferInstanceAs (Decidable (s = py "SC16_LE" ∨ 24 ≤ (strBody s).length))
  | .bandwidthHz _ | .mode _ | .enable => isTrue trivial

/-- Narrowing keeps the field: the number is one of the field's type, the text fits the buffer. -/
def Fits : RequestField → Prop
  | .streamId n | .adcChannel n => -2 ^ 31 ≤ n ∧ n < 2 ^ 31
  | .iqSampleRateHz n | .bandwidthHz n => 0 ≤ n ∧ n < 2 ^ 32
  | .sampleFormat s => (strBody s).length < 24
  | .frequencyHz _ | .mode _ | .enable => True

instance : DecidablePred Fits
  | .streamId n | .adcChannel n => inferInstanceAs (Decidable (-2 ^ 31 ≤ n ∧ n < 2 ^ 31))
  | .iqSampleRateHz n | .bandwidthHz n => inferInstanceAs (Decidable (0 ≤ n ∧ n < 2 ^ 32))
  | .sampleFormat s => inferInstanceAs (Decidable ((strBody s).length < 24))
  | .frequencyHz _ | .mode _ | .enable => isTrue trivial

/-- The configuration has the value of the field; the sample format is not stored, and the mode is
not looked at. -/
def StoredIn (rx : RxConfig) : RequestField → Prop
  | .streamId n => rx.streamId = n
  | .adcChannel n => rx.adcChannel = n
  | .frequencyHz n => (rx.frequencyHz.toNat : Int) = n
  | .iqSampleRateHz n => (rx.iqSampleRateHz.toNat : Int) = n
  | .bandwidthHz n => (rx.bandwidthHz.toNat : Int) = n
  | .enable => rx.enabled = true
  | .sampleFormat _ | .mode _ => True

/-- `applied` has the field with the value that was requested; the mode is not looked at. -/
def ReportedIn (T : PyTables) (applied : List (String × CString)) : RequestField → Prop
  | .mode _ => True
  | field => (field.name, valueText T field.value) ∈ applied

theorem name_mem_keys (field : RequestField) : field.name ∈ keys := by
  cases field
  all_goals simp [name, keys]

/-- The number fields of one key. -/
structure IsNumber (mk : Int → RequestField) (key : String) : Prop where
  name : ∀ n, (mk n).name = key
  value : ∀ n, (mk n).value = .int n
  only : ∀ field : RequestField, field.name = key → ∃ n, field = mk n

theorem isNumber_streamId : IsNumber .streamId "stream_id" :=
  ⟨fun _ => rfl, fun _ => rfl, fun field hname => by cases field <;> simp_all [RequestField.name]⟩

theorem isNumber_adcChannel : IsNumber .adcChannel "adc_channel" :=
  ⟨fun _ => rfl, fun _ => rfl, fun field hname => by cases field <;> simp_all [RequestField.name]⟩

theorem isNumber_frequencyHz : IsNumber .frequencyHz "frequency_hz" :=
  ⟨fun _ => rfl, fun _ => rfl, fun field hname => by cases field <;> simp_all [RequestField.name]⟩

theorem isNumber_iqSampleRateHz : IsNumber .iqSampleRateHz "iq_sample_rate_hz" :=
  ⟨fun _ => rfl, fun _ => rfl, fun field hname => by cases field <;> simp_all [RequestField.name]⟩

theorem isNumber_bandwidthHz : IsNumber .bandwidthHz "bandwidth_hz" :=
  ⟨fun _ => rfl, fun _ => rfl, fun field hname => by cases field <;> simp_all [RequestField.name]⟩

theorem toInt32_of_fits {n : Int} (h : -2 ^ 31 ≤ n ∧ n < 2 ^ 31) : toInt32 n = n := by
  rw [toInt32, BitVec.toInt_ofInt, Int.bmod_eq_of_le (by omega) (by omega)]

theorem toNat_ofInt_of_fits {width : Nat} {n : Int} (h : 0 ≤ n ∧ n < 2 ^ width) :
    ((BitVec.ofInt width n).toNat : Int) = n := by
  rw [BitVec.toNat_ofInt, Int.emod_eq_of_lt h.1 (by exact_mod_cast h.2), Int.toNat_of_nonneg h.1]

theorem supportedRate_ofInt_iff {n : Int} (h : 0 ≤ n ∧ n < 2 ^ 32) :
    supportedRate (BitVec.ofInt 32 n) = true ↔
      n = 125000 ∨ n = 250000 ∨ n = 500000 ∨ n = 1000000 := by
  have hval := toNat_ofInt_of_fits h
  have heq (m : Nat) (hm : m < 2 ^ 32) : BitVec.ofInt 32 n = BitVec.ofNat 32 m ↔ n = m := by
    rw [BitVec.toNat_eq, BitVec.toNat_ofNat, Nat.mod_eq_of_lt hm]
    omega
  rw [supportedRate_iff]
  exact or_congr (heq 125000 (by decide)) (or_congr (heq 250000 (by decide))
    (or_congr (heq 500000 (by decide)) (heq 1000000 (by decide))))

/-- What is in range passes its check, and narrowing keeps it; nothing else does both. -/
theorem inRange_iff {field : RequestField} (h : field.Admissible) :
    field.InRange ↔ field.Passes ∧ field.Fits := by
  cases field with
  | streamId n =>
      constructor
      · rintro rfl
        exact ⟨by decide, by decide⟩
      · rintro ⟨hpass, hfits⟩
        exact (toInt32_of_fits hfits).symm.trans hpass
  | adcChannel n =>
      constructor
      · rintro (rfl | rfl)
        · exact ⟨by decide, by decide⟩
        · exact ⟨by decide, by decide⟩
      · rintro ⟨hpass, hfits⟩
        rw [Passes, toInt32_of_fits hfits] at hpass
        exact hpass
  | frequencyHz n =>
      -- A negative number becomes one above the range, so nothing is lost here.
      have hint : -2 ^ 63 ≤ n ∧ n < 2 ^ 63 := h
      simp only [InRange, Passes, Fits, BitVec.toNat_ofInt, and_true]
      omega
  | iqSampleRateHz n =>
      constructor
      · intro hrange
        have hfits : 0 ≤ n ∧ n < 2 ^ 32 := by
          rcases hrange with rfl | rfl | rfl | rfl
          all_goals decide
        exact ⟨(supportedRate_ofInt_iff hfits).2 hrange, hfits⟩
      · rintro ⟨hpass, hfits⟩
        exact (supportedRate_ofInt_iff hfits).1 hpass
  | bandwidthHz n =>
      simp [InRange, Passes, Fits]
  | sampleFormat s =>
      constructor
      · rintro rfl
        exact ⟨Or.inl rfl, by decide +kernel⟩
      · rintro ⟨hpass, hfits⟩
        rcases hpass with heq | hlong
        · exact heq
        · exact absurd hfits (Nat.not_lt.2 hlong)
  | mode s | enable =>
      simp [InRange, Passes, Fits]

end RequestField

/-- The fields of a request in any order, each there at most once. -/
structure Request where
  fields : List RequestField
  distinct : (fields.map RequestField.name).Nodup
  admissible : ∀ field ∈ fields, field.Admissible

namespace Request

variable {r : Request}

def dict (r : Request) : PyDict :=
  fieldsOf (r.fields.map fun field => (field.name, field.value))

/-- What the client sends; `encode_json_line` makes a line of it. -/
def message (r : Request) (requestId : Int) : PyDict :=
  buildRequest requestId "set_rx" r.dict

def line (r : Request) (T : PyTables) (requestId : Int) : CString :=
  objectLine T (r.message requestId)

/-! ## Looking a field up -/

theorem get?_eq_some_iff {key : String} {v : PyValue} :
    r.dict.get? key = some v ↔ ∃ field ∈ r.fields, field.name = key ∧ field.value = v :=
  get?_fieldsOf_map_eq_some_iff r.distinct

theorem get?_of_mem {field : RequestField} (h : field ∈ r.fields) :
    r.dict.get? field.name = some field.value :=
  get?_eq_some_iff.2 ⟨field, h, rfl, rfl⟩

theorem mem_dict {entry : PyStr × PyValue} (h : entry ∈ r.dict) :
    ∃ field ∈ r.fields, entry = (py field.name, field.value) :=
  mem_fieldsOf_map h

theorem isWord_of_mem_keys {key : String} (hkey : key ∈ RequestField.keys) : IsWord key.toList := by
  have hall : ∀ k ∈ RequestField.keys, IsWord k.toList := by
    simp only [RequestField.keys, List.forall_mem_cons, List.not_mem_nil, false_imp_iff,
      implies_true, and_true]
    repeat' apply And.intro
    all_goals
      apply CString.forall_mem_ofList
      decide
  exact hall key hkey

theorem scannable_message (requestId : Int) : Scannable (r.message requestId) := by
  refine scannable_buildRequest ?_ requestId "set_rx"
  intro field hfield
  rcases List.mem_map.1 hfield with ⟨f, _, rfl⟩
  refine ⟨isWord_of_mem_keys f.name_mem_keys, ?_⟩
  cases f
  all_goals exact trivial

theorem scanned_message (requestId : Int) {key : String} (hkey : key ∈ RequestField.keys) :
    scanned key (r.message requestId) = scanned key r.dict := by
  have hne {other : String} (hother : other ∉ RequestField.keys) : other ≠ key := by
    rintro rfl
    exact hother hkey
  refine scanned_buildRequest (hne (by decide)) (hne (by decide)) ?_ requestId r.dict
  have hword : behindQuotes (py "set_rx") = py "set_rx" := by decide +kernel
  rw [EndsIn, hword, py_inj]
  exact hne (by decide)

/-- Only the sample format can be a key itself. -/
theorem eq_sampleFormat_of_endsIn {field : RequestField} (hfield : field.Admissible) {key : String}
    (hkey : key ∈ RequestField.keys) (h : EndsIn key field.value) :
    field = .sampleFormat (py key) := by
  cases field with
  | sampleFormat s =>
      rw [RequestField.value, EndsIn, behindQuotes_of_notMem hfield.1] at h
      rw [h]
  | mode s =>
      rw [RequestField.value, EndsIn, behindQuotes_of_notMem hfield.1] at h
      exact absurd h (hfield.2.2 key hkey)
  | streamId n | adcChannel n | frequencyHz n | iqSampleRateHz n | bandwidthHz n | enable =>
      exact h.elim

theorem scanned_sampleFormat : scanned "sample_format" r.dict = r.dict.get? "sample_format" := by
  refine scanned_eq_get? ?_
  intro entry hentry hother hends
  rcases mem_dict hentry with ⟨field, hfield, rfl⟩
  have heq := eq_sampleFormat_of_endsIn (r.admissible field hfield) (by decide) hends
  rw [heq] at hother
  exact hother rfl

/-- The sample format that the bridge compares is the one there is, or one that is too long. -/
def FormatPasses (r : Request) : Prop :=
  ∀ s, .sampleFormat s ∈ r.fields → s = py "SC16_LE" ∨ 24 ≤ (strBody s).length

/-- Then no text is taken for a key. -/
theorem scanned_eq_get?_of_formatPasses (hformat : r.FormatPasses) {key : String}
    (hkey : key ∈ RequestField.keys) : scanned key r.dict = r.dict.get? key := by
  have hshort : ∀ k ∈ RequestField.keys, py k ≠ py "SC16_LE" ∧ (strBody (py k)).length < 24 := by
    decide +kernel
  refine scanned_eq_get? ?_
  intro entry hentry _ hends
  rcases mem_dict hentry with ⟨field, hfield, rfl⟩
  have heq := eq_sampleFormat_of_endsIn (r.admissible field hfield) hkey hends
  rw [heq] at hfield
  rcases hformat (py key) hfield with hformat | hlong
  · exact (hshort key hkey).1 hformat
  · exact absurd (hshort key hkey).2 (Nat.not_lt.2 hlong)

section Line

variable (T : PyTables) (requestId : Int)

theorem jsonFindNumber_line (hformat : r.FormatPasses) {key : String}
    (hkey : key ∈ RequestField.keys) :
    jsonFindNumber (r.line T requestId) key = (r.dict.get? key).bind asInt := by
  rw [line, jsonFindNumber_objectLine (isWord_of_mem_keys hkey) (scannable_message requestId),
    scanned_message requestId hkey, scanned_eq_get?_of_formatPasses hformat hkey]
  intro n hn
  rw [scanned_message requestId hkey, scanned_eq_get?_of_formatPasses hformat hkey,
    get?_eq_some_iff] at hn
  obtain ⟨field, hfield, _, hvalue⟩ := hn
  have hadm := r.admissible field hfield
  unfold CString.llongMin CString.llongMax
  cases field with
  | streamId m | adcChannel m | frequencyHz m | iqSampleRateHz m | bandwidthHz m =>
      cases hvalue
      have hbounds : -2 ^ 63 ≤ n ∧ n < 2 ^ 63 := hadm
      omega
  | sampleFormat s | mode s | enable =>
      cases hvalue

theorem formatOk_line_iff : FormatOk (r.line T requestId) ↔ r.FormatPasses := by
  have hfind : jsonFindString (r.line T requestId) "sample_format" 24 =
      (r.dict.get? "sample_format").bind (asText 24) := by
    rw [line, jsonFindString_objectLine (isWord_of_mem_keys (by decide))
      (scannable_message requestId) (by decide), scanned_message requestId (by decide),
      scanned_sampleFormat]
  have hword : IsWord "SC16_LE".toList := CString.forall_mem_ofList (by decide)
  rw [FormatOk, hfind]
  cases hget : r.dict.get? "sample_format" with
  | none =>
      refine iff_of_true (Or.inl rfl) ?_
      intro s hs
      exact absurd (hget.symm.trans (get?_of_mem hs)) (by simp)
  | some v =>
      obtain ⟨field, hfield, hname, hvalue⟩ := get?_eq_some_iff.1 hget
      cases field with
      | sampleFormat s =>
          subst hvalue
          -- There is one sample format, and it is this one.
          have honly : r.FormatPasses ↔ s = py "SC16_LE" ∨ 24 ≤ (strBody s).length := by
            constructor
            · intro h
              exact h s hfield
            · intro h t ht
              have hsame := hget.symm.trans (get?_of_mem ht)
              cases hsame
              exact h
          rw [honly, Option.bind_some, RequestField.value,
            asText_of_notMem (r.admissible _ hfield).1]
          split_ifs with hfits
          · rw [Option.some.injEq, strBody_eq_word_iff hword]
            simp [Nat.not_le.2 hfits, py]
          · simp [Nat.not_lt.1 hfits]
      | streamId n | adcChannel n | frequencyHz n | iqSampleRateHz n | bandwidthHz n | mode s | enable =>
          exact absurd hname (by simp [RequestField.name])

/-- The `enable` that the bridge finds is never false. -/
theorem getD_enable : (jsonFindBool (r.line T requestId) "enable").getD true = true := by
  rw [line, jsonFindBool_objectLine (isWord_of_mem_keys (by decide)) (scannable_message requestId),
    scanned_message requestId (by decide)]
  cases hscanned : scanned "enable" r.dict with
  | none =>
      rfl
  | some v =>
      obtain ⟨k, hmem⟩ := mem_of_scanned hscanned
      obtain ⟨field, _, heq⟩ := mem_dict hmem
      have hvalue : v = field.value := congrArg Prod.snd heq
      rw [hvalue]
      cases field
      all_goals rfl

end Line

/-- The value of a number field, narrowed by `f`: the one requested, or the one stored. -/
theorem getD_number_iff {α : Type} {mk : Int → RequestField} {key : String}
    (hmk : RequestField.IsNumber mk key) {P : α → Prop} (f : Int → α) {stored : α}
    (hstored : P stored) :
    P ((((r.dict.get? key).bind asInt).map f).getD stored) ↔ ∀ n, mk n ∈ r.fields → P (f n) := by
  cases hget : r.dict.get? key with
  | none =>
      refine iff_of_true hstored ?_
      intro n hn
      rw [get?_eq_some_iff.2 ⟨_, hn, hmk.name n, rfl⟩] at hget
      exact absurd hget (by simp)
  | some v =>
      obtain ⟨field, hfield, hkey, rfl⟩ := get?_eq_some_iff.1 hget
      obtain ⟨n, rfl⟩ := hmk.only field hkey
      rw [hmk.value, Option.bind_some]
      constructor
      · intro h m hm
        have hsame := hget.symm.trans (get?_eq_some_iff.2 ⟨_, hm, hmk.name m, rfl⟩)
        rw [hmk.value, hmk.value] at hsame
        cases hsame
        exact h
      · intro h
        exact h n hfield

/-! ## What is accepted -/

theorem forall_passes_iff : (∀ field ∈ r.fields, field.Passes) ↔
    (∀ n, .streamId n ∈ r.fields → toInt32 n = 0) ∧
      (∀ n, .adcChannel n ∈ r.fields → toInt32 n = 0 ∨ toInt32 n = 1) ∧
      (∀ n, .frequencyHz n ∈ r.fields →
        500000 ≤ (BitVec.ofInt 64 n).toNat ∧ (BitVec.ofInt 64 n).toNat ≤ 108000000) ∧
      (∀ n, .iqSampleRateHz n ∈ r.fields → supportedRate (BitVec.ofInt 32 n) = true) ∧
      r.FormatPasses := by
  constructor
  · intro h
    exact ⟨fun n hn => h _ hn, fun n hn => h _ hn, fun n hn => h _ hn, fun n hn => h _ hn,
      fun s hs => h _ hs⟩
  · rintro ⟨hstream, hchannel, hfrequency, hrate, hformat⟩ field hfield
    cases field with
    | streamId n => exact hstream n hfield
    | adcChannel n => exact hchannel n hfield
    | frequencyHz n => exact hfrequency n hfield
    | iqSampleRateHz n => exact hrate n hfield
    | sampleFormat s => exact hformat s hfield
    | bandwidthHz n | mode s | enable => trivial

section Accepted

variable (T : PyTables) (requestId : Int) {stored : RxConfig}

/-- From a valid configuration, a field that is not there passes. -/
theorem validRx_candidateRx_iff (hstored : ValidTuning stored) (hformat : r.FormatPasses) :
    ValidRx (candidateRx stored (r.line T requestId)) ↔ ∀ field ∈ r.fields, field.Passes := by
  have hfind {key : String} (hkey : key ∈ RequestField.keys) :=
    jsonFindNumber_line T requestId hformat hkey
  have hstream : (candidateRx stored (r.line T requestId)).streamId = 0 ↔
      ∀ n, .streamId n ∈ r.fields → toInt32 n = 0 := by
    simp only [candidateRx, hfind (by decide : "stream_id" ∈ RequestField.keys)]
    exact getD_number_iff RequestField.isNumber_streamId (P := (· = 0)) toInt32 hstored.streamId
  have hchannel : ((candidateRx stored (r.line T requestId)).adcChannel = 0 ∨
      (candidateRx stored (r.line T requestId)).adcChannel = 1) ↔
      ∀ n, .adcChannel n ∈ r.fields → toInt32 n = 0 ∨ toInt32 n = 1 := by
    simp only [candidateRx, hfind (by decide : "adc_channel" ∈ RequestField.keys)]
    exact getD_number_iff RequestField.isNumber_adcChannel (P := fun n => n = 0 ∨ n = 1) toInt32
      hstored.adcChannel
  have hfrequency : (500000 ≤ (candidateRx stored (r.line T requestId)).frequencyHz.toNat ∧
      (candidateRx stored (r.line T requestId)).frequencyHz.toNat ≤ 108000000) ↔
      ∀ n, .frequencyHz n ∈ r.fields →
        500000 ≤ (BitVec.ofInt 64 n).toNat ∧ (BitVec.ofInt 64 n).toNat ≤ 108000000 := by
    simp only [candidateRx, hfind (by decide : "frequency_hz" ∈ RequestField.keys)]
    exact getD_number_iff RequestField.isNumber_frequencyHz
      (P := fun n : BitVec 64 => 500000 ≤ n.toNat ∧ n.toNat ≤ 108000000) (BitVec.ofInt 64)
      ⟨hstored.min_le, hstored.le_max⟩
  have hrate : supportedRate (candidateRx stored (r.line T requestId)).iqSampleRateHz = true ↔
      ∀ n, .iqSampleRateHz n ∈ r.fields → supportedRate (BitVec.ofInt 32 n) = true := by
    simp only [candidateRx, hfind (by decide : "iq_sample_rate_hz" ∈ RequestField.keys)]
    exact getD_number_iff RequestField.isNumber_iqSampleRateHz (P := fun n => supportedRate n = true)
      (BitVec.ofInt 32) ((supportedRate_iff _).2 hstored.rate)
  rw [forall_passes_iff, ← hstream, ← hchannel, ← hfrequency, ← hrate]
  constructor
  · intro h
    exact ⟨h.streamId, h.adcChannel, ⟨h.min_le, h.le_max⟩, (supportedRate_iff _).2 h.rate, hformat⟩
  · rintro ⟨hs, hc, hf, hr, _⟩
    have hdecimation (line : CString) : (candidateRx stored line).decimation =
        sdrDecimationForRate (candidateRx stored line).iqSampleRateHz := rfl
    exact ⟨hs, hc, hf.1, hf.2, (supportedRate_iff _).1 hr, hdecimation _, rfl⟩

theorem nextRx_line_iff (hstored : ValidTuning stored) {next : RxConfig} :
    nextRx stored (r.line T requestId) = .ok next ↔
      next = candidateRx stored (r.line T requestId) ∧ ∀ field ∈ r.fields, field.Passes := by
  rw [nextRx_eq_ok_iff, formatOk_line_iff]
  constructor
  · rintro ⟨rfl, hvalid, hformat⟩
    exact ⟨rfl, (validRx_candidateRx_iff T requestId hstored hformat).1 hvalid⟩
  · rintro ⟨rfl, hpass⟩
    have hformat : r.FormatPasses := (forall_passes_iff.1 hpass).2.2.2.2
    exact ⟨rfl, (validRx_candidateRx_iff T requestId hstored hformat).2 hpass, hformat⟩

theorem getD_number_of_mem {α : Type} {mk : Int → RequestField} {key : String}
    (hmk : RequestField.IsNumber mk key) {n : Int} (hn : mk n ∈ r.fields) (f : Int → α) (stored : α) :
    (((r.dict.get? key).bind asInt).map f).getD stored = f n := by
  rw [get?_eq_some_iff.2 ⟨_, hn, hmk.name n, hmk.value n⟩]
  rfl

/-- A field in range is stored as it is. -/
theorem storedIn_candidateRx (hformat : r.FormatPasses) {field : RequestField}
    (hfield : field ∈ r.fields) (hrange : field.InRange) :
    field.StoredIn (candidateRx stored (r.line T requestId)) := by
  have hfind {key : String} (hkey : key ∈ RequestField.keys) :=
    jsonFindNumber_line T requestId hformat hkey
  have hfits := ((RequestField.inRange_iff (r.admissible field hfield)).1 hrange).2
  cases field with
  | streamId n =>
      simp only [RequestField.StoredIn, candidateRx,
        hfind (by decide : "stream_id" ∈ RequestField.keys),
        getD_number_of_mem RequestField.isNumber_streamId hfield]
      exact RequestField.toInt32_of_fits hfits
  | adcChannel n =>
      simp only [RequestField.StoredIn, candidateRx,
        hfind (by decide : "adc_channel" ∈ RequestField.keys),
        getD_number_of_mem RequestField.isNumber_adcChannel hfield]
      exact RequestField.toInt32_of_fits hfits
  | frequencyHz n =>
      have hbounds : 500000 ≤ n ∧ n ≤ 108000000 := hrange
      simp only [RequestField.StoredIn, candidateRx,
        hfind (by decide : "frequency_hz" ∈ RequestField.keys),
        getD_number_of_mem RequestField.isNumber_frequencyHz hfield]
      exact RequestField.toNat_ofInt_of_fits (by omega)
  | iqSampleRateHz n =>
      simp only [RequestField.StoredIn, candidateRx,
        hfind (by decide : "iq_sample_rate_hz" ∈ RequestField.keys),
        getD_number_of_mem RequestField.isNumber_iqSampleRateHz hfield]
      exact RequestField.toNat_ofInt_of_fits hfits
  | bandwidthHz n =>
      simp only [RequestField.StoredIn, candidateRx,
        hfind (by decide : "bandwidth_hz" ∈ RequestField.keys),
        getD_number_of_mem RequestField.isNumber_bandwidthHz hfield]
      exact RequestField.toNat_ofInt_of_fits hfits
  | enable => rfl
  | sampleFormat s | mode s => trivial

end Accepted

/-- What is stored in range is reported as it was requested. -/
theorem reportedIn_of_storedIn (T : PyTables) (requestId : Int) {rx : RxConfig}
    {field : RequestField} (hrange : field.InRange) (hstored : field.StoredIn rx) :
    ∃ applied, (Response.rx requestId rx).applied = some applied ∧ field.ReportedIn T applied := by
  refine ⟨_, rfl, ?_⟩
  cases field with
  | streamId n =>
      have hzero : n = 0 := hrange
      have htext : decimal 0 = "0".toList := by decide
      simp [RequestField.ReportedIn, RequestField.name, RequestField.value, valueText_int, hzero,
        htext]
  | adcChannel n | frequencyHz n | iqSampleRateHz n | bandwidthHz n =>
      simp only [RequestField.StoredIn] at hstored
      simp [RequestField.ReportedIn, RequestField.name, RequestField.value, valueText_int, unsigned,
        ← hstored]
  | sampleFormat s =>
      have hformat : s = py "SC16_LE" := hrange
      have htext : strBody (py "SC16_LE") = "SC16_LE".toList := by decide +kernel
      simp only [RequestField.ReportedIn, RequestField.name, RequestField.value, valueText_str,
        hformat, htext]
      simp [quoted]
  | mode s => trivial
  | enable =>
      simp [RequestField.ReportedIn, RequestField.name, RequestField.value, valueText_bool]

/-! ## Exactness -/

/-- The answer to a request is exact: it is accepted just when every field is in range, and then
stored and reported as it was requested. -/
structure AnsweredExactly (T : PyTables) (r : Request) (outcome : Outcome) : Prop where
  accepts_iff : outcome.response.ok = true ↔ ∀ field ∈ r.fields, field.InRange
  stored : outcome.response.ok = true → ∀ field ∈ r.fields, field.StoredIn outcome.control.rx
  reported : outcome.response.ok = true → ∀ field ∈ r.fields, ∃ applied,
    outcome.response.applied = some applied ∧ field.ReportedIn T applied

section Answer

variable {T : PyTables} {requestId answerId : Int} {hw : Hw} {control : Control}

theorem cmdSetRx_accepts (hdma : hw.startIqDma = true) (hstored : ValidTuning control.rx)
    (hpass : ∀ field ∈ r.fields, field.Passes) :
    let next := candidateRx control.rx (r.line T requestId)
    (cmdSetRx hw control (r.line T requestId) answerId).control.rx = next ∧
      (cmdSetRx hw control (r.line T requestId) answerId).response = .rx answerId next := by
  have hnext := (nextRx_line_iff T requestId hstored).2 ⟨rfl, hpass⟩
  simp [cmdSetRx, getD_enable T requestId, hnext, hdma]

theorem cmdSetRx_refuses (hstored : ValidTuning control.rx)
    (hpass : ¬ ∀ field ∈ r.fields, field.Passes) :
    (cmdSetRx hw control (r.line T requestId) answerId).response.ok = false := by
  cases hnext : nextRx control.rx (r.line T requestId) with
  | error refusal =>
      simp [cmdSetRx, getD_enable T requestId, hnext, refuse, Response.ok]
  | ok next =>
      exact absurd ((nextRx_line_iff T requestId hstored).1 hnext).2 hpass

theorem answeredExactly_iff (hdma : hw.startIqDma = true) (hstored : ValidTuning control.rx) :
    AnsweredExactly T r (cmdSetRx hw control (r.line T requestId) answerId) ↔
      ((∀ field ∈ r.fields, field.Passes) → ∀ field ∈ r.fields, field.Fits) := by
  have hinRange : (∀ field ∈ r.fields, field.InRange) ↔
      (∀ field ∈ r.fields, field.Passes) ∧ ∀ field ∈ r.fields, field.Fits := by
    rw [← forall₂_and]
    exact forall₂_congr (fun field hfield => RequestField.inRange_iff (r.admissible field hfield))
  by_cases hpass : ∀ field ∈ r.fields, field.Passes
  · obtain ⟨hrx, hresponse⟩ := @cmdSetRx_accepts r T requestId answerId hw control hdma hstored hpass
    have hok : (cmdSetRx hw control (r.line T requestId) answerId).response.ok = true := by
      rw [hresponse]
      rfl
    constructor
    · intro h _
      exact (hinRange.1 (h.accepts_iff.1 hok)).2
    · intro h
      have hrange := hinRange.2 ⟨hpass, h hpass⟩
      have hformat : r.FormatPasses := (forall_passes_iff.1 hpass).2.2.2.2
      have hstores (field : RequestField) (hfield : field ∈ r.fields) :
          field.StoredIn (candidateRx control.rx (r.line T requestId)) :=
        storedIn_candidateRx T requestId hformat hfield (hrange field hfield)
      refine ⟨iff_of_true hok hrange, ?_, ?_⟩
      · intro _ field hfield
        rw [hrx]
        exact hstores field hfield
      · intro _ field hfield
        rw [hresponse]
        exact reportedIn_of_storedIn T answerId (hrange field hfield) (hstores field hfield)
  · -- What does not pass is refused, and is not in range.
    have hok : ¬ (cmdSetRx hw control (r.line T requestId) answerId).response.ok = true := by
      rw [cmdSetRx_refuses hstored hpass]
      decide
    refine iff_of_true ⟨iff_of_false hok (fun h => hpass (hinRange.1 h).1), ?_, ?_⟩
      (fun h => absurd h hpass)
    · intro h
      exact absurd h hok
    · intro h
      exact absurd h hok

end Answer

/-- In every reachable state, a line that carries a request is answered exactly unless a request
passes the checks that only does so narrowed. -/
theorem set_rx_exact_iff (T : PyTables) (r : Request) (requestId answerId : Int) {body : List UInt8}
    (hsent : encodeJsonLine T (r.message requestId) = some (body ++ [10])) (es : List ControlEvent)
    {hw : Hw} (hdma : hw.startIqDma = true) :
    AnsweredExactly T r (cmdSetRx hw (Control.run es) (CString.ofBytes body) answerId) ↔
      ((∀ field ∈ r.fields, field.Passes) → ∀ field ∈ r.fields, field.Fits) := by
  rw [ofBytes_sent hsent]
  exact answeredExactly_iff hdma (validControl_run es).rx

/-- All fields in range. -/
def ordinary : Request where
  fields := [.streamId 0, .adcChannel 1, .frequencyHz 98500000, .iqSampleRateHz 250000,
    .bandwidthHz 200000, .sampleFormat (py "SC16_LE"), .enable]
  distinct := by decide
  admissible := by decide +kernel

def ordinaryBytes : List UInt8 :=
  ("\x7b\"request_id\":7,\"cmd\":\"set_rx\",\"stream_id\":0,\"adc_channel\":1," ++
    "\"frequency_hz\":98500000,\"iq_sample_rate_hz\":250000,\"bandwidth_hz\":200000," ++
    "\"sample_format\":\"SC16_LE\",\"enable\":true\x7d").toList.map fun c => UInt8.ofNat c.toNat

theorem set_rx_exact_iff_ordinary :
    AnsweredExactly PyTables.ascii ordinary
      (cmdSetRx okHw (Control.run []) (CString.ofBytes ordinaryBytes) 7) := by
  have hsent : encodeJsonLine PyTables.ascii (ordinary.message 7) = some (ordinaryBytes ++ [10]) := by
    decide +kernel
  refine (set_rx_exact_iff PyTables.ascii ordinary 7 7 hsent [] rfl).2 ?_
  intro _
  decide +kernel

/-- A sample rate of 2 ^ 32 + 1000000 samples per second. -/
def overRate : Request where
  fields := [.iqSampleRateHz 4295967296, .enable]
  distinct := by decide
  admissible := by decide +kernel

/-- The rate is taken for one million. -/
theorem overRate_not_exact :
    ¬ AnsweredExactly PyTables.ascii overRate
      (cmdSetRx okHw (Control.run [])
        ("\x7b\"request_id\":7,\"cmd\":\"set_rx\",\"iq_sample_rate_hz\":4295967296," ++
          "\"enable\":true\x7d").toList 7) := by
  have hline : ("\x7b\"request_id\":7,\"cmd\":\"set_rx\",\"iq_sample_rate_hz\":4295967296," ++
      "\"enable\":true\x7d").toList = overRate.line PyTables.ascii 7 := by decide +kernel
  rw [hline, answeredExactly_iff rfl (validControl_run []).rx]
  intro h
  have hpass : ∀ field ∈ overRate.fields, field.Passes := by decide +kernel
  exact absurd (h hpass) (by decide +kernel)

end Request

end Bridge
end Sdr
