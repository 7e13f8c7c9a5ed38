import Sdr.Bridge.Programming
import Sdr.Bridge.ScanLine
import Sdr.Simulator.Device

/-!
# RxParity — the fake device and the bridge on one `set_rx`

The backend is developed against `FakeAc920Server` and deployed against the bridge.  Here one request
goes to both from their initial states: to `_cmd_set_rx` as the dictionary, to `cmd_set_rx` as the line
that carries it.

* `asked` is the tuning the request asks for, which the fake device takes as it is;
* `heard` is the tuning the bridge reads off the line;
* the two agree on exactly the requests of `Parity`.
-/

namespace Sdr
namespace Simulator

open Lib Protocol

/-! ## Requests -/

/-- A field of a `set_rx` on stream 0. -/
inductive RxField
  | streamId
  | adcChannel (n : Nat)
  | frequencyHz (n : Nat)
  | iqSampleRateHz (n : Nat)
  | bandwidthHz (n : Nat)
  | sampleFormat (s : PyStr)
  | mode (s : PyStr)
  | enable (b : Bool)
  deriving DecidableEq

namespace RxField

def name : RxField → String
  | .streamId => "stream_id"
  | .adcChannel _ => "adc_channel"
  | .frequencyHz _ => "frequency_hz"
  | .iqSampleRateHz _ => "iq_sample_rate_hz"
  | .bandwidthHz _ => "bandwidth_hz"
  | .sampleFormat _ => "sample_format"
  | .mode _ => "mode"
  | .enable _ => "enable"

def value : RxField → PyValue
  | .streamId => .int 0
  | .adcChannel n | .frequencyHz n | .iqSampleRateHz n | .bandwidthHz n => .int n
  | .sampleFormat s | .mode s => .str s
  | .enable b => .bool b

/-- Numbers are of the non-negative half of `int32_t`, texts fit the bridge's buffers by their number
of characters. -/
def InRange : RxField → Prop
  | .adcChannel n | .frequencyHz n | .iqSampleRateHz n | .bandwidthHz n => n < 2 ^ 31
  | .sampleFormat s => s.length < 24
  | .mode s => s.length < 12
  | .streamId | .enable _ => True

instance : DecidablePred InRange
  | .adcChannel n | .frequencyHz n | .iqSampleRateHz n | .bandwidthHz n =>
      inferInstanceAs (Decidable (n < 2 ^ 31))
  | .sampleFormat s => inferInstanceAs (Decidable (s.length < 24))
  | .mode s => inferInstanceAs (Decidable (s.length < 12))
  | .streamId | .enable _ => isTrue trivial

/-- The keys whose values are numbers. -/
def numberKeys : List String :=
  ["stream_id", "adc_channel", "frequency_hz", "iq_sample_rate_hz", "bandwidth_hz"]

def textKeys : List String :=
  ["sample_format", "mode", "enable"]

theorem name_mem_keys (field : RxField) : field.name ∈ numberKeys ++ textKeys := by
  cases field
  all_goals simp [name, numberKeys, textKeys]

theorem int_of_mem_numberKeys {field : RxField} (h : field.name ∈ numberKeys) :
    ∃ n, field.value = .int n := by
  cases field with
  | streamId => exact ⟨0, rfl⟩
  | adcChannel n | frequencyHz n | iqSampleRateHz n | bandwidthHz n => exact ⟨n, rfl⟩
  | sampleFormat s | mode s | enable b => simp [name, numberKeys] at h

end RxField

open RxField (numberKeys textKeys)

/-- The fields of a request in any order, `enable` among them. -/
structure RxRequest where
  fields : List RxField
  enable : Bool
  distinct : (fields.map RxField.name).Nodup
  inRange : ∀ field ∈ fields, field.InRange
  enable_mem : .enable enable ∈ fields

namespace RxRequest

variable (r : RxRequest)

def dict : PyDict :=
  fieldsOf (r.fields.map fun field => (field.name, field.value))

def message (requestId : Int) : PyDict :=
  buildRequest requestId "set_rx" r.dict

end RxRequest

/-! ## Tunings -/

/-- What a request comes to, the mode as its characters in a line. -/
@[ext]
structure Tuning where
  streamId : Int
  adcChannel : Int
  frequencyHz : Int
  iqSampleRateHz : Int
  bandwidthHz : Int
  mode : CString
  deriving DecidableEq

/-- The tuning of the values that a lookup finds; both devices start from the same one. -/
def tuningOf (find : String → Option PyValue) (mode : CString) : Tuning where
  streamId := ((find "stream_id").bind Bridge.asInt).getD 0
  adcChannel := ((find "adc_channel").bind Bridge.asInt).getD 0
  frequencyHz := ((find "frequency_hz").bind Bridge.asInt).getD 98500000
  iqSampleRateHz := ((find "iq_sample_rate_hz").bind Bridge.asInt).getD 1000000
  bandwidthHz := ((find "bandwidth_hz").bind Bridge.asInt).getD 250000
  mode := mode

namespace RxRequest

variable (r : RxRequest)

def askedMode : PyStr :=
  match r.dict.get? "mode" with
  | some (.str s) => s
  | _ => py "WFM"

/-- The entries of the request by their keys. -/
def asked : Tuning :=
  tuningOf r.dict.get? (Bridge.strBody r.askedMode)

/-- What the bridge finds in the line, the mode cut to its buffers. -/
def heard : Tuning :=
  tuningOf (fun key => Bridge.scanned key r.dict)
    ((((Bridge.scanned "mode" r.dict).bind (Bridge.asText 24)).map (Bridge.copyString 12)).getD
      "WFM".toList)

/-- The sample format that the bridge compares, if it finds one. -/
def heardFormat : Option CString :=
  (Bridge.scanned "sample_format" r.dict).bind (Bridge.asText 24)

/-- The checks of `cmd_set_rx` on what the bridge finds. -/
structure PassesBridge : Prop where
  streamId : r.heard.streamId = 0
  adcChannel : r.heard.adcChannel = 0 ∨ r.heard.adcChannel = 1
  frequencyHz : 500000 ≤ r.heard.frequencyHz ∧ r.heard.frequencyHz ≤ 108000000
  iqSampleRateHz : supportedRate r.heard.iqSampleRateHz = true
  sampleFormat : r.heardFormat = none ∨ r.heardFormat = some "SC16_LE".toList

/-- The requests on which the two devices agree. -/
def Parity : Prop :=
  if r.enable then
    if supportedRate r.asked.iqSampleRateHz then r.PassesBridge ∧ r.heard = r.asked
    else ¬ r.PassesBridge
  else
    Bridge.scanned "enable" r.dict = some (.bool false)

end RxRequest

/-! ## Looking a field up -/

namespace RxRequest

variable {r : RxRequest}

theorem mem_dict {entry : PyStr × PyValue} (h : entry ∈ r.dict) :
    ∃ field ∈ r.fields, entry = (py field.name, field.value) :=
  mem_fieldsOf_map h

theorem mem_of_get? {key : String} {v : PyValue} (h : r.dict.get? key = some v) :
    ∃ field ∈ r.fields, field.name = key ∧ field.value = v :=
  (get?_fieldsOf_map_eq_some_iff r.distinct).1 h

theorem get?_of_mem {field : RxField} (h : field ∈ r.fields) :
    r.dict.get? field.name = some field.value :=
  (get?_fieldsOf_map_eq_some_iff r.distinct).2 ⟨field, h, rfl, rfl⟩

theorem get?_enable : r.dict.get? "enable" = some (.bool r.enable) :=
  get?_of_mem r.enable_mem

theorem ne_of_mem_keys {key other : String} (hkey : key ∈ numberKeys ++ textKeys)
    (hother : other ∉ numberKeys ++ textKeys) : key ≠ other := by
  rintro rfl
  exact hother hkey

theorem get?_message (requestId : Int) {key : String} (hkey : key ∈ numberKeys ++ textKeys) :
    (r.message requestId).get? key = r.dict.get? key := by
  have hid : (py key == py "request_id") = false :=
    beq_false_of_ne (by simpa using ne_of_mem_keys hkey (by decide))
  have hcmd : (py key == py "cmd") = false :=
    beq_false_of_ne (by simpa using ne_of_mem_keys hkey (by decide))
  simp [message, buildRequest, PyDict.get?, List.lookup_cons, hid, hcmd]

theorem scanned_message (requestId : Int) {key : String} (hkey : key ∈ numberKeys ++ textKeys) :
    Bridge.scanned key (r.message requestId) = Bridge.scanned key r.dict := by
  have hends : ¬ Bridge.EndsIn key (.str (py "set_rx")) := by
    have hword : Bridge.behindQuotes (py "set_rx") = py "set_rx" := by decide +kernel
    intro h
    rw [Bridge.EndsIn, hword, py_inj] at h
    exact ne_of_mem_keys hkey (by decide) h.symm
  exact Bridge.scanned_buildRequest (ne_of_mem_keys hkey (by decide)).symm
    (ne_of_mem_keys hkey (by decide)).symm hends requestId r.dict

/-- Every number in the request is one of the stated range. -/
theorem int_bounds {v : PyValue} {n : Int} {k : PyStr} (h : (k, v) ∈ r.dict)
    (hv : Bridge.asInt v = some n) : 0 ≤ n ∧ n < 2 ^ 31 := by
  rcases mem_dict h with ⟨field, hfield, heq⟩
  have hrange := r.inRange field hfield
  cases heq
  cases field with
  | streamId =>
      cases hv
      decide
  | adcChannel m | frequencyHz m | iqSampleRateHz m | bandwidthHz m =>
      cases hv
      have hm : m < 2 ^ 31 := hrange
      omega
  | sampleFormat s | mode s | enable b => cases hv

/-! ## The fake device -/

section Fake

variable (T : PyTables) (requestId : Int)

theorem intField_message {key : String} (hkey : key ∈ numberKeys) (stored : Int) :
    intField T (r.message requestId) key stored =
      .ok (((r.dict.get? key).bind Bridge.asInt).getD stored) := by
  rw [intField, get?_message requestId (List.mem_append_left textKeys hkey)]
  cases hget : r.dict.get? key with
  | none =>
      rfl
  | some v =>
      rcases mem_of_get? hget with ⟨field, _, hname, rfl⟩
      rcases RxField.int_of_mem_numberKeys (hname ▸ hkey) with ⟨n, hn⟩
      rw [hn]
      rfl

theorem asked_streamId : r.asked.streamId = 0 := by
  show ((r.dict.get? "stream_id").bind Bridge.asInt).getD 0 = 0
  cases hget : r.dict.get? "stream_id" with
  | none =>
      rfl
  | some v =>
      rcases mem_of_get? hget with ⟨field, _, hname, rfl⟩
      cases field with
      | streamId => rfl
      | _ => simp [RxField.name] at hname

theorem strField_mode (T : PyTables) (requestId : Int) :
    strField T (r.message requestId) "mode" (py "WFM") = r.askedMode := by
  rw [strField, get?_message requestId (by decide), askedMode]
  cases hget : r.dict.get? "mode" with
  | none =>
      rfl
  | some v =>
      rcases mem_of_get? hget with ⟨field, _, hname, rfl⟩
      cases field with
      | mode s => rfl
      | _ => simp [RxField.name] at hname

/-- The stream as an accepted request leaves it. -/
def askedStream (r : RxRequest) : StreamState where
  streamId := 0
  adcChannel := r.asked.adcChannel
  frequencyHz := r.asked.frequencyHz
  mode := r.askedMode
  iqSampleRateHz := r.asked.iqSampleRateHz
  bandwidthHz := r.asked.bandwidthHz
  enabled := true

theorem cmdSetRx_message :
    (cmdSetRx T {} (.int requestId) (r.message requestId)).2 =
      if r.enable then
        if supportedRate r.asked.iqSampleRateHz then
          .ok (buildResponse (some (.int requestId)) true
            [("applied", .dict (fieldsOf (rxFields r.askedStream)))])
        else
          .ok (buildError (some (.int requestId)) "out_of_range" (py "unsupported iq_sample_rate_hz"))
      else
        .ok (buildResponse (some (.int requestId)) true
          [("applied", .dict (fieldsOf [("stream_id", .int 0), ("enable", .bool false)]))]) := by
  have hstream : cmdSetRx T {} (.int requestId) (r.message requestId) =
      setRx T {} (.int requestId) (r.message requestId) 0 := by
    have hindex : streamIndex (((r.dict.get? "stream_id").bind Bridge.asInt).getD 0) = some 0 := by
      show streamIndex r.asked.streamId = some 0
      rw [asked_streamId]
      rfl
    rw [cmdSetRx, intField_message T requestId (by decide)]
    dsimp only
    rw [hindex]
  have henable (stored : Bool) :
      (r.message requestId).getD "enable" (.bool stored) = .bool r.enable := by
    rw [PyDict.getD, get?_message requestId (by decide), get?_enable]
    rfl
  have hstore : storeRx T (({} : FakeAc920Server).streams 0) (r.message requestId) =
      ({ r.askedStream with enabled := false }, none) := by
    rw [storeRx, intField_message T requestId (by decide)]
    dsimp only
    rw [intField_message T requestId (by decide)]
    dsimp only
    rw [intField_message T requestId (by decide)]
    dsimp only
    rw [intField_message T requestId (by decide), strField_mode]
    rfl
  rw [hstream]
  unfold setRx
  simp only [henable, hstore]
  cases r.enable with
  | false =>
      rfl
  | true =>
      have hrate : r.askedStream.iqSampleRateHz = r.asked.iqSampleRateHz := rfl
      simp only [pyBool, Bool.not_true, Bool.false_eq_true, ↓reduceIte, hrate]
      split_ifs
      · rfl
      · rfl

end Fake

/-! ## The bridge -/

section Bridge

variable (T : PyTables) (requestId : Int)

theorem isWord_of_mem_keys {key : String} (hkey : key ∈ numberKeys ++ textKeys) :
    Bridge.IsWord key.toList := by
  have hall : ∀ k ∈ numberKeys ++ textKeys, Bridge.IsWord k.toList := by
    simp only [numberKeys, textKeys, List.cons_append, List.nil_append, List.forall_mem_cons,
      List.not_mem_nil, false_imp_iff, implies_true, and_true]
    repeat' apply And.intro
    all_goals
      apply CString.forall_mem_ofList
      decide
  exact hall key hkey

theorem scannable_message : Bridge.Scannable (r.message requestId) := by
  refine Bridge.scannable_buildRequest ?_ requestId "set_rx"
  intro field hfield
  rcases List.mem_map.1 hfield with ⟨f, _, rfl⟩
  refine ⟨isWord_of_mem_keys f.name_mem_keys, ?_⟩
  cases f
  all_goals exact trivial

/-- The line that carries the request. -/
def line (r : RxRequest) (T : PyTables) (requestId : Int) : CString :=
  Bridge.objectLine T (r.message requestId)

theorem jsonFindNumber_line (key : String) (hkey : key ∈ numberKeys) :
    Bridge.jsonFindNumber (r.line T requestId) key =
      (Bridge.scanned key r.dict).bind Bridge.asInt := by
  have hkeys := List.mem_append_left textKeys hkey
  rw [line, Bridge.jsonFindNumber_objectLine (isWord_of_mem_keys hkeys) (scannable_message requestId),
    scanned_message requestId hkeys]
  intro n hn
  rw [scanned_message requestId hkeys] at hn
  rcases Bridge.mem_of_scanned hn with ⟨k, hmem⟩
  have hbounds := int_bounds hmem rfl
  unfold CString.llongMin CString.llongMax
  omega

theorem jsonFindString_line (key : String) (hkey : key ∈ textKeys) :
    Bridge.jsonFindString (r.line T requestId) key 24 =
      (Bridge.scanned key r.dict).bind (Bridge.asText 24) := by
  have hkeys := List.mem_append_right numberKeys hkey
  rw [line, Bridge.jsonFindString_objectLine (isWord_of_mem_keys hkeys)
    (scannable_message requestId) (by decide), scanned_message requestId hkeys]

theorem jsonFindBool_line :
    Bridge.jsonFindBool (r.line T requestId) "enable" =
      (Bridge.scanned "enable" r.dict).bind Bridge.asBool := by
  have henable : "enable" ∈ numberKeys ++ textKeys := by decide
  rw [line, Bridge.jsonFindBool_objectLine (isWord_of_mem_keys henable)
    (scannable_message requestId), scanned_message requestId henable]

theorem heard_bounds (key : String) {stored : Int} (hstored : 0 ≤ stored ∧ stored < 2 ^ 31) :
    0 ≤ ((Bridge.scanned key r.dict).bind Bridge.asInt).getD stored ∧
      ((Bridge.scanned key r.dict).bind Bridge.asInt).getD stored < 2 ^ 31 := by
  cases hfound : (Bridge.scanned key r.dict).bind Bridge.asInt with
  | none =>
      exact hstored
  | some n =>
      rcases Option.bind_eq_some_iff.1 hfound with ⟨v, hv, hn⟩
      rcases Bridge.mem_of_scanned hv with ⟨k, hmem⟩
      exact int_bounds hmem hn

/-- The configuration that the bridge checks. -/
def heardRx (r : RxRequest) : Bridge.RxConfig where
  streamId := r.heard.streamId
  adcChannel := r.heard.adcChannel
  frequencyHz := BitVec.ofInt 64 r.heard.frequencyHz
  iqSampleRateHz := BitVec.ofInt 32 r.heard.iqSampleRateHz
  bandwidthHz := BitVec.ofInt 32 r.heard.bandwidthHz
  mode := r.heard.mode
  enabled := true
  decimation := Bridge.sdrDecimationForRate (BitVec.ofInt 32 r.heard.iqSampleRateHz)

theorem toInt32_of_bounds {n : Int} (h : 0 ≤ n ∧ n < 2 ^ 31) : Bridge.toInt32 n = n := by
  rw [Bridge.toInt32, BitVec.toInt_ofInt, Int.bmod_eq_of_le (by omega) (by omega)]

theorem toNat_ofInt_of_bounds {n : Int} (h : 0 ≤ n ∧ n < 2 ^ 31) (width : Nat)
    (hwidth : 31 ≤ width) : ((BitVec.ofInt width n).toNat : Int) = n := by
  have hpow : (2 : Int) ^ 31 ≤ 2 ^ width := pow_le_pow_right₀ (by decide) hwidth
  rw [BitVec.toNat_ofInt, Int.emod_eq_of_lt h.1 (by push_cast; omega), Int.toNat_of_nonneg h.1]

theorem heard_inRange (r : RxRequest) :
    (0 ≤ r.heard.frequencyHz ∧ r.heard.frequencyHz < 2 ^ 31) ∧
      (0 ≤ r.heard.iqSampleRateHz ∧ r.heard.iqSampleRateHz < 2 ^ 31) ∧
      (0 ≤ r.heard.bandwidthHz ∧ r.heard.bandwidthHz < 2 ^ 31) :=
  ⟨heard_bounds "frequency_hz" (by decide), heard_bounds "iq_sample_rate_hz" (by decide),
    heard_bounds "bandwidth_hz" (by decide)⟩

theorem candidateRx_line :
    Bridge.candidateRx Bridge.sdrControlInit.rx (r.line T requestId) = r.heardRx := by
  have hint (key : String) :
      (((Bridge.scanned key r.dict).bind Bridge.asInt).map Bridge.toInt32).getD 0 =
        ((Bridge.scanned key r.dict).bind Bridge.asInt).getD 0 := by
    have hmap := Option.getD_map Bridge.toInt32 0 ((Bridge.scanned key r.dict).bind Bridge.asInt)
    exact hmap.trans (toInt32_of_bounds (heard_bounds key (by decide)))
  unfold Bridge.candidateRx
  rw [jsonFindNumber_line T requestId "stream_id" (by decide),
    jsonFindNumber_line T requestId "adc_channel" (by decide),
    jsonFindNumber_line T requestId "frequency_hz" (by decide),
    jsonFindNumber_line T requestId "iq_sample_rate_hz" (by decide),
    jsonFindNumber_line T requestId "bandwidth_hz" (by decide),
    jsonFindString_line T requestId "mode" (by decide)]
  have hrate : (((Bridge.scanned "iq_sample_rate_hz" r.dict).bind Bridge.asInt).map
      (BitVec.ofInt 32)).getD Bridge.sdrControlInit.rx.iqSampleRateHz =
        BitVec.ofInt 32 r.heard.iqSampleRateHz :=
    Option.getD_map (BitVec.ofInt 32) 1000000 _
  rw [hrate, heardRx, Bridge.RxConfig.mk.injEq]
  exact ⟨hint _, hint _, Option.getD_map (BitVec.ofInt 64) 98500000 _, rfl,
    Option.getD_map (BitVec.ofInt 32) 250000 _, rfl, rfl, rfl⟩

theorem supportedRate_ofInt {n : Int} (h : 0 ≤ n ∧ n < 2 ^ 31) :
    Bridge.supportedRate (BitVec.ofInt 32 n) = supportedRate n := by
  have hval := toNat_ofInt_of_bounds h 32 (by decide)
  have heq (m : Nat) (hm : m < 2 ^ 32) : BitVec.ofInt 32 n = BitVec.ofNat 32 m ↔ n = m := by
    rw [BitVec.toNat_eq, BitVec.toNat_ofNat, Nat.mod_eq_of_lt hm]
    omega
  have h1 := heq 125000 (by decide)
  have h2 := heq 250000 (by decide)
  have h3 := heq 500000 (by decide)
  have h4 := heq 1000000 (by decide)
  rw [Bool.eq_iff_iff, Bridge.supportedRate_iff]
  simp only [supportedRate, Bool.or_eq_true, beq_iff_eq, or_assoc]
  exact or_congr h1 (or_congr h2 (or_congr h3 h4))

theorem passesBridge_iff :
    r.PassesBridge ↔ Bridge.ValidRx r.heardRx ∧ Bridge.FormatOk (r.line T requestId) := by
  have hformat : Bridge.FormatOk (r.line T requestId) ↔
      r.heardFormat = none ∨ r.heardFormat = some "SC16_LE".toList := by
    rw [Bridge.FormatOk, jsonFindString_line T requestId _ (by decide)]
    rfl
  rcases r.heard_inRange with ⟨hfreq, hrate, _⟩
  have hfrequency := toNat_ofInt_of_bounds hfreq 64 (by decide)
  rw [hformat]
  constructor
  · rintro ⟨hstream, hadc, ⟨hmin, hmax⟩, hsupported, hsample⟩
    refine ⟨⟨hstream, hadc, ?_, ?_, ?_, rfl, rfl⟩, hsample⟩
    · show 500000 ≤ (BitVec.ofInt 64 r.heard.frequencyHz).toNat
      omega
    · show (BitVec.ofInt 64 r.heard.frequencyHz).toNat ≤ 108000000
      omega
    · rw [← Bridge.supportedRate_iff]
      exact (supportedRate_ofInt hrate).trans hsupported
  · rintro ⟨hvalid, hsample⟩
    have hmin : 500000 ≤ (BitVec.ofInt 64 r.heard.frequencyHz).toNat := hvalid.min_le
    have hmax : (BitVec.ofInt 64 r.heard.frequencyHz).toNat ≤ 108000000 := hvalid.le_max
    refine ⟨hvalid.streamId, hvalid.adcChannel, ⟨by omega, by omega⟩, ?_, hsample⟩
    rw [← supportedRate_ofInt hrate, Bridge.supportedRate_iff]
    exact hvalid.rate

variable {hw : Bridge.Hw}

theorem bridge_stopped (h : Bridge.scanned "enable" r.dict = some (.bool false)) :
    (Bridge.cmdSetRx hw Bridge.sdrControlInit (r.line T requestId) requestId).response =
      .rxStopped requestId := by
  rw [Bridge.cmdSetRx, jsonFindBool_line, h]
  rfl

theorem bridge_getD_enable (h : Bridge.scanned "enable" r.dict ≠ some (.bool false)) :
    (Bridge.jsonFindBool (r.line T requestId) "enable").getD true = true := by
  rw [jsonFindBool_line]
  cases hscanned : Bridge.scanned "enable" r.dict with
  | none =>
      rfl
  | some v =>
      cases v with
      | bool b =>
          cases b with
          | false => exact absurd hscanned h
          | true => rfl
      | none | int _ | float _ | str _ | list _ | dict _ => rfl

theorem bridge_accepts (hdma : hw.startIqDma = true)
    (h : Bridge.scanned "enable" r.dict ≠ some (.bool false)) (hpasses : r.PassesBridge) :
    (Bridge.cmdSetRx hw Bridge.sdrControlInit (r.line T requestId) requestId).response =
      .rx requestId r.heardRx := by
  have hnext : Bridge.nextRx Bridge.sdrControlInit.rx (r.line T requestId) = .ok r.heardRx := by
    rcases (passesBridge_iff T requestId).1 hpasses with ⟨hvalid, hformat⟩
    exact Bridge.nextRx_eq_ok_iff.2 ⟨(candidateRx_line T requestId).symm, hvalid, hformat⟩
  simp [Bridge.cmdSetRx, bridge_getD_enable T requestId h, hnext, hdma]

theorem bridge_refuses (hw : Bridge.Hw) (h : Bridge.scanned "enable" r.dict ≠ some (.bool false))
    (hpasses : ¬ r.PassesBridge) :
    (Bridge.cmdSetRx hw Bridge.sdrControlInit (r.line T requestId) requestId).response.ok =
      false := by
  cases hnext : Bridge.nextRx Bridge.sdrControlInit.rx (r.line T requestId) with
  | error refusal =>
      simp [Bridge.cmdSetRx, bridge_getD_enable T requestId h, hnext, Bridge.refuse,
        Bridge.Response.ok]
  | ok next =>
      rcases Bridge.nextRx_eq_ok_iff.1 hnext with ⟨hcandidate, hvalid, hformat⟩
      rw [candidateRx_line] at hcandidate
      exact absurd ((passesBridge_iff T requestId).2 ⟨hcandidate ▸ hvalid, hformat⟩) hpasses

end Bridge

end RxRequest

/-! ## Parity -/

section Parity

variable (T : PyTables)

/-- `applied` of a response: its keys and the text of their values. -/
def appliedText (answer : PyDict) : Option (List (PyStr × CString)) :=
  match answer.get? "applied" with
  | some (.dict entries) => some (entries.map fun entry => (entry.1, Bridge.valueText T entry.2))
  | _ => none

/-- Both answer `ok: true` with the same `applied`, or both `ok: false`. -/
def Agree (fake : Except PyError PyDict) (bridge : Bridge.Response) : Prop :=
  ∃ answer, fake = .ok answer ∧
    (answer.get? "ok" = some (.bool true) ∧ bridge.ok = true ∧
        appliedText T answer = bridge.applied.map (List.map fun field => (py field.1, field.2)) ∨
      answer.get? "ok" = some (.bool false) ∧ bridge.ok = false)

theorem appliedText_buildResponse (requestId : PyValue) (fields : List (String × PyValue)) :
    appliedText T (buildResponse (some requestId) true [("applied", .dict (fieldsOf fields))]) =
      some (fields.map fun field => (py field.1, Bridge.valueText T field.2)) := by
  have hget : PyDict.get? (buildResponse (some requestId) true
      [("applied", .dict (fieldsOf fields))]) "applied" = some (.dict (fieldsOf fields)) := by
    rw [buildResponse_some, get?_fieldsOf]
    rfl
  rw [appliedText, hget]
  simp [fieldsOf]

variable {T}

theorem agree_accepted_iff {requestId : PyValue} {fields : List (String × PyValue)}
    {bridge : Bridge.Response} :
    Agree T (.ok (buildResponse (some requestId) true [("applied", .dict (fieldsOf fields))]))
        bridge ↔
      bridge.ok = true ∧
        some (fields.map fun field => (py field.1, Bridge.valueText T field.2)) =
          bridge.applied.map (List.map fun field => (py field.1, field.2)) := by
  simp [Agree, appliedText_buildResponse]

theorem agree_refused_iff {requestId : PyValue} {code : String} {message : PyStr}
    {bridge : Bridge.Response} :
    Agree T (.ok (buildError (some requestId) code message)) bridge ↔ bridge.ok = false := by
  simp [Agree, buildError]

namespace RxRequest

variable {r : RxRequest}

/-- The only boolean of the request is the one of `enable`. -/
theorem enable_of_scanned {key : String} {b : Bool}
    (h : Bridge.scanned key r.dict = some (.bool b)) : r.enable = b := by
  rcases Bridge.mem_of_scanned h with ⟨k, hmem⟩
  rcases mem_dict hmem with ⟨field, hfield, heq⟩
  have hvalue : field.value = .bool b := (congrArg Prod.snd heq).symm
  cases field with
  | enable b' =>
      have hget := (get?_enable (r := r)).symm.trans (get?_of_mem hfield)
      simpa [RxField.value] using (Option.some.inj hget).trans hvalue
  | _ => cases hvalue

theorem decimation_text {n : Int} (h : supportedRate n = true) :
    CString.decimal (Int.fdiv 250000000 n) =
      Bridge.unsigned (Bridge.sdrDecimationForRate (BitVec.ofInt 32 n)) := by
  simp only [supportedRate, Bool.or_eq_true, beq_iff_eq] at h
  rcases h with ((rfl | rfl) | rfl) | rfl
  · decide
  · decide
  · decide
  · decide

theorem applied_eq_iff (requestId : Int) (hrate : supportedRate r.asked.iqSampleRateHz = true)
    (hpasses : r.PassesBridge) :
    some ((rxFields r.askedStream).map fun field => (py field.1, Bridge.valueText T field.2)) =
        (Bridge.Response.rx requestId r.heardRx).applied.map
          (List.map fun field => (py field.1, field.2)) ↔
      r.heard = r.asked := by
  rcases r.heard_inRange with ⟨hfreq, hrate', hband⟩
  have hzero : CString.decimal 0 = "0".toList := by decide
  have hunsigned {width : Nat} {n m : Int} (hn : 0 ≤ n ∧ n < 2 ^ 31) (hwidth : 31 ≤ width) :
      CString.decimal m = Bridge.unsigned (BitVec.ofInt width n) ↔ n = m := by
    rw [Bridge.unsigned, toNat_ofInt_of_bounds hn _ hwidth, CString.decimal_injective.eq_iff, eq_comm]
  simp only [rxFields, askedStream, heardRx, Bridge.Response.applied, List.map_cons, List.map_nil,
    Option.map_some, Option.some.injEq, List.cons.injEq, Prod.mk.injEq, true_and, and_true,
    Bridge.valueText_int, Bridge.valueText_str, Bridge.valueText_bool]
  constructor
  · rintro ⟨_, hadc, hfrequency, hmode, hiq, hbandwidth, _, _⟩
    have hmode' : Bridge.strBody r.askedMode = r.heard.mode := by
      simpa [CString.quoted] using hmode
    exact Tuning.ext (hpasses.streamId.trans asked_streamId.symm)
      (CString.decimal_injective hadc).symm ((hunsigned hfreq (by decide)).1 hfrequency)
      ((hunsigned hrate' (by decide)).1 hiq) ((hunsigned hband (by decide)).1 hbandwidth)
      hmode'.symm
  · intro h
    have hformat : Bridge.strBody (py "SC16_LE") = "SC16_LE".toList := by decide +kernel
    have hmode : Bridge.strBody r.askedMode = r.heard.mode := congrArg Tuning.mode h.symm
    have hdecimation := decimation_text hrate
    rw [hmode, hformat]
    rw [← h] at hdecimation ⊢
    exact ⟨hzero, rfl, (hunsigned hfreq (by decide)).2 rfl, rfl,
      (hunsigned hrate' (by decide)).2 rfl, (hunsigned hband (by decide)).2 rfl, rfl, hdecimation⟩

theorem agree_iff_parity {hw : Bridge.Hw} (hdma : hw.startIqDma = true) (requestId : Int) :
    Agree T (cmdSetRx T {} (.int requestId) (r.message requestId)).2
        (Bridge.cmdSetRx hw Bridge.sdrControlInit (r.line T requestId) requestId).response ↔
      r.Parity := by
  rw [cmdSetRx_message]
  unfold Parity
  cases henable : r.enable with
  | false =>
      simp only [Bool.false_eq_true, ↓reduceIte]
      rw [agree_accepted_iff]
      by_cases hscanned : Bridge.scanned "enable" r.dict = some (.bool false)
      · rw [bridge_stopped T requestId hscanned]
        refine iff_of_true ⟨rfl, ?_⟩ hscanned
        have hzero : CString.decimal 0 = "0".toList := by decide
        simp [Bridge.Response.applied, Bridge.valueText_int, Bridge.valueText_bool, hzero]
      · refine iff_of_false ?_ hscanned
        rintro ⟨hok, happlied⟩
        by_cases hpasses : r.PassesBridge
        · -- A stopped stream is answered with two fields, a running one with nine.
          rw [bridge_accepts T requestId hdma hscanned hpasses] at happlied
          simp [Bridge.Response.applied] at happlied
        · rw [bridge_refuses T requestId hw hscanned hpasses] at hok
          cases hok
  | true =>
      have hscanned : Bridge.scanned "enable" r.dict ≠ some (.bool false) := by
        intro h
        exact absurd ((enable_of_scanned h).symm.trans henable) (by decide)
      simp only [↓reduceIte]
      by_cases hpasses : r.PassesBridge
      · rw [bridge_accepts T requestId hdma hscanned hpasses]
        split_ifs with hrate
        · rw [agree_accepted_iff, applied_eq_iff requestId hrate hpasses]
          simp [hpasses, Bridge.Response.ok]
        · rw [agree_refused_iff]
          simp [hpasses, Bridge.Response.ok]
      · have hrefuses := bridge_refuses T requestId hw hscanned hpasses
        split_ifs with hrate
        · rw [agree_accepted_iff, hrefuses]
          simp [hpasses]
        · rw [agree_refused_iff]
          simp [hpasses, hrefuses]

/-- A tuning to 150 MHz, above the range of the receiver. -/
def tuneAbove : RxRequest where
  fields := [.streamId, .frequencyHz 150000000, .enable true]
  enable := true
  distinct := by decide
  inRange := by decide
  enable_mem := by decide

/-- The fake device accepts it, the bridge refuses it. -/
theorem not_agree_tuneAbove :
    ¬ Agree PyTables.ascii (cmdSetRx PyTables.ascii {} (.int 5) (tuneAbove.message 5)).2
      (Bridge.cmdSetRx Bridge.okHw Bridge.sdrControlInit
        ("\x7b\"request_id\":5,\"cmd\":\"set_rx\",\"stream_id\":0," ++
          "\"frequency_hz\":150000000,\"enable\":true\x7d").toList 5).response := by
  have hline : ("\x7b\"request_id\":5,\"cmd\":\"set_rx\",\"stream_id\":0," ++
      "\"frequency_hz\":150000000,\"enable\":true\x7d").toList =
        tuneAbove.line PyTables.ascii 5 := by decide +kernel
  have hheard : tuneAbove.heard.frequencyHz = 150000000 := by decide +kernel
  have hrate : supportedRate tuneAbove.asked.iqSampleRateHz = true := by decide +kernel
  rw [hline, agree_iff_parity rfl]
  intro hparity
  rw [Parity, if_pos (show tuneAbove.enable = true from rfl), if_pos hrate] at hparity
  have hmax := hparity.1.frequencyHz.2
  rw [hheard] at hmax
  exact absurd hmax (by decide)

/-- One request, sent to both devices as they are after their start, is answered alike exactly if it
has parity. -/
theorem set_rx_agrees_iff (T : PyTables) (r : RxRequest) (requestId : Int) {body : List UInt8}
    (hsent : encodeJsonLine T (r.message requestId) = some (body ++ [10])) {hw : Bridge.Hw}
    (hdma : hw.startIqDma = true) :
    Agree T (cmdSetRx T {} (.int requestId) (r.message requestId)).2
        (Bridge.cmdSetRx hw Bridge.sdrControlInit (CString.ofBytes body) requestId).response ↔
      r.Parity := by
  rw [Bridge.ofBytes_sent hsent]
  exact agree_iff_parity hdma requestId

def tuneAm : RxRequest where
  fields := [.mode (py "AM"), .frequencyHz 1000000, .sampleFormat (py "SC16_LE"), .enable true]
  enable := true
  distinct := by decide
  inRange := by decide
  enable_mem := by decide

def tuneAmBytes : List UInt8 :=
  ("\x7b\"request_id\":5,\"cmd\":\"set_rx\",\"mode\":\"AM\",\"frequency_hz\":1000000," ++
    "\"sample_format\":\"SC16_LE\",\"enable\":true\x7d").toList.map fun c => UInt8.ofNat c.toNat

theorem set_rx_agrees_iff_tuneAm :
    Agree PyTables.ascii (cmdSetRx PyTables.ascii {} (.int 5) (tuneAm.message 5)).2
      (Bridge.cmdSetRx Bridge.okHw Bridge.sdrControlInit
        (CString.ofBytes tuneAmBytes) 5).response := by
  have hsent : encodeJsonLine PyTables.ascii (tuneAm.message 5) =
      some (tuneAmBytes ++ [10]) := by decide +kernel
  have hrate : supportedRate tuneAm.asked.iqSampleRateHz = true := by decide +kernel
  have hpasses : tuneAm.PassesBridge :=
    ⟨by decide +kernel, by decide +kernel, by decide +kernel, by decide +kernel,
      by decide +kernel⟩
  have hheard : tuneAm.heard = tuneAm.asked := by decide +kernel
  have hparity : tuneAm.Parity := by
    rw [Parity, if_pos (show tuneAm.enable = true from rfl), if_pos hrate]
    exact ⟨hpasses, hheard⟩
  exact (set_rx_agrees_iff PyTables.ascii tuneAm 5 hsent rfl).2 hparity

/-! ### Ordinary requests -/

/-- The texts have no quotes, backslashes or control characters, fit the bridge's buffers as bytes and
are none of the keys. -/
structure Plain (r : RxRequest) : Prop where
  chars : ∀ field ∈ r.fields, ∀ s, field.value = .str s → ∀ c ∈ s, Bridge.PlainChar c
  noKey : ∀ field ∈ r.fields, ∀ key ∈ numberKeys ++ textKeys, field.value ≠ .str (py key)
  format : ∀ s, .sampleFormat s ∈ r.fields → (Bridge.lineText s).length < 24
  mode : ∀ s, .mode s ∈ r.fields → (Bridge.lineText s).length < 12

theorem Plain.scanned (h : r.Plain) (key : String) (hkey : key ∈ numberKeys ++ textKeys) :
    Bridge.scanned key r.dict = r.dict.get? key := by
  refine Bridge.scanned_eq_get? ?_
  intro entry hentry _ hends
  rcases mem_dict hentry with ⟨field, hfield, rfl⟩
  cases hvalue : field.value with
  | str s =>
      have hquote : (0x22 : CodePoint) ∉ s :=
        fun hmem => (h.chars field hfield s hvalue _ hmem).1 rfl
      rw [hvalue, Bridge.EndsIn, Bridge.behindQuotes_of_notMem hquote] at hends
      exact h.noKey field hfield key hkey (hvalue.trans (congrArg PyValue.str hends))
  | none | bool _ | int _ | float _ | list _ | dict _ =>
      rw [hvalue] at hends
      exact hends

theorem asText_plain {s : PyStr} (hplain : ∀ c ∈ s, Bridge.PlainChar c) {size : Nat}
    (hsize : (Bridge.lineText s).length < size) :
    Bridge.asText size (.str s) = some (Bridge.strBody s) := by
  have hquote : (0x22 : CodePoint) ∉ s := fun hmem => (hplain _ hmem).1 rfl
  rw [Bridge.asText_of_notMem hquote, if_pos]
  rwa [Bridge.strBody_plain hplain]

theorem Plain.heard_eq_asked (h : r.Plain) : r.heard = r.asked := by
  have hmode : (((Bridge.scanned "mode" r.dict).bind (Bridge.asText 24)).map
      (Bridge.copyString 12)).getD "WFM".toList = Bridge.strBody r.askedMode := by
    rw [h.scanned _ (by decide), askedMode]
    cases hget : r.dict.get? "mode" with
    | none =>
        decide +kernel
    | some v =>
        rcases mem_of_get? hget with ⟨field, hfield, hname, rfl⟩
        cases field with
        | mode s =>
            have hplain := h.chars _ hfield s rfl
            have hsize := h.mode s hfield
            have hcopy : Bridge.copyString 12 (Bridge.strBody s) = Bridge.strBody s := by
              rw [Bridge.copyString, Bridge.strBody_plain hplain]
              exact List.take_of_length_le (by omega)
            have htext : Bridge.asText 24 (.str s) = some (Bridge.strBody s) :=
              asText_plain hplain (by omega)
            simp [RxField.value, htext, hcopy]
        | _ => simp [RxField.name] at hname
  rw [heard, hmode]
  unfold asked tuningOf
  dsimp only
  rw [h.scanned "stream_id" (by decide), h.scanned "adc_channel" (by decide),
    h.scanned "frequency_hz" (by decide),
    h.scanned "iq_sample_rate_hz" (by decide),
    h.scanned "bandwidth_hz" (by decide)]

theorem Plain.heardFormat_iff (h : r.Plain) :
    (r.heardFormat = none ∨ r.heardFormat = some "SC16_LE".toList) ↔
      ∀ s, .sampleFormat s ∈ r.fields → s = py "SC16_LE" := by
  rw [heardFormat, h.scanned _ (by decide)]
  constructor
  · intro hformat s hmem
    have hget : r.dict.get? "sample_format" = some (.str s) := get?_of_mem hmem
    have htext := asText_plain (h.chars _ hmem s rfl) (h.format s hmem)
    rw [hget, Option.bind_some, htext] at hformat
    rcases hformat with hnone | hsome
    · cases hnone
    · have hword : Bridge.IsWord "SC16_LE".toList := CString.forall_mem_ofList (by decide)
      exact (Bridge.strBody_eq_word_iff hword).1 (Option.some.inj hsome)
  · intro hfields
    cases hget : r.dict.get? "sample_format" with
    | none =>
        exact Or.inl rfl
    | some v =>
        rcases mem_of_get? hget with ⟨field, hfield, hname, rfl⟩
        cases field with
        | sampleFormat s =>
            rw [hfields s hfield]
            exact Or.inr (by decide +kernel)
        | _ => simp [RxField.name] at hname

/-- On ordinary texts the devices differ in what the fake one does not check: the channel, the range of
the frequency and the sample format. -/
theorem parity_iff_of_plain (h : r.Plain) :
    r.Parity ↔ (r.enable = true → supportedRate r.asked.iqSampleRateHz = true →
      (r.asked.adcChannel = 0 ∨ r.asked.adcChannel = 1) ∧
        (500000 ≤ r.asked.frequencyHz ∧ r.asked.frequencyHz ≤ 108000000) ∧
        ∀ s, .sampleFormat s ∈ r.fields → s = py "SC16_LE") := by
  have hheard := h.heard_eq_asked
  have hformat := h.heardFormat_iff
  have hpasses : r.PassesBridge ↔
      (r.asked.adcChannel = 0 ∨ r.asked.adcChannel = 1) ∧
        (500000 ≤ r.asked.frequencyHz ∧ r.asked.frequencyHz ≤ 108000000) ∧
        supportedRate r.asked.iqSampleRateHz = true ∧
        ∀ s, .sampleFormat s ∈ r.fields → s = py "SC16_LE" := by
    rw [← hformat, ← hheard]
    constructor
    · rintro ⟨_, hadc, hfrequency, hrate, hsample⟩
      exact ⟨hadc, hfrequency, hrate, hsample⟩
    · rintro ⟨hadc, hfrequency, hrate, hsample⟩
      exact ⟨hheard ▸ asked_streamId, hadc, hfrequency, hrate, hsample⟩
  unfold Parity
  cases henable : r.enable with
  | false =>
      have hscanned : Bridge.scanned "enable" r.dict = some (.bool false) := by
        rw [h.scanned _ (by decide), get?_enable, henable]
      simp [hscanned]
  | true =>
      simp only [↓reduceIte, true_imp_iff]
      split_ifs with hrate
      · simp [hpasses, hheard, hrate]
      · simp [hpasses, hrate]

end RxRequest

end Parity

end Simulator
end Sdr
