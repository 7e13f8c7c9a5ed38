import Sdr.Bridge.ControlMemory

/-!
# MemoryRefinement — the arrays hold the strings of the handler's model

The handler on arrays (`Memory`) against the handler on strings (`SdrControl`).  Each copying loop
leaves a string that fits, ended by its NUL, and it is the string the other model speaks of; from the
copies it follows for every command that no access leaves its array (the result is `some`) and that
the arrays then hold the other model's new state (`Agrees`).
-/

namespace Sdr
namespace Bridge
namespace Memory

open Lib Lib.CString

/-! ## Copies -/

theorem copyLoop_eq {size dstSize : Nat} (hsize : dstSize ≤ size) {dst : CBuffer size} {i : Nat}
    (hi : i < dstSize) (src : CString) :
    copyLoop dstSize dst i src =
      some (dst.overwrite i (src.take (dstSize - 1 - i)),
        i + (src.take (dstSize - 1 - i)).length) := by
  induction src generalizing dst i with
  | nil =>
      rw [copyLoop, List.take_nil]
      rfl
  | cons c src ih =>
      rw [copyLoop]
      split_ifs with hnext
      · have hroom : dstSize - 1 - i = (dstSize - 1 - (i + 1)) + 1 := by
          omega
        rw [CBuffer.store_eq (by omega), Option.bind_some, ih hnext, hroom, List.take_succ_cons,
          List.length_cons, Nat.add_assoc, Nat.add_comm 1]
        rfl
      · have hroom : dstSize - 1 - i = 0 := by
          omega
        rw [hroom, List.take_zero]
        rfl

/-- `copy_string` stays in its array and ends the string, which is the source cut to size. -/
theorem copyString_eq {size : Nat} (hsize : size ≠ 0) (dst : CBuffer size) (src : CString) :
    copyString dst size (some src) = some (dst.put (Bridge.copyString size src)) := by
  have hlen : (src.take (size - 1)).length < size := by
    rw [List.length_take]
    omega
  rw [copyString, if_neg hsize, copyLoop_eq (Nat.le_refl size) (by omega)]
  simp only [Option.bind_eq_bind, Option.bind_some, Nat.sub_zero, Nat.zero_add]
  rw [CBuffer.store_eq hlen, CBuffer.put, Bridge.copyString, CBuffer.overwrite_append, Nat.zero_add]

theorem read_copyString {size : Nat} (hsize : size ≠ 0) (dst : CBuffer size) {src : CString}
    (hnul : nul ∉ src) :
    ∃ dst', copyString dst size (some src) = some dst' ∧
      dst'.read = some (Bridge.copyString size src) := by
  refine ⟨_, copyString_eq hsize dst src, CBuffer.read_put ?_ ?_⟩
  · rw [Bridge.copyString, List.length_take]
    omega
  · exact fun hmem => hnul (List.mem_of_mem_take hmem)

theorem foundOr_eq {size : Nat} {other : CBuffer size} {stored : CString}
    (hother : other.read = some stored) (found : Option CString) :
    foundOr other found = some (found.getD stored) := by
  cases found with
  | none => exact hother
  | some text => rfl

/-- `append_json` stays in its array, ends the string and returns a length below the size. -/
theorem appendJson_spec {size : Nat} (hsize : size ≠ 0) (fails : Bool) (dst : CBuffer size)
    (text : CString) :
    ∃ dst' length, appendJson fails dst size text = some (dst', length) ∧ length < size ∧
      dst'.Terminated ∧ (fails = true → length = 0) ∧
      (fails = false → dst' = dst.put (fitted size text) ∧ length = (fitted size text).length) := by
  have hpos : 0 < size := Nat.pos_of_ne_zero hsize
  have hfit : (fitted size text).length < size := by
    rw [fitted, List.length_take]
    omega
  cases fails with
  | true =>
      refine ⟨dst.put [], 0, ?_, hpos, CBuffer.terminated_put hpos, fun _ => rfl, by simp⟩
      rw [appendJson, if_neg hsize]
      simp only [vsnprintf, if_true, Option.bind_eq_bind, Option.bind_some]
      rw [if_pos (by decide), CBuffer.store_eq hpos]
      rfl
  | false =>
      refine ⟨dst.put (fitted size text), (fitted size text).length, ?_, hfit,
        CBuffer.terminated_put hfit, by simp, fun _ => ⟨rfl, rfl⟩⟩
      rw [appendJson, if_neg hsize]
      simp only [vsnprintf, Bool.false_eq_true, if_false, CBuffer.snprintf_eq hsize,
        Option.map_some, Option.bind_eq_bind, Option.bind_some, Int.toNat_natCast]
      rw [if_neg (by omega), fitted, List.length_take]
      split_ifs with hlong
      · rw [Nat.min_eq_left (by omega)]
        rfl
      · rw [Nat.min_eq_right (by omega)]
        rfl

/-! ## Scanning a line -/

/-- The pattern of the key fits the array `pattern`. -/
def FitsPattern (key : String) : Prop :=
  key.toList.length ≤ 45 ∧ nul ∉ key.toList

instance : DecidablePred FitsPattern :=
  fun key => inferInstanceAs (Decidable (key.toList.length ≤ 45 ∧ nul ∉ key.toList))

theorem jsonFindValue_eq {key : String} (hkey : FitsPattern key) (pattern : CBuffer 48)
    (line : CString) : jsonFindValue pattern line key = some (Bridge.jsonFindValue line key) := by
  have hlen : (quoted key.toList).length ≤ 47 := by
    have := hkey.1
    simp only [quoted, List.length_cons, List.length_append, List.length_nil]
    omega
  have hnul : nul ∉ quoted key.toList := by
    have hquote : nul ≠ '"' := by decide
    simp [quoted, hkey.2, hquote]
  have hread : (pattern.put (quoted key.toList)).read = some (quoted key.toList) :=
    CBuffer.read_put (by omega) hnul
  rw [jsonFindValue, CBuffer.snprintf_eq (by decide), List.take_of_length_le hlen]
  simp only [Option.bind_eq_bind, Option.bind_some, hread]
  rfl

/-- A pattern that is too long for its array is cut. -/
theorem jsonFindValue_isSome (pattern : CBuffer 48) (line : CString) (key : String) :
    ∃ value, jsonFindValue pattern line key = some value := by
  have hlen : ((quoted key.toList).take 47).length < 48 := by
    rw [List.length_take]
    omega
  have hterm : (pattern.put ((quoted key.toList).take 47)).Terminated := CBuffer.terminated_put hlen
  rw [jsonFindValue, CBuffer.snprintf_eq (by decide)]
  simp only [Option.bind_eq_bind, Option.bind_some, CBuffer.read, if_pos hterm]
  exact ⟨_, rfl⟩

theorem jsonFindNumber_eq {key : String} (hkey : FitsPattern key) (scratch : Scratch)
    (line : CString) : jsonFindNumber scratch line key = some (Bridge.jsonFindNumber line key) := by
  rw [jsonFindNumber, jsonFindValue_eq hkey]
  rfl

theorem jsonFindBool_eq {key : String} (hkey : FitsPattern key) (scratch : Scratch)
    (line : CString) : jsonFindBool scratch line key = some (Bridge.jsonFindBool line key) := by
  rw [jsonFindBool, jsonFindValue_eq hkey]
  rfl

/-- What the loop of `json_find_string` copies with `room` places left. -/
def scannedPart (room : Nat) (p : CString) : CString :=
  (p.takeWhile (· ≠ '"')).take room

theorem quotedLoop_eq {size valueSize : Nat} (hsize : valueSize ≤ size) {value : CBuffer size}
    {i : Nat} (hi : i < valueSize) (p : CString) :
    quotedLoop valueSize value i p =
      some (value.overwrite i (scannedPart (valueSize - 1 - i) p),
        i + (scannedPart (valueSize - 1 - i) p).length,
        p.drop (scannedPart (valueSize - 1 - i) p).length) := by
  induction p generalizing value i with
  | nil =>
      rw [quotedLoop, scannedPart, List.takeWhile_nil, List.take_nil]
      rfl
  | cons c p ih =>
      rw [quotedLoop]
      split_ifs with hnext
      · have hroom : valueSize - 1 - i = (valueSize - 1 - (i + 1)) + 1 := by
          omega
        have hpart : scannedPart (valueSize - 1 - i) (c :: p) =
            c :: scannedPart (valueSize - 1 - (i + 1)) p := by
          rw [scannedPart, List.takeWhile_cons_of_pos (by simpa using hnext.1), hroom,
            List.take_succ_cons]
          rfl
        rw [CBuffer.store_eq (by omega), Option.bind_some, ih hnext.2, hpart, List.length_cons,
          List.drop_succ_cons, Nat.add_assoc, Nat.add_comm 1]
        rfl
      · have hpart : scannedPart (valueSize - 1 - i) (c :: p) = [] := by
          by_cases hc : c = '"'
          · simp [scannedPart, hc]
          · have hroom : valueSize - 1 - i = 0 := by
              have : ¬ i + 1 < valueSize := fun hlt => hnext ⟨hc, hlt⟩
              omega
            rw [scannedPart, hroom, List.take_zero]
        rw [hpart]
        rfl

/-- The string model's loop succeeds if the array's stops at a quote. -/
theorem scanString_eq (room : Nat) (p : CString) :
    scanString room p =
      if (p.drop (scannedPart room p).length).head? = some '"' then some (scannedPart room p)
      else none := by
  induction p generalizing room with
  | nil =>
      cases room <;> rfl
  | cons c p ih =>
      by_cases hc : c = '"'
      · cases room <;> simp [scanString, hc, scannedPart]
      · cases room with
        | zero =>
            simp [scanString, scannedPart, hc]
        | succ room =>
            have hpart : scannedPart (room + 1) (c :: p) = c :: scannedPart room p := by
              rw [scannedPart, List.takeWhile_cons_of_pos (by simpa using hc), List.take_succ_cons]
              rfl
            rw [scanString, if_neg hc, ih, hpart, List.length_cons, List.drop_succ_cons]
            split_ifs
            · rfl
            · rfl

theorem length_scannedPart_lt {size : Nat} (hsize : size ≠ 0) (p : CString) :
    (scannedPart (size - 1) p).length < size := by
  rw [scannedPart, List.length_take]
  omega

/-- What `json_find_string` makes of the text behind the colon. -/
def scannedValue (size : Nat) : Option CString → Option CString
  | some ('"' :: p) => scanString (size - 1) p
  | _ => none

/-- `json_find_string` stays in its array and ends the string; after a success it is the string the
scan of the text gives. -/
theorem jsonFindString_spec {size : Nat} (hsize : size ≠ 0) {scratch : Scratch} {line : CString}
    {key : String} {r : Option CString} (hvalue : jsonFindValue scratch.pattern line key = some r)
    (value : CBuffer size) :
    ∃ text, text.length < size ∧
      jsonFindString scratch line key value size =
        some (value.put text, (scannedValue size r).isSome) ∧
      ∀ found, scannedValue size r = some found → text = found := by
  have hpos : 0 < size := Nat.pos_of_ne_zero hsize
  have hempty : value.store 0 nul = some (value.put []) := CBuffer.store_eq hpos nul
  rw [jsonFindString, if_neg hsize, hempty, hvalue]
  simp only [Option.bind_eq_bind, Option.bind_some]
  by_cases hquoted : ∃ p, r = some ('"' :: p)
  · rcases hquoted with ⟨p, rfl⟩
    have hlen := length_scannedPart_lt hsize p
    have hput : ((value.put []).overwrite 0 (scannedPart (size - 1) p)).overwrite
        (scannedPart (size - 1) p).length [nul] = value.put (scannedPart (size - 1) p) := by
      calc
        _ = (value.overwrite 0 [nul]).put (scannedPart (size - 1) p) := by
          rw [CBuffer.put.eq_def (CBuffer.overwrite _ _ _), CBuffer.overwrite_append, Nat.zero_add]
          rfl
        _ = value.put (scannedPart (size - 1) p) := CBuffer.put_overwrite (by simp) hlen
    have hscan : scannedValue size (some ('"' :: p)) = scanString (size - 1) p := rfl
    refine ⟨scannedPart (size - 1) p, hlen, ?_, ?_⟩
    · simp only [quotedLoop_eq (Nat.le_refl size) hpos, Option.bind_some, Nat.sub_zero, Nat.zero_add]
      rw [CBuffer.store_eq hlen, Option.bind_some, hput, hscan, scanString_eq]
      split_ifs with hquote
      · rw [hquote]
        rfl
      · rw [beq_false_of_ne hquote]
        rfl
    · intro found hfound
      rw [hscan, scanString_eq] at hfound
      split_ifs at hfound
      exact Option.some.inj hfound
  · have hscan : scannedValue size r = none := by
      unfold scannedValue
      split
      · next p => exact absurd ⟨p, rfl⟩ hquoted
      · rfl
    rw [hscan]
    refine ⟨[], hpos, ?_, by simp⟩
    split
    · next p => exact absurd ⟨p, rfl⟩ hquoted
    · rfl

/-! ### Characters of a line -/

theorem subset_of_jsonFindValue {line : CString} {key : String} {p : CString}
    (h : Bridge.jsonFindValue line key = some p) : ∀ c ∈ p, c ∈ line := by
  rcases Option.map_eq_some_iff.1 h with ⟨colon, hcolon, rfl⟩
  rcases Option.bind_eq_some_iff.1 hcolon with ⟨start, hstart, hchr⟩
  intro c hc
  have hdrop : c ∈ colon := List.mem_of_mem_drop ((List.dropWhile_sublist _).mem hc)
  exact (suffix_of_strstr hstart).mem (List.mem_of_mem_drop ((suffix_of_strchr hchr).mem hdrop))

theorem subset_of_scanString {room : Nat} {p text : CString} (h : scanString room p = some text) :
    ∀ c ∈ text, c ∈ p := by
  rw [scanString_eq] at h
  split_ifs at h
  rw [← Option.some.inj h]
  intro c hc
  exact (List.takeWhile_sublist _).mem (List.mem_of_mem_take hc)

theorem nul_notMem_of_jsonFindString {line : CString} (hline : nul ∉ line) {key : String}
    {size : Nat} {text : CString} (h : Bridge.jsonFindString line key size = some text) :
    nul ∉ text := by
  unfold Bridge.jsonFindString at h
  split_ifs at h
  rcases Option.bind_eq_some_iff.1 h with ⟨p, hp, hscan⟩
  have hsub := subset_of_jsonFindValue hp
  split at hscan
  · next rest =>
      intro hmem
      exact hline (hsub nul (List.mem_cons_of_mem _ (subset_of_scanString hscan nul hmem)))
  · cases hscan

theorem findText_eq {size : Nat} (hsize : size ≠ 0) {key : String} (hkey : FitsPattern key)
    {line : CString} (hline : nul ∉ line) (scratch : Scratch) (value : CBuffer size) :
    ∃ value', findText scratch line key value =
      some (value', Bridge.jsonFindString line key size) := by
  have hsame : scannedValue size (Bridge.jsonFindValue line key) =
      Bridge.jsonFindString line key size := by
    rw [Bridge.jsonFindString, if_neg hsize]
    unfold scannedValue
    cases Bridge.jsonFindValue line key with
    | none => rfl
    | some p =>
        rw [Option.bind_some]
        split <;> simp_all
  rcases jsonFindString_spec hsize (jsonFindValue_eq hkey scratch.pattern line) value with
    ⟨text, hlen, hfind, htext⟩
  rw [hsame] at hfind htext
  refine ⟨value.put text, ?_⟩
  rw [findText, hfind]
  cases hfound : Bridge.jsonFindString line key size with
  | none =>
      rfl
  | some found =>
      have hnul := nul_notMem_of_jsonFindString hline hfound
      have hread : (value.put text).read = some text :=
        CBuffer.read_put hlen (htext found hfound ▸ hnul)
      simp only [Option.bind_eq_bind, Option.bind_some, Option.isSome_some, if_true, hread]
      rw [htext found hfound]
      rfl

/-- A text that was looked up is copied over the stored one. -/
theorem read_copyFound {size : Nat} (hsize : size ≠ 0) {dst : CBuffer size} {stored : CString}
    (hdst : dst.read = some stored) {line : CString} (hline : nul ∉ line) (key : String) (n : Nat) :
    ∃ dst', copyFound dst (Bridge.jsonFindString line key n) = some dst' ∧
      dst'.read =
        some (((Bridge.jsonFindString line key n).map (Bridge.copyString size)).getD stored) := by
  cases hfound : Bridge.jsonFindString line key n with
  | none => exact ⟨dst, rfl, hdst⟩
  | some text => exact read_copyString hsize dst (nul_notMem_of_jsonFindString hline hfound)

/-! ## Contents of the structures -/

theorem UdpPeer.contents_eq_some {p : UdpPeer} {q : Bridge.UdpPeer} :
    p.contents = some q ↔
      p.destinationIp.read = some q.destinationIp ∧ p.iqPort = q.iqPort ∧ p.psdPort = q.psdPort ∧
        p.statusPort = q.statusPort := by
  rcases q with ⟨ip, iqPort, psdPort, statusPort⟩
  simp only [contents, Option.map_eq_some_iff, Bridge.UdpPeer.mk.injEq]
  constructor
  · rintro ⟨text, hread, rfl, hports⟩
    exact ⟨hread, hports⟩
  · rintro ⟨hread, hports⟩
    exact ⟨ip, hread, rfl, hports⟩

theorem RxConfig.contents_eq_some {rx : RxConfig} {r : Bridge.RxConfig} :
    rx.contents = some r ↔
      rx.mode.read = some r.mode ∧ rx.streamId = r.streamId ∧ rx.adcChannel = r.adcChannel ∧
        rx.frequencyHz = r.frequencyHz ∧ rx.iqSampleRateHz = r.iqSampleRateHz ∧
        rx.bandwidthHz = r.bandwidthHz ∧ rx.enabled = r.enabled ∧
        rx.decimation = r.decimation := by
  rcases r with ⟨streamId, adcChannel, frequencyHz, iqSampleRateHz, bandwidthHz, mode, enabled,
    decimation⟩
  simp only [contents, Option.map_eq_some_iff, Bridge.RxConfig.mk.injEq]
  constructor
  · rintro ⟨text, hread, h0, h1, h2, h3, h4, rfl, h5⟩
    exact ⟨hread, h0, h1, h2, h3, h4, h5⟩
  · rintro ⟨hread, h0, h1, h2, h3, h4, h5⟩
    exact ⟨mode, hread, h0, h1, h2, h3, h4, rfl, h5⟩

theorem FrontendConfig.contents_eq_some {f : FrontendConfig} {g : Bridge.FrontendConfig} :
    f.contents = some g ↔
      f.lna.read = some g.lna ∧ f.filter.read = some g.filter ∧ f.attenuatorDb = g.attenuatorDb := by
  rcases g with ⟨attenuatorDb, lna, filter⟩
  simp only [contents, Option.bind_eq_bind, Option.bind_eq_some_iff, Option.pure_def,
    Option.some.injEq, Bridge.FrontendConfig.mk.injEq]
  constructor
  · rintro ⟨lna, hlna, filter, hfilter, hdb, rfl, rfl⟩
    exact ⟨hlna, hfilter, hdb⟩
  · rintro ⟨hlna, hfilter, hdb⟩
    exact ⟨lna, hlna, filter, hfilter, hdb, rfl, rfl⟩

/-- The arrays and numbers of the memory are those of the other model's state. -/
structure Control.Holds (m : Control) (c : Bridge.Control) : Prop where
  peerIp : m.peerIp.read = some c.peerIp
  udpPeer : m.udpPeer.contents = some c.udpPeer
  rx : m.rx.contents = some c.rx
  frontend : m.frontend.contents = some c.frontend
  statusSeq : m.statusSeq = c.statusSeq
  iqPacketsForwarded : m.iqPacketsForwarded = c.iqPacketsForwarded
  iqForwardErrors : m.iqForwardErrors = c.iqForwardErrors
  helloSeen : m.helloSeen = c.helloSeen
  psdEnabled : m.psdEnabled = c.psdEnabled

theorem Control.contents_eq_some {m : Control} {c : Bridge.Control} :
    m.contents = some c ↔ m.Holds c := by
  simp only [contents, Option.bind_eq_bind, Option.bind_eq_some_iff, Option.pure_def,
    Option.some.injEq]
  constructor
  · rintro ⟨peerIp, hpeerIp, udpPeer, hudpPeer, rx, hrx, frontend, hfrontend, rfl⟩
    exact ⟨hpeerIp, hudpPeer, hrx, hfrontend, rfl, rfl, rfl, rfl, rfl⟩
  · rintro ⟨hpeerIp, hudpPeer, hrx, hfrontend, h0, h1, h2, h3, h4⟩
    refine ⟨_, hpeerIp, _, hudpPeer, _, hrx, _, hfrontend, ?_⟩
    rw [h0, h1, h2, h3, h4]

theorem holds_stopAll {m : Control} {c : Bridge.Control} (hm : m.Holds c) :
    (stopAll m).Holds (Bridge.stopAll c) := by
  rcases RxConfig.contents_eq_some.1 hm.rx with ⟨hmode, h0, h1, h2, h3, h4, _, h6⟩
  exact { hm with
    rx := RxConfig.contents_eq_some.2 ⟨hmode, h0, h1, h2, h3, h4, rfl, h6⟩, psdEnabled := rfl }

/-! ## Commands -/

/-- The arrays after a line hold what the other model gives for it, and the response is ended and
shorter than its array; it is the other model's text unless a formatting call failed. -/
structure Agrees {size : Nat} (scratch : Scratch) (h : Handled size) (o : Outcome) : Prop where
  control : h.control.Holds o.control
  ops : h.ops = o.ops
  length_lt : h.length < size
  terminated : h.response.Terminated
  text : scratch.statusFails = false → scratch.responseFails = false →
    h.response.bytes.take h.length = o.responseText size

section Commands

variable {size : Nat} (hsize : size ≠ 0) (scratch : Scratch) (response : CBuffer size)
include hsize

theorem respond_agrees {m : Control} {c : Bridge.Control} (hm : m.Holds c) (ops : List HwOp)
    (r : Response) :
    ∃ h, respond scratch response size m ops r = some h ∧
      Agrees scratch h { control := c, ops := ops, response := r } := by
  rcases appendJson_spec hsize scratch.responseFails response r.text with
    ⟨dst, length, happend, hlt, hterm, _, htext⟩
  refine ⟨_, by rw [respond, happend]; rfl, hm, rfl, hlt, hterm, ?_⟩
  intro _ hfails
  rcases htext hfails with ⟨rfl, rfl⟩
  refine CBuffer.take_put ?_
  rw [fitted, List.length_take]
  omega

theorem refuse_agrees {m : Control} {c : Bridge.Control} (hm : m.Holds c) (ops : List HwOp)
    (requestId : Int) (code message : String) :
    ∃ h, refuse scratch response size m ops requestId code message = some h ∧
      Agrees scratch h (Bridge.refuse c ops requestId code message) :=
  respond_agrees hsize scratch response hm ops _

theorem cmdSetPsd_agrees {m : Control} {c : Bridge.Control} (hm : m.Holds c) (line : CString)
    (requestId : Int) :
    ∃ h, cmdSetPsd scratch response size m line requestId = some h ∧
      Agrees scratch h (Bridge.cmdSetPsd c line requestId) := by
  rw [cmdSetPsd, jsonFindBool_eq (by decide), Bridge.cmdSetPsd]
  simp only [Option.bind_eq_bind, Option.bind_some]
  split_ifs
  · refine respond_agrees hsize scratch response ?_ [] _
    exact { hm with psdEnabled := rfl }
  · exact refuse_agrees hsize scratch response hm [] _ _ _

theorem cmdHello_agrees (hw : Hw) {m : Control} {c : Bridge.Control} (hm : m.Holds c)
    {line : CString} (hline : nul ∉ line) (requestId : Int) :
    ∃ h, cmdHello scratch response size hw m line requestId = some h ∧
      Agrees scratch h (Bridge.cmdHello hw c line requestId) := by
  rcases UdpPeer.contents_eq_some.1 hm.udpPeer with ⟨hip, hiq, hpsd, hstatus⟩
  rw [cmdHello, jsonFindNumber_eq (by decide), jsonFindNumber_eq (by decide),
    jsonFindNumber_eq (by decide), jsonFindNumber_eq (by decide), Bridge.cmdHello]
  simp only [Option.bind_eq_bind, Option.bind_some]
  by_cases hversion : Bridge.jsonFindNumber line "protocol_version" ≠ some sdrProtocolVersion
  · rw [if_pos hversion, if_pos hversion]
    exact refuse_agrees hsize scratch response hm [] _ _ _
  rw [if_neg hversion, if_neg hversion]
  cases Bridge.jsonFindNumber line "iq_port" with
  | none => exact refuse_agrees hsize scratch response hm [] _ _ _
  | some iqPort =>
  cases Bridge.jsonFindNumber line "psd_port" with
  | none =>
      refine refuse_agrees hsize scratch response ?_ [] _ _ _
      exact { hm with udpPeer := UdpPeer.contents_eq_some.2 ⟨hip, rfl, hpsd, hstatus⟩ }
  | some psdPort =>
  cases Bridge.jsonFindNumber line "status_port" with
  | none =>
      refine refuse_agrees hsize scratch response ?_ [] _ _ _
      exact { hm with udpPeer := UdpPeer.contents_eq_some.2 ⟨hip, rfl, rfl, hstatus⟩ }
  | some statusPort =>
  rcases findText_eq (by decide) (show FitsPattern "destination_ip" by decide) hline scratch
    scratch.destIp with ⟨destIp, hfind⟩
  have hnul : nul ∉ (Bridge.jsonFindString line "destination_ip" 48).getD c.peerIp := by
    cases hfound : Bridge.jsonFindString line "destination_ip" 48 with
    | none => exact CBuffer.nul_notMem_of_read hm.peerIp
    | some text => exact nul_notMem_of_jsonFindString hline hfound
  rcases read_copyString (by decide) m.udpPeer.destinationIp hnul with ⟨destinationIp, hcopy, hread⟩
  let peer : UdpPeer :=
    { destinationIp := destinationIp
      iqPort := BitVec.ofInt 16 iqPort
      psdPort := BitVec.ofInt 16 psdPort
      statusPort := BitVec.ofInt 16 statusPort }
  have hpeer := (UdpPeer.contents_eq_some (p := peer)
    (q := { destinationIp := _, iqPort := _, psdPort := _, statusPort := _ })).2
    ⟨hread, rfl, rfl, rfl⟩
  simp only [hfind, foundOr_eq hm.peerIp, hcopy, Option.bind_some]
  rw [hpeer, Option.bind_some]
  split_ifs
  · refine respond_agrees hsize scratch response ?_ _ _
    exact { hm with udpPeer := hpeer, helloSeen := rfl }
  · refine refuse_agrees hsize scratch response ?_ _ _ _ _
    exact { hm with udpPeer := hpeer }

theorem cmdSetFrontend_agrees {m : Control} {c : Bridge.Control} (hm : m.Holds c)
    {line : CString} (hline : nul ∉ line) (requestId : Int) :
    ∃ h, cmdSetFrontend scratch response size m line requestId = some h ∧
      Agrees scratch h (Bridge.cmdSetFrontend c line requestId) := by
  rcases FrontendConfig.contents_eq_some.1 hm.frontend with ⟨hlna, hfilter, hdb⟩
  rcases findText_eq (by decide) (show FitsPattern "lna" by decide) hline scratch scratch.text with
    ⟨text, hfindLna⟩
  rcases findText_eq (by decide) (show FitsPattern "filter" by decide) hline scratch text with
    ⟨text', hfindFilter⟩
  rcases read_copyFound (by decide) hlna hline "lna" 24 with
    ⟨lna, hcopyLna, hreadLna⟩
  rcases read_copyFound (by decide) hfilter hline "filter" 24 with
    ⟨filter, hcopyFilter, hreadFilter⟩
  rw [cmdSetFrontend, jsonFindNumber_eq (by decide), Bridge.cmdSetFrontend]
  simp only [Option.bind_eq_bind, Option.bind_some, hdb, hfindLna]
  split_ifs
  · exact refuse_agrees hsize scratch response hm [] _ _ _
  · refine refuse_agrees hsize scratch response ?_ [] _ _ _
    exact { hm with frontend := FrontendConfig.contents_eq_some.2 ⟨hlna, hfilter, rfl⟩ }
  · let frontend : FrontendConfig :=
      { attenuatorDb :=
          ((Bridge.jsonFindNumber line "attenuator_db").map toInt32).getD c.frontend.attenuatorDb
        lna := lna
        filter := filter }
    have hfrontend := (FrontendConfig.contents_eq_some (f := frontend)
      (g := { attenuatorDb := _, lna := _, filter := _ })).2 ⟨hreadLna, hreadFilter, rfl⟩
    simp only [hcopyLna, hfindFilter, hcopyFilter, Option.bind_some]
    rw [hfrontend, Option.bind_some]
    refine respond_agrees hsize scratch response ?_ [] _
    exact { hm with frontend := hfrontend }

omit hsize in
theorem nextRx_agrees {stored : RxConfig} {rx : Bridge.RxConfig} (hrx : stored.contents = some rx)
    {line : CString} (hline : nul ∉ line) :
    (∃ refusal, nextRx scratch stored line = some (.error refusal) ∧
        Bridge.nextRx rx line = .error refusal) ∨
      ∃ next next', nextRx scratch stored line = some (.ok next) ∧
        Bridge.nextRx rx line = .ok next' ∧ next.contents = some next' := by
  rcases RxConfig.contents_eq_some.1 hrx with ⟨hmode, h0, h1, h2, h3, h4, h5, h6⟩
  rcases findText_eq (by decide) (show FitsPattern "sample_format" by decide) hline scratch
    scratch.text with ⟨text, hfindFormat⟩
  rcases findText_eq (by decide) (show FitsPattern "mode" by decide) hline scratch text with
    ⟨text', hfindMode⟩
  rw [nextRx, jsonFindNumber_eq (by decide), jsonFindNumber_eq (by decide),
    jsonFindNumber_eq (by decide), jsonFindNumber_eq (by decide), jsonFindNumber_eq (by decide),
    Bridge.nextRx]
  simp only [Option.bind_eq_bind, Option.bind_some, hfindFormat, hfindMode, h0, h1, h2, h3, h4]
  -- The checks are the same on both sides, in the same order.
  by_cases hstream :
      ((Bridge.jsonFindNumber line "stream_id").map toInt32).getD rx.streamId ≠ 0
  · exact Or.inl ⟨_, if_pos hstream, (if_pos hstream).trans rfl⟩
  simp only [if_neg hstream]
  by_cases hchannel :
      ((Bridge.jsonFindNumber line "adc_channel").map toInt32).getD rx.adcChannel ≠ 0 ∧
        ((Bridge.jsonFindNumber line "adc_channel").map toInt32).getD rx.adcChannel ≠ 1
  · exact Or.inl ⟨_, if_pos hchannel, (if_pos hchannel).trans rfl⟩
  simp only [if_neg hchannel]
  by_cases hfrequency :
      ((Bridge.jsonFindNumber line "frequency_hz").map (BitVec.ofInt 64)).getD rx.frequencyHz <
          500000 ∨
        ((Bridge.jsonFindNumber line "frequency_hz").map (BitVec.ofInt 64)).getD rx.frequencyHz >
          108000000
  · exact Or.inl ⟨_, if_pos hfrequency, (if_pos hfrequency).trans rfl⟩
  simp only [if_neg hfrequency]
  by_cases hrate :
      (!supportedRate (((Bridge.jsonFindNumber line "iq_sample_rate_hz").map
        (BitVec.ofInt 32)).getD rx.iqSampleRateHz)) = true
  · exact Or.inl ⟨_, if_pos hrate, (if_pos hrate).trans rfl⟩
  simp only [if_neg hrate]
  by_cases hformat :
      (Bridge.jsonFindString line "sample_format" 24).any (fun text => text != "SC16_LE".toList) =
        true
  · exact Or.inl ⟨_, if_pos hformat, (if_pos hformat).trans rfl⟩
  simp only [if_neg hformat]
  rcases read_copyFound (by decide) hmode hline "mode" 24 with ⟨modeArray, hcopy, hread⟩
  rw [hcopy]
  exact Or.inr ⟨_, _, rfl, rfl,
    RxConfig.contents_eq_some.2 ⟨hread, rfl, rfl, rfl, rfl, rfl, rfl, rfl⟩⟩

theorem cmdSetRx_agrees (hw : Hw) {m : Control} {c : Bridge.Control} (hm : m.Holds c)
    {line : CString} (hline : nul ∉ line) (requestId : Int) :
    ∃ h, cmdSetRx scratch response size hw m line requestId = some h ∧
      Agrees scratch h (Bridge.cmdSetRx hw c line requestId) := by
  rw [cmdSetRx, jsonFindBool_eq (by decide), Bridge.cmdSetRx]
  simp only [Option.bind_eq_bind, Option.bind_some]
  by_cases henable : (Bridge.jsonFindBool line "enable").getD true = false
  · rw [if_pos henable, if_pos henable]
    exact respond_agrees hsize scratch response (holds_stopAll hm) _ _
  rw [if_neg henable, if_neg henable]
  rcases nextRx_agrees scratch hm.rx hline with
    ⟨refusal, hnext, hnext'⟩ | ⟨next, next', hnext, hnext', hcontents⟩
  · rw [hnext, hnext']
    exact refuse_agrees hsize scratch response hm [] _ _ _
  · rw [hnext, hnext']
    simp only [Option.bind_some, hcontents]
    split_ifs
    · refine respond_agrees hsize scratch response ?_ _ _
      exact { hm with rx := hcontents }
    · exact refuse_agrees hsize scratch response hm _ _ _ _

/-! ### Status -/

omit hsize in
theorem nul_notMem_decimal (n : Int) : nul ∉ decimal n := by
  intro hmem
  rcases mem_decimal hmem with h | h
  · exact absurd h (by decide)
  · exact absurd h (by decide)

omit hsize in
theorem nul_notMem_unsigned {width : Nat} (value : BitVec width) : nul ∉ unsigned value :=
  nul_notMem_decimal value.toNat

omit hsize in
theorem nul_notMem_ofList {text : CString} (h : nul ∉ text) :
    nul ∉ (String.ofList text).toList := by
  rw [String.toList_ofList]
  exact h

omit hsize in
theorem nul_notMem_trueFalse (b : Bool) : nul ∉ trueFalse b := by
  cases b <;> decide

omit hsize in
theorem nul_notMem_statusText (hw : Hw) {c : Bridge.Control} (hlna : nul ∉ c.frontend.lna)
    (hfilter : nul ∉ c.frontend.filter) (hmode : nul ∉ c.rx.mode) : nul ∉ statusText hw c := by
  -- What is left after the numbers and the three strings are the pieces of the format.
  unfold statusText
  simp only [List.mem_append, not_or, nul_notMem_decimal, nul_notMem_unsigned,
    nul_notMem_trueFalse, hlna, hfilter, hmode, not_false_eq_true, and_true, String.reduceAppend]
  repeat' apply And.intro
  all_goals
    apply nul_notMem_ofList
    decide

omit hsize in
theorem statusText_ne_nil (hw : Hw) (c : Bridge.Control) : fitted 1792 (statusText hw c) ≠ [] := by
  have hpos : 0 < (statusText hw c).length := by
    have hend : "\x7d\x7d\n".toList.length = 3 := by rfl
    unfold statusText
    simp only [List.length_append, hend]
    omega
  intro hnil
  have hlen := congrArg List.length hnil
  rw [fitted, List.length_take, List.length_nil] at hlen
  omega

theorem cmdGetStatus_agrees (hw : Hw) {m : Control} {c : Bridge.Control} (hm : m.Holds c)
    (requestId : Int) :
    ∃ h, cmdGetStatus scratch response size hw m requestId = some h ∧
      Agrees scratch h (Bridge.cmdGetStatus hw c requestId) := by
  have hcounted : Control.Holds { m with statusSeq := m.statusSeq + 1 }
      { c with statusSeq := c.statusSeq + 1 } :=
    { hm with statusSeq := congrArg (· + 1) hm.statusSeq }
  have hcontents := Control.contents_eq_some.2 hcounted
  generalize hc' : ({ c with statusSeq := c.statusSeq + 1 } : Bridge.Control) = c' at *
  have hne := statusText_ne_nil hw c'
  have houtcome : Bridge.cmdGetStatus hw c requestId =
      { control := c'
        ops := []
        response := .status requestId
          (if (fitted 1792 (statusText hw c')).getLast? = some '\n' then
            (fitted 1792 (statusText hw c')).dropLast
          else fitted 1792 (statusText hw c')) } := by
    simp only [Bridge.cmdGetStatus, Bridge.sdrControlBuildStatusJson, hc']
    rw [if_neg fun hempty => hne (List.isEmpty_iff.1 hempty)]
  have hnul : nul ∉ fitted 1792 (statusText hw c') := by
    rcases FrontendConfig.contents_eq_some.1 hcounted.frontend with ⟨hlna, hfilter, _⟩
    have hmode := (RxConfig.contents_eq_some.1 hcounted.rx).1
    intro hmem
    exact nul_notMem_statusText hw (CBuffer.nul_notMem_of_read hlna)
      (CBuffer.nul_notMem_of_read hfilter) (CBuffer.nul_notMem_of_read hmode)
      (List.mem_of_mem_take hmem)
  rcases appendJson_spec (by decide) scratch.statusFails scratch.statusJson (statusText hw c') with
    ⟨statusJson, statusLen, happend, hlt, hterm, hfailed, htext⟩
  rw [cmdGetStatus, houtcome]
  simp only [sdrControlBuildStatusJson, hcontents, happend, Option.bind_eq_bind, Option.bind_some,
    Option.pure_def]
  generalize fitted 1792 (statusText hw c') = text at *
  cases hfails : scratch.statusFails with
  | true =>
      -- The status is then empty, and the refusal says so.
      rw [if_pos (hfailed hfails)]
      rcases refuse_agrees hsize scratch response hcounted [] requestId "internal_error"
        "status build failed" with ⟨h, hrefuse, hagrees⟩
      refine ⟨h, hrefuse, hagrees.control, hagrees.ops, hagrees.length_lt, hagrees.terminated, ?_⟩
      intro hfine
      rw [hfails] at hfine
      cases hfine
  | false =>
      rcases htext hfails with ⟨rfl, rfl⟩
      rw [if_neg fun hzero => hne (List.length_eq_zero_iff.1 hzero), CBuffer.load_put_last hne hlt]
      rw [List.getLast?_eq_some_getLast hne, Option.bind_some]
      simp only [Option.some.injEq]
      split_ifs
      · rcases CBuffer.read_store_last hne hlt hnul with ⟨cut, hstore, hread⟩
        rw [hstore, Option.bind_some, hread, Option.bind_some]
        exact respond_agrees hsize scratch response hcounted [] _
      · rw [CBuffer.read_put hlt hnul, Option.bind_some]
        exact respond_agrees hsize scratch response hcounted [] _

/-! ### Dispatch -/

omit hsize in
theorem jsonCmdIs_eq {line : CString} (hline : nul ∉ line) (cmd : String) :
    jsonCmdIs scratch line cmd = some (Bridge.jsonCmdIs line cmd) := by
  rcases findText_eq (by decide) (show FitsPattern "cmd" by decide) hline scratch scratch.value with
    ⟨value, hfind⟩
  rw [jsonCmdIs, hfind]
  rfl

omit hsize in
theorem commandOf_eq {line : CString} (hline : nul ∉ line) :
    commandOf scratch line = some (Bridge.commandOf line) := by
  simp only [commandOf, jsonCmdIs_eq scratch hline, Option.bind_eq_bind, Option.bind_some,
    Bridge.commandOf]
  split_ifs <;> rfl

theorem dispatch_agrees (hw : Hw) {m : Control} {c : Bridge.Control} (hm : m.Holds c)
    {line : CString} (hline : nul ∉ line) {requestId : Int}
    (hid : Bridge.jsonRequestId line = some requestId) (hcmd : hasCmd line = true) :
    ∃ h, dispatch scratch response size hw m line requestId (Bridge.commandOf line) = some h ∧
      Agrees scratch h (Bridge.sdrControlHandleLine hw c line) := by
  rw [Bridge.sdrControlHandleLine, hid]
  simp only [hcmd, Bool.not_true, Bool.false_eq_true, if_false]
  cases Bridge.commandOf line with
  | hello => exact cmdHello_agrees hsize scratch response hw hm hline requestId
  | ping =>
      rw [dispatch, jsonFindNumber_eq (by decide)]
      exact respond_agrees hsize scratch response hm [] _
  | getStatus => exact cmdGetStatus_agrees hsize scratch response hw hm requestId
  | setFrontend => exact cmdSetFrontend_agrees hsize scratch response hm hline requestId
  | setRx => exact cmdSetRx_agrees hsize scratch response hw hm hline requestId
  | setPsd => exact cmdSetPsd_agrees hsize scratch response hm line requestId
  | stopAll => exact respond_agrees hsize scratch response (holds_stopAll hm) _ _
  | unknown => exact refuse_agrees hsize scratch response hm [] _ _ _

/-- Every line: no access leaves its array, and the arrays hold what the other model says. -/
theorem sdrControlHandleLine_agrees (hw : Hw) {m : Control} {c : Bridge.Control} (hm : m.Holds c)
    {line : CString} (hline : nul ∉ line) :
    ∃ h, sdrControlHandleLine scratch response size hw m line = some h ∧
      Agrees scratch h (Bridge.sdrControlHandleLine hw c line) := by
  have hpos : 0 < size := Nat.pos_of_ne_zero hsize
  have hrequest : jsonRequestId scratch line = some (Bridge.jsonRequestId line) := by
    rw [jsonRequestId, jsonFindNumber_eq (by decide)]
    rfl
  rw [sdrControlHandleLine, if_pos hpos, CBuffer.store_eq hpos, hrequest]
  simp only [Option.bind_eq_bind, Option.bind_some]
  cases hid : Bridge.jsonRequestId line with
  | none =>
      rw [Bridge.sdrControlHandleLine, hid]
      exact respond_agrees hsize scratch _ hm [] _
  | some requestId =>
      by_cases hcmd : hasCmd line = true
      · rw [hcmd, commandOf_eq scratch hline]
        exact dispatch_agrees hsize scratch _ hw hm hline hid hcmd
      · have hnone : hasCmd line = false := Bool.eq_false_iff.2 hcmd
        rw [Bridge.sdrControlHandleLine, hid, hnone]
        exact refuse_agrees hsize scratch _ hm [] _ _ _

end Commands

/-! ## Initial state -/

/-- A text of the program that is shorter than the array is copied whole. -/
theorem read_copyLiteral {size : Nat} (dst : CBuffer size) {text : CString} (hnul : nul ∉ text)
    (hlen : text.length < size) :
    ∃ dst', copyString dst size (some text) = some dst' ∧ dst'.read = some text := by
  rcases read_copyString (by omega) dst hnul with ⟨dst', hcopy, hread⟩
  rw [Bridge.copyString, List.take_of_length_le (by omega)] at hread
  exact ⟨dst', hcopy, hread⟩

theorem sdrControlInit_holds :
    ∃ m, sdrControlInit = some m ∧ m.Holds Bridge.sdrControlInit := by
  rcases read_copyLiteral (CBuffer.zeroed 48) (nul_notMem_ofList (by decide))
    (show "192.168.10.1".toList.length < 48 by decide) with ⟨ip, hip, hipRead⟩
  rcases read_copyLiteral (CBuffer.zeroed 12) (nul_notMem_ofList (by decide))
    (show "WFM".toList.length < 12 by decide) with ⟨mode, hmode, hmodeRead⟩
  rcases read_copyLiteral (CBuffer.zeroed 12) (nul_notMem_ofList (by decide))
    (show "bypass".toList.length < 12 by decide) with ⟨lna, hlna, hlnaRead⟩
  rcases read_copyLiteral (CBuffer.zeroed 20) (nul_notMem_ofList (by decide))
    (show "LPF_108M".toList.length < 20 by decide) with ⟨filter, hfilter, hfilterRead⟩
  refine ⟨_, by rw [sdrControlInit, hip, hmode, hlna, hfilter]; rfl, ?_⟩
  exact {
    peerIp := hipRead
    udpPeer := UdpPeer.contents_eq_some.2 ⟨hipRead, rfl, rfl, rfl⟩
    rx := RxConfig.contents_eq_some.2 ⟨hmodeRead, rfl, rfl, rfl, rfl, rfl, rfl, rfl⟩
    frontend := FrontendConfig.contents_eq_some.2 ⟨hlnaRead, hfilterRead, rfl⟩
    statusSeq := rfl
    iqPacketsForwarded := rfl
    iqForwardErrors := rfl
    helloSeen := rfl
    psdEnabled := rfl }

theorem sdrControlSetPeerIp_holds {m : Control} {c : Bridge.Control} (hm : m.Holds c)
    {peerIp : Option CString} (hnul : ∀ ip, peerIp = some ip → nul ∉ ip) :
    ∃ m', sdrControlSetPeerIp m peerIp = some m' ∧
      m'.Holds (Bridge.sdrControlSetPeerIp c peerIp) := by
  cases peerIp with
  | none => exact ⟨m, rfl, hm⟩
  | some ip =>
      rw [sdrControlSetPeerIp, Bridge.sdrControlSetPeerIp]
      split_ifs
      · exact ⟨m, rfl, hm⟩
      · rcases read_copyString (by decide) m.peerIp (hnul ip rfl) with ⟨array, hcopy, hread⟩
        refine ⟨_, by rw [hcopy]; rfl, ?_⟩
        exact { hm with peerIp := hread }

end Memory
end Bridge
end Sdr
