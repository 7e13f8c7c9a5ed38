import Mathlib.Algebra.Order.Floor.Ring
import Mathlib.Data.Rat.Floor
import Mathlib.Tactic.Linarith
import Sdr.Backend.Runtime
import Sdr.Simulator.Server

/-!
# ZoomRange — the ranges the web page asks the waterfall for

Model of the frequency clamps of `rpi/frontend/src/spectrum.tsx`, of its `applyWheelZoom`, and of the
requests that `requestPsdRange` and `setPsdRange` of `main.tsx` make of them.  Numbers are rationals,
so arithmetic is exact.

* `clampFrequencyRange_inBand` — whatever it is given, the clamp returns a range inside the band that
  is not narrower than the device allows, and such a range it returns as it is;
* `posted_accepted` — every request that a run of the page posts is one that the fake device accepts,
  behind a backend whose configuration the device accepts.
-/

namespace Sdr
namespace Frontend

open Lib Protocol Simulator

/-! ## Clamps -/

def MIN_FREQ : Int := 500000

def MAX_FREQ : Int := 108000000

def MIN_ZOOM_SPAN_HZ : Int := 100000

/-- `Math.round`: to the nearest integer, halves upwards. -/
def mathRound (x : ℚ) : Int :=
  ⌊x + 1 / 2⌋

/-- The span that a range is given. -/
def clampSpan (start stop : ℚ) : ℚ :=
  max MIN_ZOOM_SPAN_HZ (min (MAX_FREQ - MIN_FREQ) (stop - start))

def clampFrequencyRange (start stop : ℚ) : Int × Int :=
  let span := clampSpan start stop
  let nextStart := mathRound start
  let nextStop := mathRound (nextStart + span)
  let range := if nextStart < MIN_FREQ then
      (MIN_FREQ, mathRound (MIN_FREQ + span))
    else
      (nextStart, nextStop)
  if range.2 > MAX_FREQ then (mathRound (MAX_FREQ - span), MAX_FREQ) else range

/-- A range that the device takes. -/
structure InBand (range : Int × Int) : Prop where
  start : MIN_FREQ ≤ range.1
  stop : range.2 ≤ MAX_FREQ
  span : MIN_ZOOM_SPAN_HZ ≤ range.2 - range.1

/-! ## Rounding -/

section Round

variable {x : ℚ} {n : Int}

theorem le_mathRound (h : n ≤ x) : n ≤ mathRound x := by
  rw [mathRound, Int.le_floor]
  linarith

theorem mathRound_le (h : x ≤ n) : mathRound x ≤ n := by
  have hlt : mathRound x < n + 1 := by
    rw [mathRound, Int.floor_lt]
    push_cast
    linarith
  exact Int.lt_add_one_iff.1 hlt

@[simp] theorem mathRound_intCast (n : Int) : mathRound n = n :=
  le_antisymm (mathRound_le le_rfl) (le_mathRound le_rfl)

end Round

/-! ## The clamp -/

theorem clampSpan_mem (start stop : ℚ) :
    MIN_ZOOM_SPAN_HZ ≤ clampSpan start stop ∧ clampSpan start stop ≤ MAX_FREQ - MIN_FREQ := by
  refine ⟨le_max_left _ _, max_le ?_ (min_le_left _ _)⟩
  norm_num [MIN_ZOOM_SPAN_HZ, MAX_FREQ, MIN_FREQ]

theorem span_le_of_start {span : ℚ} (hspan : MIN_ZOOM_SPAN_HZ ≤ span) (n : Int) :
    MIN_ZOOM_SPAN_HZ ≤ mathRound (n + span) - n := by
  have hround : n + MIN_ZOOM_SPAN_HZ ≤ mathRound (n + span) := by
    apply le_mathRound
    push_cast
    linarith
  omega

/-- Whatever the range, the clamp puts it into the band and makes it wide enough. -/
theorem clampFrequencyRange_inBand (start stop : ℚ) : InBand (clampFrequencyRange start stop) := by
  rcases clampSpan_mem start stop with ⟨hlow, hhigh⟩
  unfold clampFrequencyRange
  simp only
  generalize clampSpan start stop = span at hlow hhigh ⊢
  -- After the first correction only the upper end can be outside.
  generalize hrange : (if mathRound start < MIN_FREQ then (MIN_FREQ, mathRound (MIN_FREQ + span))
    else (mathRound start, mathRound (mathRound start + span))) = range
  have hfirst : MIN_FREQ ≤ range.1 ∧ MIN_ZOOM_SPAN_HZ ≤ range.2 - range.1 := by
    subst hrange
    split_ifs with hstart
    · exact ⟨le_rfl, span_le_of_start hlow MIN_FREQ⟩
    · exact ⟨not_lt.1 hstart, span_le_of_start hlow (mathRound start)⟩
  by_cases hstop : range.2 > MAX_FREQ
  · -- The span fits the band, so taking it off the upper edge does not leave the lower one.
    rw [if_pos hstop]
    have hmin : MIN_FREQ ≤ mathRound (MAX_FREQ - span) := le_mathRound (by linarith)
    have hwide : mathRound (MAX_FREQ - span) ≤ MAX_FREQ - MIN_ZOOM_SPAN_HZ := by
      apply mathRound_le
      push_cast
      linarith
    exact ⟨hmin, le_rfl, by simp only; omega⟩
  · rw [if_neg hstop]
    exact ⟨hfirst.1, not_lt.1 hstop, hfirst.2⟩

/-- A range the device takes is returned as it is. -/
theorem clampFrequencyRange_of_inBand {range : Int × Int} (h : InBand range) :
    clampFrequencyRange range.1 range.2 = range := by
  rcases h with ⟨hstart, hstop, hspan⟩
  have hsame : clampSpan range.1 range.2 = ((range.2 - range.1 : Int) : ℚ) := by
    have hlow : (MIN_ZOOM_SPAN_HZ : ℚ) ≤ range.2 - range.1 := by
      exact_mod_cast hspan
    have hhigh : (range.2 : ℚ) - range.1 ≤ MAX_FREQ - MIN_FREQ := by
      have hle : range.2 - range.1 ≤ MAX_FREQ - MIN_FREQ := by
        omega
      exact_mod_cast hle
    rw [clampSpan, min_eq_right hhigh, max_eq_right hlow]
    push_cast
    rfl
  have hend : ((range.1 : ℚ) + ((range.2 - range.1 : Int) : ℚ)) = (range.2 : Int) := by
    push_cast
    ring
  simp only [clampFrequencyRange, hsame, mathRound_intCast, hend, if_neg (not_lt.2 hstart),
    gt_iff_lt, if_neg (not_lt.2 hstop)]

/-! ## The device -/

/-- Of the device's checks, only those that are not about the range can fail. -/
theorem check_of_inBand {config : PsdConfig}
    (h : InBand (config.startFrequencyHz, config.stopFrequencyHz)) :
    config.check =
      if config.source ≠ py "adc0" then
        .error ⟨"out_of_range", "fake AC920 only supports adc0 PSD"⟩
      else if config.outputBins ≠ 4096 then
        .error ⟨"out_of_range", "fake AC920 only supports 4096 PSD bins"⟩
      else if config.fps ≠ 10 then
        .error ⟨"out_of_range", "fake AC920 only supports 10 fps PSD"⟩
      else
        .ok () := by
  have hrange : ¬ (config.startFrequencyHz < 500000 ∨ config.stopFrequencyHz > 108000000) :=
    not_or.2 ⟨not_lt.2 h.start, not_lt.2 h.stop⟩
  have hspan : ¬ config.stopFrequencyHz - config.startFrequencyHz < 100000 := not_lt.2 h.span
  rw [PsdConfig.check, if_neg hrange, if_neg hspan]

/-- The messages of the two checks that are about the range. -/
def rangeRefusals : List String :=
  ["PSD range must stay within 0.5-108 MHz", "PSD span must be at least 100 kHz"]

theorem check_message_of_inBand {config : PsdConfig}
    (h : InBand (config.startFrequencyHz, config.stopFrequencyHz)) {e : CommandError}
    (hcheck : config.check = .error e) : e.message ∉ rangeRefusals := by
  rw [check_of_inBand h] at hcheck
  split_ifs at hcheck
  all_goals
    cases hcheck
    decide

theorem requestedPsd_range {T : PyTables} {request : PyDict} {config : PsdConfig} {range : Int × Int}
    (hstart : PyDict.get? request "start_frequency_hz" = some (.int range.1))
    (hstop : PyDict.get? request "stop_frequency_hz" = some (.int range.2))
    (h : requestedPsd T request = .ok config) :
    (config.startFrequencyHz, config.stopFrequencyHz) = range := by
  have hfirst : intField T request "start_frequency_hz" 500000 = .ok range.1 := by
    simp [intField, hstart, pyInt]
  have hsecond : intField T request "stop_frequency_hz" 108000000 = .ok range.2 := by
    simp [intField, hstop, pyInt]
  simp only [requestedPsd, hfirst, hsecond, bind, Except.bind] at h
  split at h
  · cases h
  · split at h
    · cases h
    · split at h
      · cases h
      · split at h
        · cases h
        · cases h
          rfl

/-- A request for a range that the device takes is not refused for its range or its span. -/
theorem cmdSetPsd_ne_of_inBand (T : PyTables) (s : FakeAc920Server) (requestId : PyValue)
    {request : PyDict} {range : Int × Int} (h : InBand range)
    (hstart : PyDict.get? request "start_frequency_hz" = some (.int range.1))
    (hstop : PyDict.get? request "stop_frequency_hz" = some (.int range.2)) :
    ∀ message ∈ rangeRefusals, (cmdSetPsd T s requestId request).2 ≠
      .ok (buildError (some requestId) "out_of_range" (py message)) := by
  intro message hmessage
  unfold cmdSetPsd
  split_ifs
  · simp [buildError, buildResponse]
  · cases hrequested : requestedPsd T request with
    | error e =>
        simp
    | ok applied =>
        rw [← requestedPsd_range hstart hstop hrequested] at h
        cases hcheck : applied.check with
        | error e =>
            have hother := check_message_of_inBand h hcheck
            simp only [PsdSender.setPsd, hcheck]
            intro heq
            simp [buildError, buildResponse, fieldsOf] at heq
            exact hother (heq.2 ▸ hmessage)
        | ok _ =>
            simp [PsdSender.setPsd, hcheck, buildError, buildResponse]

/-- The body that `setPsdRange` posts to `/api/psd`. -/
def setPsdRange (startFrequencyHz stopFrequencyHz : ℚ) : PyDict :=
  let range := clampFrequencyRange startFrequencyHz stopFrequencyHz
  fieldsOf
    [("enable", .bool true), ("start_frequency_hz", .int range.1),
      ("stop_frequency_hz", .int range.2)]

/-- What the backend then sends to the device. -/
def deviceRequest (config : Backend.Config.AppConfig) (requestId : Int) (fields : PyDict) : PyDict :=
  buildRequest requestId "set_psd" (Backend.BackendRuntime.psdDefaults config fields)

/-- A field of the request is the page's, or else the configured one. -/
theorem get?_deviceRequest (config : Backend.Config.AppConfig) (requestId : Int) (start stop : ℚ)
    (key : String) (hid : key ≠ "request_id") (hcmd : key ≠ "cmd") :
    PyDict.get? (deviceRequest config requestId (setPsdRange start stop)) key =
      (PyDict.get? (setPsdRange start stop) key).or (PyDict.get? config.psd.asdict key) := by
  have hfilter : (setPsdRange start stop).filter (fun entry => entry.2 != .none) =
      setPsdRange start stop := rfl
  have hpsd : PyDict.get? (Backend.BackendRuntime.psdDefaults config (setPsdRange start stop)) key =
      (PyDict.get? (setPsdRange start stop) key).or (PyDict.get? config.psd.asdict key) := by
    rw [Backend.BackendRuntime.psdDefaults, hfilter, PyDict.get?_update]
  have hid' : (py key == py "request_id") = false :=
    beq_eq_false_iff_ne.2 (fun h => hid (py_inj.1 h))
  have hcmd' : (py key == py "cmd") = false :=
    beq_eq_false_iff_ne.2 (fun h => hcmd (py_inj.1 h))
  rw [← hpsd]
  simp only [deviceRequest, buildRequest, PyDict.get?, List.lookup_cons, hid', hcmd']

/-- The configuration that the device is asked for. -/
def zoomConfig (config : Backend.Config.AppConfig) (range : Int × Int) : PsdConfig where
  psdId := config.psd.psdId
  source := config.psd.source
  startFrequencyHz := range.1
  stopFrequencyHz := range.2
  fftSize := config.psd.fftSize
  outputBins := config.psd.outputBins
  fps := config.psd.fps
  sampleFormat := config.psd.sampleFormat

theorem requestedPsd_setPsdRange (T : PyTables) (config : Backend.Config.AppConfig) (requestId : Int)
    (start stop : ℚ) :
    requestedPsd T (deviceRequest config requestId (setPsdRange start stop)) =
      .ok (zoomConfig config (clampFrequencyRange start stop)) := by
  have hget := get?_deviceRequest config requestId start stop
  generalize deviceRequest config requestId (setPsdRange start stop) = request at hget ⊢
  simp only [setPsdRange, Backend.Config.PsdConfig.asdict, get?_fieldsOf] at hget
  simp [requestedPsd, intField, strField, hget, List.lookup_cons, pyInt, pyStr]
  rfl

/-- A zoom is accepted, if the device accepts the rest of what the backend is configured with. -/
theorem cmdSetPsd_setPsdRange (T : PyTables) (s : FakeAc920Server) {config : Backend.Config.AppConfig}
    (hconfig : config.psd.source = py "adc0" ∧ config.psd.outputBins = 4096 ∧ config.psd.fps = 10)
    (requestId : Int) (start stop : ℚ) :
    cmdSetPsd T s (.int requestId) (deviceRequest config requestId (setPsdRange start stop)) =
      ({ s with
          psd := { config := zoomConfig config (clampFrequencyRange start stop) }
          psdEnabled := true
          psdRunning := true },
        .ok (buildResponse (some (.int requestId)) true
          [("applied", .dict (fieldsOf
            (psdFields (zoomConfig config (clampFrequencyRange start stop)) true)))])) := by
  have henable : PyDict.getD (deviceRequest config requestId (setPsdRange start stop)) "enable"
      (PyDict.getD (deviceRequest config requestId (setPsdRange start stop)) "enabled"
        (.bool false)) = .bool true := by
    rw [PyDict.getD, get?_deviceRequest config requestId start stop "enable" (by decide) (by decide)]
    rfl
  have hcheck : (zoomConfig config (clampFrequencyRange start stop)).check = .ok () := by
    rw [check_of_inBand (clampFrequencyRange_inBand start stop)]
    simp [zoomConfig, hconfig]
  rw [cmdSetPsd, henable, requestedPsd_setPsdRange]
  simp only [pyBool, PsdSender.setPsd, hcheck]
  rfl

/-! ## The page -/

/-- A wheel event over the waterfall that shows `start` to `stop`. -/
structure Wheel where
  start : ℚ
  stop : ℚ
  clientX : ℚ
  left : ℚ
  width : ℚ
  deltaX : ℚ
  deltaY : ℚ
  shiftKey : Bool

/-- The range that the wheel moves or scales the shown one to. -/
def Wheel.next (w : Wheel) : ℚ × ℚ :=
  let x := max 0 (min w.width (w.clientX - w.left))
  let fraction := x / max w.width 1
  let span := w.stop - w.start
  if w.shiftKey ∨ |w.deltaX| > |w.deltaY| then
    let shiftPixels := if w.deltaX ≠ 0 then w.deltaX else w.deltaY
    let shiftHz := shiftPixels / max w.width 1 * span
    (w.start + shiftHz, w.stop + shiftHz)
  else
    let zoomFactor := if w.deltaY < 0 then 72 / 100 else 138 / 100
    let nextSpan := span * zoomFactor
    let center := w.start + fraction * span
    let nextStart := center - fraction * nextSpan
    (nextStart, nextStart + nextSpan)

/-- `applyWheelZoom`: the range that it passes on, unless that is what is shown. -/
def applyWheelZoom (w : Wheel) : Option (Int × Int) :=
  let clamped := clampFrequencyRange w.next.1 w.next.2
  if |clamped.1 - w.start| > 1 ∨ |clamped.2 - w.stop| > 1 then some clamped else none

/-- The range that the timer of `requestPsdRange` holds, and the bodies posted so far. -/
structure ZoomPage where
  timer : Option (Int × Int) := none
  posted : List PyDict := []

inductive ZoomEvent
  | wheel (w : Wheel)
  /-- The button for the full band. -/
  | fullBand
  | timeout

namespace ZoomPage

/-- A timer that runs is replaced. -/
def requestPsdRange (page : ZoomPage) (startFrequencyHz stopFrequencyHz : ℚ) : ZoomPage :=
  { page with timer := some (clampFrequencyRange startFrequencyHz stopFrequencyHz) }

def timeout (page : ZoomPage) : ZoomPage :=
  match page.timer with
  | none => page
  | some range => { timer := none, posted := page.posted ++ [setPsdRange range.1 range.2] }

/-- `onRangeChange` is `requestPsdRange`. -/
def wheel (page : ZoomPage) (w : Wheel) : ZoomPage :=
  match applyWheelZoom w with
  | none => page
  | some range => page.requestPsdRange range.1 range.2

/-- `setPsdRange` with its default arguments. -/
def fullBand (page : ZoomPage) : ZoomPage :=
  { page with posted := page.posted ++ [setPsdRange MIN_FREQ MAX_FREQ] }

def step (page : ZoomPage) : ZoomEvent → ZoomPage
  | .wheel w => page.wheel w
  | .fullBand => page.fullBand
  | .timeout => page.timeout

/-- Every body is one that `setPsdRange` makes. -/
def Posted (page : ZoomPage) : Prop :=
  ∀ body ∈ page.posted, ∃ start stop, body = setPsdRange start stop

theorem posted_step {page : ZoomPage} (h : page.Posted) (event : ZoomEvent) :
    (page.step event).Posted := by
  have hpost : ∀ start stop, ∀ body ∈ page.posted ++ [setPsdRange start stop],
      ∃ start stop, body = setPsdRange start stop := by
    intro start stop body hbody
    rcases List.mem_append.1 hbody with hbody | hbody
    · exact h body hbody
    · exact ⟨start, stop, List.mem_singleton.1 hbody⟩
  cases event with
  | wheel w =>
      show (page.wheel w).Posted
      unfold wheel
      cases applyWheelZoom w with
      | none =>
          exact h
      | some range =>
          -- A request only sets the timer.
          exact h
  | fullBand =>
      exact hpost MIN_FREQ MAX_FREQ
  | timeout =>
      show page.timeout.Posted
      unfold timeout
      cases page.timer with
      | none =>
          exact h
      | some range =>
          exact hpost range.1 range.2

/-- Every request that a run of the page posts is accepted, if the device accepts the rest of what
the backend is configured with. -/
theorem posted_accepted (T : PyTables) {config : Backend.Config.AppConfig}
    (hconfig : config.psd.source = py "adc0" ∧ config.psd.outputBins = 4096 ∧ config.psd.fps = 10)
    (events : List ZoomEvent) :
    ∀ body ∈ (runFrom step {} events).posted, ∃ range, InBand range ∧
      ∀ (s : FakeAc920Server) (requestId : Int),
        cmdSetPsd T s (.int requestId) (deviceRequest config requestId body) =
          ({ s with
              psd := { config := zoomConfig config range }
              psdEnabled := true
              psdRunning := true },
            .ok (buildResponse (some (.int requestId)) true
              [("applied", .dict (fieldsOf (psdFields (zoomConfig config range) true)))])) := by
  have hstart : Posted {} := by
    intro body hbody
    cases hbody
  have hrun : (runFrom step {} events).Posted :=
    runFrom_inductive (I := Posted) (fun _ event h => posted_step h event) hstart events
  intro body hbody
  rcases hrun body hbody with ⟨start, stop, rfl⟩
  exact ⟨clampFrequencyRange start stop, clampFrequencyRange_inBand start stop,
    fun s requestId => cmdSetPsd_setPsdRange T s hconfig requestId start stop⟩

end ZoomPage

/-- Every zoom that can be asked for is one that the device takes, and clamping it again when it is
posted changes nothing. -/
theorem zoom_accepted (start stop : ℚ) :
    (500000 ≤ (clampFrequencyRange start stop).1 ∧ (clampFrequencyRange start stop).2 ≤ 108000000 ∧
      100000 ≤ (clampFrequencyRange start stop).2 - (clampFrequencyRange start stop).1) ∧
    (∀ (T : PyTables) (s : FakeAc920Server) (requestId : PyValue) (request : PyDict),
      PyDict.get? request "start_frequency_hz" = some (.int (clampFrequencyRange start stop).1) →
      PyDict.get? request "stop_frequency_hz" = some (.int (clampFrequencyRange start stop).2) →
      ∀ message ∈ rangeRefusals, (cmdSetPsd T s requestId request).2 ≠
        .ok (buildError (some requestId) "out_of_range" (py message))) ∧
    clampFrequencyRange (clampFrequencyRange start stop).1 (clampFrequencyRange start stop).2 =
      clampFrequencyRange start stop ∧
    ∀ page : ZoomPage, (page.requestPsdRange start stop).timeout.posted =
      page.posted ++ [setPsdRange start stop] := by
  have hband := clampFrequencyRange_inBand start stop
  have htwice := clampFrequencyRange_of_inBand hband
  refine ⟨⟨hband.start, hband.stop, hband.span⟩, ?_, htwice, ?_⟩
  · intro T s requestId request hstart hstop
    exact cmdSetPsd_ne_of_inBand T s requestId hband hstart hstop
  · intro page
    simp only [ZoomPage.requestPsdRange, ZoomPage.timeout, setPsdRange, htwice]

end Frontend
end Sdr
