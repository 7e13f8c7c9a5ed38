import Mathlib.Data.List.Forall2
import Sdr.Cosim.Server
import Sdr.Lib.Machine

/-!
# Sessions — the control connection of the co-simulation

The server answers every complete line with one line, however `recv` cuts the bytes and whatever the
core and the timers do meanwhile (`session_answers`).  Datagrams of all three kinds go only to the
addresses that the last `hello` of the connection that owns the device asked for
(`datagrams_to_owner`): none is sent before that `hello`, and none after the connection is gone.
-/

namespace Sdr
namespace Cosim

open Lib Lib.CString Lib.Struct

/-- The line of a reply. -/
def Output.replyLine : Output → Option CString
  | .reply line => some line
  | .refusal _ | .iq _ _ | .psd _ _ | .status _ _ => none

/-- Where a datagram goes, and the port that a `hello` names for it. -/
def Output.sentTo : Output → Option (String × Int × Endpoint)
  | .reply _ | .refusal _ => none
  | .iq dest _ => some ("iq_port", 9001, dest)
  | .psd dest _ => some ("psd_port", 9002, dest)
  | .status dest _ => some ("status_port", 9003, dest)

namespace CosimServer

variable (host : Host)

/-! ## Lines -/

section Lines

theorem splitLines_append (line a b : CString) :
    splitLines line (a ++ b) =
      ((splitLines line a).1 ++ (splitLines (splitLines line a).2 b).1,
        (splitLines (splitLines line a).2 b).2) := by
  induction a generalizing line with
  | nil =>
      rfl
  | cons c a ih =>
      simp only [List.cons_append, splitLines]
      split_ifs
      · rw [ih]
        rfl
      · exact ih _

/-- A text without a newline only makes the open line longer. -/
theorem splitLines_of_notMem {a : CString} (ha : '\n' ∉ a) (line b : CString) :
    splitLines line (a ++ b) = splitLines (line ++ a) b := by
  induction a generalizing line with
  | nil =>
      rw [List.nil_append, List.append_nil]
  | cons c a ih =>
      rw [List.mem_cons, not_or] at ha
      rw [List.cons_append, splitLines, if_neg (Ne.symm ha.1), ih ha.2, List.append_assoc]
      rfl

/-- Neither the lines nor what is left has a newline in it. -/
theorem newline_notMem_splitLines {line : CString} (hline : '\n' ∉ line) (text : CString) :
    (∀ l ∈ (splitLines line text).1, '\n' ∉ l) ∧ '\n' ∉ (splitLines line text).2 := by
  induction text generalizing line with
  | nil =>
      exact ⟨by simp [splitLines], hline⟩
  | cons c text ih =>
      rw [splitLines]
      split_ifs with hc
      · have hrest := ih (show '\n' ∉ ([] : CString) by simp)
        exact ⟨List.forall_mem_cons.2 ⟨hline, hrest.1⟩, hrest.2⟩
      · refine ih ?_
        rw [List.mem_append, List.mem_singleton, not_or]
        exact ⟨hline, Ne.symm hc⟩

end Lines

/-! ## What the outside sees of a connection -/

/-- The connection that owns the device: where it comes from, and the bytes received on it. -/
structure Connection where
  ip : CString
  received : List Byte

namespace Connection

def lines (c : Connection) : List CString :=
  (splitLines [] (CString.ofBytes c.received)).1

/-- What has been received of the line after these. -/
def rest (c : Connection) : CString :=
  (splitLines [] (CString.ofBytes c.received)).2

def next (c : Connection) (bytes : List Byte) : Connection :=
  { c with received := c.received ++ bytes }

/-- The lines that more bytes complete. -/
def completed (c : Connection) (bytes : List Byte) : List CString :=
  (splitLines [] (c.rest ++ CString.ofBytes bytes)).1

theorem newline_notMem_rest (c : Connection) : '\n' ∉ c.rest :=
  (newline_notMem_splitLines (by simp) _).2

theorem newline_notMem_completed (c : Connection) (bytes : List Byte) :
    ∀ l ∈ c.completed bytes, '\n' ∉ l :=
  (newline_notMem_splitLines (by simp) _).1

theorem split_next (c : Connection) (bytes : List Byte) :
    splitLines [] (CString.ofBytes (c.next bytes).received) =
      (c.lines ++ c.completed bytes, (splitLines [] (c.rest ++ CString.ofBytes bytes)).2) := by
  have hbytes : CString.ofBytes (c.next bytes).received =
      CString.ofBytes c.received ++ CString.ofBytes bytes := List.map_append
  -- What is left over has no newline, so it only opens the next line.
  have hrest : splitLines [] (c.rest ++ CString.ofBytes bytes) =
      splitLines c.rest (CString.ofBytes bytes) :=
    splitLines_of_notMem c.newline_notMem_rest [] (CString.ofBytes bytes)
  rw [hbytes, splitLines_append, completed, hrest]
  rfl

theorem lines_next (c : Connection) (bytes : List Byte) :
    (c.next bytes).lines = c.lines ++ c.completed bytes :=
  congrArg Prod.fst (c.split_next bytes)

theorem rest_next (c : Connection) (bytes : List Byte) :
    (c.next bytes).rest = (splitLines [] (c.rest ++ CString.ofBytes bytes)).2 := by
  rw [rest, split_next]

end Connection

/-- How an event changes which connection owns the device. -/
def watch (c : Option Connection) : Event → Option Connection
  | .connect ip => some (c.getD { ip, received := [] })
  | .recv bytes => c.map fun c => c.next bytes
  | .hangup => none
  | .rtl _ => c
  | .timers => c

/-- The owner after the events. -/
def owner (es : List Event) : Option Connection :=
  runFrom watch none es

/-- The lines an event completes. -/
def linesIn (c : Option Connection) : Event → List CString
  | .recv bytes => c.elim [] fun c => c.completed bytes
  | _ => []

/-- All complete lines, of all connections. -/
def linesSeen (es : List Event) : List CString :=
  emits watch linesIn none es

/-! ## Answers -/

def errorPrefix (requestId : BitVec 32) : CString :=
  text "\x7b\"request_id\":" ++ decimal requestId.toInt ++ text ",\"ok\":false"

/-- A text that is one line with its newline. -/
def OneLine (reply : CString) : Prop :=
  ∃ body, reply = body ++ ['\n'] ∧ '\n' ∉ body

/-- The line answers with the request's own number, and with `ok` exactly if it is a command. -/
structure Answers (line reply : CString) : Prop where
  oneLine : OneLine reply
  head : (if commandOf line = .missing ∨ commandOf line = .unknown then errorPrefix (requestIdOf line)
    else okPrefix (requestIdOf line)) <+: reply

section Answers

theorem OneLine.append {a b : CString} (ha : '\n' ∉ a) (hb : OneLine b) : OneLine (a ++ b) := by
  rcases hb with ⟨body, rfl, hbody⟩
  refine ⟨a ++ body, (List.append_assoc _ _ _).symm, ?_⟩
  rw [List.mem_append, not_or]
  exact ⟨ha, hbody⟩

@[simp]
theorem newline_notMem_decimal (n : Int) : '\n' ∉ decimal n := by
  intro h
  rcases mem_decimal h with h | h
  · exact absurd h (by decide)
  · exact absurd h (by decide)

@[simp]
theorem newline_notMem_toText {width : Nat} (v : BitVec width) : '\n' ∉ toText v :=
  newline_notMem_decimal _

@[simp]
theorem newline_notMem_okPrefix (requestId : BitVec 32) : '\n' ∉ okPrefix requestId := by
  simp [okPrefix, text]

@[simp]
theorem newline_notMem_boolText (b : Bool) : '\n' ∉ boolText b := by
  cases b <;> simp [boolText, text]

/-- A string read from a line is a part of the line, or the fallback. -/
theorem newline_notMem_jsonString {line fallback : CString} (hline : '\n' ∉ line)
    (hfallback : '\n' ∉ fallback) (key : String) : '\n' ∉ jsonString line key fallback := by
  unfold jsonString
  split
  · exact hfallback
  · rename_i opening hopening
    -- Each search drops a piece off the front of the line.
    have hsuffix : opening <:+ line := by
      unfold behindColon at hopening
      simp only [Option.bind_eq_some_iff, Option.map_eq_some_iff] at hopening
      rcases hopening with ⟨p, ⟨q, hq, r, hr, rfl⟩, hp⟩
      calc
        opening <:+ r.drop 1 := suffix_of_strchr hp
        _ <:+ r := List.drop_suffix 1 r
        _ <:+ q.drop _ := suffix_of_strchr hr
        _ <:+ q := List.drop_suffix _ q
        _ <:+ line := suffix_of_strstr hq
    split_ifs
    · intro h
      exact hline (hsuffix.mem (List.mem_of_mem_drop ((List.takeWhile_sublist _).mem h)))
    · exact hfallback

/-- The configuration's own text has no newline. -/
def CleanMode (s : CosimServer) : Prop :=
  '\n' ∉ s.stream.mode

theorem newline_notMem_append {a b : CString} : '\n' ∉ a ++ b ↔ '\n' ∉ a ∧ '\n' ∉ b := by
  rw [List.mem_append, not_or]

theorem newline_notMem_streamStatusJson {s : CosimServer} (hs : CleanMode s) :
    '\n' ∉ s.streamStatusJson := by
  have hmode : '\n' ∉ s.stream.mode := hs
  simp only [streamStatusJson, newline_notMem_append]
  repeat' apply And.intro
  all_goals simp [text, hmode]

theorem newline_notMem_statusJson {s : CosimServer} (hs : CleanMode s) :
    '\n' ∉ s.statusJson host := by
  have hstream : '\n' ∉ (if s.stream.enabled then s.streamStatusJson else []) := by
    split_ifs
    · exact newline_notMem_streamStatusJson hs
    · simp
  unfold statusJson
  generalize (if s.stream.enabled then s.streamStatusJson else []) = streams at hstream ⊢
  simp only [newline_notMem_append]
  repeat' apply And.intro
  all_goals simp [text, hstream]

theorem oneLine_text {s t : String} (h : s = t ++ "\n") (ht : '\n' ∉ text t) : OneLine (text s) :=
  ⟨text t, by rw [h, text, String.toList_append]; rfl, ht⟩

theorem oneLine_errorResponse (requestId : BitVec 32) {code message : String}
    (hcode : '\n' ∉ text code) (hmessage : '\n' ∉ text message) :
    OneLine (errorResponse requestId code message) := by
  refine OneLine.append ?_ (oneLine_text (t := "\"\x7d\x7d") rfl (by simp [text]))
  simp only [newline_notMem_append]
  repeat' apply And.intro
  all_goals first | exact hcode | exact hmessage | simp [text]

theorem oneLine_helloLimits : OneLine helloLimits := by
  refine OneLine.append ?_ (oneLine_text (t := "\"max_udp_payload_bytes\":1200\x7d\x7d") rfl
    (by simp [text]))
  simp only [newline_notMem_append]
  repeat' apply And.intro
  all_goals simp [text]

theorem answers_of_command {line reply : CString} {command : Command} (h : commandOf line = command)
    (haccepted : command ≠ .missing ∧ command ≠ .unknown) (hline : OneLine reply)
    (hhead : okPrefix (requestIdOf line) <+: reply) : Answers line reply := by
  refine ⟨hline, ?_⟩
  rw [h, if_neg (not_or.2 haccepted)]
  exact hhead

theorem errorPrefix_errorResponse (requestId : BitVec 32) (code message : String) :
    errorPrefix requestId <+: errorResponse requestId code message := by
  have hsplit : text ",\"ok\":false,\"error\":\x7b\"code\":\"" =
      text ",\"ok\":false" ++ text ",\"error\":\x7b\"code\":\"" := by
    simp [text]
  refine ⟨text ",\"error\":\x7b\"code\":\"" ++ text code ++ text "\",\"message\":\"" ++
    text message ++ text "\"\x7d\x7d\n", ?_⟩
  rw [errorResponse, hsplit, errorPrefix]
  simp only [List.append_assoc]

theorem newline_notMem_requestedMode {line : CString} (hline : '\n' ∉ line) :
    '\n' ∉ (requestedStream line).mode :=
  newline_notMem_jsonString hline (by simp [text]) "mode"

/-- Every answer is one line that names its request. -/
theorem answers_handleRequest {s : CosimServer} (hs : CleanMode s) {line : CString}
    (hline : '\n' ∉ line) : Answers line (s.handleRequest host line).2 := by
  have hmode := newline_notMem_requestedMode hline
  unfold handleRequest
  -- Every answer ends with a fixed text, and what stands before it has no newline.
  cases hcommand : commandOf line with
  | missing =>
      refine ⟨oneLine_errorResponse _ (by simp [text]) (by simp [text]), ?_⟩
      rw [if_pos (Or.inl hcommand)]
      exact errorPrefix_errorResponse _ _ _
  | hello =>
      exact answers_of_command hcommand (by decide)
        (OneLine.append (newline_notMem_okPrefix _) oneLine_helloLimits) (List.prefix_append _ _)
  | ping =>
      refine answers_of_command hcommand (by decide) ?_ ?_
      · refine OneLine.append ?_ (oneLine_text (t := "\x7d") rfl (by simp [text]))
        simp only [newline_notMem_append]
        repeat' apply And.intro
        all_goals simp [text]
      · simp only [List.append_assoc]
        exact List.prefix_append _ _
  | getStatus =>
      refine answers_of_command hcommand (by decide) ?_ ?_
      · refine OneLine.append ?_ (oneLine_text (t := "\x7d") rfl (by simp [text]))
        have hstatus := newline_notMem_statusJson host hs
        simp only [newline_notMem_append]
        repeat' apply And.intro
        all_goals simp [text, hstatus]
      · simp only [List.append_assoc]
        exact List.prefix_append _ _
  | setFrontend =>
      refine answers_of_command hcommand (by decide) ?_ ?_
      · refine OneLine.append ?_ (oneLine_text (t := "\"filter\":\"LPF_108M\"\x7d\x7d") rfl
          (by simp [text]))
        simp only [newline_notMem_append]
        repeat' apply And.intro
        all_goals simp [text]
      · simp only [List.append_assoc]
        exact List.prefix_append _ _
  | setRx =>
      refine answers_of_command hcommand (by decide) ?_ ?_
      · unfold handleSetRx
        split_ifs
        · refine OneLine.append ?_ (oneLine_text (t := ",\"enable\":true\x7d\x7d") rfl
            (by simp [text]))
          simp only [newline_notMem_append]
          repeat' apply And.intro
          all_goals simp [text, hmode]
        · exact OneLine.append (newline_notMem_okPrefix _)
            (oneLine_text (t := ",\"applied\":\x7b\"stream_id\":0,\"enable\":false\x7d\x7d") rfl
              (by simp [text]))
      · unfold handleSetRx
        split_ifs
        · simp only [List.append_assoc]
          exact List.prefix_append _ _
        · exact List.prefix_append _ _
  | setPsd =>
      refine answers_of_command hcommand (by decide) ?_ ?_
      · refine OneLine.append ?_
          (oneLine_text (t := ",\"sample_format\":\"I16_DBFS_Q8\"\x7d\x7d") rfl (by simp [text]))
        simp only [newline_notMem_append]
        repeat' apply And.intro
        all_goals simp [text]
      · simp only [handleSetPsd, List.append_assoc]
        exact List.prefix_append _ _
  | stopAll =>
      exact answers_of_command hcommand (by decide)
        (OneLine.append (newline_notMem_okPrefix _) (oneLine_text (t := "\x7d") rfl (by simp [text])))
        (List.prefix_append _ _)
  | unknown =>
      refine ⟨oneLine_errorResponse _ (by simp [text]) (by simp [text]), ?_⟩
      rw [if_pos (Or.inr hcommand)]
      exact errorPrefix_errorResponse _ _ _

end Answers

/-! ## What a request changes -/

/-- The endpoint that a `hello` asks for under a port's name. -/
def helloDest (ip line : CString) (key : String) (fallback : Int) : Endpoint :=
  makeDest host (jsonString line "destination_ip" ip) (portField line key fallback)

def lastHello (lines : List CString) : Option CString :=
  (lines.filter fun line => commandOf line = .hello).getLast?

/-- Where a datagram may go is what the last `hello` of these lines asked for. -/
def ToldBy (ip : CString) (lines : List CString) (key : String) (fallback : Int) (dest : Endpoint) :
    Prop :=
  dest.valid = true →
    ∃ line, lastHello lines = some line ∧ dest = helloDest host ip line key fallback

/-- The device serves a client that has sent these lines. -/
structure Serving (ip : CString) (lines : List CString) (s : CosimServer) : Prop where
  isOpen : s.clientOpen = true
  clientIp : s.clientIp = ip
  clean : CleanMode s
  iqDest : ToldBy host ip lines "iq_port" 9001 s.radio.iqDest
  psdDest : ToldBy host ip lines "psd_port" 9002 s.psdDest
  statusDest : ToldBy host ip lines "status_port" 9003 s.statusDest

section Requests

variable {host} {ip line : CString} {lines : List CString} {s s' : CosimServer}

theorem lastHello_snoc (lines : List CString) (line : CString) :
    lastHello (lines ++ [line]) =
      if commandOf line = .hello then some line else lastHello lines := by
  unfold lastHello
  by_cases h : commandOf line = .hello
  · rw [List.filter_append, if_pos h]
    simp [h]
  · rw [List.filter_append, if_neg h]
    simp [h]

theorem ToldBy.other {key : String} {fallback : Int} {dest : Endpoint}
    (h : ToldBy host ip lines key fallback dest) (hline : commandOf line ≠ .hello) :
    ToldBy host ip (lines ++ [line]) key fallback dest := by
  intro hvalid
  rw [lastHello_snoc, if_neg hline]
  exact h hvalid

theorem toldBy_hello (hline : commandOf line = .hello) (key : String) (fallback : Int) :
    ToldBy host ip (lines ++ [line]) key fallback (helloDest host ip line key fallback) := by
  intro _
  rw [lastHello_snoc, if_pos hline]
  exact ⟨line, rfl, rfl⟩

/-- A line that is no `hello` changes nothing about whom the device serves. -/
theorem Serving.other (h : Serving host ip lines s) (hline : commandOf line ≠ .hello)
    (hopen : s'.clientOpen = s.clientOpen) (hip : s'.clientIp = s.clientIp) (hclean : CleanMode s')
    (hiq : s'.radio.iqDest = s.radio.iqDest) (hpsd : s'.psdDest = s.psdDest)
    (hstatus : s'.statusDest = s.statusDest) : Serving host ip (lines ++ [line]) s' where
  isOpen := hopen.trans h.isOpen
  clientIp := hip.trans h.clientIp
  clean := hclean
  iqDest := hiq ▸ h.iqDest.other hline
  psdDest := hpsd ▸ h.psdDest.other hline
  statusDest := hstatus ▸ h.statusDest.other hline

/-- One line, whatever it says. -/
theorem serving_handleLine (h : Serving host ip lines s) (hline : '\n' ∉ line) :
    Serving host ip (lines ++ [line]) (handleLine host s line) := by
  unfold handleLine handleRequest
  -- Only `hello` names endpoints, and only `set_rx` stores a text of the line.
  cases hcommand : commandOf line with
  | hello =>
      refine ⟨h.isOpen, h.clientIp, h.clean, ?_, ?_, ?_⟩
      all_goals
        simp only [handleHello, h.clientIp]
        exact toldBy_hello hcommand _ _
  | setRx =>
      have hother : commandOf line ≠ .hello := by simp [hcommand]
      simp only [handleSetRx]
      split_ifs
      · exact h.other hother rfl rfl (newline_notMem_requestedMode hline) rfl rfl rfl
      · exact h.other hother rfl rfl h.clean rfl rfl rfl
  | missing | ping | getStatus | setFrontend | setPsd | stopAll | unknown =>
      exact h.other (by simp [hcommand]) rfl rfl h.clean rfl rfl rfl

theorem rxBuffer_handleLine (s : CosimServer) (line : CString) :
    (handleLine host s line).rxBuffer = s.rxBuffer := by
  unfold handleLine handleRequest
  cases commandOf line with
  | setRx =>
      simp only [handleSetRx]
      split_ifs
      · rfl
      · rfl
  | hello | missing | ping | getStatus | setFrontend | setPsd | stopAll | unknown =>
      rfl

/-- Several lines: whom the device serves then, and an answer for each of them. -/
theorem serving_run (h : Serving host ip lines s) {news : List CString}
    (hnews : ∀ line ∈ news, '\n' ∉ line) :
    Serving host ip (lines ++ news) (runFrom (handleLine host) s news) ∧
      (runFrom (handleLine host) s news).rxBuffer = s.rxBuffer ∧
      List.Forall₂ (fun line out => ∃ reply, out = Output.reply reply ∧ Answers line reply) news
        (emits (handleLine host) (lineReply host) s news) := by
  induction news generalizing s lines with
  | nil =>
      exact ⟨by simpa using h, rfl, List.Forall₂.nil⟩
  | cons line news ih =>
      have hline := hnews line (by simp)
      have hrest := ih (serving_handleLine h hline) (fun l hl => hnews l (by simp [hl]))
      rw [List.append_assoc] at hrest
      exact ⟨hrest.1, hrest.2.1.trans (rxBuffer_handleLine s line),
        List.Forall₂.cons ⟨_, rfl, answers_handleRequest host h.clean hline⟩ hrest.2.2⟩

end Requests

/-! ## The session invariant -/

/-- Nobody owns the device, and nothing leaves it. -/
structure Idle (s : CosimServer) : Prop where
  isClosed : s.clientOpen = false
  clean : CleanMode s
  iqDest : s.radio.iqDest.valid = false
  psdDest : s.psdDest.valid = false
  statusDest : s.statusDest.valid = false

theorem Idle.not_open {s : CosimServer} (h : Idle s) : ¬s.clientOpen = true := by
  rw [h.isClosed]
  decide

/-- The server's state is what the connection makes it. -/
def Matches (s : CosimServer) : Option Connection → Prop
  | none => Idle s
  | some c => Serving host c.ip c.lines s ∧ s.rxBuffer = c.rest

/-- The replies that an event brings about. -/
def replies (s : CosimServer) (e : Event) : List CString :=
  (outputs host s e).filterMap Output.replyLine

section Session

variable {host} {s : CosimServer}

theorem iqDest_stepRtl (r : Radio) (sample14 : BitVec 14) :
    (r.stepRtl sample14).iqDest = r.iqDest := by
  unfold Radio.stepRtl Radio.collect
  split_ifs
  all_goals rfl

/-- What the timers leave alone. -/
structure SameSession (s s' : CosimServer) : Prop where
  clientOpen : s'.clientOpen = s.clientOpen
  clientIp : s'.clientIp = s.clientIp
  mode : s'.stream.mode = s.stream.mode
  iqDest : s'.radio.iqDest = s.radio.iqDest
  psdDest : s'.psdDest = s.psdDest
  statusDest : s'.statusDest = s.statusDest
  rxBuffer : s'.rxBuffer = s.rxBuffer

theorem SameSession.keeps {s' : CosimServer} {c : Option Connection} (h : SameSession s s')
    (hs : Matches host s c) : Matches host s' c := by
  cases c with
  | none =>
      have hs : Idle s := hs
      refine ⟨h.clientOpen.trans hs.isClosed, ?_, ?_, ?_, ?_⟩
      · rw [CleanMode, h.mode]
        exact hs.clean
      · rw [h.iqDest]
        exact hs.iqDest
      · rw [h.psdDest]
        exact hs.psdDest
      · rw [h.statusDest]
        exact hs.statusDest
  | some c =>
      rcases hs with ⟨hs, hbuffer⟩
      refine ⟨⟨h.clientOpen.trans hs.isOpen, h.clientIp.trans hs.clientIp, ?_, ?_, ?_, ?_⟩,
        h.rxBuffer.trans hbuffer⟩
      · rw [CleanMode, h.mode]
        exact hs.clean
      · rw [h.iqDest]
        exact hs.iqDest
      · rw [h.psdDest]
        exact hs.psdDest
      · rw [h.statusDest]
        exact hs.statusDest

theorem sameSession_statusTimer (s : CosimServer) (now : BitVec 64) :
    SameSession s (s.statusTimer now) := by
  unfold statusTimer
  split_ifs
  all_goals exact ⟨rfl, rfl, rfl, rfl, rfl, rfl, rfl⟩

theorem sameSession_psdTimer (s : CosimServer) (now : BitVec 64) :
    SameSession s (s.psdTimer now) := by
  unfold psdTimer
  split_ifs
  all_goals exact ⟨rfl, rfl, rfl, rfl, rfl, rfl, rfl⟩

theorem sameSession_readClock (s : CosimServer) : SameSession s s.readClock :=
  ⟨rfl, rfl, rfl, rfl, rfl, rfl, rfl⟩

theorem sameSession_rtl (s : CosimServer) (sample14 : BitVec 14) :
    SameSession s (step host s (.rtl sample14)) :=
  ⟨rfl, rfl, rfl, iqDest_stepRtl s.radio sample14, rfl, rfl, rfl⟩

theorem idle_closeControl (hs : CleanMode s) : Idle (s.closeControl host) :=
  ⟨rfl, hs, rfl, rfl, rfl⟩

theorem Matches.clean {c : Option Connection} (hs : Matches host s c) : CleanMode s := by
  cases c with
  | none => exact Idle.clean hs
  | some c => exact hs.1.clean

theorem SameSession.trans {s' s'' : CosimServer} (h : SameSession s s') (h' : SameSession s' s'') :
    SameSession s s'' where
  clientOpen := h'.clientOpen.trans h.clientOpen
  clientIp := h'.clientIp.trans h.clientIp
  mode := h'.mode.trans h.mode
  iqDest := h'.iqDest.trans h.iqDest
  psdDest := h'.psdDest.trans h.psdDest
  statusDest := h'.statusDest.trans h.statusDest
  rxBuffer := h'.rxBuffer.trans h.rxBuffer

theorem sameSession_timers (s : CosimServer) : SameSession s (step host s .timers) :=
  (sameSession_readClock s).trans
    ((sameSession_statusTimer _ _).trans (sameSession_psdTimer _ _))

/-- A recording of replies: what the lines of one `recv` are answered with. -/
theorem filterMap_replyLine {news : List CString} {outs : List Output}
    (h : List.Forall₂ (fun line out => ∃ reply, out = Output.reply reply ∧ Answers line reply) news
      outs) : List.Forall₂ Answers news (outs.filterMap Output.replyLine) := by
  induction h with
  | nil =>
      exact List.Forall₂.nil
  | cons hout _ ih =>
      rcases hout with ⟨reply, rfl, hreply⟩
      exact List.Forall₂.cons hreply ih

/-- The bytes of one `recv` from the owner. -/
theorem matches_recv {c : Connection} (hs : Matches host s (some c)) (bytes : List Byte) :
    Matches host (step host s (.recv bytes)) (some (c.next bytes)) ∧
      List.Forall₂ Answers (c.completed bytes) (replies host s (.recv bytes)) := by
  rcases hs with ⟨hs, hbuffer⟩
  have hnews : s.newLines bytes = c.completed bytes := by
    rw [newLines, hbuffer]
    rfl
  have hbuffered : Serving host c.ip c.lines (s.buffered bytes) :=
    ⟨hs.isOpen, hs.clientIp, hs.clean, hs.iqDest, hs.psdDest, hs.statusDest⟩
  -- The buffer holds what was left over, so the lines are those of all the bytes of the connection.
  rcases serving_run hbuffered (c.newline_notMem_completed bytes) with ⟨hafter, hrest, hanswers⟩
  have hstep : step host s (.recv bytes) =
      runFrom (handleLine host) (s.buffered bytes) (c.completed bytes) := by
    rw [step, if_pos hs.isOpen, hnews]
  refine ⟨⟨?_, ?_⟩, ?_⟩
  · rw [hstep, c.lines_next]
    exact hafter
  · rw [hstep, hrest, c.rest_next, buffered, hbuffer]
  · rw [replies, outputs, if_pos hs.isOpen, hnews]
    exact filterMap_replyLine hanswers

/-- One event: whom the device serves then, and the replies to the lines that it completes. -/
theorem matches_step {c : Option Connection} (hs : Matches host s c) (e : Event) :
    Matches host (step host s e) (watch c e) ∧
      List.Forall₂ Answers (linesIn c e) (replies host s e) := by
  cases e with
  | connect ip =>
      cases c with
      | none =>
          have hs : Idle s := hs
          simp only [step, replies, outputs, if_neg hs.not_open]
          refine ⟨⟨⟨rfl, rfl, hs.clean, ?_, ?_, ?_⟩, rfl⟩, List.Forall₂.nil⟩
          -- A new owner has said nothing yet, and nothing is sent.
          · intro hvalid
            exact absurd hvalid (by simp [hs.iqDest])
          · intro hvalid
            exact absurd hvalid (by simp [hs.psdDest])
          · intro hvalid
            exact absurd hvalid (by simp [hs.statusDest])
      | some c =>
          -- The new client is turned away, and the owner stays.
          have hopen : s.clientOpen = true := hs.1.isOpen
          simp only [step, replies, outputs, if_pos hopen]
          exact ⟨hs, List.Forall₂.nil⟩
  | recv bytes =>
      cases c with
      | none =>
          simp only [step, replies, outputs, if_neg (Idle.not_open hs)]
          exact ⟨hs, List.Forall₂.nil⟩
      | some c =>
          exact matches_recv hs bytes
  | hangup =>
      refine ⟨?_, List.Forall₂.nil⟩
      cases c with
      | none =>
          rw [step, if_neg (Idle.not_open hs)]
          exact hs
      | some c =>
          rw [step, if_pos hs.1.isOpen]
          exact idle_closeControl hs.1.clean
  | rtl sample14 =>
      refine ⟨(sameSession_rtl s sample14).keeps hs, ?_⟩
      have hnone : replies host s (.rtl sample14) = [] := by
        rw [replies, outputs, List.filterMap_map]
        exact List.filterMap_eq_nil_iff.2 (fun d _ => rfl)
      rw [hnone]
      exact List.Forall₂.nil
  | timers =>
      refine ⟨(sameSession_timers s).keeps hs, ?_⟩
      have hnone : replies host s .timers = [] := by
        rw [replies, outputs, List.filterMap_append, statusTimerSent, psdTimerSent]
        split_ifs
        all_goals simp [Output.replyLine]
      rw [hnone]
      exact List.Forall₂.nil

theorem iqDest_runFrom (r : Radio) (samples : List (BitVec 14)) :
    (runFrom Radio.stepRtl r samples).iqDest = r.iqDest := by
  induction samples generalizing r with
  | nil =>
      rfl
  | cons sample14 samples ih =>
      rw [runFrom_cons, ih, iqDest_stepRtl]

theorem idle_init (dut : Fpga.SdrPlCore.State) (sample14 : Nat → BitVec 14) :
    Idle (init host dut sample14) := by
  have hdest : (init host dut sample14).radio.iqDest.valid = false := by
    simp only [init, resetRadio, iqDest_runFrom]
  exact ⟨rfl, by simp [CleanMode, init, text], hdest, rfl, rfl⟩

variable (host) in
theorem matches_run (dut : Fpga.SdrPlCore.State) (sample14 : Nat → BitVec 14) (es : List Event) :
    Matches host (run host dut sample14 es) (owner es) ∧
      List.Forall₂ Answers (linesSeen es)
        (emits (step host) (replies host) (init host dut sample14) es) := by
  induction es using List.reverseRecOn with
  | nil =>
      exact ⟨idle_init dut sample14, List.Forall₂.nil⟩
  | append_singleton es e ih =>
      -- The invariant before the last event carries both parts over it.
      have hstep := matches_step ih.1 e
      rw [run, owner, linesSeen, runFrom_snoc, runFrom_snoc, emits_snoc, emits_snoc]
      exact ⟨hstep.1, List.rel_append ih.2 hstep.2⟩

end Session

/-! ## Every line is answered -/

/-- Over every run the replies are, in order, one for each complete line that the owners have sent,
however their bytes were cut. -/
theorem session_answers (dut : Fpga.SdrPlCore.State) (sample14 : Nat → BitVec 14) (es : List Event) :
    List.Forall₂ Answers (linesSeen es)
      (emits (step host) (replies host) (init host dut sample14) es) :=
  (matches_run host dut sample14 es).2

/-! ## Datagrams go to the owner -/

section Owner

variable {host} {s : CosimServer}

/-- What a step sends goes to an endpoint that is valid then. -/
theorem dest_of_sentTo {e : Event} {out : Output} (hout : out ∈ outputs host s e) {key : String}
    {fallback : Int} {dest : Endpoint} (hsent : out.sentTo = some (key, fallback, dest)) :
    dest.valid = true ∧
      ((key, fallback, dest) = ("iq_port", 9001, s.radio.iqDest) ∨
        (key, fallback, dest) = ("psd_port", 9002, s.psdDest) ∨
          (key, fallback, dest) = ("status_port", 9003, s.statusDest)) := by
  cases e with
  | connect ip =>
      simp only [outputs] at hout
      split_ifs at hout
      · rw [List.mem_singleton.1 hout] at hsent
        cases hsent
      · cases hout
  | recv bytes =>
      simp only [outputs] at hout
      split_ifs at hout
      · rcases exists_of_mem_emits hout with ⟨done, line, _, hreply⟩
        rw [List.mem_singleton.1 hreply] at hsent
        cases hsent
      · cases hout
  | hangup =>
      cases hout
  | rtl sample14 =>
      simp only [outputs, Radio.stepRtlSent] at hout
      split_ifs at hout with hsends
      · rw [List.map_singleton, List.mem_singleton] at hout
        rw [hout] at hsent
        have hdest : (s.radio.clock sample14).iqDest = s.radio.iqDest := rfl
        simp only [Output.sentTo, hdest, Option.some.injEq] at hsent
        rw [← hsent]
        simp only [Radio.sends, Bool.and_eq_true, hdest] at hsends
        obtain ⟨rfl, rfl, rfl⟩ : "iq_port" = key ∧ (9001 : Int) = fallback ∧ s.radio.iqDest = dest := by
          simpa using hsent
        exact ⟨hsends.1.2, Or.inl rfl⟩
      · cases hout
  | timers =>
      simp only [outputs, List.mem_append, statusTimerSent, psdTimerSent] at hout
      rcases hout with hout | hout
      · split_ifs at hout with hdue
        · rw [List.mem_singleton.1 hout] at hsent
          simp only [statusDue, Bool.and_eq_true] at hdue
          obtain ⟨rfl, rfl, rfl⟩ : "status_port" = key ∧ (9003 : Int) = fallback ∧
              s.readClock.statusDest = dest := by
            simpa [Output.sentTo] using hsent
          exact ⟨hdue.1, Or.inr (Or.inr rfl)⟩
        · cases hout
      · split_ifs at hout with hdue
        · rcases List.mem_map.1 hout with ⟨data, _, rfl⟩
          have hsame := (sameSession_readClock s).trans (sameSession_statusTimer s.readClock
            (host.nowMs s.clockReads))
          simp only [psdDue, Bool.and_eq_true, hsame.psdDest] at hdue
          obtain ⟨rfl, rfl, rfl⟩ : "psd_port" = key ∧ (9002 : Int) = fallback ∧ s.psdDest = dest := by
            simpa [Output.sentTo, hsame.psdDest] using hsent
          exact ⟨hdue.1.1, Or.inr (Or.inl rfl)⟩
        · cases hout

end Owner

/-- Every datagram, in every run, goes where the last `hello` of the connection that owns the device
at that moment asked for, and is sent only if there is such a connection and such a `hello`. -/
theorem datagrams_to_owner (dut : Fpga.SdrPlCore.State) (sample14 : Nat → BitVec 14)
    (es : List Event) (e : Event) (out : Output)
    (hout : out ∈ outputs host (run host dut sample14 es) e) (key : String) (fallback : Int)
    (dest : Endpoint) (hsent : out.sentTo = some (key, fallback, dest)) :
    dest.valid = true ∧
      ∃ c line, owner es = some c ∧ lastHello c.lines = some line ∧
        dest = helloDest host c.ip line key fallback := by
  rcases dest_of_sentTo hout hsent with ⟨hvalid, hdest⟩
  have hmatches := (matches_run host dut sample14 es).1
  refine ⟨hvalid, ?_⟩
  cases hc : owner es with
  | none =>
      rw [hc] at hmatches
      have hidle : Idle (run host dut sample14 es) := hmatches
      -- Without an owner no endpoint is valid.
      rcases hdest with h | h | h
      all_goals
        cases h
        simp [hidle.iqDest, hidle.psdDest, hidle.statusDest] at hvalid
  | some c =>
      rw [hc] at hmatches
      have hserving := hmatches.1
      rcases hdest with h | h | h
      · cases h
        rcases hserving.iqDest hvalid with ⟨line, hline, hdest⟩
        exact ⟨c, line, rfl, hline, hdest⟩
      · cases h
        rcases hserving.psdDest hvalid with ⟨line, hline, hdest⟩
        exact ⟨c, line, rfl, hline, hdest⟩
      · cases h
        rcases hserving.statusDest hvalid with ⟨line, hline, hdest⟩
        exact ⟨c, line, rfl, hline, hdest⟩

/-- A clock that gains a second with every reading, and one address that is understood. -/
def loopback : Host where
  freqWordForHz _ := 0
  level _ _ _ := 0
  inetAton ip := if ip = text "127.0.0.1" then some 0x0100007f else none
  nowMs k := BitVec.ofNat 64 (1000 * k)

def helloBytes : List Byte :=
  (text "\x7b\"request_id\":1,\"cmd\":\"hello\"\x7d\n").map fun c => UInt8.ofNat c.toNat

/-- An owner that has said `hello`. -/
def greeted : List Event :=
  [.connect (text "127.0.0.1"), .recv helloBytes]

/-- The status timer then has something to send to. -/
theorem datagrams_to_owner_status :
    ∃ dest payload,
      Output.status dest payload ∈
          outputs loopback (run loopback Fpga.SdrPlCore.resetState (fun _ => 0) greeted) .timers ∧
        dest.valid = true ∧
          ∃ c line, owner greeted = some c ∧ lastHello c.lines = some line ∧
            dest = helloDest loopback c.ip line "status_port" 9003 := by
  obtain ⟨s, hs⟩ : ∃ s, s = run loopback Fpga.SdrPlCore.resetState (fun _ => 0) greeted := ⟨_, rfl⟩
  have hdue : s.readClock.statusDue (loopback.nowMs s.clockReads) = true := by
    rw [hs]
    decide +kernel
  have hmem : ∃ dest payload, Output.status dest payload ∈ outputs loopback s .timers := by
    simp only [outputs, statusTimerSent, if_pos hdue]
    exact ⟨_, _, List.mem_append_left _ (List.mem_singleton.2 rfl)⟩
  obtain ⟨dest, payload, hmem⟩ := hmem
  rw [hs] at hmem
  exact ⟨dest, payload, hmem,
    datagrams_to_owner loopback Fpga.SdrPlCore.resetState (fun _ => 0) greeted .timers _ hmem
      "status_port" 9003 dest rfl⟩

end CosimServer
end Cosim
end Sdr
