import Sdr.Fpga.SdrTop

/-!
# ClearCounts — the status counters are cleared across the clock domains

A write to `CLEAR_COUNTS` raises a pulse of one AXI cycle, `fpga/rtl/util/pulse_sync.v` takes it to the
ADC clock, and `fpga/rtl/top/sdr_top.v` clears two counters of its own and those of the core with it.

The pulse travels as a toggle, and a toggle carries no more than a parity: of the pulses between two
ADC edges an even number is lost (`received_pending`).  `status_cleared` says that no request is: the
AXI handshake keeps them three cycles apart, and in a paced run three cycles contain an ADC edge.
-/

namespace Sdr
namespace Fpga

open Lib

/-! ## The synchroniser -/

namespace PulseSync

structure State where
  srcToggle : Bool
  dstMeta : Bool
  dstSync : Bool
  dstSyncD : Bool

def resetState : State where
  srcToggle := false
  dstMeta := false
  dstSync := false
  dstSyncD := false

def dstPulse (s : State) : Bool :=
  s.dstSync ^^ s.dstSyncD

/-- `always @(posedge src_clk)`. -/
def srcEdge (s : State) (srcRst srcPulse : Bool) : State :=
  if srcRst then { s with srcToggle := false }
  else if srcPulse then { s with srcToggle := !s.srcToggle }
  else s

/-- `always @(posedge dst_clk)`. -/
def dstEdge (s : State) (dstRst : Bool) : State :=
  if dstRst then
    { s with dstMeta := false, dstSync := false, dstSyncD := false }
  else
    { s with dstMeta := s.srcToggle, dstSync := s.dstMeta, dstSyncD := s.dstSync }

/-! ## What a toggle carries -/

/-- A rising edge of one of the clocks, out of reset. -/
inductive Edge
  | src (srcPulse : Bool)
  | dst

def Edge.isPulse : Edge → Bool
  | .src srcPulse => srcPulse
  | .dst => false

def step (s : State) : Edge → State
  | .src srcPulse => srcEdge s false srcPulse
  | .dst => dstEdge s false

/-- `dst_pulse`, as a destination edge finds it. -/
def received (s : State) : Edge → List Bool
  | .src _ => []
  | .dst => [dstPulse s]

/-- What the next two destination edges will find. -/
def pending (s : State) : List Bool :=
  [s.dstSync ^^ s.dstSyncD, s.dstMeta ^^ s.dstSync]

/-- The pulses since the last destination edge. -/
def gather (n : Nat) : Edge → Nat
  | .src srcPulse => n + srcPulse.toNat
  | .dst => 0

/-- The pulses between two destination edges. -/
def group (n : Nat) : Edge → List Nat
  | .src _ => []
  | .dst => [n]

/-- The destination finds the parity of each group, two edges after the group is closed. -/
theorem received_pending (es : List Edge) :
    emits step received resetState es ++ pending (runFrom step resetState es) =
        false :: false :: (emits gather group 0 es).map Nat.bodd ∧
      ((runFrom step resetState es).srcToggle ^^ (runFrom step resetState es).dstMeta) =
        Nat.bodd (runFrom gather 0 es) := by
  induction es using List.reverseRecOn with
  | nil =>
      exact ⟨rfl, rfl⟩
  | append_singleton es e ih =>
      rcases ih with ⟨hreceived, hopen⟩
      rw [emits_snoc, emits_snoc, runFrom_snoc, runFrom_snoc]
      generalize runFrom step resetState es = s at hreceived hopen ⊢
      cases e with
      | src srcPulse =>
          refine ⟨?_, ?_⟩
          · cases srcPulse with
            | false => simpa [received, group, step, srcEdge] using hreceived
            | true => simpa [received, group, step, srcEdge, pending] using hreceived
          · cases srcPulse with
            | false => simpa [step, srcEdge, gather] using hopen
            | true =>
                rw [gather, Bool.toNat_true, Nat.bodd_succ, ← hopen]
                simp [step, srcEdge]
      | dst =>
          refine ⟨?_, by simp [step, dstEdge, gather]⟩
          -- The group that is closed here enters behind the two that are on their way.
          have hshift : received s .dst ++ pending (step s .dst) =
              pending s ++ [Nat.bodd (runFrom gather 0 es)] := by
            rw [← hopen]
            rfl
          rw [List.append_assoc, hshift, ← List.append_assoc, hreceived, group, List.map_append]
          rfl

/-- Every pulse is in a group, or in the one that is still open. -/
theorem sum_groups (es : List Edge) :
    (emits gather group 0 es).sum + runFrom gather 0 es = es.countP Edge.isPulse := by
  induction es using List.reverseRecOn with
  | nil =>
      rfl
  | append_singleton es e ih =>
      rw [emits_snoc, runFrom_snoc, List.countP_append, ← ih, List.sum_append]
      cases e with
      | src srcPulse =>
          cases srcPulse with
          | false => simp [group, gather, Edge.isPulse]
          | true => simp [group, gather, Edge.isPulse, Nat.add_assoc]
      | dst =>
          simp [group, gather, Edge.isPulse]

/-- Where no group has two pulses the destination finds each of them. -/
theorem count_received {es : List Edge} (hone : ∀ n ∈ emits gather group 0 es, n ≤ 1) :
    (emits step received resetState es).count true +
        (pending (runFrom step resetState es)).count true + runFrom gather 0 es =
      es.countP Edge.isPulse := by
  have hcount : ∀ ns : List Nat, (∀ n ∈ ns, n ≤ 1) → (ns.map Nat.bodd).count true = ns.sum := by
    intro ns hns
    induction ns with
    | nil =>
        rfl
    | cons n ns ih =>
        have hn := hns n (by simp)
        rw [List.map_cons, List.count_cons, List.sum_cons, ih (fun m hm => hns m (by simp [hm])),
          Nat.add_comm]
        congr 1
        rcases Nat.le_one_iff_eq_zero_or_eq_one.1 hn with rfl | rfl
        · rfl
        · rfl
  have hlaw := congrArg (List.count true) (received_pending es).1
  rw [List.count_append, List.count_cons_of_ne (by decide), List.count_cons_of_ne (by decide),
    hcount _ hone] at hlaw
  rw [hlaw, sum_groups]

end PulseSync

/-! ## Clear requests -/

namespace AxiLiteSlave

open CsrRegfile

/-- A write that asks for the counters to be cleared. -/
def asksClear (w : Write) : Bool :=
  decide (decode w.addr = some .clearCounts) && w.data.getLsbD 0

/-- The clear request that fires in this cycle. -/
def clearWrite (s : State) : Bool :=
  wrFire s && asksClear (held s)

theorem step_clearCounts (s : State) (p : Ports) :
    (step s false p).csr.clearCounts = clearWrite s := by
  have hcsr : (step s false p).csr = CsrRegfile.step s.csr false (wrFire s) (held s) := rfl
  rw [hcsr, clearWrite]
  unfold CsrRegfile.step asksClear
  cases wrFire s with
  | false =>
      rfl
  | true =>
      cases hdecode : decode (held s).addr with
      | none =>
          simp
      | some reg =>
          cases reg
          all_goals simp

/-- The pulse of a request is seen in the cycle after the fire, while the response is pending. -/
def ClearPulsed (s : State) : Prop :=
  s.csr.clearCounts = true → Idle s ∧ s.bvalid = true

theorem step_clearPulsed (s : State) (p : Ports) : ClearPulsed (step s false p) := by
  intro h
  rw [step_clearCounts, clearWrite, Bool.and_eq_true] at h
  simp [Idle, step, h.1]

theorem step_clear_after_idle {s : State} (p : Ports) (hidle : Idle s) :
    (step s false p).csr.clearCounts = false := by
  rw [step_clearCounts, clearWrite, wrFire_eq_false_of_idle hidle]
  rfl

/-- `age` cycles have passed since the last clear request was seen, the one right after it included. -/
structure ClearAged (age : Nat) (s : State) : Prop where
  pos : 1 ≤ age
  one : age = 1 → Idle s ∧ s.csr.clearCounts = false
  two : age = 2 → s.csr.clearCounts = false

theorem ClearPulsed.aged_one {s : State} (h : ClearPulsed s) (hc : s.csr.clearCounts = true)
    (p : Ports) : ClearAged 1 (step s false p) where
  pos := Nat.le_refl 1
  one := by
    intro _
    rcases h hc with ⟨hidle, hb⟩
    exact ⟨step_after_fire p hidle hb, step_clear_after_idle p hidle⟩
  two := by
    intro h2
    cases h2

theorem ClearAged.succ {age : Nat} {s : State} (h : ClearAged age s) (p : Ports) :
    ClearAged (age + 1) (step s false p) where
  pos := by omega
  one := by
    intro h1
    have := h.pos
    omega
  two := by
    intro h2
    exact step_clear_after_idle p (h.one (by omega)).1

/-- The handshake: clear requests are at least three cycles apart. -/
theorem ClearAged.three_le {age : Nat} {s : State} (h : ClearAged age s)
    (hc : s.csr.clearCounts = true) : 3 ≤ age := by
  have hpos := h.pos
  have hone : age ≠ 1 := by
    intro h1
    simp [(h.one h1).2] at hc
  have htwo : age ≠ 2 := by
    intro h2
    simp [h.two h2] at hc
  omega

end AxiLiteSlave

/-! ## The top level with the synchroniser -/

namespace ClearCounts

open AxiLiteSlave (ClearPulsed ClearAged clearWrite)
open ConfigCrossing (AxiTail NoReset Paced)

structure State where
  top : SdrTop.State
  clear : PulseSync.State
  adcDvalidCount : BitVec 32
  adcCfgUpdateCount : BitVec 32

def resetState : State where
  top := SdrTop.resetState
  clear := PulseSync.resetState
  adcDvalidCount := 0
  adcCfgUpdateCount := 0

def clearCountsAdc (s : State) : Bool :=
  PulseSync.dstPulse s.clear

/-- The request as the synchroniser is given it. -/
def clearStatusCounts (s : State) : Bool :=
  s.top.ctrl.axi.csr.clearCounts

/-- One of the two counters: a clear goes before an event. -/
def counted (rst clear event : Bool) (count : BitVec 32) : BitVec 32 :=
  if rst then 0
  else if clear then 0
  else if event then count + 1
  else count

/-- `clear_counts_adc` drives the signal path, whatever the port says. -/
def step (s : State) : SdrTop.Edge → State
  | .axi rst ports =>
      { s with
        top := SdrTop.step s.top (.axi rst ports)
        clear := PulseSync.srcEdge s.clear rst (clearStatusCounts s) }
  | .adc rst ports =>
      { top := SdrTop.step s.top (.adc rst { ports with clearCountsAdc := clearCountsAdc s })
        clear := PulseSync.dstEdge s.clear rst
        adcDvalidCount := counted rst (clearCountsAdc s) ports.adcSampleValid s.adcDvalidCount
        adcCfgUpdateCount :=
          counted rst (clearCountsAdc s) (ConfigSync.dstUpdate s.top.ctrl.sync)
            s.adcCfgUpdateCount }

def run (es : List SdrTop.Edge) : State :=
  runFrom step resetState es

/-- The part of an edge that the control side sees. -/
def control : SdrTop.Edge → ConfigCrossing.Edge
  | .axi rst ports => .axi rst ports
  | .adc rst _ => .adc rst

/-- The part of an edge that the synchroniser sees. -/
def pulseEdge (s : State) : SdrTop.Edge → List PulseSync.Edge
  | .axi _ _ => [.src (clearStatusCounts s)]
  | .adc _ _ => [.dst]

def pulseEdges (es : List SdrTop.Edge) : List PulseSync.Edge :=
  emits step pulseEdge resetState es

/-- What the counters and the core see of an ADC edge. -/
structure Cycle where
  clear : Bool
  sampleValid : Bool
  cfgUpdate : Bool
  deriving DecidableEq

def cycle (s : State) : SdrTop.Edge → List Cycle
  | .axi _ _ => []
  | .adc _ ports =>
      [{ clear := clearCountsAdc s
         sampleValid := ports.adcSampleValid
         cfgUpdate := ConfigSync.dstUpdate s.top.ctrl.sync }]

def cycles (es : List SdrTop.Edge) : List Cycle :=
  emits step cycle resetState es

/-- The clear requests that software has made. -/
def request (s : State) : SdrTop.Edge → List Unit
  | .axi _ _ => if clearWrite s.top.ctrl.axi then [()] else []
  | .adc _ _ => []

def requests (es : List SdrTop.Edge) : Nat :=
  (emits step request resetState es).length

/-- The requests on their way: seen by the register file, by the toggle, by the flops. -/
def underway (es : List SdrTop.Edge) : Nat :=
  (clearStatusCounts (run es)).toNat + runFrom PulseSync.gather 0 (pulseEdges es) +
    (PulseSync.pending (run es).clear).count true

/-- The ADC edges after the last clear. -/
def sinceClear (cs : List Cycle) : List Cycle :=
  cs.reverse.takeWhile fun c => !c.clear

section Run

variable {es : List SdrTop.Edge} {e : SdrTop.Edge}

theorem NoReset.split (h : NoReset ((es ++ [e]).map control)) :
    NoReset (es.map control) ∧ (control e).rst = false := by
  rw [List.map_append] at h
  exact h.of_snoc

/-- The synchroniser runs through its own edges. -/
theorem clear_run (hreset : NoReset (es.map control)) :
    (run es).clear = runFrom PulseSync.step PulseSync.resetState (pulseEdges es) ∧
      (cycles es).map Cycle.clear =
        emits PulseSync.step PulseSync.received PulseSync.resetState (pulseEdges es) := by
  induction es using List.reverseRecOn with
  | nil =>
      exact ⟨rfl, rfl⟩
  | append_singleton es e ih =>
      rcases NoReset.split hreset with ⟨hbefore, hrst⟩
      rcases ih hbefore with ⟨hclear, hcycles⟩
      have hrun : run (es ++ [e]) = step (run es) e := runFrom_snoc _ _ _ _
      have hedges : pulseEdges (es ++ [e]) = pulseEdges es ++ pulseEdge (run es) e :=
        emits_snoc _ _ _ _ _
      have hmore : cycles (es ++ [e]) = cycles es ++ cycle (run es) e := emits_snoc _ _ _ _ _
      rw [hrun, hedges, hmore, runFrom_append, emits_append, List.map_append, hcycles, ← hclear]
      cases e with
      | axi rst ports =>
          have hrst : rst = false := hrst
          rw [hrst]
          exact ⟨rfl, rfl⟩
      | adc rst ports =>
          have hrst : rst = false := hrst
          rw [hrst]
          exact ⟨rfl, rfl⟩

/-- Every request is a pulse one AXI cycle later. -/
theorem requests_eq (hreset : NoReset (es.map control)) :
    requests es = (pulseEdges es).countP PulseSync.Edge.isPulse +
      (clearStatusCounts (run es)).toNat := by
  induction es using List.reverseRecOn with
  | nil =>
      rfl
  | append_singleton es e ih =>
      rcases NoReset.split hreset with ⟨hbefore, hrst⟩
      have hrun : run (es ++ [e]) = step (run es) e := runFrom_snoc _ _ _ _
      have hedges : pulseEdges (es ++ [e]) = pulseEdges es ++ pulseEdge (run es) e :=
        emits_snoc _ _ _ _ _
      have hmore : requests (es ++ [e]) = requests es + (request (run es) e).length := by
        rw [requests, requests, emits_snoc, List.length_append]
        rfl
      rw [hmore, hedges, hrun, List.countP_append, ih hbefore]
      cases e with
      | axi rst ports =>
          have hrst : rst = false := hrst
          have hnext : clearStatusCounts (step (run es) (.axi rst ports)) =
              clearWrite (run es).top.ctrl.axi := by
            rw [hrst]
            exact AxiLiteSlave.step_clearCounts _ ports
          rw [hnext, request, pulseEdge]
          cases clearStatusCounts (run es)
          all_goals
            cases clearWrite (run es).top.ctrl.axi
            all_goals simp [PulseSync.Edge.isPulse]
      | adc rst ports =>
          rfl

/-- The AXI edges since the last ADC edge, and the request that may have come in them. -/
structure Waiting (es : List SdrTop.Edge) : Prop where
  pulsed : ClearPulsed (run es).top.ctrl.axi
  groups : ∀ n ∈ emits PulseSync.gather PulseSync.group 0 (pulseEdges es), n ≤ 1
  tail : ∃ tail, AxiTail tail (es.map control) ∧
    (runFrom PulseSync.gather 0 (pulseEdges es) = 0 ∨
      runFrom PulseSync.gather 0 (pulseEdges es) = 1 ∧
        ∃ age, age ≤ tail.length ∧ ClearAged age (run es).top.ctrl.axi)

theorem waiting_run (hreset : NoReset (es.map control)) (hpaced : Paced (es.map control)) :
    Waiting es := by
  induction es using List.reverseRecOn with
  | nil =>
      exact ⟨(fun h => by cases h), (fun n hn => by cases hn),
        [], ⟨List.nil_suffix, (fun e he => by cases he)⟩, Or.inl rfl⟩
  | append_singleton es e ih =>
      rcases NoReset.split hreset with ⟨hbefore, hrst⟩
      have hpacedBefore : Paced (es.map control) := by
        rw [List.map_append] at hpaced
        exact hpaced.of_snoc
      rcases ih hbefore hpacedBefore with ⟨hpulsed, hgroups, tail, htail, hopen⟩
      have hrun : run (es ++ [e]) = step (run es) e := runFrom_snoc _ _ _ _
      have hedges : pulseEdges (es ++ [e]) = pulseEdges es ++ pulseEdge (run es) e :=
        emits_snoc _ _ _ _ _
      cases e with
      | axi rst ports =>
          have hrst : rst = false := hrst
          subst hrst
          have haxi : (run (es ++ [.axi false ports])).top.ctrl.axi =
              AxiLiteSlave.step (run es).top.ctrl.axi false ports := by
            rw [hrun]
            rfl
          have htail' : AxiTail (tail ++ [.axi false ports])
              ((es ++ [SdrTop.Edge.axi false ports]).map control) := by
            rw [List.map_append]
            exact htail.snoc false ports
          have hopen' : runFrom PulseSync.gather 0 (pulseEdges (es ++ [.axi false ports])) =
              runFrom PulseSync.gather 0 (pulseEdges es) +
                (clearStatusCounts (run es)).toNat := by
            rw [hedges, runFrom_append]
            rfl
          refine ⟨?_, ?_, tail ++ [.axi false ports], htail', ?_⟩
          · rw [haxi]
            exact AxiLiteSlave.step_clearPulsed _ ports
          · rw [hedges, emits_append]
            exact (List.append_nil _).symm ▸ hgroups
          · rw [hopen', haxi, List.length_append, List.length_singleton]
            cases hc : clearStatusCounts (run es) with
            | false =>
                rcases hopen with hzero | ⟨hone, age, hage, haged⟩
                · exact Or.inl hzero
                · exact Or.inr ⟨hone, age + 1, by omega, haged.succ ports⟩
            | true =>
                rcases hopen with hzero | ⟨hone, age, hage, haged⟩
                · exact Or.inr ⟨by rw [hzero]; rfl, 1, by omega, hpulsed.aged_one hc ports⟩
                · -- A second request would come with the fourth AXI edge in a row.
                  have hthree := haged.three_le hc
                  have hfour := hpaced.length_le htail'
                  rw [List.length_append, List.length_singleton] at hfour
                  omega
      | adc rst ports =>
          have hrst : rst = false := hrst
          subst hrst
          have haxi : (run (es ++ [.adc false ports])).top.ctrl.axi = (run es).top.ctrl.axi := by
            rw [hrun]
            rfl
          have hopen' : runFrom PulseSync.gather 0 (pulseEdges (es ++ [.adc false ports])) = 0 := by
            rw [hedges, runFrom_append]
            rfl
          refine ⟨?_, ?_, [], ⟨List.nil_suffix, (fun e he => by cases he)⟩, Or.inl hopen'⟩
          · rw [haxi]
            exact hpulsed
          · -- The group that this edge closes.
            intro n hn
            rw [hedges, emits_append] at hn
            rcases List.mem_append.1 hn with hn | hn
            · exact hgroups n hn
            · rw [List.mem_singleton.1 hn]
              rcases hopen with hzero | ⟨hone, _⟩
              · omega
              · omega

theorem sinceClear_snoc (cs : List Cycle) (c : Cycle) :
    sinceClear (cs ++ [c]) = if c.clear then [] else c :: sinceClear cs := by
  rw [sinceClear, List.reverse_append]
  cases h : c.clear with
  | false => simp [sinceClear, h]
  | true => simp [h]

/-- A counter has counted the events since the last clear. -/
theorem counted_sinceClear (event : Cycle → Bool) (cs : List Cycle) (c : Cycle) :
    counted false c.clear (event c) (BitVec.ofNat 32 ((sinceClear cs).countP event)) =
      BitVec.ofNat 32 ((sinceClear (cs ++ [c])).countP event) := by
  rw [sinceClear_snoc]
  cases hclear : c.clear with
  | true =>
      rfl
  | false =>
      cases hevent : event c with
      | false => simp [counted, hevent]
      | true => simp [counted, hevent, BitVec.ofNat_add]

theorem counters_run (hreset : NoReset (es.map control)) :
    (run es).adcDvalidCount =
        BitVec.ofNat 32 ((sinceClear (cycles es)).countP Cycle.sampleValid) ∧
      (run es).adcCfgUpdateCount =
        BitVec.ofNat 32 ((sinceClear (cycles es)).countP Cycle.cfgUpdate) := by
  induction es using List.reverseRecOn with
  | nil =>
      exact ⟨rfl, rfl⟩
  | append_singleton es e ih =>
      rcases NoReset.split hreset with ⟨hbefore, hrst⟩
      rcases ih hbefore with ⟨hvalid, hupdate⟩
      have hrun : run (es ++ [e]) = step (run es) e := runFrom_snoc _ _ _ _
      have hmore : cycles (es ++ [e]) = cycles es ++ cycle (run es) e := emits_snoc _ _ _ _ _
      rw [hrun, hmore]
      cases e with
      | axi rst ports =>
          rw [cycle, List.append_nil]
          exact ⟨hvalid, hupdate⟩
      | adc rst ports =>
          have hrst : rst = false := hrst
          subst hrst
          rw [cycle, ← counted_sinceClear, ← counted_sinceClear, ← hvalid, ← hupdate]
          exact ⟨rfl, rfl⟩

end Run

/-- In a paced run no clear request is lost or doubled: each is found by one ADC edge, the second after
the one that samples it, or is still underway.  The two counters of the top level have counted what
happened since the last clear. -/
theorem status_cleared (es : List SdrTop.Edge) (hreset : NoReset (es.map control))
    (hpaced : Paced (es.map control)) :
    requests es = ((cycles es).map Cycle.clear).count true + underway es ∧
      ((cycles es).map Cycle.clear ++ PulseSync.pending (run es).clear =
          false :: false ::
            (emits PulseSync.gather PulseSync.group 0 (pulseEdges es)).map Nat.bodd ∧
        ∀ n ∈ emits PulseSync.gather PulseSync.group 0 (pulseEdges es), n ≤ 1) ∧
      (run es).adcDvalidCount =
          BitVec.ofNat 32 ((sinceClear (cycles es)).countP Cycle.sampleValid) ∧
        (run es).adcCfgUpdateCount =
          BitVec.ofNat 32 ((sinceClear (cycles es)).countP Cycle.cfgUpdate) := by
  have hgroups := (waiting_run hreset hpaced).groups
  rcases clear_run hreset with ⟨hclear, hcycles⟩
  refine ⟨?_, ⟨?_, hgroups⟩, counters_run hreset⟩
  · have hcount := PulseSync.count_received hgroups
    rw [requests_eq hreset, underway, hcycles, hclear, ← hcount]
    omega
  · rw [hcycles, hclear]
    exact (PulseSync.received_pending (pulseEdges es)).1

/-- The counters are cleared once, and one sample later they stand at one. -/
def clearing : List SdrTop.Edge :=
  let adc : SdrTop.Edge := .adc false
    { adcCh0Sample14 := 0, adcCh1Sample14 := 0, adcSampleValid := true, clearCountsAdc := false
      iqAdcTready := true }
  [.axi false (ConfigCrossing.writePorts .clearCounts 1), .axi false ConfigCrossing.idlePorts, adc,
    .axi false ConfigCrossing.idlePorts, adc, adc, adc, adc]

theorem status_cleared_clearing :
    requests clearing = 1 ∧ ((cycles clearing).map Cycle.clear).count true = 1 ∧
      (run clearing).adcDvalidCount = 1 := by
  have hreset : NoReset (clearing.map control) := by decide +kernel
  have hpaced : Paced (clearing.map control) := by decide +kernel
  have hall := status_cleared clearing hreset hpaced
  have hrequests : requests clearing = 1 := by decide +kernel
  have hunderway : underway clearing = 0 := by decide +kernel
  refine ⟨hrequests, by omega, ?_⟩
  rw [hall.2.2.1]
  decide +kernel

end ClearCounts

end Fpga
end Sdr
