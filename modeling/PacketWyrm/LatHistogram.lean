import PacketWyrm.Lib.Clocked
import PacketWyrm.Lib.Counting
import PacketWyrm.Lib.RoundRobin
import Mathlib.Data.Nat.Log
import PacketWyrm.Types

/-!
# The latency histogram

`pw_lat_histogram`, clock by clock.  Each source has one holder for an event; an engine
takes the held events in turn and counts each one in two cycles, a read of its counter and
a write.  A clear walks over all counters, and the events that arrive meanwhile are
dropped.

## Main definitions

* `LatHistogram` — the registers, `LatHistogram.step` — one clock edge.
* `HistSpec` — the purpose: the events accepted since the last clear.
* `HistSpaced` — the events of one source are apart.

## Main results

* `histTracks_step` — one edge keeps the counters and the events together.
* `histogram_counts_events` — the drained counters are the numbers of events.
-/

namespace PacketWyrm

open Lib

/-! ## The circuit -/

/-- An event: the flow and the bucket. -/
structure HistEvent where
  flow : BitVec 16
  bucket : BitVec 16
  deriving DecidableEq, Repr

/-- The inputs of a cycle; source `s` has an event when its `ev_valid_i` is set. -/
structure HistIn where
  clear : Bool := false
  ev : ℕ → Option HistEvent := fun _ => none
  rdAddr : ℕ := 0

/-- `state_e`. -/
inductive HistState where
  | clear
  | read
  | write
  deriving DecidableEq, Repr

/-- The registers and the memory. -/
structure LatHistogram where
  mem : ℕ → BitVec 64
  doutA : BitVec 64
  doutB : BitVec 64
  hv : ℕ → Bool
  ha : ℕ → ℕ
  rr : ℕ
  state : HistState
  clrAddr : ℕ
  engAddr : ℕ

/-- The sizes: flows, buckets and event sources. -/
structure HistParams where
  numFlows : ℕ
  numBuckets : ℕ
  nEv : ℕ
  numFlows_pos : 0 < numFlows
  numBuckets_pos : 0 < numBuckets
  nEv_pos : 0 < nEv

namespace HistParams

variable (P : HistParams)

/-- `DEPTH`. -/
def depth : ℕ := P.numFlows * P.numBuckets

/-- `AW`. -/
def aw : ℕ := if P.depth ≤ 1 then 1 else Nat.clog 2 P.depth

/-- The flat address of an event. -/
def evFlat (e : HistEvent) : ℕ := (e.flow.toNat * P.numBuckets + e.bucket.toNat) % 2 ^ P.aw

end HistParams

namespace LatHistogram

variable (P : HistParams) (s : LatHistogram)

/-- The round robin pick among the pending sources. -/
def sel : Option ℕ := rrPick P.nEv s.rr s.hv

/-- `sel_addr`. -/
def selAddr : ℕ := s.ha ((s.sel P).getD 0)

/-- `addrA`. -/
def addrA : ℕ :=
  match s.state with
  | .clear => s.clrAddr
  | .read => s.selAddr P
  | .write => s.engAddr

/-- The write of port A, if there is one. -/
def dinA : Option (BitVec 64) :=
  match s.state with
  | .clear => some 0
  | .read => none
  | .write => some (s.doutA + 1)

/-- The memory after the edge. -/
def nextMem : ℕ → BitVec 64 :=
  match s.dinA with
  | some d => Function.update s.mem (s.addrA P) d
  | none => s.mem

/-- The source is taken by the engine. -/
def consume (src : ℕ) : Bool := decide (s.state = .read) && decide (s.sel P = some src)

/-- The holder of a source after the edge: whether it is full, and the address. -/
def nextHolder (i : HistIn) (src : ℕ) : Bool × ℕ :=
  if s.state = .clear then (false, s.ha src)
  else
    match i.ev src with
    | some e => (true, P.evFlat e)
    | none => (if s.consume P src then false else s.hv src, s.ha src)

/-- The engine after the edge. -/
def nextEngine (i : HistIn) : HistState × ℕ × ℕ × ℕ :=
  if i.clear && decide (s.state ≠ .clear) then (.clear, 0, s.engAddr, s.rr)
  else
    match s.state with
    | .clear =>
      if s.clrAddr = P.depth - 1 then (.read, 0, s.engAddr, s.rr)
      else (.clear, s.clrAddr + 1, s.engAddr, s.rr)
    | .read =>
      match s.sel P with
      | some src => (.write, s.clrAddr, s.selAddr P, (src + 1) % P.nEv)
      | none => (.read, s.clrAddr, s.engAddr, s.rr)
    | .write => (.read, s.clrAddr, s.engAddr, s.rr)

/-- One clock edge. -/
def step (i : HistIn) : LatHistogram :=
  { mem := s.nextMem P
    doutA := s.mem (s.addrA P)
    doutB := s.mem i.rdAddr
    hv := fun src => (s.nextHolder P i src).1
    ha := fun src => (s.nextHolder P i src).2
    state := (s.nextEngine P i).1
    clrAddr := (s.nextEngine P i).2.1
    engAddr := (s.nextEngine P i).2.2.1
    rr := (s.nextEngine P i).2.2.2 }

/-- The registers that a reset settles. -/
structure Reset (s : LatHistogram) : Prop where
  state : s.state = .clear
  clrAddr : s.clrAddr = 0
  rr : s.rr = 0

/-- No event is held or counted, and no walk goes on. -/
def Drained (s : LatHistogram) : Prop := s.state = .read ∧ ∀ src < P.nEv, s.hv src = false

end LatHistogram

/-! ## The purpose -/

/-- How long the walk still takes, and the events accepted since the last clear. -/
structure HistSpec where
  sweep : ℕ
  events : List HistEvent

/-- One cycle: a walk drops the events, a clear starts a walk and forgets the events
before it. -/
def HistSpec.step (P : HistParams) (a : HistSpec) (i : HistIn) : HistSpec :=
  if a.sweep ≠ 0 then { sweep := a.sweep - 1, events := [] }
  else if i.clear then { sweep := P.depth, events := [] }
  else { a with events := a.events ++ (List.range P.nEv).filterMap i.ev }

/-- The events accepted since the last clear, after a reset and these cycles. -/
def acceptedEvents (P : HistParams) (ins : List HistIn) : List HistEvent :=
  (run (HistSpec.step P) { sweep := P.depth, events := [] } ins).events

/-- An event may come when the last one of its source was at least two cycles for each
source ago, with a flow and a bucket that exist. -/
def HistAllowed (P : HistParams) (gap : ℕ → ℕ) (i : HistIn) : Prop :=
  ∀ src < P.nEv, ∀ e ∈ i.ev src,
    2 * P.nEv ≤ gap src ∧ e.flow.toNat < P.numFlows ∧ e.bucket.toNat < P.numBuckets

instance (P : HistParams) (gap : ℕ → ℕ) (i : HistIn) : Decidable (HistAllowed P gap i) :=
  inferInstanceAs (Decidable (∀ src < P.nEv, ∀ e ∈ i.ev src,
    2 * P.nEv ≤ gap src ∧ e.flow.toNat < P.numFlows ∧ e.bucket.toNat < P.numBuckets))

/-- The cycles since the last event of each source. -/
def histGap (gap : ℕ → ℕ) (i : HistIn) (src : ℕ) : ℕ :=
  if (i.ev src).isSome then 1 else gap src + 1

/-- **The events of one source are apart.**  The engine takes two cycles for an event, so
a source waits for at most two cycles for each source. -/
def HistSpaced (P : HistParams) (ins : List HistIn) : Prop :=
  Follows (HistAllowed P) histGap (fun _ => 2 * P.nEv) ins

/-! ## Refinement -/

/-- The address of a flow and a bucket. -/
theorem HistParams.cell_lt (P : HistParams) {f b : ℕ} (hf : f < P.numFlows)
    (hb : b < P.numBuckets) : f * P.numBuckets + b < P.depth := by
  have hmul : (f + 1) * P.numBuckets ≤ P.numFlows * P.numBuckets := Nat.mul_le_mul_right _ hf
  rw [Nat.add_mul, Nat.one_mul] at hmul
  rw [depth]
  omega

theorem HistParams.cell_inj (P : HistParams) {f g b c : ℕ} (hb : b < P.numBuckets)
    (hc : c < P.numBuckets) :
    f * P.numBuckets + b = g * P.numBuckets + c ↔ f = g ∧ b = c := by
  constructor
  · intro h
    have hdiv := congrArg (· / P.numBuckets) h
    simp only [Nat.add_comm _ b, Nat.add_comm _ c, Nat.add_mul_div_right _ _ P.numBuckets_pos,
      Nat.div_eq_of_lt hb, Nat.div_eq_of_lt hc, Nat.zero_add] at hdiv
    subst hdiv
    exact ⟨rfl, by omega⟩
  · rintro ⟨rfl, rfl⟩
    rfl

/-- The address of an event. -/
theorem HistParams.evFlat_eq (P : HistParams) {e : HistEvent} (hf : e.flow.toNat < P.numFlows)
    (hb : e.bucket.toNat < P.numBuckets) :
    P.evFlat e = e.flow.toNat * P.numBuckets + e.bucket.toNat := by
  have hlt := P.cell_lt hf hb
  have hpow : P.depth ≤ 2 ^ P.aw := by
    rw [aw]
    split_ifs with h
    · omega
    · exact Nat.le_pow_clog (by decide) _
  exact Nat.mod_eq_of_lt (hlt.trans_le hpow)

namespace LatHistogram

variable (P : HistParams) (s : LatHistogram) (x : ℕ)

/-- The held events for a counter. -/
def held : ℕ := (List.range P.nEv).countP fun src => s.hv src && decide (s.ha src = x)

/-- The event that the engine has read the counter for. -/
def inEngine : ℕ := (decide (s.state = .write) && decide (s.engAddr = x)).toNat

/-- The event that the engine takes in this cycle. -/
def taken : ℕ := (List.range P.nEv).countP fun src => s.consume P src && decide (s.ha src = x)

end LatHistogram

/-- The events of a cycle for a counter. -/
def HistIn.arriving (P : HistParams) (i : HistIn) (x : ℕ) : ℕ :=
  (List.range P.nEv).countP fun src => (i.ev src).any fun e => decide (P.evFlat e = x)

/-- The counters, the events that are not counted yet, and how long these still wait. -/
structure HistLive (P : HistParams) (gap : ℕ → ℕ) (s : LatHistogram) (a : HistSpec) : Prop where
  sweep : a.sweep = 0
  state : s.state ≠ .clear
  rr : s.rr < P.nEv
  wait : ∀ src < P.nEv, s.hv src = true →
    gap src + 2 * rrDist P.nEv s.rr src + (decide (s.state = .write)).toNat ≤ 2 * P.nEv
  dout : s.state = .write → s.doutA = s.mem s.engAddr
  mem : ∀ x < P.depth, s.mem x + BitVec.ofNat 64 (s.held P x + s.inEngine x) =
    BitVec.ofNat 64 (a.events.countP fun e => decide (P.evFlat e = x))
  known : ∀ e ∈ a.events, e.flow.toNat < P.numFlows ∧ e.bucket.toNat < P.numBuckets

/-- A walk that has cleared the counters below its address. -/
structure HistSweeping (P : HistParams) (s : LatHistogram) (a : HistSpec) : Prop where
  state : s.state = .clear
  rr : s.rr < P.nEv
  sweep : s.clrAddr + a.sweep = P.depth
  sweep_pos : 0 < a.sweep
  events : a.events = []
  mem : ∀ x < s.clrAddr, s.mem x = 0

/-- **How the counters and the events belong together.** -/
def HistTracks (P : HistParams) (gap : ℕ → ℕ) (s : LatHistogram) (a : HistSpec) : Prop :=
  HistSweeping P s a ∨ HistLive P gap s a

section Refine

variable {P : HistParams} {gap : ℕ → ℕ} {s : LatHistogram} {a : HistSpec} {i : HistIn}

theorem HistParams.depth_pos (P : HistParams) : 0 < P.depth :=
  Nat.mul_pos P.numFlows_pos P.numBuckets_pos

/-- Only a held event is taken. -/
theorem hv_of_consume (hrr : s.rr < P.nEv) {src : ℕ} (h : s.consume P src = true) :
    s.hv src = true := by
  rw [LatHistogram.consume, Bool.and_eq_true, decide_eq_true_eq, decide_eq_true_eq] at h
  exact (rrPick_eq_some hrr h.2).2.1

/-- **A holder is free when the next event of its source comes**, or is emptied just then. -/
theorem HistLive.consume_of_ev (h : HistLive P gap s a) (hi : HistAllowed P gap i) {src : ℕ}
    (hsrc : src < P.nEv) {e : HistEvent} (he : i.ev src = some e) (hv : s.hv src = true) :
    s.consume P src = true := by
  have hgap := (hi src hsrc e he).1
  have hwait := h.wait src hsrc hv
  have hpos := P.nEv_pos
  have hdist : rrDist P.nEv s.rr src = 0 := by omega
  have hread : s.state = .read := by
    cases hs : s.state with
    | clear => exact absurd hs h.state
    | read => rfl
    | write =>
      simp only [hs, decide_true, Bool.toNat_true] at hwait
      omega
  have hsel : s.sel P = some src := by
    cases hp : s.sel P with
    | none =>
      rw [rrPick_eq_none h.rr hp hsrc] at hv
      cases hv
    | some t =>
      obtain ⟨htn, -, hnear⟩ := rrPick_eq_some h.rr hp
      have ht : rrDist P.nEv s.rr t = 0 := by
        have := hnear src hsrc hv
        omega
      rw [← add_rrDist_mod h.rr hsrc, ← add_rrDist_mod h.rr htn, hdist, ht]
  rw [LatHistogram.consume, hread, hsel]
  simp

/-- **No event is lost**: what is held after the edge, with what the engine takes, is what
was held and what arrives. -/
theorem HistLive.held_step (h : HistLive P gap s a) (hi : HistAllowed P gap i) (x : ℕ) :
    (s.step P i).held P x + s.taken P x = s.held P x + i.arriving P x := by
  apply countP_add_countP
  intro src hsrc
  rw [List.mem_range] at hsrc
  simp only [LatHistogram.step, LatHistogram.nextHolder, if_neg h.state]
  cases he : i.ev src with
  | none =>
    cases hc : s.consume P src with
    | false => simp
    | true => simp [hv_of_consume h.rr hc]
  | some e =>
    cases hv : s.hv src with
    | false =>
      have hc : s.consume P src = false := by
        by_contra hne
        rw [hv_of_consume h.rr (by simpa using hne)] at hv
        cases hv
      simp [hc]
    | true => simp [h.consume_of_ev hi hsrc he hv, Nat.add_comm]

/-- The engine takes the event it picks. -/
theorem taken_of_sel (hrr : s.rr < P.nEv) (hread : s.state = .read) {src : ℕ}
    (hsel : s.sel P = some src) (x : ℕ) : s.taken P x = (decide (s.ha src = x)).toNat := by
  have hsrc : src < P.nEv := (rrPick_eq_some hrr hsel).1
  rw [LatHistogram.taken, ← countP_range_eq hsrc]
  apply List.countP_congr
  intro t _
  by_cases ht : t = src
  · simp [LatHistogram.consume, hread, hsel, ht]
  · simp [LatHistogram.consume, hread, hsel, ht, Ne.symm ht]

theorem taken_eq_zero (h : ∀ src, s.consume P src = false) (x : ℕ) : s.taken P x = 0 := by
  simp [LatHistogram.taken, h]

/-- The accepted events of a counter after one more cycle. -/
theorem countP_events_step (hsweep : a.sweep = 0) (hclear : i.clear = false) (x : ℕ) :
    (a.step P i).events.countP (fun e => decide (P.evFlat e = x)) =
      a.events.countP (fun e => decide (P.evFlat e = x)) + i.arriving P x := by
  rw [HistSpec.step, if_neg (by simp [hsweep]), if_neg (by simp [hclear]), List.countP_append,
    List.countP_filterMap, HistIn.arriving]
  congr 1
  apply List.countP_congr
  intro src _
  cases i.ev src <;> simp

/-- A held event comes nearer to the engine. -/
theorem HistLive.wait_step (h : HistLive P gap s a) (hclear : i.clear = false) {src : ℕ}
    (hsrc : src < P.nEv) (hv : (s.step P i).hv src = true) :
    histGap gap i src + 2 * rrDist P.nEv (s.step P i).rr src +
      (decide ((s.step P i).state = .write)).toNat ≤ 2 * P.nEv := by
  have hbool := Bool.toNat_le (decide ((s.step P i).state = .write))
  have hpos := P.nEv_pos
  cases he : i.ev src with
  | some e =>
    have hdist : rrDist P.nEv (s.step P i).rr src < P.nEv := rrDist_lt hsrc
    simp only [histGap, he, Option.isSome_some, if_true]
    omega
  | none =>
    simp only [LatHistogram.step, LatHistogram.nextHolder, if_neg h.state, he] at hv
    have hnc : s.consume P src = false := by
      cases hc : s.consume P src with
      | false => rfl
      | true => simp [hc] at hv
    have hheld : s.hv src = true := by simpa [hnc] using hv
    have hwait := h.wait src hsrc hheld
    have hgap : histGap gap i src = gap src + 1 := by simp [histGap, he]
    rw [hgap]
    cases hs : s.state with
    | clear => exact absurd hs h.state
    | read =>
      cases hp : s.sel P with
      | none =>
        rw [rrPick_eq_none h.rr hp hsrc] at hheld
        cases hheld
      | some t =>
        obtain ⟨htn, -, hnear⟩ := rrPick_eq_some h.rr hp
        have hne : src ≠ t := by
          intro heq
          simp [LatHistogram.consume, hs, hp, heq] at hnc
        have hnext := rrDist_next htn hsrc hne h.rr (hnear src hsrc hheld)
        have hrr' : (s.step P i).rr = (t + 1) % P.nEv := by
          simp [LatHistogram.step, LatHistogram.nextEngine, hclear, hs, hp]
        rw [hrr']
        omega
    | write =>
      have hrr' : (s.step P i).rr = s.rr := by
        simp [LatHistogram.step, LatHistogram.nextEngine, hclear, hs]
      have hst : (s.step P i).state = .read := by
        simp [LatHistogram.step, LatHistogram.nextEngine, hclear, hs]
      simp only [hs, decide_true, Bool.toNat_true] at hwait
      rw [hrr', hst]
      simp only [reduceCtorEq, decide_false, Bool.toNat_false]
      omega

/-- The counters after an edge without a walk: the event in the engine is counted. -/
theorem HistLive.mem_step (h : HistLive P gap s a) (x : ℕ) :
    (s.step P i).mem x = s.mem x + BitVec.ofNat 64 (s.inEngine x) := by
  simp only [LatHistogram.step, LatHistogram.nextMem, LatHistogram.dinA, LatHistogram.addrA,
    LatHistogram.inEngine]
  cases hs : s.state with
  | clear => exact absurd hs h.state
  | read => simp
  | write =>
    by_cases hx : x = s.engAddr
    · subst hx
      simp [h.dout hs]
    · simp [Function.update_of_ne hx, Ne.symm hx]

/-- What the engine takes is what it holds after the edge. -/
theorem HistLive.inEngine_step (h : HistLive P gap s a) (hclear : i.clear = false) (x : ℕ) :
    (s.step P i).inEngine x = s.taken P x := by
  cases hs : s.state with
  | clear => exact absurd hs h.state
  | read =>
    cases hp : s.sel P with
    | none =>
      rw [taken_eq_zero (by simp [LatHistogram.consume, hp])]
      simp [LatHistogram.inEngine, LatHistogram.step, LatHistogram.nextEngine, hclear, hs, hp]
    | some src =>
      rw [taken_of_sel h.rr hs hp]
      simp [LatHistogram.inEngine, LatHistogram.step, LatHistogram.nextEngine, hclear, hs, hp,
        LatHistogram.selAddr]
  | write =>
    rw [taken_eq_zero (by simp [LatHistogram.consume, hs])]
    simp [LatHistogram.inEngine, LatHistogram.step, LatHistogram.nextEngine, hclear, hs]

/-- An edge without a walk and without a clear. -/
theorem HistLive.step (h : HistLive P gap s a) (hi : HistAllowed P gap i)
    (hclear : i.clear = false) : HistLive P (histGap gap i) (s.step P i) (a.step P i) := by
  refine ⟨?_, ?_, ?_, fun src hsrc hv => h.wait_step hclear hsrc hv, ?_, ?_, ?_⟩
  · simp [HistSpec.step, h.sweep, hclear]
  · cases hs : s.state with
    | clear => exact absurd hs h.state
    | read =>
      cases hp : s.sel P <;>
        simp [LatHistogram.step, LatHistogram.nextEngine, hclear, hs, hp]
    | write => simp [LatHistogram.step, LatHistogram.nextEngine, hclear, hs]
  · cases hs : s.state with
    | clear => exact absurd hs h.state
    | read =>
      cases hp : s.sel P with
      | none => simpa [LatHistogram.step, LatHistogram.nextEngine, hclear, hs, hp] using h.rr
      | some src =>
        simpa [LatHistogram.step, LatHistogram.nextEngine, hclear, hs, hp] using
          Nat.mod_lt _ P.nEv_pos
    | write => simpa [LatHistogram.step, LatHistogram.nextEngine, hclear, hs] using h.rr
  · cases hs : s.state with
    | clear => exact absurd hs h.state
    | read =>
      cases hp : s.sel P <;>
        simp [LatHistogram.step, LatHistogram.nextEngine, LatHistogram.nextMem,
          LatHistogram.dinA, LatHistogram.addrA, hclear, hs, hp]
    | write => simp [LatHistogram.step, LatHistogram.nextEngine, hclear, hs]
  · intro x hx
    have hheld := h.held_step hi x
    calc (s.step P i).mem x + BitVec.ofNat 64 ((s.step P i).held P x + (s.step P i).inEngine x)
        = s.mem x + BitVec.ofNat 64 (s.inEngine x) +
            BitVec.ofNat 64 (s.held P x + i.arriving P x) := by
          rw [h.mem_step, h.inEngine_step hclear, hheld]
      _ = s.mem x + BitVec.ofNat 64 (s.held P x + s.inEngine x) +
            BitVec.ofNat 64 (i.arriving P x) := by
          rw [BitVec.add_assoc, BitVec.add_assoc, ← BitVec.ofNat_add, ← BitVec.ofNat_add]
          congr 2
          omega
      _ = BitVec.ofNat 64 ((a.step P i).events.countP fun e => decide (P.evFlat e = x)) := by
          rw [h.mem x hx, countP_events_step h.sweep hclear, BitVec.ofNat_add]
  · intro e he
    rw [HistSpec.step, if_neg (by simp [h.sweep]), if_neg (by simp [hclear]), List.mem_append,
      List.mem_filterMap] at he
    rcases he with he | ⟨src, hsrc, he⟩
    · exact h.known e he
    · exact (hi src (List.mem_range.mp hsrc) e he).2

/-- An edge of a walk. -/
theorem HistSweeping.step (h : HistSweeping P s a) :
    HistTracks P (histGap gap i) (s.step P i) (a.step P i) := by
  have hsum := h.sweep
  have hpos := h.sweep_pos
  have ha : a.step P i = { sweep := a.sweep - 1, events := [] } := by
    rw [HistSpec.step, if_pos (by omega)]
  have hmem : (s.step P i).mem = Function.update s.mem s.clrAddr 0 := by
    simp [LatHistogram.step, LatHistogram.nextMem, LatHistogram.dinA, LatHistogram.addrA, h.state]
  have hzero : ∀ x < s.clrAddr + 1, (s.step P i).mem x = 0 := by
    intro x hx
    rw [hmem]
    by_cases hxc : x = s.clrAddr
    · rw [hxc, Function.update_self]
    · rw [Function.update_of_ne hxc]
      exact h.mem x (by omega)
  have hrr : (s.step P i).rr = s.rr := by
    by_cases hlast : s.clrAddr = P.depth - 1 <;>
      simp [LatHistogram.step, LatHistogram.nextEngine, h.state, hlast]
  rw [ha]
  by_cases hlast : s.clrAddr = P.depth - 1
  · -- every counter is zero, and the walk ends with empty holders
    have hstate : (s.step P i).state = .read := by
      simp [LatHistogram.step, LatHistogram.nextEngine, h.state, hlast]
    have hhv : ∀ src, (s.step P i).hv src = false := by
      intro src
      simp [LatHistogram.step, LatHistogram.nextHolder, h.state]
    right
    refine ⟨by simp only; omega, by simp [hstate], hrr ▸ h.rr, ?_, by simp [hstate], ?_, by simp⟩
    · intro src _ hv
      rw [hhv] at hv
      cases hv
    · intro x hx
      rw [hzero x (by omega)]
      simp [LatHistogram.held, LatHistogram.inEngine, hhv, hstate]
  · left
    have hclr : (s.step P i).clrAddr = s.clrAddr + 1 := by
      simp [LatHistogram.step, LatHistogram.nextEngine, h.state, hlast]
    refine ⟨?_, hrr ▸ h.rr, ?_, ?_, rfl, hclr ▸ hzero⟩
    · simp [LatHistogram.step, LatHistogram.nextEngine, h.state, hlast]
    · rw [hclr]
      simp only
      omega
    · simp only
      omega

/-- **One clock edge keeps the counters and the events together.** -/
theorem histTracks_step (h : HistTracks P gap s a) (hi : HistAllowed P gap i) :
    HistTracks P (histGap gap i) (s.step P i) (a.step P i) := by
  rcases h with h | h
  · exact h.step
  · cases hclear : i.clear with
    | false => exact .inr (h.step hi hclear)
    | true =>
      left
      have hspec : a.step P i = { sweep := P.depth, events := [] } := by
        simp [HistSpec.step, h.sweep, hclear]
      rw [hspec]
      refine ⟨?_, ?_, ?_, P.depth_pos, rfl, ?_⟩
      · simp [LatHistogram.step, LatHistogram.nextEngine, hclear, h.state]
      · simpa [LatHistogram.step, LatHistogram.nextEngine, hclear, h.state] using h.rr
      · simp [LatHistogram.step, LatHistogram.nextEngine, hclear, h.state]
      · simp [LatHistogram.step, LatHistogram.nextEngine, hclear, h.state]

/-- A drained counter is the number of its events. -/
theorem HistTracks.mem_of_drained (h : HistTracks P gap s a) (hd : s.Drained P) {x : ℕ}
    (hx : x < P.depth) :
    s.mem x = BitVec.ofNat 64 (a.events.countP fun e => decide (P.evFlat e = x)) := by
  obtain ⟨hread, hhv⟩ := hd
  rcases h with h | h
  · rw [h.state] at hread
    cases hread
  · have hheld : s.held P x = 0 := by
      rw [LatHistogram.held, List.countP_eq_zero]
      intro src hsrc
      simp [hhv src (List.mem_range.mp hsrc)]
    have hmem := h.mem x hx
    simpa [hheld, LatHistogram.inEngine, hread] using hmem

end Refine

/-! ## Runs -/

theorem histTracks_reset {P : HistParams} {s : LatHistogram} (h : s.Reset) (gap : ℕ → ℕ) :
    HistTracks P gap s { sweep := P.depth, events := [] } := by
  left
  refine ⟨h.state, ?_, ?_, P.depth_pos, rfl, ?_⟩
  · rw [h.rr]
    exact P.nEv_pos
  · simp [h.clrAddr]
  · simp [h.clrAddr]

/-- **A run keeps the counters and the events together.** -/
theorem histTracks_run {P : HistParams} {gap : ℕ → ℕ} {s : LatHistogram} {a : HistSpec}
    (h : HistTracks P gap s a) {ins : List HistIn} (hins : Follows (HistAllowed P) histGap gap ins) :
    HistTracks P (run histGap gap ins) (run (LatHistogram.step P) s ins)
      (run (HistSpec.step P) a ins) := by
  induction ins generalizing gap s a with
  | nil => exact h
  | cons i ins ih => exact ih (histTracks_step h hins.1) hins.2

/-- A cycle without an event and without a clear. -/
def HistIn.Quiet (i : HistIn) : Prop := i.clear = false ∧ ∀ src, i.ev src = none

section Quiet

variable {P : HistParams} {quiet : List HistIn} (hq : ∀ i ∈ quiet, i.Quiet)

include hq

theorem follows_quiet (gap : ℕ → ℕ) : Follows (HistAllowed P) histGap gap quiet := by
  apply Follows.of_invariant (I := fun _ => True) (A := HistIn.Quiet) _ trivial hq
  intro gap i hi _
  refine ⟨?_, trivial⟩
  intro src _ e he
  rw [hi.2 src] at he
  cases he

theorem histGap_quiet (gap : ℕ → ℕ) (src : ℕ) :
    run histGap gap quiet src = gap src + quiet.length := by
  induction quiet generalizing gap with
  | nil => rfl
  | cons i quiet ih =>
    have hi := hq i List.mem_cons_self
    rw [run_cons, ih fun j hj => hq j (List.mem_cons_of_mem _ hj), histGap, hi.2 src]
    simp only [Option.isSome_none, Bool.false_eq_true, if_false, List.length_cons]
    omega

/-- Quiet cycles only let the walk go on. -/
theorem HistSpec.run_quiet {a : HistSpec} (ha : a.sweep ≠ 0 → a.events = []) :
    run (HistSpec.step P) a quiet = { sweep := a.sweep - quiet.length, events := a.events } := by
  induction quiet generalizing a with
  | nil => rfl
  | cons i quiet ih =>
    obtain ⟨hclear, hev⟩ := hq i List.mem_cons_self
    have hstep : a.step P i = { sweep := a.sweep - 1, events := a.events } := by
      rw [HistSpec.step]
      by_cases hs : a.sweep = 0
      · have hnone : (List.range P.nEv).filterMap i.ev = [] := by
          rw [List.filterMap_eq_nil_iff]
          intro src _
          exact hev src
        rw [if_neg (by simp [hs]), if_neg (by simp [hclear]), hnone, List.append_nil, hs]
      · rw [if_pos hs, ha hs]
    rw [run_cons, hstep, ih fun j hj => hq j (List.mem_cons_of_mem _ hj)]
    · simp only [List.length_cons, HistSpec.mk.injEq, and_true]
      omega
    · intro hne
      apply ha
      simp only at hne
      omega

end Quiet

section Drain

variable {P : HistParams} {gap : ℕ → ℕ} {s : LatHistogram} {a : HistSpec}

/-- **A quiet spell drains the histogram**: a walk, then two cycles for each source, and the
last write. -/
theorem HistTracks.drained (h : HistTracks P gap s a) {quiet : List HistIn}
    (hq : ∀ i ∈ quiet, i.Quiet) (hlen : P.depth + 2 * P.nEv + 2 ≤ quiet.length) :
    (run (LatHistogram.step P) s quiet).Drained P ∧
      (run (HistSpec.step P) a quiet).events = a.events := by
  have hempty : a.sweep ≤ P.depth ∧ (a.sweep ≠ 0 → a.events = []) := by
    rcases h with h | h
    · have := h.sweep
      exact ⟨by omega, fun _ => h.events⟩
    · exact ⟨by rw [h.sweep]; exact Nat.zero_le _, fun hne => absurd h.sweep hne⟩
  obtain ⟨front, i, rfl⟩ : ∃ front i, quiet = front ++ [i] := by
    rcases List.eq_nil_or_concat quiet with hnil | ⟨front, i, hc⟩
    · rw [hnil] at hlen
      simp at hlen
    · exact ⟨front, i, by simpa using hc⟩
  have hfront : ∀ j ∈ front, j.Quiet := fun j hj => hq j (List.mem_append_left _ hj)
  have hi : i.Quiet := hq i (by simp)
  rw [List.length_append, List.length_singleton] at hlen
  have hspec := HistSpec.run_quiet (P := P) hfront hempty.2
  have hrun := histTracks_run h (follows_quiet hfront gap)
  refine ⟨?_, ?_⟩
  · -- before the last cycle the walk is over and every holder is empty
    rw [run_concat]
    generalize run (LatHistogram.step P) s front = t at hrun
    rw [hspec] at hrun
    rcases hrun with hrun | hrun
    · have := hrun.sweep_pos
      simp only at this
      omega
    · have hhv : ∀ src < P.nEv, t.hv src = false := by
        intro src hsrc
        by_contra hv
        have hwait := hrun.wait src hsrc (by simpa using hv)
        rw [histGap_quiet hfront] at hwait
        omega
      have hsel : t.sel P = none := by
        cases hp : t.sel P with
        | none => rfl
        | some src =>
          obtain ⟨hsrc, hv, -⟩ := rrPick_eq_some hrun.rr hp
          rw [hhv src hsrc] at hv
          cases hv
      refine ⟨?_, ?_⟩
      · cases hs : t.state with
        | clear => exact absurd hs hrun.state
        | read => simp [LatHistogram.step, LatHistogram.nextEngine, hi.1, hs, hsel]
        | write => simp [LatHistogram.step, LatHistogram.nextEngine, hi.1, hs]
      · intro src hsrc
        simp [LatHistogram.step, LatHistogram.nextHolder, if_neg hrun.state, hi.2 src,
          hhv src hsrc]
  · rw [HistSpec.run_quiet hq hempty.2]

end Drain

/-! ## The counters of a flow -/

/-- The events of a flow and a bucket. -/
def countBucket (l : List HistEvent) (f b : ℕ) : ℕ :=
  l.countP fun e => decide (e.flow.toNat = f) && decide (e.bucket.toNat = b)

/-- The events of a flow. -/
def countFlow (l : List HistEvent) (f : ℕ) : ℕ := l.countP fun e => decide (e.flow.toNat = f)

section Cells

variable {P : HistParams} {gap : ℕ → ℕ} {s : LatHistogram} {a : HistSpec}

/-- The events of a drained histogram have flows and buckets that exist. -/
theorem HistTracks.known_of_drained (h : HistTracks P gap s a) (hd : s.Drained P) :
    ∀ e ∈ a.events, e.flow.toNat < P.numFlows ∧ e.bucket.toNat < P.numBuckets := by
  rcases h with h | h
  · exact absurd (hd.1.symm.trans h.state) (by simp)
  · exact h.known

/-- The drained counter of a flow and a bucket. -/
theorem HistTracks.cell_of_drained (h : HistTracks P gap s a) (hd : s.Drained P) {f b : ℕ}
    (hf : f < P.numFlows) (hb : b < P.numBuckets) :
    s.mem (f * P.numBuckets + b) = BitVec.ofNat 64 (countBucket a.events f b) := by
  rw [h.mem_of_drained hd (P.cell_lt hf hb), countBucket]
  congr 1
  apply List.countP_congr
  intro e he
  obtain ⟨hef, heb⟩ := h.known_of_drained hd e he
  rw [P.evFlat_eq hef heb, decide_eq_true_eq, Bool.and_eq_true, decide_eq_true_eq,
    decide_eq_true_eq]
  exact P.cell_inj heb hb

/-- The drained counters of a flow, added up. -/
theorem HistTracks.sum_of_drained (h : HistTracks P gap s a) (hd : s.Drained P) {f : ℕ}
    (hf : f < P.numFlows) :
    ((List.range P.numBuckets).map fun b => s.mem (f * P.numBuckets + b)).sum =
      BitVec.ofNat 64 (∑ b ∈ Finset.range P.numBuckets, countBucket a.events f b) := by
  rw [List.map_congr_left fun b hb => h.cell_of_drained hd hf (List.mem_range.mp hb),
    sum_ofNat_range]

end Cells

/-- The events of a flow are those of its buckets. -/
theorem sum_countBucket {n : ℕ} {l : List HistEvent} (hl : ∀ e ∈ l, e.bucket.toNat < n) (f : ℕ) :
    ∑ b ∈ Finset.range n, countBucket l f b = countFlow l f := by
  refine (sum_countP_class _ (fun e : HistEvent => e.bucket.toNat) l n).trans ?_
  apply List.countP_congr
  intro e he
  simp [hl e he]

/-- **The histogram counts every event once.**  After a reset and any cycles with the
events of each source apart and any clears among them, the drained counter of a flow and a
bucket is the number of their events accepted since the last clear, and the counters of a
flow add up to the number of its events; and a quiet spell drains the histogram without a
change to these events. -/
theorem histogram_counts_events (P : HistParams) {s : LatHistogram} (hreset : s.Reset)
    (ins : List HistIn) (hins : HistSpaced P ins) :
    ((run (LatHistogram.step P) s ins).Drained P → ∀ f < P.numFlows,
      (∀ b < P.numBuckets, (run (LatHistogram.step P) s ins).mem (f * P.numBuckets + b) =
        BitVec.ofNat 64 (countBucket (acceptedEvents P ins) f b)) ∧
      ((List.range P.numBuckets).map fun b =>
        (run (LatHistogram.step P) s ins).mem (f * P.numBuckets + b)).sum =
          BitVec.ofNat 64 (countFlow (acceptedEvents P ins) f)) ∧
    ∀ quiet : List HistIn, (∀ i ∈ quiet, i.Quiet) → P.depth + 2 * P.nEv + 2 ≤ quiet.length →
      (run (LatHistogram.step P) s (ins ++ quiet)).Drained P ∧
        acceptedEvents P (ins ++ quiet) = acceptedEvents P ins := by
  have htracks := histTracks_run (histTracks_reset hreset _) hins
  refine ⟨?_, ?_⟩
  · intro hd f hf
    refine ⟨fun b hb => htracks.cell_of_drained hd hf hb, ?_⟩
    rw [htracks.sum_of_drained hd hf,
      sum_countBucket fun e he => (htracks.known_of_drained hd e he).2]
    rfl
  · intro quiet hq hlen
    rw [run_append, acceptedEvents, run_append]
    exact htracks.drained hq hlen

/-- Two flows with two buckets each, and two sources. -/
def sampleHist : HistParams :=
  { numFlows := 2, numBuckets := 2, nEv := 2, numFlows_pos := by decide
    numBuckets_pos := by decide, nEv_pos := by decide }

/-- The same event from the sources below `n`. -/
def sampleHistIn (n : ℕ) : HistIn :=
  { ev := fun src => if src < n then some { flow := 1, bucket := 0 } else none }

/-- After the walk both sources have an event for the same counter at once, and the first
one has another as soon as it may. -/
def sampleHistRun : List HistIn :=
  List.replicate 4 (sampleHistIn 0) ++ [sampleHistIn 2] ++ List.replicate 3 (sampleHistIn 0) ++
    [sampleHistIn 1] ++ List.replicate 3 (sampleHistIn 0)

/-- A histogram after a reset, with what was in the memory before. -/
def sampleLatHistogram : LatHistogram :=
  { mem := fun _ => 7, doutA := 0, doutB := 0, hv := fun _ => false, ha := fun _ => 0, rr := 0
    state := .clear, clrAddr := 0, engAddr := 0 }

/-- All three events are counted. -/
theorem histogram_counts_events_sample :
    HistSpaced sampleHist sampleHistRun ∧
    (run (LatHistogram.step sampleHist) sampleLatHistogram sampleHistRun).mem (1 * 2 + 0) = 3 := by
  have hspaced : HistSpaced sampleHist sampleHistRun := by
    rw [HistSpaced]
    decide +kernel
  have hdrained : (run (LatHistogram.step sampleHist) sampleLatHistogram sampleHistRun).Drained
      sampleHist := by
    rw [LatHistogram.Drained]
    decide +kernel
  have h := (histogram_counts_events sampleHist (s := sampleLatHistogram) ⟨rfl, rfl, rfl⟩ _
    hspaced).1 hdrained 1 (by decide)
  refine ⟨hspaced, (h.1 0 (by decide)).trans ?_⟩
  decide +kernel

end PacketWyrm
