import PacketWyrm.RxFrames
import Mathlib.Data.List.Infix

/-!
# Frames keep their bytes and their route

What the buffer of a port drains, in terms of the frames that arrive on it: each frame
that is forwarded or punted comes out whole, in order, with the route of its own
classification, and the others leave nothing behind.

This holds while every frame has a key: a frame that is too short for an Ethernet header,
or whose EtherType is 0, is joined with the next one.

## Main definitions

* `RouteLaw` — what the drain side of a port sees of the frames.

## Main results

* `SafSpec.accepted_of_keep` — without an overflow every kept frame is accepted.
* `frames_keep_route` — the law over every run.
-/

namespace PacketWyrm

open Lib

variable {aw daw lfw : ℕ}
variable {ports : ℕ} {port : BitVec 4} {tables : CardTables lfw}

/-! ## What the buffer makes of it -/

section Buffer

variable {ρ : Type}

/-- The beats of the frames that are kept. -/
def keptBeats (l : List (List Beat × Bool × ρ)) : List (Beat × ρ) :=
  (l.filter fun x => x.2.1).flatMap fun x => x.1.map fun b => (b, x.2.2)

/-- If every kept frame is accepted, all of their beats are. -/
theorem acceptedBeats_eq_keptBeats {l : List (SafDecision ρ)}
    (h : ∀ d ∈ l, d.keep = true → d.accepted = true) :
    acceptedBeats l = keptBeats (l.map fun d => (d.frame, d.keep, d.tag)) := by
  have hfilter : l.filter SafDecision.accepted = l.filter fun d => d.keep := by
    apply List.filter_congr
    intro d hd
    rw [Bool.eq_iff_iff]
    refine ⟨?_, h d hd⟩
    intro hacc
    rw [SafDecision.accepted, Bool.and_eq_true, Bool.and_eq_true] at hacc
    exact hacc.1.1
  rw [acceptedBeats, hfilter, keptBeats, List.filter_map, List.flatMap_map]
  rfl

theorem keptBeats_decided (done : List WireFrame) :
    keptBeats (done.map (WireFrame.decided ports port tables)) = routed ports port tables done := by
  rw [keptBeats, List.filter_map, List.flatMap_map]
  rfl

/-- A cycle decides at most one frame, and reports a kept one that is not accepted. -/
theorem SafSpec.decided_step (t : SafSpec ρ) (i : SafIn ρ) :
    (t.step aw daw i).decided = t.decided ∨
      (t.step aw daw i).decided = t.decided ++ [t.decision daw i] ∧
        (t.step aw daw i).overflowDrop = (i.decKeep && !(t.decision daw i).accepted) := by
  simp only [SafSpec.step, SafSpec.drain, SafSpec.write]
  split
  · exact Or.inr ⟨rfl, rfl⟩
  · split
    · exact Or.inl rfl
    · exact Or.inl rfl

/-- **Without an overflow every kept frame is accepted.** -/
theorem SafSpec.accepted_of_keep {l : List (SafIn ρ)}
    (h : ∀ m, m <+: l → (run (SafSpec.step aw daw) {} m).overflowDrop = false) :
    ∀ d ∈ (run (SafSpec.step aw daw) {} l).decided, d.keep = true → d.accepted = true := by
  induction l using List.reverseRecOn with
  | nil => intro d hd; cases hd
  | append_singleton l i ih =>
    have hl := ih fun m hm => h m (hm.trans (List.prefix_append _ _))
    have hover := h _ (List.prefix_refl _)
    rw [run_concat] at hover ⊢
    cases (run (SafSpec.step aw daw) {} l).decided_step i with
    | inl hsame =>
      rw [hsame]
      exact hl
    | inr hnew =>
      rw [hnew.1]
      rw [hnew.2] at hover
      intro d hd hkeep
      rw [List.mem_append, List.mem_singleton] at hd
      cases hd with
      | inl hd => exact hl d hd hkeep
      | inr hd =>
        have hi : i.decKeep = true := by rw [hd] at hkeep; exact hkeep
        rw [hi, Bool.true_and, Bool.not_eq_false'] at hover
        rw [hd, hover]

/-- The buffer holds these beats, with the descriptors of their frames, and nothing else. -/
structure Saf.Keeps (s : Saf aw daw ρ) (rest : List (Beat × ρ)) : Prop where
  /-- The first beat may be in the output register. -/
  dbeat : s.dvalid = true → rest.head?.map Prod.fst = some s.dbeat
  beats : RingAt s.mem s.rdPtr ((rest.map Prod.fst).drop s.dvalid.toNat)
  wrSpec : s.wrSpec =
    s.rdPtr + BitVec.ofNat (aw + 1) ((rest.map Prod.fst).drop s.dvalid.toNat).length
  descs : RingAt s.desc s.descRd ((rest.filter fun x => x.1.tlast).map Prod.snd)
  descWr : s.descWr =
    s.descRd + BitVec.ofNat (daw + 1) ((rest.filter fun x => x.1.tlast).map Prod.snd).length

/-- Between frames the buffer holds what is queued. -/
theorem Saf.Holds.keeps {p : SafPhase} {s : Saf aw daw ρ} {t : SafSpec ρ} {w : List Beat}
    (h : s.Holds p t w) (hcur : t.cur = []) : s.Keeps t.queue := by
  have hstored : t.stored = (t.queue.map Prod.fst).drop s.dvalid.toNat := by
    rw [SafSpec.stored, h.dvalid]
  have hw := h.fresh hcur
  refine ⟨?_, ?_, ?_, h.descs, h.descWr⟩
  · rw [h.dvalid]
    exact h.dbeat
  · have hbeats := h.beats
    rw [hw, List.append_nil, hstored] at hbeats
    exact hbeats
  · have hspec := h.wrSpec
    rw [hw, hstored] at hspec
    exact hspec

end Buffer

/-! ## The law of the path -/

/-- After eight idle cycles the buffer is given neither a beat nor a decision. -/
theorem RxFront.Reset.safIn_of_idle {s : RxFront lfw} (hs : s.Reset) (l : List RxIn)
    {idle : List RxIn} (hidle : ∀ i ∈ idle, i.tvalid = false) (hlen : 8 ≤ idle.length) (i : RxIn) :
    ((run (step tables port) s (l ++ idle)).safIn ports port i).tvalid = false ∧
      ((run (step tables port) s (l ++ idle)).safIn ports port i).decValid = false := by
  have hsplit : l ++ idle = l ++ idle.take (idle.length - 8) ++ idle.drop (idle.length - 8) := by
    rw [List.append_assoc, List.take_append_drop]
  have hall : ∀ j ∈ idle.drop (idle.length - 8), j.tvalid = false :=
    fun j hj => hidle j (List.mem_of_mem_drop hj)
  have hdrop : (idle.drop (idle.length - 8)).length = 8 := by
    rw [List.length_drop]
    omega
  rw [hsplit]
  generalize l ++ idle.take (idle.length - 8) = pre
  generalize idle.drop (idle.length - 8) = e at hall hdrop
  match e, hdrop with
  | [j0, j1, j2, j3, j4, j5, j6, j7], _ =>
    have hj0 : j0.tvalid = false := hall j0 (by simp)
    have hj1 : j1.tvalid = false := hall j1 (by simp)
    have hsaf : ((run (step tables port) s (pre ++ [j0] ++ [j1, j2, j3, j4, j5, j6, j7])).safIn
        ports port i).muted = _ := hs.safIn_run (pre ++ [j0]) j1 rfl i
    rw [List.append_assoc] at hsaf
    have heof : (run (RxLead.step port) s.lead (pre ++ [j0])).parser.eofQ = false := by
      rw [run_concat]
      simp [RxLead.step, ParserRegs.step, hj0]
    refine ⟨?_, ?_⟩
    · refine (congrArg SafIn.tvalid hsaf).trans ?_
      show ((run (RxLead.step port) s.lead (pre ++ [j0])).armed && j1.tvalid) = false
      rw [hj1, Bool.and_false]
    · exact (congrArg SafIn.decValid hsaf).trans (ParserRegs.keyValid_parsed heof)

/-- What the drain side of a port sees of the frames after the cycles `ins`. -/
structure RouteLaw (ports : ℕ) (port : BitVec 4) (tables : CardTables lfw) (s : RxPath aw daw lfw)
    (frames : List WireFrame) (ins : List RxIn) : Prop where
  /-- What is drained are the frames to be forwarded or punted, each with its own route. -/
  drained : outputs (RxPath.sent ports port) (RxPath.step ports port tables) s ins <+:
    routed ports port tables frames
  /-- Once the last frame is decided, the buffer holds what is left of them. -/
  settled : ∀ pre idle, ins = pre ++ idle → AllArrived frames pre →
    (∀ i ∈ idle, i.tvalid = false) → 8 ≤ idle.length →
    ∃ rest, outputs (RxPath.sent ports port) (RxPath.step ports port tables) s ins ++ rest =
        routed ports port tables frames ∧
      (run (RxPath.step ports port tables) s ins).2.Keeps rest
  /-- While the drain side is ready, all of it comes out. -/
  empties : ∀ pre idle quiet, ins = pre ++ idle ++ quiet → AllArrived frames pre →
    (∀ i ∈ idle ++ quiet, i.tvalid = false) → 8 ≤ idle.length →
    (∀ i ∈ quiet, i.tready = true) → 2 ^ aw + 2 ≤ quiet.length →
    outputs (RxPath.sent ports port) (RxPath.step ports port tables) s ins =
        routed ports port tables frames ∧
      (run (RxPath.step ports port tables) s ins).2.Keeps []

/-- The buffer never reports an overflow. -/
def NoOverflow (ports : ℕ) (port : BitVec 4) (tables : CardTables lfw) (s : RxPath aw daw lfw)
    (ins : List RxIn) : Prop :=
  ∀ l, l <+: ins → (run (RxPath.step ports port tables) s l).2.overflowDrop = false

section Law

variable {s : RxPath aw daw lfw} {frames : List WireFrame} {ins : List RxIn}

/-- The buffer of the path runs on what the front gives it. -/
theorem RxPath.saf_run (l : List RxIn) :
    (run (RxPath.step ports port tables) s l).2 =
      run Saf.step s.2 (s.1.given ports port tables l) :=
  congrArg Prod.snd (run_cascade _ _ _ s.1 s.2 l)

theorem RxPath.outputs_eq (l : List RxIn) :
    outputs (RxPath.sent ports port) (RxPath.step ports port tables) s l =
      outputs Saf.sent Saf.step s.2 (s.1.given ports port tables l) :=
  outputs_cascade _ _ _ Saf.sent s.1 s.2 l

/-- The queue that the buffer stands for. -/
def RxPath.queue (aw daw ports : ℕ) (port : BitVec 4) (tables : CardTables lfw) (s : RxFront lfw)
    (l : List RxIn) : SafSpec RxTag :=
  run (SafSpec.step aw daw) {} (s.given ports port tables l)

/-- What the queue has decided, what is drained and what it holds. -/
theorem RxPath.Reset.state (hs : s.Reset) (hins : Arrives frames ins)
    (hown : ∀ f ∈ frames, OwnRoute tables ⟨port, f.bytes⟩)
    (hover : NoOverflow ports port tables s ins) :
    ∃ done last',
      LeadAt port last' (run RxPhase.next (.start frames) (throughDelay ins))
        (run (RxLead.step port) s.1.lead (throughDelay ins)) ∧
      frames = done ++
        (last'.toList ++ (run RxPhase.next (.start frames) (throughDelay ins)).todo) ∧
      outputs (RxPath.sent ports port) (RxPath.step ports port tables) s ins ++
          (RxPath.queue aw daw ports port tables s.1 ins).queue =
        routed ports port tables done ∧
      (∃ p w, (run (RxPath.step ports port tables) s ins).2.Holds p
        (RxPath.queue aw daw ports port tables s.1 ins) w) ∧
      (RxPath.queue aw daw ports port tables s.1 ins).cur =
        (run RxPhase.next (.start frames) (throughDelay ins)).written last' := by
  obtain ⟨hcontract, done, last', hend, hdone, harr, hcur⟩ :
    SafContract (s.1.given ports port tables ins) ∧ _ := hs.front.writes hins hown
  obtain ⟨⟨w, hw⟩, hout⟩ := hs.saf.refines hcontract
  have hqueue := (SafSpec.conserves_init RxTag).run aw daw (s.1.given ports port tables ins)
  have haccepted : ∀ d ∈ (RxPath.queue aw daw ports port tables s.1 ins).decided,
      d.keep = true → d.accepted = true := by
    apply SafSpec.accepted_of_keep
    intro m hm
    -- a prefix of what the buffer is given is given over a prefix of the cycles
    have htake : m = s.1.given ports port tables (ins.take m.length) :=
      (List.prefix_iff_eq_take.mp hm).trans (take_trace _ _ _ _ _)
    obtain ⟨post, hpost⟩ := hm
    have hpre : SafContract m := by
      rw [← hpost] at hcontract
      exact hcontract.left
    obtain ⟨⟨w, hw⟩, -⟩ := hs.saf.refines hpre
    rw [← hw.overflowDrop, htake, ← RxPath.saf_run]
    exact hover _ (List.take_prefix _ _)
  refine ⟨done, last', hend, hdone, ?_, ?_, ?_⟩
  · rw [RxPath.outputs_eq, hout]
    refine hqueue.queue.trans ((acceptedBeats_eq_keptBeats haccepted).trans ?_)
    rw [← keptBeats_decided, ← harr]
    exact congrArg keptBeats hqueue.decided
  · rw [RxPath.saf_run]
    exact ⟨_, w, hw⟩
  · rw [← hcur]
    exact cur_run_safSpec {} _

/-- Idle cycles bring no frame. -/
theorem RxPhase.todo_run_idle (p : RxPhase) {l : List RxIn} (hl : ∀ i ∈ l, i.tvalid = false) :
    (run RxPhase.next p l).todo = p.todo := by
  refine run_invariant (I := fun q : RxPhase => q.todo = p.todo) (A := fun i => i.tvalid = false)
    ?_ rfl hl
  intro q i hi hq
  rw [RxPhase.next, hi]
  exact hq

/-- The last cycle that has come through the delay line is idle. -/
theorem throughDelay_append (pre : List RxIn) {idle : List RxIn} (hlen : 8 ≤ idle.length) :
    ∃ l i rest, idle = l ++ i :: rest ∧ throughDelay (pre ++ idle) = pre ++ l ++ [i] := by
  have hlt : idle.length - 8 < idle.length := by omega
  refine ⟨idle.take (idle.length - 8), idle[idle.length - 8], idle.drop (idle.length - 8 + 1),
    ?_, ?_⟩
  · rw [← List.drop_eq_getElem_cons hlt, List.take_append_drop]
  · have htake : (pre ++ idle).length - 7 = pre.length + (idle.length - 8 + 1) := by
      rw [List.length_append]
      omega
    rw [throughDelay, htake, List.take_length_add_append, List.append_assoc,
      List.take_append_getElem hlt]

/-- Once all frames have arrived and eight cycles were idle, all of them are decided. -/
theorem RxPath.Reset.state_of_idle (hs : s.Reset) (hins : Arrives frames ins)
    (hown : ∀ f ∈ frames, OwnRoute tables ⟨port, f.bytes⟩)
    (hover : NoOverflow ports port tables s ins) {pre idle : List RxIn}
    (hsplit : ins = pre ++ idle) (hall : AllArrived frames pre)
    (hidle : ∀ i ∈ idle, i.tvalid = false) (hlen : 8 ≤ idle.length) :
    outputs (RxPath.sent ports port) (RxPath.step ports port tables) s ins ++
        (RxPath.queue aw daw ports port tables s.1 ins).queue =
      routed ports port tables frames ∧
    (run (RxPath.step ports port tables) s ins).2.Keeps
      (RxPath.queue aw daw ports port tables s.1 ins).queue := by
  obtain ⟨done, last', hend, hdone, hqueue, ⟨p, w, hw⟩, hcur⟩ := hs.state hins hown hover
  obtain ⟨l, i, rest, hl, hthrough⟩ := throughDelay_append pre hlen
  rw [← hsplit] at hthrough
  have hmem : ∀ j ∈ l ++ [i], j.tvalid = false := by
    intro j hj
    apply hidle j
    rw [hl]
    simp only [List.mem_append, List.mem_cons] at hj ⊢
    tauto
  have htodo : (run RxPhase.next (.start frames) (throughDelay ins)).todo = [] := by
    rw [hthrough, List.append_assoc, run_append, RxPhase.todo_run_idle _ hmem]
    exact hall
  have hlast : last' = none := by
    cases hl' : last' with
    | none => rfl
    | some f =>
      obtain ⟨⟨old, hf⟩, -⟩ := hend.ended f hl'
      have heof := hf.eofQ
      rw [hthrough, run_concat] at heof
      have hi : i.tvalid = false := hmem i (by simp)
      simp [RxLead.step, ParserRegs.step, hi] at heof
  rw [hlast, htodo] at hdone
  have hframes : frames = done := by simpa using hdone
  refine ⟨by rw [hframes]; exact hqueue, hw.keeps ?_⟩
  rw [hcur, hlast]
  simp [RxPhase.written, RxPhase.bytes, htodo, axisBeats]

/-- Then the buffer only drains. -/
theorem RxFront.Reset.given_quiet {s : RxFront lfw} (hs : s.Reset) (pre : List RxIn)
    {idle quiet : List RxIn} (hidle : ∀ i ∈ idle ++ quiet, i.tvalid = false)
    (hlen : 8 ≤ idle.length) (hready : ∀ i ∈ quiet, i.tready = true) :
    ∀ x ∈ (run (RxFront.step tables port) s (pre ++ idle)).given ports port tables quiet,
      x.Quiet := by
  intro x hx
  obtain ⟨l, i, rest, hl, hxi⟩ := exists_of_mem_trace _ _ _ hx
  have hmem : ∀ j ∈ idle ++ l, j.tvalid = false := by
    intro j hj
    apply hidle j
    rw [hl]
    simp only [List.mem_append] at hj ⊢
    tauto
  have hidle8 : 8 ≤ (idle ++ l).length := by
    rw [List.length_append]
    omega
  rw [← run_append, List.append_assoc] at hxi
  obtain ⟨hv, hd⟩ := hs.safIn_of_idle pre hmem hidle8 i
  rw [hxi]
  exact ⟨hv, hd, hready i (by rw [hl]; simp)⟩

/-- And after enough of these cycles nothing is queued. -/
theorem RxPath.Reset.queue_of_quiet (hs : s.Reset) {pre idle quiet : List RxIn}
    (hins : Arrives frames (pre ++ idle)) (hown : ∀ f ∈ frames, OwnRoute tables ⟨port, f.bytes⟩)
    (hover : NoOverflow ports port tables s (pre ++ idle))
    (hidle : ∀ i ∈ idle ++ quiet, i.tvalid = false) (hlen : 8 ≤ idle.length)
    (hready : ∀ i ∈ quiet, i.tready = true) (hquiet : 2 ^ aw + 2 ≤ quiet.length) :
    (RxPath.queue aw daw ports port tables s.1 (pre ++ idle ++ quiet)).queue = [] := by
  obtain ⟨-, -, -, -, -, ⟨p, w, hw⟩, -⟩ := hs.state hins hown hover
  have hgiven : s.1.given ports port tables (pre ++ idle ++ quiet) =
      s.1.given ports port tables (pre ++ idle) ++
        (run (RxFront.step tables port) s.1 (pre ++ idle)).given ports port tables quiet :=
    trace_append _ _ _ _ _
  have hshort : (RxPath.queue aw daw ports port tables s.1 (pre ++ idle)).queue.length <
      ((run (RxFront.step tables port) s.1 (pre ++ idle)).given ports port tables quiet).length := by
    have hle := hw.length_queue_le
    rw [RxFront.given, length_trace]
    omega
  rw [RxPath.queue, hgiven, run_append]
  exact (SafSpec.run_quiet aw daw _ (hs.front.given_quiet pre hidle hlen hready) hshort).1

/-- **Frames keep their bytes and their route.**  From a reset, over every run that brings
frames with a key, with any gaps in and between them and any pattern of drain-side ready,
as long as the buffer does not overflow. -/
theorem frames_keep_route (hs : s.Reset) (hins : Arrives frames ins)
    (hown : ∀ f ∈ frames, OwnRoute tables ⟨port, f.bytes⟩)
    (hover : NoOverflow ports port tables s ins) :
    RouteLaw ports port tables s frames ins :=
  { drained := by
      obtain ⟨done, last', -, hdone, hqueue, -⟩ := hs.state hins hown hover
      rw [hdone, routed, List.filter_append, List.flatMap_append]
      exact List.IsPrefix.trans ⟨_, hqueue⟩ (List.prefix_append _ _)
    settled := by
      intro pre idle hsplit hall hidle hlen
      exact ⟨_, hs.state_of_idle hins hown hover hsplit hall hidle hlen⟩
    empties := by
      intro pre idle quiet hsplit hall hidle hlen hready hquiet
      have hlong : 8 ≤ (idle ++ quiet).length := by
        rw [List.length_append]
        omega
      obtain ⟨hout, hkeeps⟩ := hs.state_of_idle hins hown hover
        (hsplit.trans (List.append_assoc _ _ _)) hall hidle hlong
      subst hsplit
      have hbefore : NoOverflow ports port tables s (pre ++ idle) :=
        fun l hl => hover l (hl.trans (List.prefix_append _ _))
      rw [hs.queue_of_quiet hins.left hown hbefore hidle hlen hready hquiet] at hout hkeeps
      rw [List.append_nil] at hout
      exact ⟨hout, hkeeps⟩ }

end Law

/-! ## A frame without a key -/

/-- A port after a reset. -/
def sampleRxPath (aw daw : ℕ) : RxPath aw daw 5 :=
  ({ parser :=
      { hdr := fun _ => 0, byteOff := 0, frameLenQ := 0, ingressQ := 0, eofQ := false, wtsQ := 0
        a := {}, wtsA := 0, a2 := {}, wtsA2 := 0, out := {}, wtsOut := 0 }
     pipe := {}, armed := false, rxd := fun _ => {}, ts := {} },
    { mem := fun _ => {}, rdPtr := 0, wrCommit := 0, wrSpec := 0, aborted := false
      desc := fun _ => {}, descRd := 0, descWr := 0, overflowDrop := false, dbeat := {}
      dvalid := false })

theorem reset_sampleRxPath (aw daw : ℕ) : (sampleRxPath aw daw).Reset :=
  { front := ⟨rfl, rfl, rfl, rfl, rfl, ⟨rfl, rfl, rfl, rfl⟩, fun _ _ _ => rfl, rfl, fun _ _ => rfl⟩
    saf := ⟨rfl, rfl, rfl, rfl, rfl, rfl, rfl, rfl⟩ }

/-- ARP frames are punted to logical interface 7. -/
def sampleRxTables : CardTables 5 :=
  { CardTables.init with
    field :=
      { cmp := fun _ => { src := 8, mask := 0xffff, value := 0x0806 }
        udf := fun _ => {}
        rule := fun _ => { care := 1, action := .puntToHost, lif := 7, enable := true } } }

/-- A frame that is only an Ethernet header, from a station `b`. -/
def sampleWireFrame (b : Byte) (etherType : Byte × Byte) : WireFrame :=
  { bytes := [2, 0, 0, 0, 0, 1, 2, 0, 0, 0, 0, b, etherType.1, etherType.2]
    wireTs := 100 + b.setWidth 64 }

/-- The two beats of such a frame. -/
def sampleRxCycles (f : WireFrame) : List RxIn :=
  [{ beat := axisBeat f.bytes 0, tvalid := true, wireTs := f.wireTs, tready := true },
    { beat := axisBeat f.bytes 8, tvalid := true, wireTs := f.wireTs, tready := true }]

/-- Two frames, an idle cycle before each, and idle cycles behind them. -/
def sampleRxStream (f g : WireFrame) (n : ℕ) : List RxIn :=
  [{ tready := true }] ++ sampleRxCycles f ++ [{ tready := true }] ++ sampleRxCycles g ++
    List.replicate n { tready := true }

/-- Idle cycles go with any frames. -/
theorem follows_replicate_idle (p : RxPhase) (n : ℕ) :
    Follows RxPhase.allow RxPhase.next p (List.replicate n { tready := true }) := by
  induction n generalizing p with
  | zero => trivial
  | succ n ih =>
    refine ⟨?_, ih _⟩
    intro hv
    cases hv

theorem arrives_sampleRxStream (b c : Byte) (s t : Byte × Byte) (n : ℕ) :
    Arrives [sampleWireFrame b s, sampleWireFrame c t]
      (sampleRxStream (sampleWireFrame b s) (sampleWireFrame c t) n) := by
  refine Follows.append ?_ (follows_replicate_idle _ n)
  have hidle : ∀ p : RxPhase, p.allow { tready := true } := by
    intro p hv
    cases hv
  have hstart : 0 < 14 := by decide
  have hmid : 8 < 14 := by decide
  refine ⟨hidle _, ?_, ?_, hidle _, ?_, ?_, trivial⟩
  · exact fun _ => ⟨rfl, _, _, rfl, hstart, rfl, fun _ => rfl⟩
  · exact fun _ => ⟨rfl, _, _, rfl, hmid, rfl, fun _ => rfl⟩
  · exact fun _ => ⟨rfl, _, _, rfl, hstart, rfl, fun _ => rfl⟩
  · exact fun _ => ⟨rfl, _, _, rfl, hmid, rfl, fun _ => rfl⟩

theorem noOverflow_of_inits {ports : ℕ} {port : BitVec 4} {tables : CardTables lfw}
    {s : RxPath aw daw lfw} {ins : List RxIn}
    (h : ∀ l ∈ ins.inits, (run (RxPath.step ports port tables) s l).2.overflowDrop = false) :
    NoOverflow ports port tables s ins :=
  fun l hl => h l ((List.mem_inits l ins).mpr hl)

/-- A frame that no rule matches, one of EtherType 0, and one that is punted. -/
def sampleDropFrame : WireFrame := sampleWireFrame 0x90 (0x88, 0xb5)

@[inherit_doc sampleDropFrame]
def sampleKeylessFrame : WireFrame := sampleWireFrame 0xa0 (0, 0)

@[inherit_doc sampleDropFrame]
def samplePuntFrame : WireFrame := sampleWireFrame 0xb0 (8, 6)

/-- The rule looks at no byte of the window. -/
theorem ownRoute_sample {f : RxFrame} (hlen : 14 ≤ f.bytes.length % 2 ^ 16)
    (htype : frameEtherType f ≠ 0) : OwnRoute sampleRxTables f :=
  { length := hlen
    etherType := htype
    inside := by
      intro r u _ hcare
      have hnone : ∀ u : Fin 2, (1 : BitVec 14).getLsbD (12 + u) = false := by decide
      exact absurd hcare (Bool.eq_false_iff.mp (hnone u)) }

/-- Of a frame that no rule matches and one behind it that is punted, the second is drained,
with its own route. -/
theorem frames_keep_route_sample :
    outputs (RxPath.sent 2 1) (RxPath.step 2 1 sampleRxTables) (sampleRxPath 2 1)
        (sampleRxStream sampleDropFrame samplePuntFrame 14) =
      (axisBeats samplePuntFrame.bytes).map fun b =>
        (b, { punt := true, frameTs := 276, port := 1, lif := 7 }) := by
  have hown : ∀ f ∈ [sampleDropFrame, samplePuntFrame], OwnRoute sampleRxTables ⟨1, f.bytes⟩ := by
    intro f hf
    apply ownRoute_sample
    · revert f
      decide
    · revert f
      decide +kernel
  have hover : NoOverflow 2 1 sampleRxTables (sampleRxPath 2 1)
      (sampleRxStream sampleDropFrame samplePuntFrame 14) := by
    apply noOverflow_of_inits
    decide +kernel
  have hlaw : RouteLaw 2 1 sampleRxTables (sampleRxPath 2 1) [sampleDropFrame, samplePuntFrame]
      (sampleRxStream sampleDropFrame samplePuntFrame 14) :=
    frames_keep_route (reset_sampleRxPath 2 1) (arrives_sampleRxStream _ _ _ _ 14) hown hover
  have hquiet : ∀ n, ∀ i ∈ List.replicate n ({ tready := true } : RxIn),
      i.tvalid = false ∧ i.tready = true := by
    intro n i hi
    rw [List.eq_of_mem_replicate hi]
    exact ⟨rfl, rfl⟩
  have hempties := hlaw.empties (sampleRxStream sampleDropFrame samplePuntFrame 0)
    (List.replicate 8 { tready := true }) (List.replicate 6 { tready := true }) rfl rfl
    (fun i hi => (hquiet 14 i hi).1) (by decide) (fun i hi => (hquiet 6 i hi).2) (by decide)
  rw [hempties.1]
  decide +kernel

/-- **A frame without a key is joined with the next one.**  There is no decision on the
frame of EtherType 0: it is drained with the route of the frame behind it. -/
theorem keyless_frame_joins_next :
    (sampleRxPath 9 4).Reset ∧
    Arrives [sampleKeylessFrame, samplePuntFrame]
      (sampleRxStream sampleKeylessFrame samplePuntFrame 12) ∧
    NoOverflow 2 1 sampleRxTables (sampleRxPath 9 4)
      (sampleRxStream sampleKeylessFrame samplePuntFrame 12) ∧
    ¬RouteLaw 2 1 sampleRxTables (sampleRxPath 9 4) [sampleKeylessFrame, samplePuntFrame]
      (sampleRxStream sampleKeylessFrame samplePuntFrame 12) := by
  refine ⟨reset_sampleRxPath 9 4, arrives_sampleRxStream _ _ _ _ 12, ?_, ?_⟩
  · apply noOverflow_of_inits
    decide +kernel
  · intro h
    have hdrained := h.drained
    revert hdrained
    decide +kernel

end PacketWyrm
