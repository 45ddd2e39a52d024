import Mathlib.Algebra.BigOperators.Fin
import PacketWyrm.Types
import PacketWyrm.Lib.CountedRing

/-!
# The host packet plane

A worker of the daemon moves the frames that a card punts to the TAP devices of their interfaces,
and the frames that are sent into the TAP devices to the card.  Meanwhile the card goes on.

## Main definitions

* `HostBindings`, `pwHostPlaneBind` — the TAP device of each interface.
* `SlowOps` — what the host plane asks of a card.
* `HostState.iter` — one round of the two loops of `pw_host_plane_step`.
* `FakeCtx`, `fakeOps` — the software card, with its two rings.
* `HostState.Books` — the counters are right, and what went to the TAP devices.

## Main results

* `HostState.Books.iter` — a round keeps the books, whatever the card is.
* `host_plane_conserves` — over all runs, no frame is lost, made up, changed or overtaken.
* `host_plane_step_returns` — a call ends, however fast the frames come.
-/

namespace PacketWyrm

open Lib

/-! ## Bindings -/

/-- `PW_HOST_PLANE_MAX_BINDINGS`. -/
def pwHostPlaneMaxBindings : ℕ := 32

/-- `PW_HOST_FRAME_MAX`. -/
def pwHostFrameMax : ℕ := 9600

/-- `struct pw_host_binding`. -/
structure HostBinding where
  logicalIfId : BitVec 32
  fd : ℤ
  egressLocalPort : Byte
  deriving DecidableEq, Repr

/-- The bindings of a host plane: an interface has one, and there is room for all. -/
structure HostBindings where
  list : List HostBinding
  nodup : (list.map HostBinding.logicalIfId).Nodup
  le : list.length ≤ pwHostPlaneMaxBindings

namespace HostBindings

/-- `pw_host_plane_init`. -/
def init : HostBindings := ⟨[], List.nodup_nil, Nat.zero_le _⟩

/-- `find_binding`. -/
def find (hb : HostBindings) (lif : BitVec 32) : Option ℕ :=
  hb.list.findIdx? fun b => b.logicalIfId == lif

variable {hb : HostBindings} {lif : BitVec 32}

theorem find_eq_some {b : ℕ} (h : hb.find lif = some b) :
    ∃ x, hb.list[b]? = some x ∧ x.logicalIfId = lif := by
  obtain ⟨hlt, hb', -⟩ := List.findIdx?_eq_some_iff_getElem.mp h
  exact ⟨hb.list[b], List.getElem?_eq_getElem hlt, by simpa using hb'⟩

theorem find_eq_none (h : hb.find lif = none) : ∀ x ∈ hb.list, x.logicalIfId ≠ lif := by
  intro x hx heq
  have hnot := List.findIdx?_eq_none_iff.mp h x hx
  rw [heq] at hnot
  simp at hnot

theorem nodup_append_binding (h : hb.find lif = none) (fd : ℤ) (egress : Byte) :
    ((hb.list ++ [(⟨lif, fd, egress⟩ : HostBinding)]).map HostBinding.logicalIfId).Nodup := by
  rw [List.map_append, List.map_singleton, List.nodup_append]
  refine ⟨hb.nodup, List.nodup_singleton _, ?_⟩
  intro x hx y hy
  obtain ⟨z, hz, rfl⟩ := List.mem_map.mp hx
  rw [List.mem_singleton.mp hy]
  exact find_eq_none h z hz

theorem length_append_binding (h : hb.list.length < pwHostPlaneMaxBindings) (x : HostBinding) :
    (hb.list ++ [x]).length ≤ pwHostPlaneMaxBindings := by
  rw [List.length_append, List.length_singleton]
  exact h

end HostBindings

/-- `pw_host_plane_bind`. -/
def pwHostPlaneBind (hb : HostBindings) (lif : BitVec 32) (fd : ℤ) (egress : Byte) :
    Except PwStatus HostBindings :=
  if fd < 0 then .error .inval
  else
    match hfind : hb.find lif with
    | some _ => .error .dupLogicalIf
    | none =>
      if hroom : hb.list.length < pwHostPlaneMaxBindings then
        .ok {
          list := hb.list ++ [⟨lif, fd, egress⟩]
          nodup := hb.nodup_append_binding hfind fd egress
          le := hb.length_append_binding hroom _ }
      else .error .noResources

/-! ## The card -/

/-- The slow-path operations of a card: up to `buflen` bytes of a frame with its interface, and a
frame taken for an egress port. -/
structure SlowOps (β : Type) where
  rx : β → ℕ → Option (List Byte × BitVec 32) × β
  tx : β → List Byte → BitVec 32 → Byte → Except PwStatus Unit × β

/-! ## The step -/

/-- Where a call of `pw_host_plane_step` is: not running, at round `i` of the loop over punted
frames, or at round `i` of the loop over the frames of binding `b`. -/
inductive HostPc where
  | idle
  | punt (i : ℕ)
  | inject (b i : ℕ)
  deriving DecidableEq, Repr

/-- What became of a punted frame: it was empty, its interface has no binding, or it was written to
the TAP device of a binding, or not. -/
inductive PuntFate where
  | void
  | unknown
  | delivered (b : ℕ)
  | dropped (b : ℕ)
  deriving DecidableEq, Repr

/-- A frame that the card punted, with its interface and what became of it. -/
structure Punted where
  frame : List Byte
  lif : BitVec 32
  fate : PuntFate
  deriving DecidableEq, Repr

/-- A frame that was read from the TAP device of a binding, and whether the card took it. -/
structure Injected where
  binding : ℕ
  frame : List Byte
  taken : Bool
  deriving DecidableEq, Repr

/-- `struct pw_host_plane` without its bindings, and a running call with its locals.  `tapOut` is
what was written to the TAP devices; `punts` and `injects` remember all frames. -/
structure HostState (β : Type) where
  backend : β
  pc : HostPc
  maxPerDir : ℕ
  moved : ℕ
  puntToTapOk : ℕ → ℕ
  puntToTapDropped : ℕ → ℕ
  tapToFpgaOk : ℕ → ℕ
  tapToFpgaDropped : ℕ → ℕ
  puntUnknownLif : ℕ
  tapOut : List (ℤ × List Byte)
  punts : List Punted
  injects : List Injected

/-- `x[b]++`. -/
def incr (x : ℕ → ℕ) (b : ℕ) : ℕ → ℕ := Function.update x b (x b + 1)

namespace HostState

variable {β : Type}

/-- Before any call. -/
def start (backend : β) : HostState β where
  backend := backend
  pc := .idle
  maxPerDir := 0
  moved := 0
  puntToTapOk := fun _ => 0
  puntToTapDropped := fun _ => 0
  tapToFpgaOk := fun _ => 0
  tapToFpgaDropped := fun _ => 0
  puntUnknownLif := 0
  tapOut := []
  punts := []
  injects := []

/-- `pw_host_plane_step` is called. -/
def call (s : HostState β) (maxPerDir : ℕ) : HostState β :=
  if s.pc = .idle then { s with pc := .punt 0, maxPerDir, moved := 0 } else s

/-- A round of the loop over punted frames; `wrote` says that the `write` takes all of the frame. -/
def puntRound (ops : SlowOps β) (hb : HostBindings) (s : HostState β) (i : ℕ) (wrote : Bool) :
    HostState β :=
  match ops.rx s.backend pwHostFrameMax with
  | (none, backend) => { s with backend, pc := .inject 0 0 }
  | (some (frame, lif), backend) =>
    if frame = [] then
      { s with backend, pc := .inject 0 0, punts := s.punts ++ [⟨frame, lif, .void⟩] }
    else
      let s := { s with backend, pc := .punt (i + 1) }
      match hb.find lif with
      | none =>
        { s with
          puntUnknownLif := s.puntUnknownLif + 1
          punts := s.punts ++ [⟨frame, lif, .unknown⟩] }
      | some b =>
        if wrote then
          { s with
            puntToTapOk := incr s.puntToTapOk b
            moved := s.moved + 1
            tapOut := s.tapOut ++ (hb.list[b]?.map fun x => (x.fd, frame)).toList
            punts := s.punts ++ [⟨frame, lif, .delivered b⟩] }
        else
          { s with
            puntToTapDropped := incr s.puntToTapDropped b
            punts := s.punts ++ [⟨frame, lif, .dropped b⟩] }

/-- A round of the loop over the frames of a binding; `packet` is what there is to read, if
anything. -/
def injectRound (ops : SlowOps β) (s : HostState β) (b i : ℕ) (x : HostBinding)
    (packet : List Byte) : HostState β :=
  let frame := packet.take pwHostFrameMax
  if frame = [] then { s with pc := .inject (b + 1) 0 }
  else
    match ops.tx s.backend frame x.logicalIfId x.egressLocalPort with
    | (.ok _, backend) =>
      { s with
        backend
        pc := .inject b (i + 1)
        tapToFpgaOk := incr s.tapToFpgaOk b
        moved := s.moved + 1
        injects := s.injects ++ [⟨b, packet, true⟩] }
    | (.error _, backend) =>
      { s with
        backend
        pc := .inject b (i + 1)
        tapToFpgaDropped := incr s.tapToFpgaDropped b
        injects := s.injects ++ [⟨b, packet, false⟩] }

/-- One round of `pw_host_plane_step`, or the way from one loop to the next. -/
def iter (ops : SlowOps β) (hb : HostBindings) (s : HostState β) (wrote : Bool)
    (packet : List Byte) : HostState β :=
  match s.pc with
  | .idle => s
  | .punt i =>
    if i < s.maxPerDir then s.puntRound ops hb i wrote else { s with pc := .inject 0 0 }
  | .inject b i =>
    match hb.list[b]? with
    | none => { s with pc := .idle }
    | some x =>
      if i < s.maxPerDir then s.injectRound ops b i x packet
      else { s with pc := .inject (b + 1) 0 }

end HostState

/-! ## The software card -/

/-- `FAKE_SLOW_PATH_DEPTH`. -/
def fakeSlowPathDepth : ℕ := 64

/-- `FAKE_SLOW_FRAME_MAX`. -/
def fakeSlowFrameMax : ℕ := 2048

/-- `struct fake_slow_entry`: the bytes in use of its buffer. -/
structure FakeSlowEntry where
  data : List Byte
  logicalIfId : BitVec 32
  egressLocalPort : Byte
  deriving DecidableEq, Repr

/-- `struct fake_slow_fifo`. -/
abbrev FakeSlowFifo := CountedRing FakeSlowEntry fakeSlowPathDepth

/-- `slow_push`. -/
def slowPush (f : FakeSlowFifo) (e : FakeSlowEntry) : Option FakeSlowFifo :=
  if e.data.length ≤ fakeSlowFrameMax then f.push e else none

/-- `slow_pop`, with what there is room for. -/
def slowPop (f : FakeSlowFifo) (buflen : ℕ) : Option FakeSlowEntry × FakeSlowFifo :=
  match f.pop with
  | some (e, f) => (some { e with data := e.data.take buflen }, f)
  | none => (none, f)

/-- The slow path of `struct fake_ctx`. -/
structure FakeCtx where
  puntRx : FakeSlowFifo
  txInject : FakeSlowFifo

/-- `fake_slow_path_rx` and `fake_slow_path_tx`. -/
def fakeOps : SlowOps FakeCtx where
  rx c buflen :=
    let (e, f) := slowPop c.puntRx buflen
    (e.map fun e => (e.data, e.logicalIfId), { c with puntRx := f })
  tx c frame lif egress :=
    match slowPush c.txInject ⟨frame, lif, egress⟩ with
    | some f => (.ok (), { c with txInject := f })
    | none => (.error .noResources, c)

/-- `pw_fake_backend_inject_punt`. -/
def pwFakeBackendInjectPunt (c : FakeCtx) (lif : BitVec 32) (frame : List Byte) :
    Except PwStatus Unit × FakeCtx :=
  match slowPush c.puntRx ⟨frame, lif, 0⟩ with
  | some f => (.ok (), { c with puntRx := f })
  | none => (.error .noResources, c)

/-- `pw_fake_backend_drain_tx`. -/
def pwFakeBackendDrainTx (c : FakeCtx) (buflen : ℕ) : Option FakeSlowEntry × FakeCtx :=
  let (e, f) := slowPop c.txInject buflen
  (e, { c with txInject := f })

/-! ## The books -/

namespace HostState

variable {β : Type}

/-- What the write of a punted frame puts where. -/
def delivery (hb : HostBindings) (p : Punted) : Option (ℤ × List Byte) :=
  match p.fate with
  | .delivered b => hb.list[b]?.map fun x => (x.fd, p.frame)
  | _ => none

/-- The fate of a frame is that of its interface. -/
def FateFits (hb : HostBindings) (p : Punted) : Prop :=
  match p.fate with
  | .void => p.frame = []
  | .unknown => p.frame ≠ [] ∧ ∀ x ∈ hb.list, x.logicalIfId ≠ p.lif
  | .delivered b | .dropped b =>
    p.frame ≠ [] ∧ ∃ x, hb.list[b]? = some x ∧ x.logicalIfId = p.lif

/-- The books are right: every frame is counted where it belongs, and the TAP devices got what was
delivered, in this order. -/
structure Books (hb : HostBindings) (s : HostState β) : Prop where
  ok : ∀ b, s.puntToTapOk b = s.punts.countP fun p => p.fate = .delivered b
  dropped : ∀ b, s.puntToTapDropped b = s.punts.countP fun p => p.fate = .dropped b
  unknown : s.puntUnknownLif = s.punts.countP fun p => p.fate = .unknown
  fits : ∀ p ∈ s.punts, FateFits hb p
  tapOut : s.tapOut = s.punts.filterMap (delivery hb)
  fpgaOk : ∀ b, s.tapToFpgaOk b = s.injects.countP fun p => p.binding = b ∧ p.taken = true
  fpgaDropped : ∀ b,
    s.tapToFpgaDropped b = s.injects.countP fun p => p.binding = b ∧ p.taken = false
  bound : ∀ p ∈ s.injects, p.binding < hb.list.length ∧ p.frame ≠ []

variable {hb : HostBindings} {s : HostState β} {ops : SlowOps β}

theorem books_start (backend : β) : (start backend).Books hb where
  ok _ := rfl
  dropped _ := rfl
  unknown := rfl
  fits _ hp := absurd hp List.not_mem_nil
  tapOut := rfl
  fpgaOk _ := rfl
  fpgaDropped _ := rfl
  bound _ hp := absurd hp List.not_mem_nil

theorem incr_apply (x : ℕ → ℕ) (b b' : ℕ) : incr x b b' = x b' + if b = b' then 1 else 0 := by
  rw [incr, Function.update_apply]
  by_cases h : b' = b
  · rw [if_pos h, if_pos h.symm, h]
  · rw [if_neg h, if_neg (Ne.symm h), Nat.add_zero]

theorem countP_concat {α : Type} (q : α → Bool) (l : List α) (x : α) :
    (l ++ [x]).countP q = l.countP q + if q x = true then 1 else 0 := by
  rw [List.countP_append, List.countP_singleton]

/-- A punted frame is booked. -/
theorem Books.punted (h : s.Books hb) {t : HostState β} {p : Punted} (hfits : FateFits hb p)
    (hok : ∀ b, t.puntToTapOk b = s.puntToTapOk b + if p.fate = .delivered b then 1 else 0)
    (hdropped : ∀ b,
      t.puntToTapDropped b = s.puntToTapDropped b + if p.fate = .dropped b then 1 else 0)
    (hunknown : t.puntUnknownLif = s.puntUnknownLif + if p.fate = .unknown then 1 else 0)
    (hpunts : t.punts = s.punts ++ [p]) (hout : t.tapOut = s.tapOut ++ (delivery hb p).toList)
    (hfpga : t.tapToFpgaOk = s.tapToFpgaOk ∧ t.tapToFpgaDropped = s.tapToFpgaDropped ∧
      t.injects = s.injects) : t.Books hb := by
  obtain ⟨hfok, hfdropped, hinj⟩ := hfpga
  refine ⟨?_, ?_, ?_, ?_, ?_, ?_, ?_, ?_⟩
  · intro b
    rw [hok, h.ok, hpunts, countP_concat]
    simp only [decide_eq_true_eq]
  · intro b
    rw [hdropped, h.dropped, hpunts, countP_concat]
    simp only [decide_eq_true_eq]
  · rw [hunknown, h.unknown, hpunts, countP_concat]
    simp only [decide_eq_true_eq]
  · intro q hq
    rw [hpunts, List.mem_append, List.mem_singleton] at hq
    rcases hq with hq | rfl
    · exact h.fits q hq
    · exact hfits
  · rw [hout, h.tapOut, hpunts, List.filterMap_append]
    cases hd : delivery hb p with
    | none => rw [List.filterMap_cons_none hd]; rfl
    | some x => rw [List.filterMap_cons_some hd]; rfl
  · intro b
    rw [hfok, hinj, h.fpgaOk]
  · intro b
    rw [hfdropped, hinj, h.fpgaDropped]
  · rw [hinj]
    exact h.bound

/-- An injected frame is booked. -/
theorem Books.injected (h : s.Books hb) {t : HostState β} {p : Injected}
    (hbound : p.binding < hb.list.length ∧ p.frame ≠ [])
    (hok : ∀ b, t.tapToFpgaOk b =
      s.tapToFpgaOk b + if p.binding = b ∧ p.taken = true then 1 else 0)
    (hdropped : ∀ b, t.tapToFpgaDropped b =
      s.tapToFpgaDropped b + if p.binding = b ∧ p.taken = false then 1 else 0)
    (hinj : t.injects = s.injects ++ [p])
    (hpunt : t.puntToTapOk = s.puntToTapOk ∧ t.puntToTapDropped = s.puntToTapDropped ∧
      t.puntUnknownLif = s.puntUnknownLif ∧ t.tapOut = s.tapOut ∧ t.punts = s.punts) :
    t.Books hb := by
  obtain ⟨hpok, hpdropped, hpunknown, hout, hpunts⟩ := hpunt
  refine ⟨?_, ?_, ?_, ?_, ?_, ?_, ?_, ?_⟩
  · intro b
    rw [hpok, hpunts, h.ok]
  · intro b
    rw [hpdropped, hpunts, h.dropped]
  · rw [hpunknown, hpunts, h.unknown]
  · rw [hpunts]
    exact h.fits
  · rw [hout, hpunts, h.tapOut]
  · intro b
    rw [hok, h.fpgaOk, hinj, countP_concat]
    simp only [decide_eq_true_eq]
  · intro b
    rw [hdropped, h.fpgaDropped, hinj, countP_concat]
    simp only [decide_eq_true_eq]
  · intro q hq
    rw [hinj, List.mem_append, List.mem_singleton] at hq
    rcases hq with hq | rfl
    · exact h.bound q hq
    · exact hbound

/-- What the books do not look at. -/
theorem Books.of_eq (h : s.Books hb) {t : HostState β} (backend : β) (pc : HostPc)
    (maxPerDir moved : ℕ) (ht : t = { s with backend, pc, maxPerDir, moved }) : t.Books hb := by
  subst ht
  exact ⟨h.ok, h.dropped, h.unknown, h.fits, h.tapOut, h.fpgaOk, h.fpgaDropped, h.bound⟩

theorem Books.call (h : s.Books hb) (maxPerDir : ℕ) : (s.call maxPerDir).Books hb := by
  rw [HostState.call]
  split_ifs
  · exact h.of_eq _ _ _ _ rfl
  · exact h

theorem Books.puntRound (h : s.Books hb) (i : ℕ) (wrote : Bool) :
    (s.puntRound ops hb i wrote).Books hb := by
  rw [HostState.puntRound]
  split
  · exact h.of_eq _ _ _ _ rfl
  next frame lif backend hrx =>
  split
  · next hnil =>
    apply h.punted (p := ⟨frame, lif, .void⟩) hnil <;> simp [delivery]
  next hnil =>
  dsimp only
  cases hfind : hb.find lif with
  | none =>
    apply h.punted (p := ⟨frame, lif, .unknown⟩) ⟨hnil, HostBindings.find_eq_none hfind⟩ <;>
      simp [delivery]
  | some b =>
    have hfits := HostBindings.find_eq_some hfind
    dsimp only
    split_ifs with hwrote
    · apply h.punted (p := ⟨frame, lif, .delivered b⟩) ⟨hnil, hfits⟩ <;>
        simp [delivery, incr_apply]
    · apply h.punted (p := ⟨frame, lif, .dropped b⟩) ⟨hnil, hfits⟩ <;>
        simp [delivery, incr_apply]

theorem Books.injectRound (h : s.Books hb) {b : ℕ} (i : ℕ) {x : HostBinding}
    (hx : hb.list[b]? = some x) (packet : List Byte) :
    (s.injectRound ops b i x packet).Books hb := by
  have hlt := (List.getElem?_eq_some_iff.mp hx).1
  rw [HostState.injectRound]
  split
  · exact h.of_eq _ _ _ _ rfl
  next hnil =>
  have hne : packet ≠ [] := by
    rintro rfl
    exact hnil List.take_nil
  split
  · apply h.injected (p := ⟨b, packet, true⟩) ⟨hlt, hne⟩ <;> simp [incr_apply]
  · apply h.injected (p := ⟨b, packet, false⟩) ⟨hlt, hne⟩ <;> simp [incr_apply]

/-- **A round keeps the books**, whatever the card is. -/
theorem Books.iter (h : s.Books hb) (wrote : Bool) (packet : List Byte) :
    (s.iter ops hb wrote packet).Books hb := by
  rw [HostState.iter]
  split
  · exact h
  · split_ifs
    · exact h.puntRound _ _
    · exact h.of_eq _ _ _ _ rfl
  · split
    · exact h.of_eq _ _ _ _ rfl
    · next x hx =>
      split_ifs
      · exact h.injectRound _ hx _
      · exact h.of_eq _ _ _ _ rfl

end HostState

/-! ## What a round takes from the card and gives to it -/

namespace HostState

variable {β : Type} {hb : HostBindings} {s : HostState β} {ops : SlowOps β}

/-- A round of the first loop takes what the card has for it. -/
theorem puntRound_log (ops : SlowOps β) (hb : HostBindings) (s : HostState β) (i : ℕ)
    (wrote : Bool) :
    (s.puntRound ops hb i wrote).backend = (ops.rx s.backend pwHostFrameMax).2 ∧
      (s.puntRound ops hb i wrote).injects = s.injects ∧
      (s.puntRound ops hb i wrote).punts.map (fun p => (p.frame, p.lif)) =
        s.punts.map (fun p => (p.frame, p.lif)) ++
          (ops.rx s.backend pwHostFrameMax).1.toList := by
  rw [puntRound]
  cases hrx : ops.rx s.backend pwHostFrameMax with
  | mk got backend =>
  cases got with
  | none => simp
  | some x =>
    obtain ⟨frame, lif⟩ := x
    dsimp only
    split
    · simp
    · cases hb.find lif with
      | none => simp
      | some b => cases wrote <;> simp

/-- A round of the second loop does nothing, or it offers a frame to the card. -/
theorem injectRound_log (ops : SlowOps β) (s : HostState β) (b i : ℕ) (x : HostBinding)
    (packet : List Byte) :
    let t := s.injectRound ops b i x packet
    let tx := ops.tx s.backend (packet.take pwHostFrameMax) x.logicalIfId x.egressLocalPort
    t.punts = s.punts ∧
      ((t.backend = s.backend ∧ t.injects = s.injects) ∨
        (t.backend = tx.2 ∧ tx.1 = .ok () ∧ t.injects = s.injects ++ [⟨b, packet, true⟩]) ∨
        (t.backend = tx.2 ∧ (∃ e, tx.1 = .error e) ∧
          t.injects = s.injects ++ [⟨b, packet, false⟩])) := by
  dsimp only
  rw [injectRound]
  split
  · exact ⟨rfl, Or.inl ⟨rfl, rfl⟩⟩
  split
  · next htx =>
    rw [htx]
    exact ⟨rfl, Or.inr (Or.inl ⟨rfl, rfl, rfl⟩)⟩
  · next e backend htx =>
    rw [htx]
    exact ⟨rfl, Or.inr (Or.inr ⟨rfl, ⟨e, rfl⟩, rfl⟩)⟩

end HostState

/-! ## The rings -/

section Rings

variable {f : FakeSlowFifo} {q : List FakeSlowEntry}

/-- The list stands in the ring, and its frames fit. -/
structure InFifo (f : FakeSlowFifo) (q : List FakeSlowEntry) : Prop where
  holds : f.Holds q
  fits : ∀ e ∈ q, e.data.length ≤ fakeSlowFrameMax

theorem InFifo.push (h : InFifo f q) {e : FakeSlowEntry} {f' : FakeSlowFifo}
    (hpush : slowPush f e = some f') :
    InFifo f' (q ++ [e]) ∧ e.data.length ≤ fakeSlowFrameMax := by
  rw [slowPush] at hpush
  split_ifs at hpush with hlen
  have hroom : q.length < fakeSlowPathDepth := by
    by_contra hfull
    rw [CountedRing.push_full h.holds hfull] at hpush
    cases hpush
  obtain ⟨f'', hf'', hholds⟩ := h.holds.push hroom e
  rw [hf''] at hpush
  cases hpush
  refine ⟨⟨hholds, fun e' he' => ?_⟩, hlen⟩
  rcases List.mem_append.mp he' with he' | he'
  · exact h.fits e' he'
  · rw [List.mem_singleton.mp he']
    exact hlen

/-- A pop with room for a frame takes the oldest one whole. -/
theorem InFifo.pop (h : InFifo f q) {n : ℕ} (hn : fakeSlowFrameMax ≤ n) :
    ∃ q', q = (slowPop f n).1.toList ++ q' ∧ InFifo (slowPop f n).2 q' := by
  rw [slowPop]
  cases q with
  | nil =>
    rw [CountedRing.pop_nil h.holds]
    exact ⟨[], rfl, h⟩
  | cons e q =>
    obtain ⟨f', hpop, hholds⟩ := h.holds.pop
    have hwhole : e.data.take n = e.data :=
      List.take_of_length_le ((h.fits e List.mem_cons_self).trans hn)
    rw [hpop]
    dsimp only
    rw [hwhole]
    exact ⟨q, rfl, hholds, fun e' he' => h.fits e' (List.mem_cons_of_mem _ he')⟩

end Rings

/-! ## Runs over the software card -/

/-- A host plane over the software card; `accepted` are the frames that the card punted, and
`drained` those that were taken out of it. -/
structure FakeRun where
  host : HostState FakeCtx
  accepted : List FakeSlowEntry
  drained : List FakeSlowEntry

/-- A call is made, a round of it happens, the card punts a frame, or a frame is taken out of the
card by a reader that has room for one. -/
inductive HostEvent where
  | call (maxPerDir : ℕ)
  | iter (wrote : Bool) (packet : List Byte)
  | injectPunt (lif : BitVec 32) (frame : List Byte)
  | drainTx (room : { n : ℕ // fakeSlowFrameMax ≤ n })

/-- An entry of a ring whose buffer was never used. -/
def blankEntry : FakeSlowEntry := ⟨[], 0, 0⟩

namespace FakeRun

/-- A card that was opened, and nothing bound to it yet. -/
def start : FakeRun where
  host := .start ⟨.empty blankEntry, .empty blankEntry⟩
  accepted := []
  drained := []

def step (hb : HostBindings) (t : FakeRun) : HostEvent → FakeRun
  | .call maxPerDir => { t with host := t.host.call maxPerDir }
  | .iter wrote packet => { t with host := t.host.iter fakeOps hb wrote packet }
  | .injectPunt lif frame =>
    match pwFakeBackendInjectPunt t.host.backend lif frame with
    | (.ok _, c) =>
      { t with host := { t.host with backend := c }, accepted := t.accepted ++ [⟨frame, lif, 0⟩] }
    | (.error _, c) => { t with host := { t.host with backend := c } }
  | .drainTx room =>
    let (e, c) := pwFakeBackendDrainTx t.host.backend room
    { t with host := { t.host with backend := c }, drained := t.drained ++ e.toList }

def run (hb : HostBindings) (t : FakeRun) (events : List HostEvent) : FakeRun :=
  events.foldl (step hb) t

/-- What a frame that the card took is in its ring. -/
def entryOf (hb : HostBindings) (p : Injected) : Option FakeSlowEntry :=
  if p.taken then hb.list[p.binding]?.map fun x => ⟨p.frame, x.logicalIfId, x.egressLocalPort⟩
  else none

/-- What was punted, as the host plane sees it. -/
def seen (e : FakeSlowEntry) : List Byte × BitVec 32 := (e.data, e.logicalIfId)

/-- Nothing is lost on the way: what is not through yet stands in the rings. -/
structure Conserved (hb : HostBindings) (t : FakeRun) (qp qt : List FakeSlowEntry) : Prop where
  books : t.host.Books hb
  puntRx : InFifo t.host.backend.puntRx qp
  txInject : InFifo t.host.backend.txInject qt
  punted : t.accepted.map seen = t.host.punts.map (fun p => (p.frame, p.lif)) ++ qp.map seen
  injected : t.host.injects.filterMap (entryOf hb) = t.drained ++ qt

variable {hb : HostBindings} {t : FakeRun} {qp qt : List FakeSlowEntry}

theorem conserved_start : Conserved hb start [] [] where
  books := HostState.books_start _
  puntRx := ⟨CountedRing.holds_empty _ _, by simp⟩
  txInject := ⟨CountedRing.holds_empty _ _, by simp⟩
  punted := rfl
  injected := rfl

namespace Conserved

theorem call (h : Conserved hb t qp qt) (maxPerDir : ℕ) :
    Conserved hb (t.step hb (.call maxPerDir)) qp qt := by
  have hsame : ∀ {β : Type} (s : HostState β), (s.call maxPerDir).backend = s.backend ∧
      (s.call maxPerDir).punts = s.punts ∧ (s.call maxPerDir).injects = s.injects := by
    intro β s
    rw [HostState.call]
    split_ifs <;> exact ⟨rfl, rfl, rfl⟩
  obtain ⟨hb', hp, hi⟩ := hsame t.host
  refine ⟨h.books.call maxPerDir, ?_, ?_, ?_, ?_⟩ <;> simp only [step, hb', hp, hi]
  · exact h.puntRx
  · exact h.txInject
  · exact h.punted
  · exact h.injected

/-- A round that takes nothing and gives nothing. -/
theorem keep (h : Conserved hb t qp qt) {s : HostState FakeCtx} (hbooks : s.Books hb)
    (hbackend : s.backend = t.host.backend) (hpunts : s.punts = t.host.punts)
    (hinjects : s.injects.filterMap (entryOf hb) = t.host.injects.filterMap (entryOf hb)) :
    Conserved hb { t with host := s } qp qt where
  books := hbooks
  puntRx := hbackend ▸ h.puntRx
  txInject := hbackend ▸ h.txInject
  punted := hpunts ▸ h.punted
  injected := hinjects.trans h.injected

theorem puntRound (h : Conserved hb t qp qt) (i : ℕ) (wrote : Bool) :
    ∃ qp', Conserved hb { t with host := t.host.puntRound fakeOps hb i wrote } qp' qt := by
  obtain ⟨hbackend, hinjects, hpunts⟩ := HostState.puntRound_log fakeOps hb t.host i wrote
  obtain ⟨qp', hqp, hfifo⟩ := h.puntRx.pop (n := pwHostFrameMax) (by decide)
  refine ⟨qp', h.books.puntRound i wrote, ?_, ?_, ?_, ?_⟩
  · dsimp only
    rw [hbackend]
    exact hfifo
  · dsimp only
    rw [hbackend]
    exact h.txInject
  · dsimp only
    rw [hpunts, h.punted, hqp, List.map_append, ← List.append_assoc]
    congr 2
    dsimp only [fakeOps]
    cases (slowPop t.host.backend.puntRx pwHostFrameMax).1 <;> rfl
  · dsimp only
    rw [hinjects]
    exact h.injected

theorem injectRound (h : Conserved hb t qp qt) {b : ℕ} (i : ℕ) {x : HostBinding}
    (hx : hb.list[b]? = some x) (packet : List Byte) :
    ∃ qt', Conserved hb { t with host := t.host.injectRound fakeOps b i x packet } qp qt' := by
  have hbooks : (t.host.injectRound fakeOps b i x packet).Books hb :=
    h.books.injectRound i hx packet
  obtain ⟨hpunts, hlog⟩ := HostState.injectRound_log fakeOps t.host b i x packet
  have htx : fakeOps.tx t.host.backend (packet.take pwHostFrameMax) x.logicalIfId
      x.egressLocalPort =
      match slowPush t.host.backend.txInject
        ⟨packet.take pwHostFrameMax, x.logicalIfId, x.egressLocalPort⟩ with
      | some f => (.ok (), { t.host.backend with txInject := f })
      | none => (.error .noResources, t.host.backend) := rfl
  rw [htx] at hlog
  rcases hlog with ⟨hbackend, hinj⟩ | ⟨hbackend, hok, hinj⟩ | ⟨hbackend, ⟨e, he⟩, hinj⟩
  · exact ⟨qt, h.keep hbooks hbackend hpunts (congrArg _ hinj)⟩
  · -- the card took the frame, so it was not cut
    cases hpush : slowPush t.host.backend.txInject
        ⟨packet.take pwHostFrameMax, x.logicalIfId, x.egressLocalPort⟩ with
    | none =>
      rw [hpush] at hok
      cases hok
    | some f =>
      rw [hpush] at hbackend
      obtain ⟨hfifo, hlen⟩ := h.txInject.push hpush
      have hwhole : packet.take pwHostFrameMax = packet := by
        apply List.take_of_length_le
        by_contra hlong
        rw [List.length_take, min_eq_left (not_le.mp hlong).le] at hlen
        exact absurd hlen (by decide)
      rw [hwhole] at hfifo
      refine ⟨qt ++ [⟨packet, x.logicalIfId, x.egressLocalPort⟩], hbooks, ?_, ?_, ?_, ?_⟩
      · dsimp only
        rw [hbackend]
        exact h.puntRx
      · dsimp only
        rw [hbackend]
        exact hfifo
      · dsimp only
        rw [hpunts]
        exact h.punted
      · dsimp only
        rw [hinj, List.filterMap_append, h.injected, List.append_assoc]
        congr 2
        simp [entryOf, hx]
  · cases hpush : slowPush t.host.backend.txInject
        ⟨packet.take pwHostFrameMax, x.logicalIfId, x.egressLocalPort⟩ with
    | none =>
      rw [hpush] at hbackend
      refine ⟨qt, h.keep hbooks hbackend hpunts ?_⟩
      rw [hinj, List.filterMap_append]
      exact List.append_nil _
    | some f =>
      rw [hpush] at he
      cases he

theorem iter (h : Conserved hb t qp qt) (wrote : Bool) (packet : List Byte) :
    ∃ qp' qt', Conserved hb (t.step hb (.iter wrote packet)) qp' qt' := by
  have hbooks : (t.host.iter fakeOps hb wrote packet).Books hb := h.books.iter wrote packet
  rw [step]
  rw [HostState.iter] at hbooks ⊢
  split at hbooks
  · exact ⟨qp, qt, h.keep hbooks rfl rfl rfl⟩
  · next i hpc =>
    split_ifs at hbooks ⊢
    · obtain ⟨qp', hq⟩ := h.puntRound i wrote
      exact ⟨qp', qt, hq⟩
    · exact ⟨qp, qt, h.keep hbooks rfl rfl rfl⟩
  · next b i hpc =>
    cases hx : hb.list[b]? with
    | none =>
      rw [hx] at hbooks
      exact ⟨qp, qt, h.keep hbooks rfl rfl rfl⟩
    | some x =>
      rw [hx] at hbooks
      dsimp only at hbooks ⊢
      split_ifs at hbooks ⊢
      · obtain ⟨qt', hq⟩ := h.injectRound i hx packet
        exact ⟨qp, qt', hq⟩
      · exact ⟨qp, qt, h.keep hbooks rfl rfl rfl⟩

theorem injectPunt (h : Conserved hb t qp qt) (lif : BitVec 32) (frame : List Byte) :
    ∃ qp', Conserved hb (t.step hb (.injectPunt lif frame)) qp' qt := by
  have hbooks : ∀ c, ({ t.host with backend := c } : HostState FakeCtx).Books hb :=
    fun c => h.books.of_eq c _ _ _ rfl
  rw [step, pwFakeBackendInjectPunt]
  cases hpush : slowPush t.host.backend.puntRx ⟨frame, lif, 0⟩ with
  | none => exact ⟨qp, h.keep (hbooks _) rfl rfl rfl⟩
  | some f =>
    refine ⟨_, hbooks _, (h.puntRx.push hpush).1, h.txInject, ?_, h.injected⟩
    dsimp only
    rw [List.map_append, List.map_append, h.punted, List.append_assoc]

theorem drainTx (h : Conserved hb t qp qt) (room : { n : ℕ // fakeSlowFrameMax ≤ n }) :
    ∃ qt', Conserved hb (t.step hb (.drainTx room)) qp qt' := by
  obtain ⟨qt', hqt, hfifo⟩ := h.txInject.pop room.2
  refine ⟨qt', h.books.of_eq _ _ _ _ rfl, h.puntRx, hfifo, h.punted, ?_⟩
  dsimp only [step, pwFakeBackendDrainTx]
  rw [h.injected, List.append_assoc, ← hqt]

/-- **A step loses nothing**, whoever takes it. -/
theorem step (h : Conserved hb t qp qt) (e : HostEvent) :
    ∃ qp' qt', Conserved hb (t.step hb e) qp' qt' := by
  cases e with
  | call maxPerDir => exact ⟨qp, qt, h.call maxPerDir⟩
  | iter wrote packet => exact h.iter wrote packet
  | injectPunt lif frame =>
    obtain ⟨qp', hq⟩ := h.injectPunt lif frame
    exact ⟨qp', qt, hq⟩
  | drainTx room =>
    obtain ⟨qt', hq⟩ := h.drainTx room
    exact ⟨qp, qt', hq⟩

theorem run (h : Conserved hb t qp qt) (events : List HostEvent) :
    ∃ qp' qt', Conserved hb (t.run hb events) qp' qt' := by
  induction events generalizing t qp qt with
  | nil => exact ⟨qp, qt, h⟩
  | cons e events ih =>
    obtain ⟨qp', qt', hstep⟩ := h.step e
    exact ih hstep

end Conserved

end FakeRun

namespace HostState

/-- Every frame that is not empty is in one of the counters. -/
theorem countP_fates {hb : HostBindings} {punts : List Punted} (h : ∀ p ∈ punts, FateFits hb p) :
    punts.countP (fun p => p.frame ≠ []) =
      ∑ b ∈ Finset.range hb.list.length, ((punts.countP fun p => p.fate = .delivered b) +
        punts.countP fun p => p.fate = .dropped b) +
      punts.countP fun p => p.fate = .unknown := by
  induction punts with
  | nil => simp
  | cons p punts ih =>
    obtain ⟨hp, hrest⟩ := List.forall_mem_cons.mp h
    have hone : ∀ b, (∃ x, hb.list[b]? = some x ∧ x.logicalIfId = p.lif) →
        b ∈ Finset.range hb.list.length := by
      rintro b ⟨x, hx, -⟩
      exact Finset.mem_range.mpr (List.getElem?_eq_some_iff.mp hx).1
    obtain ⟨frame, lif, fate⟩ := p
    simp only [List.countP_cons, ih hrest, decide_eq_true_eq, Finset.sum_add_distrib]
    cases fate with
    | void =>
      have hnil : frame = [] := hp
      simp [hnil]
    | unknown =>
      have hne : frame ≠ [] := hp.1
      simp [hne, Nat.add_assoc]
    | delivered b =>
      obtain ⟨hne, hx⟩ := hp
      have hmem := hone b hx
      simp only [PuntFate.delivered.injEq, reduceCtorEq, Finset.sum_ite_eq, hmem, if_true, if_false]
      simp only [ne_eq] at hne
      simp only [ne_eq, hne, not_false_eq_true, if_true, Finset.sum_const_zero]
      omega
    | dropped b =>
      obtain ⟨hne, hx⟩ := hp
      have hmem := hone b hx
      simp only [PuntFate.dropped.injEq, reduceCtorEq, Finset.sum_ite_eq, hmem, if_true, if_false]
      simp only [ne_eq] at hne
      simp only [ne_eq, hne, not_false_eq_true, if_true, Finset.sum_const_zero]
      omega

end HostState

/-- **No frame is lost, made up, changed or overtaken.**  However the calls of the worker, the
punts of the card and the readers of its transmit side are interleaved, the frames the card punted
are, in their order, those the host plane took and those that wait; each went to the TAP device of
its interface, or is counted as dropped or as of an interface without one.  The frames the card
took are, in their order, those that were read from the TAP devices and not refused, whole, each
with the interface and the port of its binding. -/
theorem host_plane_conserves (hb : HostBindings) (events : List HostEvent) :
    let t := FakeRun.start.run hb events
    t.host.Books hb ∧ ∃ qp qt,
      t.host.backend.puntRx.Holds qp ∧ t.host.backend.txInject.Holds qt ∧
      t.accepted.map FakeRun.seen =
        t.host.punts.map (fun p => (p.frame, p.lif)) ++ qp.map FakeRun.seen ∧
      t.host.injects.filterMap (FakeRun.entryOf hb) = t.drained ++ qt ∧
      t.accepted.countP (fun e => e.data ≠ []) =
        ∑ b ∈ Finset.range hb.list.length,
          (t.host.puntToTapOk b + t.host.puntToTapDropped b) +
        t.host.puntUnknownLif + qp.countP fun e => e.data ≠ [] := by
  intro t
  obtain ⟨qp, qt, h⟩ : ∃ qp qt, FakeRun.Conserved hb t qp qt := FakeRun.conserved_start.run events
  refine ⟨h.books, qp, qt, h.puntRx.holds, h.txInject.holds, h.punted, h.injected, ?_⟩
  have hlen : ∀ l : List FakeSlowEntry, l.countP (fun e => e.data ≠ []) =
      (l.map FakeRun.seen).countP fun x => x.1 ≠ [] := by
    intro l
    rw [List.countP_map]
    rfl
  have hcount := HostState.countP_fates h.books.fits
  rw [hlen, h.punted, List.countP_append, ← hlen, List.countP_map]
  simp only [h.books.ok, h.books.dropped, h.books.unknown]
  rw [← hcount]
  rfl

/-! ## A call ends -/

namespace HostState

variable {β : Type}

/-- The rounds of a call; before each of them the others have changed the card. -/
def rounds (ops : SlowOps β) (hb : HostBindings) (s : HostState β)
    (l : List ((β → β) × Bool × List Byte)) : HostState β :=
  l.foldl (fun s r => ({ s with backend := r.1 s.backend } : HostState β).iter ops hb r.2.1 r.2.2) s

/-- The rounds that are left at most. -/
def left (hb : HostBindings) (s : HostState β) : ℕ :=
  match s.pc with
  | .idle => 0
  | .punt i => (hb.list.length + 1) * (s.maxPerDir + 1) + 1 - i
  | .inject b i => (hb.list.length - b) * (s.maxPerDir + 1) + 1 - i

/-- A call is within its bounds, and has not moved too much. -/
def Within (hb : HostBindings) (s : HostState β) : Prop :=
  match s.pc with
  | .idle => s.moved ≤ s.maxPerDir * (hb.list.length + 1)
  | .punt i => i ≤ s.maxPerDir ∧ s.moved ≤ i
  | .inject b i => i ≤ s.maxPerDir ∧ b ≤ hb.list.length ∧ (b = hb.list.length → i = 0) ∧
    s.moved ≤ s.maxPerDir * (b + 1) + i

variable (s : HostState β) (ops : SlowOps β) (hb : HostBindings)

/-- A round of the first loop. -/
theorem puntRound_pc (i : ℕ) (wrote : Bool) :
    (s.puntRound ops hb i wrote).maxPerDir = s.maxPerDir ∧
      (((s.puntRound ops hb i wrote).pc = .inject 0 0 ∧
          (s.puntRound ops hb i wrote).moved = s.moved) ∨
        ((s.puntRound ops hb i wrote).pc = .punt (i + 1) ∧
          (s.puntRound ops hb i wrote).moved ≤ s.moved + 1)) := by
  rw [puntRound]
  split
  · exact ⟨rfl, Or.inl ⟨rfl, rfl⟩⟩
  split
  · exact ⟨rfl, Or.inl ⟨rfl, rfl⟩⟩
  dsimp only
  split
  · exact ⟨rfl, Or.inr ⟨rfl, Nat.le_succ _⟩⟩
  · split_ifs
    · exact ⟨rfl, Or.inr ⟨rfl, le_rfl⟩⟩
    · exact ⟨rfl, Or.inr ⟨rfl, Nat.le_succ _⟩⟩

/-- A round of the second. -/
theorem injectRound_pc (b i : ℕ) (x : HostBinding) (packet : List Byte) :
    (s.injectRound ops b i x packet).maxPerDir = s.maxPerDir ∧
      (((s.injectRound ops b i x packet).pc = .inject (b + 1) 0 ∧
          (s.injectRound ops b i x packet).moved = s.moved) ∨
        ((s.injectRound ops b i x packet).pc = .inject b (i + 1) ∧
          (s.injectRound ops b i x packet).moved ≤ s.moved + 1)) := by
  rw [injectRound]
  split
  · exact ⟨rfl, Or.inl ⟨rfl, rfl⟩⟩
  split
  · exact ⟨rfl, Or.inr ⟨rfl, le_rfl⟩⟩
  · exact ⟨rfl, Or.inr ⟨rfl, Nat.le_succ _⟩⟩

variable {s hb}

/-- **A round brings a call nearer to its end.** -/
theorem Within.iter (h : s.Within hb) (wrote : Bool) (packet : List Byte) :
    (s.iter ops hb wrote packet).Within hb ∧
      (s.iter ops hb wrote packet).maxPerDir = s.maxPerDir ∧
      (s.iter ops hb wrote packet).left hb ≤ s.left hb - 1 := by
  -- the rounds that the loops behind a place take
  have hsucc : ∀ k, (k + 1) * (s.maxPerDir + 1) = k * (s.maxPerDir + 1) + (s.maxPerDir + 1) :=
    fun k => Nat.succ_mul k _
  rw [HostState.iter]
  cases hpc : s.pc with
  | idle =>
    refine ⟨h, rfl, ?_⟩
    rw [left, hpc]
    exact Nat.zero_le _
  | punt i =>
    rw [Within, hpc] at h
    dsimp only at h ⊢
    have hleft : s.left hb = (hb.list.length + 1) * (s.maxPerDir + 1) + 1 - i := by
      rw [left, hpc]
    rw [hleft, hsucc]
    -- the second loop begins
    have hnext : ∀ t : HostState β, t.maxPerDir = s.maxPerDir → t.pc = .inject 0 0 →
        t.moved = s.moved → t.Within hb ∧ t.maxPerDir = s.maxPerDir ∧
          t.left hb ≤ hb.list.length * (s.maxPerDir + 1) + (s.maxPerDir + 1) + 1 - i - 1 := by
      intro t hmax ht hmoved
      refine ⟨?_, hmax, ?_⟩
      · rw [Within, ht]
        dsimp only
        rw [hmax, hmoved]
        exact ⟨Nat.zero_le _, Nat.zero_le _, fun _ => rfl, by omega⟩
      · rw [left, ht]
        dsimp only
        rw [hmax, Nat.sub_zero, Nat.sub_zero]
        omega
    split_ifs with hi
    · obtain ⟨hmax, ⟨ht, hmoved⟩ | ⟨ht, hmoved⟩⟩ := s.puntRound_pc ops hb i wrote
      · exact hnext _ hmax ht hmoved
      · refine ⟨?_, hmax, ?_⟩
        · rw [Within, ht]
          dsimp only
          rw [hmax]
          omega
        · rw [left, ht]
          dsimp only
          rw [hmax, hsucc]
          omega
    · exact hnext _ rfl rfl rfl
  | inject b i =>
    rw [Within, hpc] at h
    dsimp only at h ⊢
    obtain ⟨hi, hb', hzero, hmoved⟩ := h
    have hleft : s.left hb = (hb.list.length - b) * (s.maxPerDir + 1) + 1 - i := by
      rw [left, hpc]
    rw [hleft]
    cases hx : hb.list[b]? with
    | none =>
      have hend : b = hb.list.length := by
        rw [List.getElem?_eq_none_iff] at hx
        omega
      refine ⟨?_, rfl, Nat.zero_le _⟩
      rw [hzero hend, hend] at hmoved
      exact hmoved
    | some x =>
      have hlt := (List.getElem?_eq_some_iff.mp hx).1
      obtain ⟨k, hk⟩ := Nat.exists_eq_add_of_lt hlt
      have hlen : hb.list.length - b = k + 1 := by omega
      rw [hlen, hsucc]
      dsimp only
      -- the loop of the next binding begins
      have hnext : ∀ t : HostState β, t.maxPerDir = s.maxPerDir → t.pc = .inject (b + 1) 0 →
          t.moved = s.moved → t.Within hb ∧ t.maxPerDir = s.maxPerDir ∧
            t.left hb ≤ k * (s.maxPerDir + 1) + (s.maxPerDir + 1) + 1 - i - 1 := by
        intro t hmax ht hmv
        refine ⟨?_, hmax, ?_⟩
        · rw [Within, ht]
          dsimp only
          rw [hmax, hmv, Nat.mul_succ]
          exact ⟨Nat.zero_le _, hlt, fun _ => rfl, by omega⟩
        · rw [left, ht]
          dsimp only
          rw [hmax, Nat.sub_zero, show hb.list.length - (b + 1) = k by omega]
          omega
      split_ifs with hround
      · obtain ⟨hmax, ⟨ht, hmv⟩ | ⟨ht, hmv⟩⟩ := s.injectRound_pc ops b i x packet
        · exact hnext _ hmax ht hmv
        · refine ⟨?_, hmax, ?_⟩
          · rw [Within, ht]
            dsimp only
            rw [hmax]
            exact ⟨hround, hb', fun h => absurd h (by omega), by omega⟩
          · rw [left, ht]
            dsimp only
            rw [hmax, hlen, hsucc]
            omega
      · exact hnext _ rfl rfl rfl

theorem Within.rounds (h : s.Within hb) (l : List ((β → β) × Bool × List Byte)) :
    (s.rounds ops hb l).Within hb ∧ (s.rounds ops hb l).maxPerDir = s.maxPerDir ∧
      (s.rounds ops hb l).left hb ≤ s.left hb - l.length := by
  induction l generalizing s with
  | nil => exact ⟨h, rfl, le_rfl⟩
  | cons r l ih =>
    have hchanged : ({ s with backend := r.1 s.backend } : HostState β).Within hb := h
    obtain ⟨hw, hmax, hleft⟩ := hchanged.iter ops r.2.1 r.2.2
    obtain ⟨hw', hmax', hleft'⟩ := ih hw
    refine ⟨hw', hmax'.trans hmax, hleft'.trans ?_⟩
    rw [List.length_cons]
    have hsame : ({ s with backend := r.1 s.backend } : HostState β).left hb = s.left hb := rfl
    omega

end HostState

/-- **A call ends, however fast the frames come.**  Whatever card it runs over, and whatever the
others do to the card between its rounds, a call for `m` frames a direction is through after
`(m + 1) (n + 1) + 1` rounds over `n` bindings, and has moved `m (n + 1)` frames at most. -/
theorem host_plane_step_returns {β : Type} (ops : SlowOps β) (hb : HostBindings)
    (s : HostState β) (hidle : s.pc = .idle) (m : ℕ) (l : List ((β → β) × Bool × List Byte))
    (hl : (m + 1) * (hb.list.length + 1) + 1 ≤ l.length) :
    ((s.call m).rounds ops hb l).pc = .idle ∧
      ((s.call m).rounds ops hb l).moved ≤ m * (hb.list.length + 1) := by
  have hcall : s.call m = { s with pc := .punt 0, maxPerDir := m, moved := 0 } := if_pos hidle
  have hwithin : (s.call m).Within hb := by
    rw [hcall]
    exact ⟨Nat.zero_le _, le_rfl⟩
  obtain ⟨hw, hmax, hleft⟩ := hwithin.rounds ops l
  have hzero : ((s.call m).rounds ops hb l).left hb = 0 := by
    have hfirst : (s.call m).left hb = (hb.list.length + 1) * (m + 1) + 1 := by
      rw [hcall]
      rfl
    rw [Nat.mul_comm] at hl
    omega
  have hmax' : ((s.call m).rounds ops hb l).maxPerDir = m := by
    rw [hmax, hcall]
  have hidle' : ((s.call m).rounds ops hb l).pc = .idle := by
    rw [HostState.left] at hzero
    rw [HostState.Within] at hw
    cases hpc : ((s.call m).rounds ops hb l).pc with
    | idle => rfl
    | punt i =>
      rw [hpc] at hzero hw
      dsimp only at hzero hw
      rw [Nat.succ_mul] at hzero
      omega
    | inject b i =>
      rw [hpc] at hzero hw
      dsimp only at hzero hw
      obtain ⟨hi, hb', hend, -⟩ := hw
      rcases hb'.eq_or_lt with heq | hlt
      · rw [heq, Nat.sub_self, Nat.zero_mul] at hzero
        have hfirst := hend heq
        omega
      · obtain ⟨k, hk⟩ := Nat.exists_eq_add_of_lt hlt
        rw [show hb.list.length - b = k + 1 by omega, Nat.succ_mul] at hzero
        omega
  refine ⟨hidle', ?_⟩
  rw [HostState.Within, hidle'] at hw
  dsimp only at hw
  rwa [hmax'] at hw

/-- A binding. -/
def sampleBindings : HostBindings where
  list := [⟨42, 7, 1⟩]
  nodup := by decide
  le := by decide

/-- A card that floods the host: before each round it punts a frame. -/
def flood (c : FakeCtx) : FakeCtx := (pwFakeBackendInjectPunt c 42 [1, 2]).2

theorem host_plane_step_returns_sample :
    let s := ((FakeRun.start.host.call 1).rounds fakeOps sampleBindings
      (List.replicate 5 (flood, true, [3])))
    s.pc = .idle ∧ s.moved = 2 ∧ s.tapOut = [(7, [1, 2])] := by
  obtain ⟨hidle, -⟩ := host_plane_step_returns fakeOps sampleBindings FakeRun.start.host rfl 1
    (List.replicate 5 (flood, true, [3])) (by decide)
  exact ⟨hidle, by decide, by decide⟩

end PacketWyrm
