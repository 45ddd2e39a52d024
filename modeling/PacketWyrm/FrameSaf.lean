import PacketWyrm.AxisStream
import PacketWyrm.Lib.Clocked
import PacketWyrm.Lib.Ring

/-!
# The store-and-forward buffer

`pw_frame_saf`, clock by clock.  The beats of a frame are written speculatively
behind the committed ones; the decision after the frame's last beat publishes
them, with a descriptor, or takes the write pointer back.  A frame that finds the
buffer full is dropped whole.  The drain side reads one beat ahead into an output
register.

The purpose is a queue of frames: `SafSpec` holds the frames that were accepted
and not yet sent, and says of each frame that was decided whether it found room.

## Main definitions

* `Saf` — the registers and memories, `Saf.step` — one clock edge.
* `SafSpec` — the queue, `SafSpec.step` — one cycle of it.
* `SafContract` — the timing contract of the inputs.
-/

namespace PacketWyrm

open Lib

/-- The inputs of a cycle: the stream, the decision, and the drain side's ready.
The tag of a decision is its route and its metadata. -/
structure SafIn (ρ : Type) where
  beat : Beat
  tvalid : Bool
  decValid : Bool
  decKeep : Bool
  decTag : ρ
  tready : Bool

/-! ## The circuit -/

/-- The registers and memories, for `2 ^ aw` beats and `2 ^ daw` descriptors. -/
structure Saf (aw daw : ℕ) (ρ : Type) where
  mem : BitVec aw → Beat
  rdPtr : BitVec (aw + 1)
  wrCommit : BitVec (aw + 1)
  wrSpec : BitVec (aw + 1)
  aborted : Bool
  desc : BitVec daw → ρ
  descRd : BitVec (daw + 1)
  descWr : BitVec (daw + 1)
  overflowDrop : Bool
  dbeat : Beat
  dvalid : Bool

namespace Saf

variable {aw daw : ℕ} {ρ : Type}

/-- `can_write`. -/
def canWrite (s : Saf aw daw ρ) : Bool := s.wrSpec - s.rdPtr != BitVec.ofNat (aw + 1) (2 ^ aw)

/-- `desc_empty`. -/
def descEmpty (s : Saf aw daw ρ) : Bool := s.descWr == s.descRd

/-- `desc_full`. -/
def descFull (s : Saf aw daw ρ) : Bool := s.descWr - s.descRd == BitVec.ofNat (daw + 1) (2 ^ daw)

/-- `beat_we`. -/
def beatWe (s : Saf aw daw ρ) (i : SafIn ρ) : Bool := i.tvalid && !s.aborted && s.canWrite

/-- The decision publishes the frame. -/
def commits (s : Saf aw daw ρ) (i : SafIn ρ) : Bool :=
  i.decValid && i.decKeep && !s.aborted && !s.descFull && s.wrSpec != s.wrCommit

/-- `avail`. -/
def avail (s : Saf aw daw ρ) : Bool := s.rdPtr != s.wrCommit && !s.descEmpty

/-- `consume`. -/
def consume (s : Saf aw daw ρ) (i : SafIn ρ) : Bool := s.dvalid && i.tready

/-- `fetch`. -/
def fetch (s : Saf aw daw ρ) (i : SafIn ρ) : Bool := s.avail && (!s.dvalid || s.consume i)

/-- The write side: a beat is written behind the frame in progress; the decision
publishes that frame or takes the write pointer back. -/
def write (s : Saf aw daw ρ) (i : SafIn ρ) : Saf aw daw ρ :=
  { s with
    mem := if s.beatWe i then Function.update s.mem (s.wrSpec.setWidth aw) i.beat else s.mem
    wrSpec :=
      if i.decValid && !s.commits i then s.wrCommit
      else if s.beatWe i then s.wrSpec + 1
      else s.wrSpec
    aborted :=
      if i.decValid then false else if i.tvalid && !s.beatWe i then true else s.aborted
    wrCommit := if s.commits i then s.wrSpec else s.wrCommit
    desc :=
      if s.commits i then Function.update s.desc (s.descWr.setWidth daw) i.decTag else s.desc
    descWr := if s.commits i then s.descWr + 1 else s.descWr
    overflowDrop := i.decValid && !s.commits i && i.decKeep && (s.aborted || s.descFull) }

/-- The drain side: a fetch fills the output register with the word read at
`rdPtr`; a consumed last beat moves the descriptor on. -/
def drain (s : Saf aw daw ρ) (consumed fetched : Bool) (word : Beat) : Saf aw daw ρ :=
  { s with
    rdPtr := if fetched then s.rdPtr + 1 else s.rdPtr
    dbeat := if fetched then word else s.dbeat
    dvalid := if fetched then true else if consumed then false else s.dvalid
    descRd := if consumed && s.dbeat.tlast then s.descRd + 1 else s.descRd }

/-- One clock edge.  The two sides own different registers, and all conditions and
the memory are read before the edge. -/
def step (s : Saf aw daw ρ) (i : SafIn ρ) : Saf aw daw ρ :=
  (s.write i).drain (s.consume i) (s.fetch i) (s.mem (s.rdPtr.setWidth aw))

/-- What the drain side takes in a cycle: a beat and the tag that is shown with
it. -/
def sent [Zero ρ] (s : Saf aw daw ρ) (i : SafIn ρ) : Option (Beat × ρ) :=
  if s.consume i then
    some (s.dbeat, if s.descEmpty then 0 else s.desc (s.descRd.setWidth daw))
  else none

/-- The registers that a reset settles. -/
structure Reset (s : Saf aw daw ρ) : Prop where
  rdPtr : s.rdPtr = 0
  wrCommit : s.wrCommit = 0
  wrSpec : s.wrSpec = 0
  aborted : s.aborted = false
  descRd : s.descRd = 0
  descWr : s.descWr = 0
  overflowDrop : s.overflowDrop = false
  dvalid : s.dvalid = false

end Saf

/-! ## The queue of frames -/

/-- A frame with its decision, and whether it found the buffer full at a beat or
the descriptors full at the decision. -/
structure SafDecision (ρ : Type) where
  frame : List Beat
  keep : Bool
  tag : ρ
  noRoom : Bool
  noDesc : Bool

namespace SafDecision

variable {ρ : Type} (d : SafDecision ρ)

/-- The frame is to be sent: it was kept and there was room. -/
def accepted : Bool := d.keep && !d.noRoom && !d.noDesc

/-- The beats of the frame, each with the frame's tag. -/
def tagged : List (Beat × ρ) := d.frame.map fun b => (b, d.tag)

end SafDecision

/-- What the buffer is for: the frame in progress, the beats of the accepted frames
that are not yet sent, and the history of decisions. -/
structure SafSpec (ρ : Type) where
  cur : List Beat := []
  noRoom : Bool := false
  queue : List (Beat × ρ) := []
  -- the first beat of the queue is in the output register
  shown : Bool := false
  decided : List (SafDecision ρ) := []
  overflowDrop : Bool := false

namespace SafSpec

variable (aw daw : ℕ) {ρ : Type}

/-- The beats that are in the memory. -/
def stored (t : SafSpec ρ) : List Beat := (t.queue.map Prod.fst).drop t.shown.toNat

/-- The tags of the frames whose last beat is not yet sent. -/
def tags (t : SafSpec ρ) : List ρ := (t.queue.filter fun x => x.1.tlast).map Prod.snd

/-- The frame in progress with the decision of this cycle. -/
def decision (t : SafSpec ρ) (i : SafIn ρ) : SafDecision ρ :=
  { frame := t.cur, keep := i.decKeep, tag := i.decTag, noRoom := t.noRoom
    noDesc := decide (t.tags.length = 2 ^ daw) }

/-- A frame takes a beat, or is decided and joins the queue if it is accepted. -/
def write (t : SafSpec ρ) (i : SafIn ρ) : SafSpec ρ :=
  if i.decValid then
    { t with
      cur := [], noRoom := false
      queue := t.queue ++ if (t.decision daw i).accepted then (t.decision daw i).tagged else []
      decided := t.decided ++ [t.decision daw i]
      overflowDrop := i.decKeep && !(t.decision daw i).accepted }
  else if i.tvalid then
    { t with
      cur := t.cur ++ [i.beat]
      noRoom := t.noRoom || decide (t.stored.length + t.cur.length = 2 ^ aw)
      overflowDrop := false }
  else { t with overflowDrop := false }

/-- A beat leaves the queue when the drain side takes it. -/
def drain (t : SafSpec ρ) (consumed fetched : Bool) : SafSpec ρ :=
  { t with
    queue := if consumed then t.queue.tail else t.queue
    shown := fetched || (t.shown && !consumed) }

/-- A beat is taken. -/
def consume (t : SafSpec ρ) (i : SafIn ρ) : Bool := t.shown && i.tready

/-- A beat is shown next. -/
def fetch (t : SafSpec ρ) (i : SafIn ρ) : Bool := !t.stored.isEmpty && (!t.shown || t.consume i)

/-- One cycle of the queue. -/
def step (t : SafSpec ρ) (i : SafIn ρ) : SafSpec ρ :=
  (t.write aw daw i).drain (t.consume i) (t.fetch i)

/-- The beat that is taken, with its tag. -/
def sent (t : SafSpec ρ) (i : SafIn ρ) : Option (Beat × ρ) :=
  if t.consume i then t.queue.head? else none

end SafSpec

/-! ## The contract of the inputs -/

/-- Whether a frame has ended and its decision is due. -/
inductive SafPhase where
  | streaming | due
  deriving DecidableEq, Repr

/-- No decision comes while a frame is streaming; the cycle after its last beat
brings the decision and no beat. -/
def SafPhase.allow {ρ : Type} : SafPhase → SafIn ρ → Prop
  | streaming, i => i.decValid = false
  | due, i => i.decValid = true ∧ i.tvalid = false

/-- A last beat makes the decision due in the next cycle. -/
def SafPhase.next {ρ : Type} : SafPhase → SafIn ρ → SafPhase
  | streaming, i => if i.tvalid && i.beat.tlast then due else streaming
  | due, _ => streaming

/-- The timing contract. -/
def SafContract {ρ : Type} (l : List (SafIn ρ)) : Prop :=
  Follows SafPhase.allow SafPhase.next .streaming l

/-- The frames that arrive, each with its decision: the beats since the decision
before. -/
def safArrivals {ρ : Type} : List Beat → List (SafIn ρ) → List (List Beat × Bool × ρ)
  | _, [] => []
  | cur, i :: l =>
    if i.decValid then (cur, i.decKeep, i.decTag) :: safArrivals [] l
    else safArrivals (if i.tvalid then cur ++ [i.beat] else cur) l

end PacketWyrm
