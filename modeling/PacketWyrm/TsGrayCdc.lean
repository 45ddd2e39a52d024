import PacketWyrm.Types
import PacketWyrm.Lib.Bits
import PacketWyrm.Lib.Clocked
import PacketWyrm.Lib.Gray

/-!
# Wire timestamps across clock domains

The free-running timestamp counts in the clock of the data plane.  A Gray coded copy crosses into
the receive clock of each MAC, where it is latched at the first beat of a frame and rides with
every beat of it.  The two clocks have no relation, so their edges come in any order and may
coincide; then each bit of the first synchronizer shows the counter before or behind its step.

## Main definitions

* `bin2gray`, `gray2bin`, `TsGrayCdc` — the crossing.
* `CdcEvent` — an edge of one clock, or of both.
* `RxWirestamp` — the latch in the receive clock.
* `windows` — what the counter shows at each edge of the receive clock.

## Main results

* `gray2bin_bin2gray` — the code is read back.
* `exists_counts` — the crossing shows the counter as it was three edges before, never a far-off
  value, and never runs back.
* `wire_stamp_law` — all beats of a frame carry that count, taken at its first beat.
-/

namespace PacketWyrm

open Lib

variable {w : ℕ}

/-! ## The code -/

/-- `bin2gray`. -/
def bin2gray (b : BitVec w) : BitVec w := b ^^^ (b >>> 1)

/-- The bit that the loop of `gray2bin` sets at its `k`-th step, from the most significant one
down. -/
def gray2binBit (g : BitVec w) : ℕ → Bool
  | 0 => g.getLsbD (w - 1)
  | k + 1 => gray2binBit g k ^^ g.getLsbD (w - 1 - (k + 1))

/-- `gray2bin`. -/
def gray2bin (g : BitVec w) : BitVec w := ofBits fun i : Fin w => gray2binBit g (w - 1 - i)

theorem gray2binBit_bin2gray (b : BitVec w) {k : ℕ} (hk : k < w) :
    gray2binBit (bin2gray b) k = b.getLsbD (w - 1 - k) := by
  have hbit : ∀ i, (bin2gray b).getLsbD i = (b.getLsbD i ^^ b.getLsbD (i + 1)) := getLsbD_gray b
  induction k with
  | zero =>
    rw [gray2binBit, hbit, BitVec.getLsbD_of_ge b (w - 1 + 1) (by omega), Bool.xor_false,
      Nat.sub_zero]
  | succ k ih =>
    rw [gray2binBit, ih (by omega), hbit, show w - 1 - (k + 1) + 1 = w - 1 - k by omega,
      Bool.xor_comm, Bool.xor_assoc, Bool.xor_self, Bool.xor_false]

/-- **The code is read back.** -/
theorem gray2bin_bin2gray (b : BitVec w) : gray2bin (bin2gray b) = b := by
  apply BitVec.eq_of_getLsbD_eq
  intro i hi
  have hget := getLsbD_ofBits (fun i : Fin w => gray2binBit (bin2gray b) (w - 1 - i)) ⟨i, hi⟩
  rw [gray2bin, hget]
  dsimp only
  rw [gray2binBit_bin2gray b (by omega), show w - 1 - (w - 1 - i) = i by omega]

/-! ## The crossing -/

/-- The registers of `pw_ts_gray_cdc`, with the counter of `pw_timestamp` in front of them. -/
structure TsGrayCdc (w : ℕ) where
  srcBin : BitVec w
  graySrc : BitVec w
  sync1 : BitVec w
  sync2 : BitVec w
  dstBin : BitVec w
  deriving DecidableEq, Repr

/-- An edge of the counter's clock, of the other clock, or of both; an edge of the other clock comes
with what the MAC offers in that cycle.  Where both coincide, `late` marks the bits of the first
synchronizer that show the step already. -/
inductive CdcEvent (w : ℕ) (β : Type) where
  | src
  | dst (b : β)
  | both (late : BitVec w) (b : β)
  deriving DecidableEq, Repr

/-- What the MAC offers, at an edge of its clock. -/
def CdcEvent.beat {β : Type} : CdcEvent w β → Option β
  | .src => none
  | .dst b => some b
  | .both _ b => some b

namespace TsGrayCdc

variable {β : Type} (s : TsGrayCdc w)

/-- An edge of the counter's clock. -/
def srcEdge : TsGrayCdc w := { s with srcBin := s.srcBin + 1, graySrc := bin2gray s.srcBin }

/-- An edge of the other clock that takes `sample` off the crossing. -/
def dstEdge (sample : BitVec w) : TsGrayCdc w :=
  { s with sync1 := sample, sync2 := s.sync1, dstBin := gray2bin s.sync2 }

/-- What the first synchronizer takes. -/
def sample : CdcEvent w β → BitVec w
  | .both late _ => mix late s.graySrc s.srcEdge.graySrc
  | _ => s.graySrc

/-- One event. -/
def step (e : CdcEvent w β) : TsGrayCdc w :=
  match e with
  | .src => s.srcEdge
  | .dst _ => s.dstEdge (s.sample e)
  | .both _ _ => s.srcEdge.dstEdge (s.sample e)

/-- The output in the cycle that each edge of the other clock ends. -/
def shown (s : TsGrayCdc w) (l : List (CdcEvent w β)) : List (BitVec w) :=
  outputs (fun s e => e.beat.map fun _ => s.dstBin) step s l

/-- What the first synchronizer takes at each of these edges. -/
def samples (s : TsGrayCdc w) (l : List (CdcEvent w β)) : List (BitVec w) :=
  outputs (fun s e => e.beat.map fun _ => s.sample e) step s l

/-- The counter steps that each edge of the other clock may have seen: those before it, and the one
that coincides with it. -/
def windows : ℕ → List (CdcEvent w β) → List (ℕ × ℕ)
  | _, [] => []
  | n, .src :: l => windows (n + 1) l
  | n, .dst _ :: l => (n, n) :: windows n l
  | n, .both _ _ :: l => (n, n + 1) :: windows (n + 1) l

/-- The crossing shows the count `c` with `n` steps added to it. -/
structure At (s : TsGrayCdc w) (c : BitVec w) (n : ℕ) : Prop where
  srcBin : s.srcBin = c + BitVec.ofNat w n + 1
  graySrc : s.graySrc = bin2gray (c + BitVec.ofNat w n)

/-- The first edge of the counter's clock brings it there, from whatever the registers hold. -/
theorem at_srcEdge : s.srcEdge.At s.srcBin 0 where
  srcBin := by simp [srcEdge]
  graySrc := by simp [srcEdge]

variable {s} {c : BitVec w} {n : ℕ}

theorem add_ofNat_succ (c : BitVec w) (n : ℕ) :
    c + BitVec.ofNat w (n + 1) = c + BitVec.ofNat w n + 1 := by
  rw [BitVec.ofNat_add, ← BitVec.add_assoc]
  rfl

theorem At.srcEdge (h : s.At c n) : s.srcEdge.At c (n + 1) where
  srcBin := by rw [TsGrayCdc.srcEdge, h.srcBin, add_ofNat_succ]
  graySrc := by rw [TsGrayCdc.srcEdge, h.srcBin, add_ofNat_succ]

theorem At.dstEdge (h : s.At c n) (g : BitVec w) : (s.dstEdge g).At c n := ⟨h.srcBin, h.graySrc⟩

/-- What is taken while the counter steps is its count before or behind the step. -/
theorem At.sample_both (h : s.At c n) (late : BitVec w) (b : β) :
    ∃ k, n ≤ k ∧ k ≤ n + 1 ∧
      s.sample (.both late b) = bin2gray (c + BitVec.ofNat w k) := by
  have hnext : s.srcEdge.graySrc = gray (c + BitVec.ofNat w n + 1) := by
    rw [h.srcEdge.graySrc, add_ofNat_succ]
    rfl
  have hmix := mix_gray_succ late (c + BitVec.ofNat w n)
  rw [sample, h.graySrc, hnext]
  cases hmix with
  | inl hold => exact ⟨n, Nat.le_refl n, Nat.le_succ n, hold⟩
  | inr hnew =>
    refine ⟨n + 1, Nat.le_succ n, Nat.le_refl _, ?_⟩
    rw [add_ofNat_succ]
    exact hnew

/-- **Each sample is a count of its window**, and the counts do not run back. -/
theorem At.samples (h : s.At c n) (l : List (CdcEvent w β)) :
    ∃ t : List ℕ, List.Forall₂ (fun k r => r.1 ≤ k ∧ k ≤ r.2) t (windows n l) ∧
      t.Pairwise (· ≤ ·) ∧ (∀ k ∈ t, n ≤ k) ∧
      TsGrayCdc.samples s l = t.map fun k => bin2gray (c + BitVec.ofNat w k) := by
  induction l generalizing s n with
  | nil => exact ⟨[], .nil, .nil, by simp, rfl⟩
  | cons e l ih =>
    cases e with
    | src =>
      obtain ⟨t, hwin, hmono, hge, hval⟩ := ih h.srcEdge
      exact ⟨t, hwin, hmono, fun k hk => by have := hge k hk; omega, hval⟩
    | dst b =>
      obtain ⟨t, hwin, hmono, hge, hval⟩ := ih (h.dstEdge s.graySrc)
      refine ⟨n :: t, .cons ⟨Nat.le_refl n, Nat.le_refl n⟩ hwin, .cons hge hmono, ?_, ?_⟩
      · exact List.forall_mem_cons.mpr ⟨Nat.le_refl n, hge⟩
      · exact congr_arg₂ List.cons h.graySrc hval
    | both late b =>
      obtain ⟨k₀, hlo, hhi, hk₀⟩ := h.sample_both late b
      obtain ⟨t, hwin, hmono, hge, hval⟩ := ih (h.srcEdge.dstEdge (s.sample (.both late b)))
      refine ⟨k₀ :: t, .cons ⟨hlo, hhi⟩ hwin, .cons ?_ hmono, ?_, ?_⟩
      · exact fun k hk => hhi.trans (hge k hk)
      · exact List.forall_mem_cons.mpr ⟨hlo, fun k hk => (Nat.le_succ n).trans (hge k hk)⟩
      · exact congr_arg₂ List.cons hk₀ hval

/-- The output is what was taken three edges before. -/
theorem shown_eq (s : TsGrayCdc w) (l : List (CdcEvent w β)) :
    shown s l = ([s.dstBin, gray2bin s.sync2, gray2bin s.sync1] ++
      (TsGrayCdc.samples s l).map gray2bin).take (TsGrayCdc.samples s l).length := by
  induction l generalizing s with
  | nil => rfl
  | cons e l ih =>
    have hshift : ∀ (s' : TsGrayCdc w) (g : BitVec w), s'.dstBin = gray2bin s.sync2 →
        s'.sync2 = s.sync1 → s'.sync1 = g →
        s.dstBin :: shown s' l = ([s.dstBin, gray2bin s.sync2, gray2bin s.sync1] ++
          (g :: TsGrayCdc.samples s' l).map gray2bin).take
        (g :: TsGrayCdc.samples s' l).length := by
      intro s' g hdst h2 h1
      rw [ih s', hdst, h2, h1]
      rfl
    cases e with
    | src => exact ih s.srcEdge
    | dst b => exact hshift _ _ rfl rfl rfl
    | both late b => exact hshift _ _ rfl rfl rfl

/-- **The crossing shows the counter as it was three edges of the other clock before**: at each
edge there is a count of its window, these counts never run back, and the third edge behind it ends
a cycle that shows it. -/
theorem exists_counts (s : TsGrayCdc w) (l : List (CdcEvent w β)) :
    ∃ t : List ℕ, List.Forall₂ (fun k r => r.1 ≤ k ∧ k ≤ r.2) t (windows 0 l) ∧
      t.Pairwise (· ≤ ·) ∧
      ∀ i v, (shown s.srcEdge l)[i + 3]? = some v →
        ∃ k, t[i]? = some k ∧ v = s.srcBin + BitVec.ofNat w k := by
  obtain ⟨t, hwin, hmono, -, hval⟩ := s.at_srcEdge.samples l
  refine ⟨t, hwin, hmono, ?_⟩
  intro i v hv
  rw [shown_eq, List.getElem?_take] at hv
  split at hv
  · rw [List.getElem?_append_right (by simp), hval, List.map_map, List.getElem?_map] at hv
    obtain ⟨k, hk, rfl⟩ := Option.map_eq_some_iff.mp hv
    exact ⟨k, hk, gray2bin_bin2gray _⟩
  · cases hv

end TsGrayCdc

/-! ## The latch -/

/-- The generate block `g_rx_wirestamp` of a port. -/
structure RxWirestamp (w : ℕ) where
  cdc : TsGrayCdc w
  rxInFrame : Bool := false
  rxWtsHeld : BitVec w := 0
  deriving DecidableEq, Repr

namespace RxWirestamp

/-- A beat of the MAC as far as the block looks at it: whether it is the last one of its frame. -/
abbrev MacBeat := Option Bool

variable (s : RxWirestamp w)

/-- The timestamp in `mac_rx_uwide`. -/
def uwide : BitVec w := if s.rxInFrame then s.rxWtsHeld else s.cdc.dstBin

/-- The two registers at an edge of the receive clock. -/
def latch : Option MacBeat → RxWirestamp w
  | some (some last) =>
    { s with
      rxWtsHeld := if s.rxInFrame then s.rxWtsHeld else s.cdc.dstBin
      rxInFrame := !last }
  | _ => s

/-- One event. -/
def step (e : CdcEvent w MacBeat) : RxWirestamp w :=
  { s.latch e.beat with cdc := s.cdc.step e }

/-- Whether a frame is open behind these events. -/
def openAfter (l : List (CdcEvent w MacBeat)) : Bool :=
  l.foldl (fun o e => match e.beat with
    | some (some last) => !last
    | _ => o) false

variable {s}

theorem cdc_run (s : RxWirestamp w) (l : List (CdcEvent w MacBeat)) :
    (run step s l).cdc = run TsGrayCdc.step s.cdc l := by
  induction l generalizing s with
  | nil => rfl
  | cons e l ih => exact ih (s.step e)

theorem rxInFrame_run (h : s.rxInFrame = false) (l : List (CdcEvent w MacBeat)) :
    (run step s l).rxInFrame = openAfter l := by
  induction l using List.reverseRecOn with
  | nil => exact h
  | append_singleton l e ih =>
    rw [run_concat, openAfter, List.foldl_append, List.foldl_cons, List.foldl_nil]
    rw [openAfter] at ih
    rcases hb : e.beat with _ | _ | last
    · simp [step, latch, hb, ih]
    · simp [step, latch, hb, ih]
    · simp [step, latch, hb]

/-- Inside a frame the held timestamp stays. -/
theorem held_run {l : List (CdcEvent w MacBeat)} (h : s.rxInFrame = true)
    (hl : ∀ e ∈ l, e.beat ≠ some (some true)) :
    (run step s l).rxInFrame = true ∧ (run step s l).rxWtsHeld = s.rxWtsHeld := by
  induction l using List.reverseRecOn with
  | nil => exact ⟨h, rfl⟩
  | append_singleton l e ih =>
    obtain ⟨hin, hheld⟩ := ih fun e' he' => hl e' (List.mem_append_left _ he')
    have hlast := hl e (List.mem_append_right _ (List.mem_singleton_self e))
    rw [run_concat]
    rcases hb : e.beat with _ | _ | _ | _
    · simp [step, latch, hb, hin, hheld]
    · simp [step, latch, hb, hin, hheld]
    · simp [step, latch, hb, hin, hheld]
    · exact absurd hb hlast

/-- The events `frame` are the beginning of a frame that comes behind `pre`, up to and with a
beat of it. -/
structure FrameTo (pre mid : List (CdcEvent w MacBeat)) (e : CdcEvent w MacBeat) : Prop where
  closed : openAfter pre = false
  first : ∃ e₀ last, (mid ++ [e]).head? = some e₀ ∧ e₀.beat = some (some last)
  beat : ∃ last, e.beat = some (some last)
  unfinished : ∀ e' ∈ mid, e'.beat ≠ some (some true)

/-- **Each beat of a frame carries what the crossing shows at the first one.** -/
theorem uwide_of_frameTo {pre mid : List (CdcEvent w MacBeat)} {e : CdcEvent w MacBeat}
    (hs : s.rxInFrame = false) (h : FrameTo pre mid e) :
    (run step s (pre ++ mid)).uwide = (run step s pre).cdc.dstBin := by
  have hclosed : (run step s pre).rxInFrame = false := (rxInFrame_run hs pre).trans h.closed
  rw [run_append]
  cases mid with
  | nil => rw [run_nil, uwide, hclosed, if_neg Bool.false_ne_true]
  | cons e₀ mid =>
    obtain ⟨e₁, last, hhead, hbeat⟩ := h.first
    obtain rfl : e₀ = e₁ := Option.some.inj hhead
    have hnot : last = false := by
      cases last with
      | false => rfl
      | true => exact absurd hbeat (h.unfinished e₀ List.mem_cons_self)
    have hopen : ((run step s pre).step e₀).rxInFrame = true := by
      simp [step, latch, hbeat, hnot]
    have hheld : ((run step s pre).step e₀).rxWtsHeld = (run step s pre).cdc.dstBin := by
      simp [step, latch, hbeat, hclosed]
    obtain ⟨hin, hsame⟩ := held_run hopen fun e' he' => h.unfinished e' (List.mem_cons_of_mem _ he')
    rw [run_cons, uwide, hin, if_pos rfl, hsame, hheld]

/-- The output of the crossing in a reached state is the one shown at the next edge. -/
theorem shown_append (s : TsGrayCdc w) (pre post : List (CdcEvent w MacBeat))
    (e : CdcEvent w MacBeat) (b : MacBeat) (he : e.beat = some b) :
    (TsGrayCdc.shown s (pre ++ e :: post))[(pre.filterMap CdcEvent.beat).length]? =
      some (run TsGrayCdc.step s pre).dstBin := by
  have hlen : ∀ (s : TsGrayCdc w) (l : List (CdcEvent w MacBeat)),
      (TsGrayCdc.shown s l).length = (l.filterMap CdcEvent.beat).length := by
    intro s l
    induction l generalizing s with
    | nil => rfl
    | cons e l ih =>
      rw [TsGrayCdc.shown, outputs_cons, List.length_append]
      have htail := ih (s.step e)
      rw [TsGrayCdc.shown] at htail
      rw [htail]
      cases hb : e.beat with
      | none => simp [hb]
      | some b => simp [hb, Nat.add_comm]
  rw [← hlen s pre, TsGrayCdc.shown, outputs_append, outputs_cons, he, Option.map_some,
    Option.toList_some, List.getElem?_append_right (by rw [TsGrayCdc.shown]), TsGrayCdc.shown]
  simp

/-- **The wire timestamp of a frame.**  For any order of the edges of the two clocks, and from
whatever the registers of the crossing hold at the counter's first edge, there is a count of the
counter for each edge of the receive clock, within the step that may coincide with the edge, and
these never run back; every beat of a frame carries the count of the third edge before its first
beat. -/
theorem wire_stamp_law (s : RxWirestamp w) (hs : s.rxInFrame = false)
    (l : List (CdcEvent w MacBeat)) :
    ∃ t : List ℕ, List.Forall₂ (fun k r => r.1 ≤ k ∧ k ≤ r.2) t (TsGrayCdc.windows 0 l) ∧
      t.Pairwise (· ≤ ·) ∧
      ∀ pre mid e post, l = pre ++ (mid ++ e :: post) → FrameTo pre mid e →
        ∀ i, (pre.filterMap CdcEvent.beat).length = i + 3 →
          ∃ k, t[i]? = some k ∧
            (run step s (.src :: (pre ++ mid))).uwide = s.cdc.srcBin + BitVec.ofNat w k := by
  obtain ⟨t, hwin, hmono, hshown⟩ := s.cdc.exists_counts l
  refine ⟨t, hwin, hmono, ?_⟩
  intro pre mid e post hl hframe i hi
  have hs' : (s.step .src).rxInFrame = false := hs
  have hcdc : (run step (s.step .src) pre).cdc = run TsGrayCdc.step s.cdc.srcEdge pre :=
    cdc_run (s.step .src) pre
  rw [run_cons, uwide_of_frameTo hs' hframe, hcdc]
  apply hshown
  -- the first beat is the next edge of the receive clock behind `pre`
  obtain ⟨e₀, last, hhead, hbeat⟩ := hframe.first
  have hnext : mid ++ e :: post = e₀ :: (mid ++ e :: post).tail := by
    cases mid with
    | nil => simpa using hhead
    | cons e₁ mid => simpa using hhead
  rw [hl, ← hi, hnext]
  exact shown_append _ pre _ e₀ _ hbeat

/-- Registers with any contents, the counter about to come round. -/
def powerUp : RxWirestamp 64 :=
  { cdc := { srcBin := BitVec.allOnes 64, graySrc := 6, sync1 := 1, sync2 := 2, dstBin := 3 } }

/-- A frame of two beats behind three edges, the second of which meets a step. -/
def sampleEdges : List (CdcEvent 64 MacBeat) :=
  [.src, .dst none, .both 5 none, .dst none, .src] ++
    ([.dst (some false), .src] ++ .dst (some true) :: [])

theorem wire_stamp_law_sample :
    (run step powerUp (.src :: ([.src, .dst none, .both 5 none, .dst none, .src] ++
      [.dst (some false), .src]))).uwide = 0#64 := by
  obtain ⟨t, hwin, -, hstamp⟩ := wire_stamp_law powerUp rfl sampleEdges
  have hframe : FrameTo (w := 64) [.src, .dst none, .both 5 none, .dst none, .src]
      [.dst (some false), .src] (.dst (some true)) :=
    ⟨rfl, ⟨_, false, rfl, rfl⟩, ⟨true, rfl⟩, by decide⟩
  obtain ⟨k, hk, hval⟩ := hstamp _ _ _ _ rfl hframe 0 rfl
  -- one step came before the edge that the count was taken at
  cases hwin with
  | cons hfirst hrest =>
    cases hk
    have hone : k = 1 := Nat.le_antisymm hfirst.2 hfirst.1
    rw [hval, hone]
    rfl

end RxWirestamp

end PacketWyrm
