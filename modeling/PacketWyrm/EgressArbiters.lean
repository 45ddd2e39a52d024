import PacketWyrm.RxPath
import Mathlib.Data.List.Chain
import Mathlib.Data.List.FinRange
import Mathlib.Tactic.FinCases

/-!
# The egress and punt arbiters

The transmit arbiters of `pw_data_plane_axis`, one for each egress port, and its punt
arbiter.  Each of them grants one source at a time: a forwarded frame of one of the
store-and-forward buffers, a frame that the host injects, or a frame of the port's
generator, in this order.  A grant is kept until the last beat of the frame is taken.
The head of a buffer is offered to all of them at once, and its ready is the or of
their readies.

## Main definitions

* `Arbiters` — the grants, `Arbiters.step` — one clock edge.
* `ArbSystem` — the arbiters with their source streams and what was sent.

## Main results

* `ArbSystem.Inv.step` — the joint invariant of all arbiters.
* `Saf.Reset.together` — a buffer drains each frame to one place.
* `arbitration_preserves_frames` — every stream is a frame by frame interleaving of its
  sources.
-/

namespace PacketWyrm

open Lib

variable {n : ℕ}

/-- The sources of frames. -/
inductive TxSource (n : ℕ) where
  | saf (p : Fin n)
  | gen (e : Fin n)
  | inj
  deriving DecidableEq

/-- Where frames go. -/
inductive TxDest (n : ℕ) where
  | egress (e : Fin n)
  | punt
  deriving DecidableEq

/-- What a source shows: a beat, with the route and the metadata of a buffered frame (or
the egress of an injected one), and the generator's stamp mark. -/
structure TxWord where
  beat : Beat
  tag : RxTag := {}
  tstampable : Bool := false
  deriving DecidableEq

/-- A cycle: the head of each source, if it is valid, and the ready of each destination. -/
structure ArbIn (n : ℕ) where
  head : TxSource n → Option TxWord
  ready : TxDest n → Bool

/-- Where a word is to go. -/
def TxSource.dest : TxSource n → TxWord → Option (TxDest n)
  | saf _, w =>
    if w.tag.punt then some .punt
    else if h : w.tag.egress.toNat < n then some (.egress ⟨_, h⟩) else none
  | gen e, _ => some (.egress e)
  | inj, w => if h : w.tag.egress.toNat < n then some (.egress ⟨_, h⟩) else none

/-! ## The arbiters -/

namespace ArbIn

variable (i : ArbIn n)

/-- `fwd_req`. -/
def fwdReq (e p : Fin n) : Bool :=
  (i.head (.saf p)).any fun w => !w.tag.punt && w.tag.egress == BitVec.ofNat 4 e

/-- `inj_here`. -/
def injHere (e : Fin n) : Bool := (i.head .inj).any fun w => w.tag.egress.toNat == e.val

/-- `punt_req`. -/
def puntReq (p : Fin n) : Bool := (i.head (.saf p)).any fun w => w.tag.punt

/-- `win`, where it is valid: a forwarded frame, else an injected one, else the
generator's. -/
def win (e : Fin n) : Option (TxSource n) :=
  match (List.finRange n).find? (i.fwdReq e) with
  | some p => some (.saf p)
  | none =>
    if i.injHere e then some .inj
    else if (i.head (.gen e)).isSome then some (.gen e) else none

/-- `punt_win`, where it is valid. -/
def puntWin : Option (Fin n) := (List.finRange n).find? i.puntReq

end ArbIn

/-- `busy` and `gsel`. -/
structure Grant (α : Type) where
  busy : Bool
  gsel : α

namespace Grant

variable {α : Type} (g : Grant α) (win : Option α)

/-- `sel`, where it is valid. -/
def sel : Option α := if g.busy then some g.gsel else win

/-- A grant is taken for a frame that is not done at once, and given back when it is. -/
def next (done : Bool) : Grant α :=
  if g.busy then { g with busy := !done }
  else
    match win with
    | some a => if done then g else { busy := true, gsel := a }
    | none => g

/-- The source that is granted over the clock edge. -/
def held : Option α := if g.busy then some g.gsel else none

theorem held_next (done : Bool) (hdone : done = true → (g.sel win).isSome = true) :
    (g.next win done).held = if done then none else g.sel win := by
  cases hb : g.busy with
  | true => cases done <;> simp [next, held, sel, hb]
  | false =>
    cases win with
    | none =>
      cases done with
      | true => simp [sel, hb] at hdone
      | false => simp [next, held, sel, hb]
    | some a => cases done <;> simp [next, held, sel, hb]

end Grant

/-- The grants of the arbiters. -/
structure Arbiters (n : ℕ) where
  tx : Fin n → Grant (TxSource n)
  punt : Grant (Fin n)

namespace Arbiters

variable (s : Arbiters n) (i : ArbIn n)

/-- The source that a destination has selected. -/
def sel : TxDest n → Option (TxSource n)
  | .egress e => (s.tx e).sel (i.win e)
  | .punt => (s.punt.sel i.puntWin).map .saf

/-- The word that is valid at a destination, with its source. -/
def shown (d : TxDest n) : Option (TxSource n × TxWord) :=
  (s.sel i d).bind fun src => (i.head src).map fun w => (src, w)

/-- The handshake of a destination. -/
def handshake (d : TxDest n) : Option (TxSource n × TxWord) :=
  if i.ready d then s.shown i d else none

/-- `done`. -/
def done (d : TxDest n) : Bool := (s.handshake i d).any fun x => x.2.beat.tlast

/-- The ready of a source: `saf_tr`, `gen_tr`, `s_axis_inj_tready`. -/
def ready : TxSource n → Bool
  | .saf p =>
    ((List.finRange n).any fun e =>
        s.sel i (.egress e) == some (.saf p) && i.ready (.egress e)) ||
      (s.sel i .punt == some (.saf p) && i.ready .punt)
  | .gen e => s.sel i (.egress e) == some (.gen e) && i.ready (.egress e)
  | .inj => (List.finRange n).any fun e => s.sel i (.egress e) == some .inj && i.ready (.egress e)

/-- One clock edge. -/
def step : Arbiters n :=
  { tx := fun e => (s.tx e).next (i.win e) (s.done i (.egress e))
    punt := s.punt.next i.puntWin (s.done i .punt) }

/-- The source that a destination has granted over the clock edge. -/
def held : TxDest n → Option (TxSource n)
  | .egress e => (s.tx e).held
  | .punt => s.punt.held.map .saf

/-- No frame is granted after a reset. -/
structure Reset : Prop where
  tx : ∀ e, (s.tx e).busy = false
  punt : s.punt.busy = false

end Arbiters

/-- What an egress port sends of a word: only the generator's frames are marked. -/
def TxSource.txBeat : TxSource n → TxWord → Beat × Bool
  | gen _, w => (w.beat, w.tstampable)
  | _, w => (w.beat, false)

/-! ## One cycle of the arbiters -/

namespace Arbiters

variable {s : Arbiters n} {i : ArbIn n} {d : TxDest n}

theorem sel_eq (s : Arbiters n) (i : ArbIn n) (d : TxDest n) :
    s.sel i d = (s.held d).or (match d with
      | .egress e => i.win e
      | .punt => i.puntWin.map .saf) := by
  cases d with
  | egress e =>
    simp only [sel, held, Grant.sel, Grant.held]
    split <;> rfl
  | punt =>
    simp only [sel, held, Grant.sel, Grant.held]
    split <;> rfl

/-- A source that was granted stays selected. -/
theorem sel_of_held {src : TxSource n} (h : s.held d = some src) : s.sel i d = some src := by
  rw [sel_eq, h]
  rfl

theorem handshake_eq_some_iff {x : TxSource n × TxWord} :
    s.handshake i d = some x ↔
      i.ready d = true ∧ s.sel i d = some x.1 ∧ i.head x.1 = some x.2 := by
  obtain ⟨src, w⟩ := x
  rw [handshake, shown]
  cases hr : i.ready d with
  | false => simp
  | true =>
    cases hs : s.sel i d with
    | none => simp
    | some src' =>
      cases hw : i.head src' with
      | none =>
        simp only [Option.bind_some, hw, Option.map_none, if_true, reduceCtorEq, false_iff]
        rintro ⟨-, hsrc, hhead⟩
        rw [← Option.some.inj hsrc, hw] at hhead
        cases hhead
      | some w' =>
        simp only [Option.bind_some, hw, Option.map_some, if_true, Option.some.injEq, Prod.mk.injEq,
          true_and]
        constructor
        · rintro ⟨rfl, rfl⟩
          exact ⟨rfl, hw⟩
        · rintro ⟨rfl, hhead⟩
          exact ⟨rfl, Option.some.inj (hw.symm.trans hhead)⟩

/-- **What is granted over the edge** is what was selected, unless its frame is done. -/
theorem held_step (s : Arbiters n) (i : ArbIn n) (d : TxDest n) :
    (s.step i).held d = if s.done i d then none else s.sel i d := by
  have hsome : s.done i d = true → (s.sel i d).isSome = true := by
    intro hd
    rw [done, Option.any_eq_true] at hd
    obtain ⟨x, hx, -⟩ := hd
    rw [(handshake_eq_some_iff.mp hx).2.1]
    rfl
  cases d with
  | egress e => exact Grant.held_next _ _ _ hsome
  | punt =>
    have hsel : (s.punt.sel i.puntWin).isSome = (s.sel i .punt).isSome := by
      rw [sel, Option.isSome_map]
    show ((s.punt.next i.puntWin (s.done i .punt)).held).map TxSource.saf = _
    rw [Grant.held_next _ _ _ (by rw [hsel]; exact hsome)]
    cases s.done i .punt with
    | true => rfl
    | false => rfl

/-- A source is asked for only by the destination of its head. -/
theorem dest_of_win (hn : n ≤ 16) {src : TxSource n}
    (h : (match d with
      | .egress e => i.win e
      | .punt => i.puntWin.map .saf) = some src) :
    ∃ w, i.head src = some w ∧ src.dest w = some d := by
  cases d with
  | egress e =>
    simp only [ArbIn.win] at h
    split at h
    · rename_i p hp
      have hreq := List.find?_some hp
      cases h
      rw [ArbIn.fwdReq, Option.any_eq_true] at hreq
      obtain ⟨w, hw, heq⟩ := hreq
      rw [Bool.and_eq_true, Bool.not_eq_true', beq_iff_eq] at heq
      refine ⟨w, hw, ?_⟩
      have hnat : w.tag.egress.toNat = e := by
        rw [heq.2, BitVec.toNat_ofNat, Nat.mod_eq_of_lt]
        have := e.isLt
        omega
      simp [TxSource.dest, heq.1, hnat]
    · split at h
      · rename_i hinj
        cases h
        rw [ArbIn.injHere, Option.any_eq_true] at hinj
        obtain ⟨w, hw, heq⟩ := hinj
        rw [beq_iff_eq] at heq
        exact ⟨w, hw, by simp [TxSource.dest, heq]⟩
      · split at h
        · rename_i hgen
          cases h
          obtain ⟨w, hw⟩ := Option.isSome_iff_exists.mp hgen
          exact ⟨w, hw, rfl⟩
        · cases h
  | punt =>
    obtain ⟨p, hp, rfl⟩ := Option.map_eq_some_iff.mp h
    have hreq := List.find?_some hp
    rw [ArbIn.puntReq, Option.any_eq_true] at hreq
    obtain ⟨w, hw, heq⟩ := hreq
    exact ⟨w, hw, by simp [TxSource.dest, heq]⟩

/-- A source that asks is selected, or another one is. -/
theorem isSome_win {src : TxSource n} {w : TxWord} (hw : i.head src = some w)
    (hdest : src.dest w = some d) :
    (match d with
      | .egress e => i.win e
      | .punt => i.puntWin.map .saf).isSome = true := by
  cases src with
  | saf p =>
    rw [TxSource.dest] at hdest
    split at hdest
    · rename_i hpunt
      cases hdest
      rw [Option.isSome_map, ArbIn.puntWin, List.find?_isSome]
      exact ⟨p, List.mem_finRange p, by rw [ArbIn.puntReq, hw]; exact hpunt⟩
    · rename_i hpunt
      split at hdest
      · cases hdest
        have hfind : ((List.finRange n).find? (i.fwdReq ⟨w.tag.egress.toNat, by assumption⟩)).isSome =
            true := by
          rw [List.find?_isSome]
          refine ⟨p, List.mem_finRange p, ?_⟩
          rw [ArbIn.fwdReq, hw]
          simp [hpunt]
        simp only [ArbIn.win]
        split
        · rfl
        · rename_i hnone
          rw [hnone] at hfind
          cases hfind
      · cases hdest
  | gen e =>
    cases hdest
    simp only [ArbIn.win, hw]
    split
    · rfl
    · split <;> rfl
  | inj =>
    rw [TxSource.dest] at hdest
    split at hdest
    · cases hdest
      simp only [ArbIn.win, ArbIn.injHere, hw]
      split
      · rfl
      · simp
    · cases hdest

/-- The ready of a source is that of the destination that has selected it. -/
theorem ready_eq_true_iff {src : TxSource n} {w : TxWord}
    (hdest : ∀ d, s.sel i d = some src → src.dest w = some d) :
    s.ready i src = true ↔ ∃ d, s.sel i d = some src ∧ i.ready d = true := by
  cases src with
  | saf p =>
    simp only [ready, Bool.or_eq_true, List.any_eq_true, List.mem_finRange, true_and,
      Bool.and_eq_true, beq_iff_eq]
    constructor
    · rintro (⟨e, he⟩ | hp)
      · exact ⟨_, he⟩
      · exact ⟨_, hp⟩
    · rintro ⟨d, hd⟩
      cases d with
      | egress e => exact Or.inl ⟨e, hd⟩
      | punt => exact Or.inr hd
  | gen e =>
    simp only [ready, Bool.and_eq_true, beq_iff_eq]
    constructor
    · intro h
      exact ⟨_, h⟩
    · rintro ⟨d, hd⟩
      -- the ready of a generator comes from its own port only
      have hown := hdest d hd.1
      rw [TxSource.dest, Option.some.injEq] at hown
      rwa [hown]
  | inj =>
    simp only [ready, List.any_eq_true, List.mem_finRange, true_and, Bool.and_eq_true, beq_iff_eq]
    constructor
    · rintro ⟨e, he⟩
      exact ⟨_, he⟩
    · rintro ⟨d, hd⟩
      cases d with
      | egress e => exact ⟨e, hd⟩
      | punt =>
        -- injected frames are not punted
        have hpunt := hdest .punt hd.1
        rw [TxSource.dest] at hpunt
        split at hpunt <;> cases hpunt

end Arbiters

/-! ## The arbiters with their sources

Each source has a stream of words, and what is sent is recorded for each destination. -/

/-- A source shows beats of one frame for one destination. -/
def TxSource.Together (src : TxSource n) (a b : TxWord) : Prop :=
  a.beat.tlast = true ∨ src.dest b = src.dest a

/-- A destination goes on with another source only after a last beat. -/
def Unbroken (a b : TxSource n × TxWord) : Prop := a.2.beat.tlast = true ∨ b.1 = a.1

/-- A cycle: the sources that are valid and the destinations that are ready. -/
structure ArbCycle (n : ℕ) where
  offer : TxSource n → Bool
  ready : TxDest n → Bool

/-- The arbiters, what each source has still to show and has had taken, and what each
destination was sent. -/
structure ArbSystem (n : ℕ) where
  arb : Arbiters n
  todo : TxSource n → List TxWord
  taken : TxSource n → List TxWord
  sent : TxDest n → List (TxSource n × TxWord)

namespace ArbSystem

variable (s : ArbSystem n) (c : ArbCycle n)

/-- A valid source shows the first word that it still has. -/
def input : ArbIn n :=
  { head := fun src => if c.offer src then (s.todo src).head? else none
    ready := c.ready }

/-- The word that a source has taken. -/
def gives (src : TxSource n) : Option TxWord :=
  if s.arb.ready (s.input c) src then (s.input c).head src else none

/-- One clock edge. -/
def step : ArbSystem n :=
  { arb := s.arb.step (s.input c)
    todo := fun src => (s.todo src).drop (s.gives c src).toList.length
    taken := fun src => s.taken src ++ (s.gives c src).toList
    sent := fun d => s.sent d ++ (s.arb.handshake (s.input c) d).toList }

@[simp] theorem arb_step : (s.step c).arb = s.arb.step (s.input c) := rfl

theorem todo_step (src : TxSource n) :
    (s.step c).todo src = (s.todo src).drop (s.gives c src).toList.length := rfl

theorem taken_step (src : TxSource n) :
    (s.step c).taken src = s.taken src ++ (s.gives c src).toList := rfl

theorem sent_step (d : TxDest n) :
    (s.step c).sent d = s.sent d ++ (s.arb.handshake (s.input c) d).toList := rfl

/-- The state after a reset, with the streams that the sources have to show. -/
def start (arb : Arbiters n) (stream : TxSource n → List TxWord) : ArbSystem n :=
  { arb, todo := stream, taken := fun _ => [], sent := fun _ => [] }

/-- **The joint invariant of the arbiters.**  A grant is on a source whose next word is
for the destination that holds it, so that no two of them hold one source. -/
structure Inv (stream : TxSource n → List TxWord) : Prop where
  split : ∀ src, s.taken src ++ s.todo src = stream src
  together : ∀ src, (s.todo src).IsChain src.Together
  grant : ∀ d src, s.arb.held d = some src → ∀ w ∈ (s.todo src).head?, src.dest w = some d
  midframe : ∀ d, ∀ x ∈ (s.sent d).getLast?, x.2.beat.tlast = false → s.arb.held d = some x.1
  unbroken : ∀ d, (s.sent d).IsChain Unbroken
  shares : ∀ d src, ((s.sent d).filter fun x => x.1 = src).map Prod.snd =
    (s.taken src).filter fun w => src.dest w = some d
  dests : ∀ src, ∀ w ∈ s.taken src, (src.dest w).isSome = true

variable {s : ArbSystem n} {c : ArbCycle n} {stream : TxSource n → List TxWord}

theorem head_input {src : TxSource n} {w : TxWord} (h : (s.input c).head src = some w) :
    (s.todo src).head? = some w := by
  simp only [input] at h
  split at h
  · exact h
  · cases h

namespace Inv

/-- **Only the destination of a word selects its source.** -/
theorem dest_of_sel (hn : n ≤ 16) (h : s.Inv stream) {d : TxDest n} {src : TxSource n} {w : TxWord}
    (hsel : s.arb.sel (s.input c) d = some src) (hw : (s.todo src).head? = some w) :
    src.dest w = some d := by
  rw [Arbiters.sel_eq] at hsel
  cases hheld : s.arb.held d with
  | some src' =>
    rw [hheld, Option.some_or] at hsel
    cases hsel
    exact h.grant d src hheld w hw
  | none =>
    rw [hheld, Option.none_or] at hsel
    obtain ⟨w', hw', hdest⟩ := Arbiters.dest_of_win hn hsel
    rw [head_input hw'] at hw
    cases hw
    exact hdest

/-- **A word is taken from its source when its one destination takes it.** -/
theorem gives_eq_some_iff (hn : n ≤ 16) (h : s.Inv stream) {src : TxSource n} {w : TxWord} :
    s.gives c src = some w ↔
      ∃ d, src.dest w = some d ∧ s.arb.handshake (s.input c) d = some (src, w) := by
  rw [gives]
  constructor
  · intro hg
    split at hg
    · rename_i hready
      obtain ⟨d, hsel, hd⟩ :=
        (Arbiters.ready_eq_true_iff fun d hsel => h.dest_of_sel hn hsel (head_input hg)).mp
          hready
      exact ⟨d, h.dest_of_sel hn hsel (head_input hg), Arbiters.handshake_eq_some_iff.mpr ⟨hd, hsel, hg⟩⟩
    · cases hg
  · rintro ⟨d, -, hs⟩
    obtain ⟨hd, hsel, hw⟩ := Arbiters.handshake_eq_some_iff.mp hs
    rw [if_pos, hw]
    exact (Arbiters.ready_eq_true_iff fun d hsel => h.dest_of_sel hn hsel (head_input hw)).mpr
      ⟨d, hsel, hd⟩

theorem handshake_eq_some_iff (hn : n ≤ 16) (h : s.Inv stream) {d : TxDest n} {src : TxSource n}
    {w : TxWord} :
    s.arb.handshake (s.input c) d = some (src, w) ↔
      s.gives c src = some w ∧ src.dest w = some d := by
  constructor
  · intro hs
    obtain ⟨-, hsel, hw⟩ := Arbiters.handshake_eq_some_iff.mp hs
    have hdest := h.dest_of_sel hn hsel (head_input hw)
    exact ⟨(h.gives_eq_some_iff hn).mpr ⟨d, hdest, hs⟩, hdest⟩
  · rintro ⟨hg, hdest⟩
    obtain ⟨d', hdest', hs⟩ := (h.gives_eq_some_iff hn).mp hg
    rw [hdest] at hdest'
    cases hdest'
    exact hs

/-- What is taken from a source is the next of its words. -/
theorem gives_append (s : ArbSystem n) (c : ArbCycle n) (src : TxSource n) :
    (s.gives c src).toList ++ (s.todo src).drop (s.gives c src).toList.length = s.todo src := by
  cases hg : s.gives c src with
  | none => rfl
  | some w =>
    have hhead : (s.todo src).head? = some w := by
      rw [gives] at hg
      split at hg
      · exact head_input hg
      · cases hg
    obtain ⟨r, hr⟩ := List.head?_eq_some_iff.mp hhead
    rw [hr]
    rfl

theorem done_of_handshake {d : TxDest n} {x : TxSource n × TxWord}
    (hs : s.arb.handshake (s.input c) d = some x) :
    s.arb.done (s.input c) d = x.2.beat.tlast := by
  rw [Arbiters.done, hs]
  rfl

/-- The next word of a granted source is for the destination that holds it. -/
theorem grant_step (hn : n ≤ 16) (h : s.Inv stream) {d : TxDest n} {src : TxSource n}
    (hheld : (s.step c).arb.held d = some src) {w : TxWord}
    (hw : w ∈ ((s.step c).todo src).head?) : src.dest w = some d := by
  rw [arb_step, Arbiters.held_step] at hheld
  split at hheld
  · cases hheld
  · rename_i hdone
    have happend := gives_append s c src
    cases hg : s.gives c src with
    | none =>
      rw [hg] at happend
      rw [todo_step, hg] at hw
      exact h.dest_of_sel hn hheld hw
    | some w₀ =>
      -- a word was taken, and it was not the last one of its frame
      rw [hg] at happend
      have hhead : (s.todo src).head? = some w₀ := by
        rw [← happend]
        rfl
      have hdest := h.dest_of_sel hn hheld hhead
      have hs := (h.handshake_eq_some_iff hn).mpr ⟨hg, hdest⟩
      have hlast : w₀.beat.tlast = false := by
        rw [done_of_handshake hs] at hdone
        exact Bool.eq_false_iff.mpr hdone
      have hchain := h.together src
      rw [← happend, Option.toList_some, List.singleton_append, List.isChain_cons] at hchain
      rw [todo_step, hg] at hw
      cases hchain.1 w hw with
      | inl htrue => rw [hlast] at htrue; cases htrue
      | inr hsame => rw [hsame, hdest]

/-- A destination in the middle of a frame holds its source. -/
theorem midframe_step (h : s.Inv stream) {d : TxDest n} {x : TxSource n × TxWord}
    (hx : x ∈ ((s.step c).sent d).getLast?) (hlast : x.2.beat.tlast = false) :
    (s.step c).arb.held d = some x.1 := by
  rw [arb_step, Arbiters.held_step]
  cases hs : s.arb.handshake (s.input c) d with
  | none =>
    rw [sent_step, hs, Option.toList_none, List.append_nil] at hx
    rw [Arbiters.done, hs]
    exact Arbiters.sel_of_held (h.midframe d x hx hlast)
  | some y =>
    rw [sent_step, hs, Option.toList_some, List.getLast?_concat] at hx
    cases hx
    rw [done_of_handshake hs, hlast]
    exact (Arbiters.handshake_eq_some_iff.mp hs).2.1

/-- A destination does not change its source within a frame. -/
theorem unbroken_step (h : s.Inv stream) (d : TxDest n) :
    ((s.step c).sent d).IsChain Unbroken := by
  rw [sent_step]
  cases hs : s.arb.handshake (s.input c) d with
  | none =>
    rw [Option.toList_none, List.append_nil]
    exact h.unbroken d
  | some y =>
    rw [Option.toList_some, List.isChain_append]
    refine ⟨h.unbroken d, List.isChain_singleton _, ?_⟩
    intro x hx y' hy
    cases hy
    cases hlast : x.2.beat.tlast with
    | true => exact Or.inl hlast
    | false =>
      have hsel : s.arb.sel (s.input c) d = some x.1 :=
        Arbiters.sel_of_held (h.midframe d x hx hlast)
      rw [(Arbiters.handshake_eq_some_iff.mp hs).2.1, Option.some.injEq] at hsel
      exact Or.inr hsel

/-- A destination is sent what is taken from the sources for it. -/
theorem shares_step (hn : n ≤ 16) (h : s.Inv stream) (d : TxDest n) (src : TxSource n) :
    (((s.step c).sent d).filter fun x => x.1 = src).map Prod.snd =
      ((s.step c).taken src).filter fun w => src.dest w = some d := by
  have hword : ((s.arb.handshake (s.input c) d).toList.filter fun x => x.1 = src).map Prod.snd =
      (s.gives c src).toList.filter fun w => src.dest w = some d := by
    by_cases htake : ∃ w, s.gives c src = some w ∧ src.dest w = some d
    · obtain ⟨w, hg, hdest⟩ := htake
      rw [(h.handshake_eq_some_iff hn).mpr ⟨hg, hdest⟩, hg]
      simp [hdest]
    · have hgives : ((s.gives c src).toList.filter fun w => src.dest w = some d) = [] := by
        rw [List.filter_eq_nil_iff]
        intro w hw hdest
        exact htake ⟨w, Option.mem_toList.mp hw, of_decide_eq_true hdest⟩
      have hsent : ((s.arb.handshake (s.input c) d).toList.filter fun x => x.1 = src) = [] := by
        rw [List.filter_eq_nil_iff]
        rintro ⟨src', w⟩ hx hsrc
        cases of_decide_eq_true hsrc
        exact htake ⟨w, (h.handshake_eq_some_iff hn).mp (Option.mem_toList.mp hx)⟩
      rw [hgives, hsent]
      rfl
  rw [sent_step, taken_step, List.filter_append, List.map_append, List.filter_append, hword, h.shares d src]

/-- **The joint invariant is kept by a clock edge.** -/
theorem step (hn : n ≤ 16) (h : s.Inv stream) (c : ArbCycle n) : (s.step c).Inv stream where
  split src := by
    rw [taken_step, todo_step, List.append_assoc, gives_append, h.split]
  together src := (h.together src).suffix (List.drop_suffix _ _)
  grant d src hheld w hw := h.grant_step hn hheld hw
  midframe d x hx hlast := h.midframe_step hx hlast
  unbroken d := h.unbroken_step d
  shares d src := h.shares_step hn d src
  dests src := by
    intro w hw
    rw [taken_step, List.mem_append, Option.mem_toList] at hw
    cases hw with
    | inl hw => exact h.dests src w hw
    | inr hw =>
      obtain ⟨d, hdest, -⟩ := (h.gives_eq_some_iff hn).mp hw
      rw [hdest]
      rfl

theorem start {arb : Arbiters n} (hr : arb.Reset)
    (hstream : ∀ src, (stream src).IsChain src.Together) :
    (ArbSystem.start arb stream).Inv stream where
  split _ := rfl
  together := hstream
  grant d src hheld := by
    cases d with
    | egress e => simp [ArbSystem.start, Arbiters.held, Grant.held, hr.tx e] at hheld
    | punt => simp [ArbSystem.start, Arbiters.held, Grant.held, hr.punt] at hheld
  midframe _ _ hx := by cases hx
  unbroken _ := List.isChain_nil
  shares _ _ := rfl
  dests _ _ hw := by cases hw

end Inv

/-- What is not taken stays, while its source does. -/
theorem shown_step {d : TxDest n} {x : TxSource n × TxWord} {c' : ArbCycle n} (hn : n ≤ 16)
    (h : s.Inv stream) (hx : s.arb.shown (s.input c) d = some x) (hready : c.ready d = false)
    (hoffer : c'.offer x.1 = true) : (s.step c).arb.shown ((s.step c).input c') d = some x := by
  obtain ⟨src, w⟩ := x
  obtain ⟨src', hsel, hmap⟩ := Option.bind_eq_some_iff.mp hx
  obtain ⟨w', hw, hpair⟩ := Option.map_eq_some_iff.mp hmap
  cases hpair
  have hhand : s.arb.handshake (s.input c) d = none := by
    rw [Arbiters.handshake, if_neg]
    exact Bool.eq_false_iff.mp hready
  have hheld : (s.step c).arb.held d = some src := by
    rw [arb_step, Arbiters.held_step, Arbiters.done, hhand]
    exact hsel
  -- its one destination has not taken it
  have hgives : s.gives c src = none := by
    cases hg : s.gives c src with
    | none => rfl
    | some w₀ =>
      obtain ⟨d', hdest, hs⟩ := (h.gives_eq_some_iff hn).mp hg
      have hw₀ := head_input (Arbiters.handshake_eq_some_iff.mp hs).2.2
      have hd := h.dest_of_sel hn hsel hw₀
      rw [hdest] at hd
      cases hd
      rw [hhand] at hs
      cases hs
  have hhead : ((s.step c).input c').head src = some w := by
    simp only [input, hoffer, if_true, todo_step, hgives]
    exact head_input hw
  rw [Arbiters.shown, Arbiters.sel_of_held hheld, Option.bind_some, hhead]
  rfl

/-- A destination with a word to take shows one, unless it waits for the frame that it has
begun. -/
theorem shown_of_dest {d : TxDest n} {src : TxSource n} {w : TxWord} (hn : n ≤ 16)
    (hw : (s.input c).head src = some w) (hdest : src.dest w = some d) :
    (s.arb.shown (s.input c) d).isSome = true ∨
      ∃ src', s.arb.held d = some src' ∧ (s.input c).head src' = none := by
  cases hheld : s.arb.held d with
  | some src' =>
    cases hhead : (s.input c).head src' with
    | none => exact Or.inr ⟨src', rfl, hhead⟩
    | some w' =>
      apply Or.inl
      rw [Arbiters.shown, Arbiters.sel_of_held hheld, Option.bind_some, hhead]
      rfl
  | none =>
    apply Or.inl
    obtain ⟨src', hwin⟩ := Option.isSome_iff_exists.mp (Arbiters.isSome_win hw hdest)
    obtain ⟨w', hw', -⟩ := Arbiters.dest_of_win hn hwin
    rw [Arbiters.shown, Arbiters.sel_eq, hheld, Option.none_or, hwin, Option.bind_some, hw']
    rfl

end ArbSystem

/-! ## The streams of the buffers -/

/-- A drained beat with its tag, as the arbiters see it. -/
def TxWord.ofTagged (x : Beat × RxTag) : TxWord := { beat := x.1, tag := x.2 }

/-- Only ended frames are decided. -/
theorem wholeFrame_of_mem_safArrivals {ρ : Type} {p : SafPhase} {cur : List Beat}
    {ins : List (SafIn ρ)} (hshape : p.Shape cur)
    (hins : Follows SafPhase.allow SafPhase.next p ins) :
    ∀ x ∈ safArrivals cur ins, WholeFrame x.1 := by
  induction ins generalizing p cur with
  | nil =>
    intro x hx
    cases hx
  | cons i ins ih =>
    obtain ⟨hallow, hrest⟩ := hins
    cases p with
    | due =>
      rw [safArrivals, if_pos hallow.1]
      intro x hx
      cases hx with
      | head => exact hshape
      | tail _ hx => exact ih (p := .streaming) (fun b hb => by cases hb) hrest x hx
    | streaming =>
      rw [SafPhase.allow] at hallow
      rw [safArrivals, if_neg (Bool.eq_false_iff.mp hallow)]
      refine ih ?_ hrest
      cases hv : i.tvalid with
      | false =>
        rw [SafPhase.next, hv]
        exact hshape
      | true =>
        cases hlast : i.beat.tlast with
        | false =>
          rw [SafPhase.next, hv, hlast]
          exact hshape.concat hlast
        | true =>
          rw [SafPhase.next, hv, hlast]
          exact ⟨cur, i.beat, rfl, hshape, hlast⟩

theorem tagsAgree_acceptedBeats {ρ : Type} {l : List (SafDecision ρ)}
    (h : ∀ d ∈ l, WholeFrame d.frame) : TagsAgree (acceptedBeats l) := by
  induction l with
  | nil => trivial
  | cons d l ih =>
    have hrest := ih fun d' hd' => h d' (List.mem_cons_of_mem _ hd')
    rw [acceptedBeats, List.filter_cons]
    split
    · rw [List.flatMap_cons]
      exact ((h d List.mem_cons_self).tagsAgree d.tag).append hrest
    · exact hrest

/-- Beats of one frame have one tag, and so one destination. -/
theorem TagsAgree.together (src : TxSource n) {l : List (Beat × RxTag)} (h : TagsAgree l) :
    (l.map TxWord.ofTagged).IsChain src.Together := by
  induction l with
  | nil => exact List.isChain_nil
  | cons x l ih =>
    rw [List.map_cons, List.isChain_cons]
    refine ⟨?_, ih h.2⟩
    intro y hy
    rw [List.head?_map, Option.mem_def, Option.map_eq_some_iff] at hy
    obtain ⟨y', hy', rfl⟩ := hy
    cases h.1 with
    | inl hlast => exact Or.inl hlast
    | inr htag =>
      rw [hy', Option.map_some, Option.some.injEq] at htag
      obtain ⟨b, tag⟩ := y'
      cases htag
      apply Or.inr
      cases src <;> rfl

/-- **A buffer drains each frame to one place.** -/
theorem Saf.Reset.together {aw daw : ℕ} {s : Saf aw daw RxTag} (hs : s.Reset)
    {ins : List (SafIn RxTag)} (hins : SafContract ins) (src : TxSource n) :
    ((outputs Saf.sent Saf.step s ins).map TxWord.ofTagged).IsChain src.Together := by
  have hlaw := (SafSpec.conserves_init RxTag).run aw daw ins
  simp only [List.nil_append] at hlaw
  have hwhole : ∀ d ∈ (run (SafSpec.step aw daw) ({} : SafSpec RxTag) ins).decided,
      WholeFrame d.frame := by
    intro d hd
    have hmem : (d.frame, d.keep, d.tag) ∈ safArrivals [] ins := by
      rw [← hlaw.decided]
      exact List.mem_map.mpr ⟨d, hd, rfl⟩
    exact wholeFrame_of_mem_safArrivals (p := .streaming) (fun b hb => by cases hb) hins _ hmem
  have hall := (tagsAgree_acceptedBeats hwhole).together src
  rw [← hlaw.queue, List.map_append, List.isChain_append] at hall
  rw [(hs.refines hins).2]
  exact hall.1

/-! ## Whole runs -/

/-- What the arbiters guarantee in a state that is reached with these source streams. -/
structure ArbLaw (s : ArbSystem n) (stream : TxSource n → List TxWord) : Prop where
  /-- Nothing of a source is lost, repeated or reordered. -/
  whole : ∀ src, s.taken src ++ s.todo src = stream src
  /-- What a destination was sent of a source is what was taken of it for this
  destination. -/
  shares : ∀ d src, ((s.sent d).filter fun x => x.1 = src).map Prod.snd =
    (s.taken src).filter fun w => src.dest w = some d
  /-- Only words with a destination are taken. -/
  dests : ∀ src, ∀ w ∈ s.taken src, (src.dest w).isSome = true
  /-- A destination is sent one frame after the other. -/
  unbroken : ∀ d, (s.sent d).IsChain Unbroken
  /-- A word is taken by one destination, the one that it is for. -/
  consumer : ∀ c src w, s.gives c src = some w →
    ∃ d, src.dest w = some d ∧
      ∀ d', s.arb.handshake (s.input c) d' = some (src, w) ↔ d' = d
  /-- A destination is sent nothing that is not taken from its source. -/
  taken : ∀ c d src w, s.arb.handshake (s.input c) d = some (src, w) → s.gives c src = some w
  /-- What is valid and not taken stays. -/
  stable : ∀ c c' d x, s.arb.shown (s.input c) d = some x → c.ready d = false →
    c'.offer x.1 = true → (s.step c).arb.shown ((s.step c).input c') d = some x
  /-- A destination with a word to take shows one, unless it waits for the frame that it
  has begun. -/
  served : ∀ c src w d, (s.input c).head src = some w → src.dest w = some d →
    (s.arb.shown (s.input c) d).isSome = true ∨
      ∃ src', s.arb.held d = some src' ∧ (s.input c).head src' = none

theorem ArbSystem.Inv.law (hn : n ≤ 16) {s : ArbSystem n} {stream : TxSource n → List TxWord}
    (h : s.Inv stream) : ArbLaw s stream :=
  { whole := h.split
    shares := h.shares
    dests := h.dests
    unbroken := h.unbroken
    consumer := by
      intro c src w hg
      obtain ⟨d, hdest, hs⟩ := (h.gives_eq_some_iff hn).mp hg
      refine ⟨d, hdest, ?_⟩
      intro d'
      rw [h.handshake_eq_some_iff hn, hdest, Option.some.injEq, and_iff_right hg]
      exact eq_comm
    taken := by
      intro c d src w hs
      exact ((h.handshake_eq_some_iff hn).mp hs).1
    stable := by
      intro c c' d x hx hready hoffer
      exact ArbSystem.shown_step hn h hx hready hoffer
    served := by
      intro c src w d hw hdest
      exact ArbSystem.shown_of_dest hn hw hdest }

/-- **Arbitration preserves frames**: from a reset, with any source streams that send each
frame to one place, and over any pattern of valid and ready. -/
theorem arbitration_preserves_frames (hn : n ≤ 16) {arb : Arbiters n} (hr : arb.Reset)
    {stream : TxSource n → List TxWord} (hstream : ∀ src, (stream src).IsChain src.Together)
    (cycles : List (ArbCycle n)) :
    ArbLaw (run ArbSystem.step (ArbSystem.start arb stream) cycles) stream := by
  apply ArbSystem.Inv.law hn
  refine run_invariant (I := fun s : ArbSystem n => s.Inv stream) (A := fun _ => True) ?_
    (ArbSystem.Inv.start hr hstream) fun _ _ => trivial
  intro s c _ h
  exact h.step hn c

/-- A word of a frame that is to go to a port, or to be punted. -/
def sampleTxWord (d : BitVec 64) (last : Bool) (tag : RxTag) : TxWord :=
  { beat := { tdata := d, tkeep := 0xff, tlast := last }, tag }

/-- Port 0 forwards a frame to port 1 and then punts one, the host injects one for port 1,
where a test frame waits too. -/
def sampleTxStream : TxSource 2 → List TxWord
  | .saf 0 =>
    [sampleTxWord 1 false { egress := 1 }, sampleTxWord 2 true { egress := 1 },
      sampleTxWord 3 true { punt := true }]
  | .saf 1 => []
  | .gen 0 => []
  | .gen 1 =>
    [{ sampleTxWord 4 false {} with tstampable := true },
      { sampleTxWord 5 true {} with tstampable := true }]
  | .inj => [sampleTxWord 6 true { egress := 1 }]

/-- The generator begins, and the other sources come while its frame is sent. -/
def sampleTxCycles : List (ArbCycle 2) :=
  [{ offer := fun src => src = .gen 1, ready := fun _ => true },
    { offer := fun _ => true, ready := fun d => d ≠ .egress 1 },
    { offer := fun _ => true, ready := fun _ => true },
    { offer := fun _ => true, ready := fun _ => true },
    { offer := fun _ => true, ready := fun _ => true },
    { offer := fun _ => true, ready := fun _ => true }]

def sampleArbiters : Arbiters 2 :=
  { tx := fun _ => { busy := false, gsel := .inj }, punt := { busy := false, gsel := 0 } }

/-- The test frame is finished first, then the forwarded frame is sent, then the injected
one; the punted frame is sent beside it. -/
theorem arbitration_preserves_frames_sample :
    ArbLaw (run ArbSystem.step (ArbSystem.start sampleArbiters sampleTxStream) sampleTxCycles)
      sampleTxStream ∧
    ((run ArbSystem.step (ArbSystem.start sampleArbiters sampleTxStream) sampleTxCycles).sent
      (.egress 1)).map (fun x => ((x.1.txBeat x.2).1.tdata, (x.1.txBeat x.2).2)) =
      [(4, true), (5, true), (1, false), (2, false), (6, false)] ∧
    ((run ArbSystem.step (ArbSystem.start sampleArbiters sampleTxStream) sampleTxCycles).sent
      .punt).map (fun x => x.2.beat.tdata) = [3] := by
  have hstream : ∀ src, (sampleTxStream src).IsChain src.Together := by
    intro src
    cases src with
    | saf p => fin_cases p <;> simp [sampleTxStream, TxSource.Together, TxSource.dest, sampleTxWord]
    | gen e => fin_cases e <;> simp [sampleTxStream, TxSource.Together, TxSource.dest]
    | inj => simp [sampleTxStream]
  refine ⟨arbitration_preserves_frames (by decide) ⟨fun _ => rfl, rfl⟩ hstream _, ?_, ?_⟩
  · decide +kernel
  · decide +kernel

end PacketWyrm
