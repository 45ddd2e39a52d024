import PacketWyrm.Types
import PacketWyrm.Lib.Bits
import Mathlib.Data.List.Basic

/-!
# Frames on a 64-bit stream

A beat carries up to eight bytes, the first of them in its low lane.  A frame is
sent as the beats of its bytes, eight at a time, and the last of them is marked.

## Main definitions

* `Beat` — one beat.
* `axisBeat`, `axisBeats` — the beats of a frame.
* `beatBytes` — the bytes of beats.
-/

namespace PacketWyrm

open Lib

/-- A beat of a 64-bit stream. -/
structure Beat where
  tdata : BitVec 64 := 0
  tkeep : BitVec 8 := 0
  tlast : Bool := false
  deriving DecidableEq, Repr

/-- Eight bytes, lane 0 least significant. -/
def lanes (f : ℕ → Byte) : BitVec 64 :=
  f 7 ++ f 6 ++ f 5 ++ f 4 ++ f 3 ++ f 2 ++ f 1 ++ f 0

/-- A byte lane of a beat. -/
def Beat.lane (b : Beat) (l : ℕ) : Byte := b.tdata.extractLsb' (8 * l) 8

/-- A beat is its lanes. -/
theorem lanes_lane (b : Beat) : lanes b.lane = b.tdata := by
  simp only [lanes, Beat.lane]
  rw [BitVec.extractLsb'_append_extractLsb'_eq_extractLsb' (show 8 * 7 = 8 * 6 + 8 from rfl),
    BitVec.extractLsb'_append_extractLsb'_eq_extractLsb' (show 8 * 6 = 8 * 5 + 8 from rfl),
    BitVec.extractLsb'_append_extractLsb'_eq_extractLsb' (show 8 * 5 = 8 * 4 + 8 from rfl),
    BitVec.extractLsb'_append_extractLsb'_eq_extractLsb' (show 8 * 4 = 8 * 3 + 8 from rfl),
    BitVec.extractLsb'_append_extractLsb'_eq_extractLsb' (show 8 * 3 = 8 * 2 + 8 from rfl),
    BitVec.extractLsb'_append_extractLsb'_eq_extractLsb' (show 8 * 2 = 8 * 1 + 8 from rfl),
    BitVec.extractLsb'_append_extractLsb'_eq_extractLsb' (show 8 * 1 = 8 * 0 + 8 from rfl)]
  exact BitVec.extractLsb'_eq_self

theorem lanes_inj {f g : ℕ → Byte} (h : lanes f = lanes g) {l : ℕ} (hl : l < 8) : f l = g l := by
  rw [lanes, lanes, append_eq_append_iff, append_eq_append_iff, append_eq_append_iff,
    append_eq_append_iff, append_eq_append_iff, append_eq_append_iff, append_eq_append_iff] at h
  obtain ⟨⟨⟨⟨⟨⟨⟨h7, h6⟩, h5⟩, h4⟩, h3⟩, h2⟩, h1⟩, h0⟩ := h
  obtain rfl | rfl | rfl | rfl | rfl | rfl | rfl | rfl :
    l = 0 ∨ l = 1 ∨ l = 2 ∨ l = 3 ∨ l = 4 ∨ l = 5 ∨ l = 6 ∨ l = 7 := by omega
  all_goals assumption

/-- A lane of eight bytes. -/
theorem extractLsb'_lanes (f : ℕ → Byte) {l : ℕ} (hl : l < 8) :
    (lanes f).extractLsb' (8 * l) 8 = f l :=
  lanes_inj (lanes_lane { tdata := lanes f }) hl

theorem lanes_congr {f g : ℕ → Byte} (h : ∀ k < 8, f k = g k) : lanes f = lanes g := by
  rw [lanes, lanes, h 0 (by omega), h 1 (by omega), h 2 (by omega), h 3 (by omega),
    h 4 (by omega), h 5 (by omega), h 6 (by omega), h 7 (by omega)]

/-- The beat of a frame that starts at byte `off`. -/
def axisBeat (bytes : List Byte) (off : ℕ) : Beat :=
  { tdata := lanes fun k => bytes.getD (off + k) 0
    tkeep := ofBits fun k : Fin 8 => decide (off + k.val < bytes.length)
    tlast := decide (bytes.length ≤ off + 8) }

/-- The beats of a frame. -/
def axisBeats (bytes : List Byte) : List Beat :=
  (List.range ((bytes.length + 7) / 8)).map fun j => axisBeat bytes (8 * j)

theorem length_axisBeats (bytes : List Byte) : (axisBeats bytes).length = (bytes.length + 7) / 8 := by
  rw [axisBeats, List.length_map, List.length_range]

/-- What is left of a frame from beat `j` on starts with that beat. -/
theorem drop_axisBeats {bytes : List Byte} {j : ℕ} (h : 8 * j < bytes.length) :
    (axisBeats bytes).drop j = axisBeat bytes (8 * j) :: (axisBeats bytes).drop (j + 1) := by
  have hj : j < (axisBeats bytes).length := by
    rw [length_axisBeats]
    omega
  rw [List.drop_eq_getElem_cons hj]
  simp [axisBeats]

/-- The beat that is marked ends the frame. -/
theorem drop_axisBeats_of_last {bytes : List Byte} {j : ℕ} (h : bytes.length ≤ 8 * j + 8) :
    (axisBeats bytes).drop (j + 1) = [] := by
  rw [List.drop_eq_nil_iff, length_axisBeats]
  omega

/-- The bytes after the first beat are the beats after it. -/
theorem drop_one_axisBeats (bytes : List Byte) :
    (axisBeats bytes).drop 1 = axisBeats (bytes.drop 8) := by
  apply List.ext_getElem
  · rw [List.length_drop, length_axisBeats, length_axisBeats, List.length_drop]
    omega
  · intro j hj _
    rw [List.length_drop, length_axisBeats] at hj
    have hlen : 8 ≤ bytes.length := by omega
    simp only [axisBeats, List.getElem_drop, List.getElem_map, List.getElem_range, axisBeat,
      List.length_drop, Beat.mk.injEq]
    refine ⟨?_, ?_, ?_⟩
    · apply lanes_congr
      intro k _
      rw [List.getD_eq_getElem?_getD, List.getD_eq_getElem?_getD, List.getElem?_drop]
      congr 2
      omega
    · congr 1
      funext k
      rw [decide_eq_decide]
      omega
    · rw [decide_eq_decide]
      omega

/-- The bytes that beats carry: the lanes they keep. -/
def beatBytes (bs : List Beat) : List Byte :=
  bs.flatMap fun b => ((List.range 8).filter b.tkeep.getLsbD).map b.lane

theorem beatBytes_cons (b : Beat) (bs : List Beat) :
    beatBytes (b :: bs) = ((List.range 8).filter b.tkeep.getLsbD).map b.lane ++ beatBytes bs :=
  List.flatMap_cons

/-- The first beat carries the first bytes. -/
theorem kept_axisBeat (bytes : List Byte) :
    ((List.range 8).filter (axisBeat bytes 0).tkeep.getLsbD).map (axisBeat bytes 0).lane =
      bytes.take 8 := by
  have hkeep : (List.range 8).filter (axisBeat bytes 0).tkeep.getLsbD =
      List.range (min 8 bytes.length) := by
    have hrange : ∀ d : Fin 9, (List.range 8).filter (fun k => decide (k < d.val)) =
        List.range d.val := by
      decide +kernel
    rw [← hrange ⟨min 8 bytes.length, by omega⟩]
    apply List.filter_congr
    intro k hk
    rw [List.mem_range] at hk
    have hbit := getLsbD_ofBits (fun k : Fin 8 => decide (0 + k.val < bytes.length)) ⟨k, hk⟩
    rw [axisBeat, hbit, decide_eq_decide]
    simp only [Nat.zero_add]
    omega
  rw [hkeep]
  apply List.ext_getElem
  · rw [List.length_map, List.length_range, List.length_take]
  · intro k hk _
    rw [List.length_map, List.length_range] at hk
    rw [List.getElem_map, List.getElem_range, List.getElem_take]
    have hlane := extractLsb'_lanes (fun l => bytes.getD (0 + l) 0) (l := k) (by omega)
    refine hlane.trans ?_
    rw [Nat.zero_add, List.getD_eq_getElem?_getD, List.getElem?_eq_getElem (by omega)]
    rfl

/-- **The beats of a frame carry its bytes.** -/
theorem beatBytes_axisBeats (bytes : List Byte) : beatBytes (axisBeats bytes) = bytes := by
  induction hn : bytes.length using Nat.strongRecOn generalizing bytes with
  | ind n ih =>
    by_cases hne : bytes = []
    · subst hne
      rfl
    · have hpos : 0 < bytes.length := List.length_pos_iff.mpr hne
      have hfirst := drop_axisBeats (j := 0) hpos
      rw [List.drop_zero, drop_one_axisBeats] at hfirst
      have hrest : (bytes.drop 8).length < n := by
        rw [List.length_drop]
        omega
      rw [hfirst, beatBytes_cons, ih _ hrest _ rfl]
      exact (congrArg (· ++ bytes.drop 8) (kept_axisBeat bytes)).trans (List.take_append_drop 8 bytes)

end PacketWyrm
