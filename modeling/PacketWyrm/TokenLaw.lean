import PacketWyrm.FlowGenMulti

/-!
# Token buckets conform

A launch is decided on a comparison that was registered in the cycle before, while
every bucket fills in every cycle.  A bucket only grows between launches, and a
launch makes the generator busy for at least a cycle, so a launch that is decided
always finds its cost in the bucket.

## Main results

* `FlowGenMulti.Bucket.step` — the invariant of the buckets.
* `FlowGenMulti.tokens_step` — a cycle adds at most a slot's rate, and a launch
  takes its cost away.
* `token_bucket_conforms` — the bound over every window of every run.
-/

namespace PacketWyrm

open Lib

/-- The bucket after a cycle, as a number. -/
theorem toNat_accrue (tokens rate cap : BitVec 32) :
    (accrue tokens rate cap).toNat = min (tokens.toNat + rate.toNat) cap.toNat := by
  have hsum : (tokens.setWidth 33 + rate.setWidth 33).toNat = tokens.toNat + rate.toNat := by
    rw [BitVec.toNat_add, BitVec.toNat_setWidth, BitVec.toNat_setWidth]
    omega
  have hcap : (cap.setWidth 33).toNat = cap.toNat := by
    rw [BitVec.toNat_setWidth]
    omega
  simp only [accrue, BitVec.lt_def, hsum, hcap]
  split
  · omega
  · rw [BitVec.toNat_setWidth, hsum]
    omega

namespace FlowGenMulti

variable {N : ℕ} {port : BitVec 4} {rows : Fin N → PwFlowRow} {s : FlowGenMulti N}

/-- A frame that starts makes the generator busy. -/
theorem active_of_launch [NeZero N] (i : FlowGenIn) (h : s.launch = true) :
    (s.step port rows i).active = true := by
  simp [step, h]

/-- What holds of the buckets in every reachable state. -/
structure Bucket (port : BitVec 4) (rows : Fin N → PwFlowRow) (s : FlowGenMulti N) : Prop where
  mine : s.Mine port rows
  settled : ∀ k, s.mineQ k = true →
    s.costQ k = (schedOf (rows k)).cost ∧ s.capQ k = (schedOf (rows k)).cap
  leCap : ∀ k, (s.tokensQ k).toNat ≤ (schedOf (rows k)).cap.toNat
  rowL : s.pvalidL = true → s.rowL = rows s.pickL
  rowQq : s.pickValidQq = true → s.rowQq = rows s.pickQq
  covered : s.launch = true → (s.costQ s.pickQq).toNat ≤ (s.tokensQ s.pickQq).toNat

theorem Reset.bucket (h : s.Reset) : s.Bucket port rows :=
  { mine := h.mine
    settled := by
      intro k hk
      rw [h.mineQ k] at hk
      cases hk
    leCap := by
      intro k
      rw [h.tokensQ k]
      exact Nat.zero_le _
    rowL := by
      intro hv
      rw [h.pvalidL] at hv
      cases hv
    rowQq := by
      intro hv
      rw [h.pickValidQq] at hv
      cases hv
    covered := by
      intro hl
      simp [launch, start, h.pickValidQq] at hl }

namespace Bucket

/-- **No underflow**: a launch leaves what the bucket holds above its cost. -/
theorem toNat_spend (h : s.Bucket port rows) (hl : s.launch = true) :
    s.spend.toNat + (schedOf (rows s.pickQq)).cost.toNat =
      min ((s.tokensQ s.pickQq).toNat + (schedOf (rows s.pickQq)).tokensFp.toNat)
        (schedOf (rows s.pickQq)).cap.toNat := by
  obtain ⟨hcost, hcap⟩ := h.settled _ (h.mine.of_launch hl)
  have hvalid : s.pickValidQq = true := by
    rw [launch, start, Bool.and_eq_true, Bool.and_eq_true] at hl
    exact hl.1.2
  have hrate : s.rowQq.tokensFp = (schedOf (rows s.pickQq)).tokensFp := by
    rw [h.rowQq hvalid]
    rfl
  have hcov := h.covered hl
  have hle := h.leCap s.pickQq
  rw [hcost] at hcov
  rw [spend, hcost, hcap, hrate, BitVec.toNat_sub_of_le, toNat_accrue]
  · omega
  · rw [BitVec.le_def, toNat_accrue]
    omega

/-- A launch spends from the bucket of its slot. -/
theorem tokensQ_step_launch [NeZero N] (i : FlowGenIn) {k : Fin N}
    (hl : s.launch = true ∧ k = s.pickQq) : (s.step port rows i).tokensQ k = s.spend := by
  simp [FlowGenMulti.step, hl]

/-- The other buckets of this port fill. -/
theorem tokensQ_step_mine [NeZero N] (h : s.Bucket port rows) (i : FlowGenIn) {k : Fin N}
    (hk : s.mineQ k = true) (hl : ¬(s.launch = true ∧ k = s.pickQq)) :
    ((s.step port rows i).tokensQ k).toNat =
      min ((s.tokensQ k).toNat + (schedOf (rows k)).tokensFp.toNat)
        (schedOf (rows k)).cap.toNat := by
  have hno : (s.launch && k == s.pickQq) = false := by
    rw [Bool.eq_false_iff]
    simpa using hl
  simp only [FlowGenMulti.step, hno, hk, Bool.false_eq_true, if_false, if_true]
  rw [(h.settled k hk).2, toNat_accrue]

/-- The bucket of a slot of another port is empty. -/
theorem tokensQ_step_other [NeZero N] (i : FlowGenIn) {k : Fin N} (hk : ¬s.mineQ k = true)
    (hl : ¬(s.launch = true ∧ k = s.pickQq)) : (s.step port rows i).tokensQ k = 0 := by
  have hno : (s.launch && k == s.pickQq) = false := by
    rw [Bool.eq_false_iff]
    simpa using hl
  simp only [FlowGenMulti.step, hno, hk, Bool.false_eq_true, if_false]

/-- **A cycle adds at most a slot's rate, and a launch takes its cost away.** -/
theorem tokens_step [NeZero N] (h : s.Bucket port rows) (i : FlowGenIn) (k : Fin N) :
    (if s.launch = true ∧ k = s.pickQq then (schedOf (rows k)).cost.toNat else 0) +
        ((s.step port rows i).tokensQ k).toNat ≤
      (s.tokensQ k).toNat + (schedOf (rows k)).tokensFp.toNat := by
  by_cases hl : s.launch = true ∧ k = s.pickQq
  · have hspend := h.toNat_spend hl.1
    rw [if_pos hl, tokensQ_step_launch i hl, hl.2]
    omega
  · rw [if_neg hl]
    by_cases hk : s.mineQ k = true
    · rw [h.tokensQ_step_mine i hk hl]
      omega
    · rw [tokensQ_step_other i hk hl]
      exact Nat.zero_le _

/-- **The buckets' invariant is kept.** -/
theorem step [NeZero N] (h : s.Bucket port rows) (i : FlowGenIn) :
    (s.step port rows i).Bucket port rows := by
  constructor
  case mine => exact h.mine.step i
  case settled =>
    intro k _
    exact ⟨rfl, rfl⟩
  case leCap =>
    intro k
    by_cases hl : s.launch = true ∧ k = s.pickQq
    · have hspend := h.toNat_spend hl.1
      rw [tokensQ_step_launch i hl, hl.2]
      omega
    · by_cases hk : s.mineQ k = true
      · rw [h.tokensQ_step_mine i hk hl]
        omega
      · rw [tokensQ_step_other i hk hl]
        exact Nat.zero_le _
  case rowL =>
    intro _
    rfl
  case rowQq =>
    intro hv
    exact h.rowL hv
  case covered =>
    intro hl'
    rw [launch, FlowGenMulti.start, Bool.and_eq_true, Bool.and_eq_true, Bool.not_eq_true'] at hl'
    -- the generator is free after this cycle, so nothing was launched in it
    have hl : s.launch = false := by
      cases hl : s.launch with
      | false => rfl
      | true =>
        rw [active_of_launch i hl] at hl'
        cases hl'.1.1
    have hmine : s.mineQ s.pickL = true := h.mine.pickL hl'.1.2
    have hready : s.costQ s.pickL ≤ s.tokensQ s.pickL := of_decide_eq_true hl'.2
    have htok := h.tokensQ_step_mine i hmine (by simp [hl])
    have hle := h.leCap s.pickL
    rw [BitVec.le_def, (h.settled _ hmine).1] at hready
    show (schedOf (rows s.pickL)).cost.toNat ≤ ((s.step port rows i).tokensQ s.pickL).toNat
    rw [htok]
    omega

/-- Every reachable state keeps it. -/
theorem run [NeZero N] (h : s.Bucket port rows) (l : List FlowGenIn) :
    (Lib.run (FlowGenMulti.step port rows) s l).Bucket port rows :=
  run_invariant (A := fun _ => True) (fun _ i _ hs => hs.step i) h fun _ _ => trivial

/-- The tokens that a window's launches of a slot cost come from the bucket and
from the rate. -/
theorem window [NeZero N] (h : s.Bucket port rows) (l : List FlowGenIn) (k : Fin N) :
    ((outputs launched (FlowGenMulti.step port rows) s l).filter
        fun x => x.slot = k).length * (schedOf (rows k)).cost.toNat +
        ((Lib.run (FlowGenMulti.step port rows) s l).tokensQ k).toNat ≤
      (s.tokensQ k).toNat + l.length * (schedOf (rows k)).tokensFp.toNat := by
  induction l generalizing s with
  | nil => simp
  | cons i l ih =>
    have hrest := ih (h.step i)
    have hstep := h.tokens_step i k
    rw [outputs_cons, List.filter_append, List.length_append, run_cons, List.length_cons,
      Nat.add_mul, Nat.add_mul]
    have hhead : (((launched s i).toList.filter fun x => x.slot = k).length) *
        (schedOf (rows k)).cost.toNat =
        if s.launch = true ∧ k = s.pickQq then (schedOf (rows k)).cost.toNat else 0 := by
      rw [launched]
      by_cases hl : s.launch = true
      · by_cases hk : k = s.pickQq
        · simp [hl, hk]
        · have hk' : s.pickQq ≠ k := fun h => hk h.symm
          simp [hl, hk, hk']
      · simp [hl]
    rw [hhead]
    omega

end Bucket

end FlowGenMulti

/-- **Token-bucket conformance.**  From a reset with a configuration that stands
still, for every slot: its bucket never holds more than its capacity, a launch never
takes more than the bucket holds with the tokens of that cycle, and in any window of
any run the launches cost at most the capacity and the window's tokens. -/
theorem token_bucket_conforms {N : ℕ} [NeZero N] {port : BitVec 4} {rows : Fin N → PwFlowRow}
    {s : FlowGenMulti N} (hs : s.Reset) (before window : List FlowGenIn) (k : Fin N) :
    ((run (FlowGenMulti.step port rows) s before).tokensQ k).toNat ≤
        (schedOf (rows k)).cap.toNat ∧
    (∀ t, t = run (FlowGenMulti.step port rows) s before → t.launch = true → k = t.pickQq →
      t.spend.toNat + (schedOf (rows k)).cost.toNat =
        min ((t.tokensQ k).toNat + (schedOf (rows k)).tokensFp.toNat)
          (schedOf (rows k)).cap.toNat) ∧
    ((outputs FlowGenMulti.launched (FlowGenMulti.step port rows)
        (run (FlowGenMulti.step port rows) s before) window).filter
          fun x => x.slot = k).length * (schedOf (rows k)).cost.toNat ≤
      (schedOf (rows k)).cap.toNat + window.length * (schedOf (rows k)).tokensFp.toNat := by
  have hb : (run (FlowGenMulti.step port rows) s before).Bucket port rows := hs.bucket.run before
  refine ⟨hb.leCap k, ?_, ?_⟩
  · intro t ht hl hk
    rw [← ht] at hb
    rw [hk]
    exact hb.toNat_spend hl
  · have hw := hb.window window k
    have hle := hb.leCap k
    omega

/-- The slot launches one frame in its first twenty cycles, which is within its bound. -/
theorem token_bucket_conforms_sample :
    ((outputs FlowGenMulti.launched (FlowGenMulti.step 0 fun _ => sampleGenRow)
        (run (FlowGenMulti.step 0 fun _ => sampleGenRow) sampleGen []) (sampleGenIns 20)).filter
          fun x => x.slot = 0).length = 1 ∧
      1 * (schedOf sampleGenRow).cost.toNat ≤
        (schedOf sampleGenRow).cap.toNat + 20 * (schedOf sampleGenRow).tokensFp.toNat := by
  have hone : ((outputs FlowGenMulti.launched (FlowGenMulti.step 0 fun _ => sampleGenRow)
      (run (FlowGenMulti.step 0 fun _ => sampleGenRow) sampleGen []) (sampleGenIns 20)).filter
        fun x => x.slot = 0).length = 1 := by decide +kernel
  refine ⟨hone, ?_⟩
  rw [← hone]
  exact (token_bucket_conforms reset_sampleGen [] (sampleGenIns 20) 0).2.2

end PacketWyrm
