import Mathlib.Algebra.Order.BigOperators.Group.List
import Mathlib.Algebra.Order.Ring.Nat
import PacketWyrm.LossLaw
import PacketWyrm.StatsSnapshot

/-!
# The order of reported statistics

The checker keeps sums and extremes of the latencies and of the gaps between consecutive ones,
and the host divides both sums by the number of samples.  For the latencies this is their
average.  There is one gap less than there are samples, so the reported average of the gaps is
too small: it can lie below the smallest gap, and does so whenever the gaps are all alike.  With
one sample there is no gap at all, and the seed of the minimum is reported.

## Main definitions

* `JitterLaw` — the jitter of a record and the latencies it was made of.
* `ReportOrdered` — the averages of a report lie between the extremes.
* `Spread` — the gaps exceed the smallest one by enough.

## Main results

* `jitterLaw_rmw`, `jitterLaw_foldl` — one event keeps the law, and a run of them.
* `LossLaw.average_between` — the average latency is in order.
* `reported_stats_ordered_iff` — when the whole report is.
-/

namespace PacketWyrm

open Lib

/-! ## Gaps between latencies -/

/-- How far two latencies are apart. -/
def gap (a b : ℕ) : ℕ := a - b + (b - a)

/-- The gaps between latencies that follow each other. -/
def gaps (l : List ℕ) : List ℕ := List.zipWith gap l l.tail

@[simp] theorem gaps_nil : gaps [] = [] := rfl

@[simp] theorem gaps_singleton (x : ℕ) : gaps [x] = [] := rfl

theorem gaps_concat (l : List ℕ) (x y : ℕ) :
    gaps (l ++ [x] ++ [y]) = gaps (l ++ [x]) ++ [gap x y] := by
  induction l with
  | nil => rfl
  | cons a l ih =>
    cases l with
    | nil => rfl
    | cons b l => exact congrArg (gap a b :: ·) ih

theorem length_gaps (l : List ℕ) : (gaps l).length = l.length - 1 := by
  rw [gaps, List.length_zipWith, List.length_tail]
  omega

/-! ## Jitter -/

variable {aw : ℕ}

/-- The latencies of events. -/
def latencies (es : List (CheckerEvent aw)) : List ℕ := es.map (·.lat.toNat)

/-- **The jitter of a record after test events with these latencies.** -/
structure JitterLaw (l : List ℕ) (r : CheckerRec) : Prop where
  seen : r.flowSeen = !l.isEmpty
  prev : ∀ l' x, l = l' ++ [x] → r.prevLatency.toNat = x
  sum : r.jitterSum = BitVec.ofNat 64 (gaps l).sum
  min_le : ∀ d ∈ gaps l, r.jitterMin.toNat ≤ d
  min_mem : gaps l ≠ [] → r.jitterMin.toNat ∈ gaps l
  blank : gaps l = [] → r.jitterMin = 0xFFFFFFFF
  le_max : ∀ d ∈ gaps l, d ≤ r.jitterMax.toNat

theorem jitterLaw_blank : JitterLaw [] {} :=
  ⟨rfl, by simp, rfl, by simp, by simp, fun _ => rfl, by simp⟩

/-- `jd`. -/
def jitterOf (prev lat32 : BitVec 32) : BitVec 32 :=
  if prev ≤ lat32 then lat32 - prev else prev - lat32

theorem toNat_jitterOf (prev lat32 : BitVec 32) :
    (jitterOf prev lat32).toNat = gap prev.toNat lat32.toNat := by
  have hp := prev.isLt
  have hl := lat32.isLt
  rw [jitterOf, gap]
  simp only [BitVec.le_def]
  split <;> rw [BitVec.toNat_sub] <;> omega

/-- The first sample only leaves its latency behind. -/
theorem sampled_first {r : CheckerRec} (e : CheckerEvent aw) (h : r.flowSeen = false) :
    (r.sampled e).jitterSum = r.jitterSum ∧ (r.sampled e).jitterMin = r.jitterMin ∧
      (r.sampled e).jitterMax = r.jitterMax ∧
      (r.sampled e).prevLatency = e.lat.setWidth 32 := by
  simp [CheckerRec.sampled, CheckerRec.addJitter, CheckerRec.addLatency, h]

/-- Every later sample adds its distance to the one before. -/
theorem sampled_later {r : CheckerRec} (e : CheckerEvent aw) (h : r.flowSeen = true) :
    let jd := jitterOf r.prevLatency (e.lat.setWidth 32)
    (r.sampled e).jitterSum = r.jitterSum + jd.setWidth 64 ∧
      (r.sampled e).jitterMin = (if jd < r.jitterMin then jd else r.jitterMin) ∧
      (r.sampled e).jitterMax = (if r.jitterMax < jd then jd else r.jitterMax) ∧
      (r.sampled e).prevLatency = e.lat.setWidth 32 := by
  have hseen : (({ r with rxFrames := r.rxFrames + 1
                          rxBytes := r.rxBytes + e.byteLen.setWidth 64 } :
    CheckerRec).addLatency e.lat).flowSeen = true := h
  rw [CheckerRec.sampled, CheckerRec.addJitter, if_pos hseen]
  exact ⟨rfl, rfl, rfl, rfl⟩

theorem toNat_minOf {w : ℕ} (x y : BitVec w) :
    (if x < y then x else y).toNat = min x.toNat y.toNat := by
  simp only [BitVec.lt_def]
  split <;> omega

theorem toNat_maxOf {w : ℕ} (x y : BitVec w) :
    (if y < x then x else y).toNat = max x.toNat y.toNat := by
  simp only [BitVec.lt_def]
  split <;> omega

theorem toNat_setWidth_lat {e : CheckerEvent aw} (h : e.Clamped) :
    (e.lat.setWidth 32).toNat = e.lat.toNat := by
  rw [CheckerEvent.Clamped] at h
  rw [BitVec.toNat_setWidth, Nat.mod_eq_of_lt h]

/-- **One test event keeps the law.** -/
theorem jitterLaw_rmw {l : List ℕ} {r : CheckerRec} (H : JitterLaw l r) {e : CheckerEvent aw}
    (ht : e.isTest = true) (hc : e.Clamped) : JitterLaw (l ++ [e.lat.toNat]) (r.rmw e) := by
  have hlat := toNat_setWidth_lat hc
  obtain ⟨_, _, _, _, hframe⟩ := addSequence_frame (r.sampled e) e.seq
  rw [rmw_of_test r ht, hframe]
  rcases l.eq_nil_or_concat' with rfl | ⟨l', x, rfl⟩
  · obtain ⟨hsum, hmin, hmax, hprev⟩ := sampled_first e (H.seen.trans rfl)
    refine ⟨by simp, ?_, ?_, by simp, by simp, ?_, by simp⟩
    · intro l' x hl
      obtain ⟨-, rfl⟩ := List.append_inj' hl rfl |>.imp id List.singleton_inj.mp
      simp only [hprev, hlat]
    · simp only [hsum, H.sum]
      rfl
    · intro _
      simp only [hmin]
      exact H.blank rfl
  · have hseen : r.flowSeen = true := by
      rw [H.seen]
      simp
    obtain ⟨hsum, hmin, hmax, hprev⟩ := sampled_later e hseen
    have hjd := toNat_jitterOf r.prevLatency (e.lat.setWidth 32)
    rw [hlat, H.prev l' x rfl] at hjd
    have hlast : ∀ d ∈ gaps (l' ++ [x] ++ [e.lat.toNat]),
        d ∈ gaps (l' ++ [x]) ∨ d = gap x e.lat.toNat := by
      intro d hd
      rwa [gaps_concat, List.mem_append, List.mem_singleton] at hd
    refine ⟨by simp, ?_, ?_, ?_, ?_, ?_, ?_⟩
    · intro l' x hl
      obtain ⟨-, rfl⟩ := List.append_inj' hl rfl |>.imp id List.singleton_inj.mp
      simp only [hprev, hlat]
    · simp only [hsum, H.sum, gaps_concat, List.sum_append, List.sum_singleton, ← hjd]
      rw [BitVec.ofNat_add]
      congr 1
      apply BitVec.eq_of_toNat_eq
      rw [BitVec.toNat_setWidth, BitVec.toNat_ofNat]
    · intro d hd
      simp only [hmin, toNat_minOf, hjd]
      rcases hlast d hd with hd | rfl
      · have hold := H.min_le d hd
        omega
      · exact Nat.min_le_left _ _
    · intro _
      simp only [hmin, toNat_minOf, hjd, gaps_concat, List.mem_append, List.mem_singleton]
      by_cases hnil : gaps (l' ++ [x]) = []
      · -- no gap is larger than the seed
        right
        have hlt := (jitterOf r.prevLatency (e.lat.setWidth 32)).isLt
        rw [hjd] at hlt
        rw [H.blank hnil]
        exact Nat.min_eq_left (Nat.le_pred_of_lt hlt)
      · have hold := H.min_mem hnil
        rcases Nat.le_total (gap x e.lat.toNat) r.jitterMin.toNat with hle | hle
        · exact .inr (Nat.min_eq_left hle)
        · rw [Nat.min_eq_right hle]
          exact .inl hold
    · intro h
      rw [gaps_concat] at h
      simp at h
    · intro d hd
      simp only [hmax, toNat_maxOf, hjd]
      rcases hlast d hd with hd | rfl
      · have hold := H.le_max d hd
        omega
      · exact Nat.le_max_left _ _

/-- **The law of a run of events on one flow.** -/
theorem jitterLaw_foldl (es : List (CheckerEvent aw)) (hc : ∀ e ∈ es, e.Clamped) :
    JitterLaw (latencies (testEvents es)) (es.foldl CheckerRec.rmw {}) := by
  induction es using List.reverseRecOn with
  | nil => exact jitterLaw_blank
  | append_singleton es e ih =>
    have ih := ih fun d hd => hc d (List.mem_append_left _ hd)
    rw [List.foldl_append, List.foldl_cons, List.foldl_nil, testEvents, List.filter_append,
      latencies, List.map_append]
    cases ht : e.isTest with
    | true =>
      rw [show [e].filter (·.isTest) = [e] by simp [ht]]
      exact jitterLaw_rmw ih ht (hc e (by simp))
    | false =>
      rw [show [e].filter (·.isTest) = [] by simp [ht], List.map_nil, List.append_nil]
      rw [CheckerRec.rmw, CheckerRec.update, if_neg (by simp [ht])]
      exact ⟨ih.seen, ih.prev, ih.sum, ih.min_le, ih.min_mem, ih.blank, ih.le_max⟩

/-! ## The report -/

/-- **The statistics of a flow are ordered**: each average lies between its extremes. -/
structure ReportOrdered (o : JsonObject) : Prop where
  minLatency : o.getInt "min_latency" ≤ o.getInt "avg_latency"
  maxLatency : o.getInt "avg_latency" ≤ o.getInt "max_latency"
  jitterMin : o.getInt "jitter_min" ≤ o.getInt "jitter_avg"
  jitterMax : o.getInt "jitter_avg" ≤ o.getInt "jitter_max"

/-- None of the counters overflows. -/
structure StatsFit (l : List ℕ) : Prop where
  samples : l.length < 2 ^ 64
  latency : l.sum < 2 ^ 64
  jitter : (gaps l).sum < 2 ^ 64

/-- There are two latencies or more, and their gaps exceed the smallest gap, all together, by as
much as that one is. -/
def Spread (l : List ℕ) : Prop :=
  ∃ d ∈ gaps l, (∀ d' ∈ gaps l, d ≤ d') ∧ d ≤ ((gaps l).map (· - d)).sum

/-- A sum over a lower bound of its terms. -/
theorem sum_eq_excess {l : List ℕ} {d : ℕ} (h : ∀ x ∈ l, d ≤ x) :
    l.sum = (l.map (· - d)).sum + l.length * d := by
  induction l with
  | nil => simp
  | cons x l ih =>
    have hx := h x List.mem_cons_self
    rw [List.sum_cons, ih fun y hy => h y (List.mem_cons_of_mem _ hy), List.map_cons,
      List.sum_cons, List.length_cons, Nat.succ_mul]
    omega

/-- **The smallest gap against the sum of the gaps over the number of samples.** -/
theorem JitterLaw.min_le_average_iff {l : List ℕ} {r : CheckerRec} (H : JitterLaw l r)
    (hl : l ≠ []) : r.jitterMin.toNat ≤ (gaps l).sum / l.length ↔ Spread l := by
  have hpos : 0 < l.length := List.length_pos_of_ne_nil hl
  have hlen := length_gaps l
  by_cases hnil : gaps l = []
  · -- the seed is reported
    refine iff_of_false ?_ ?_
    · rw [hnil, H.blank hnil, List.sum_nil, Nat.zero_div]
      decide
    · rintro ⟨d, hd, -⟩
      rw [hnil] at hd
      cases hd
  · have hmem := H.min_mem hnil
    have hspread : Spread l ↔
        r.jitterMin.toNat ≤ ((gaps l).map (· - r.jitterMin.toNat)).sum := by
      constructor
      · rintro ⟨d, hd, hmin, hle⟩
        have heq : d = r.jitterMin.toNat := Nat.le_antisymm (hmin _ hmem) (H.min_le d hd)
        rwa [heq] at hle
      · intro hle
        exact ⟨_, hmem, H.min_le, hle⟩
    have hsucc : l.length = (gaps l).length + 1 := by omega
    rw [hspread, Nat.le_div_iff_mul_le hpos, sum_eq_excess H.min_le, hsucc, Nat.mul_succ,
      Nat.mul_comm r.jitterMin.toNat]
    omega

theorem JitterLaw.average_le_max {l : List ℕ} {r : CheckerRec} (H : JitterLaw l r) :
    (gaps l).sum / l.length ≤ r.jitterMax.toNat := by
  have hsum := List.sum_le_card_nsmul (gaps l) r.jitterMax.toNat H.le_max
  have hlen := length_gaps l
  apply Nat.div_le_of_le_mul
  calc (gaps l).sum ≤ (gaps l).length * r.jitterMax.toNat := hsum
    _ ≤ l.length * r.jitterMax.toNat := Nat.mul_le_mul_right _ (by omega)

/-- The average latency lies between the extremes. -/
theorem LossLaw.average_between {es : List (CheckerEvent aw)} {r : CheckerRec} (H : LossLaw es r)
    (hne : es ≠ []) :
    r.minLatency.toNat ≤ (latencies es).sum / (latencies es).length ∧
      (latencies es).sum / (latencies es).length ≤ r.maxLatency.toNat := by
  have hpos : 0 < (latencies es).length := by
    rw [latencies, List.length_map]
    exact List.length_pos_of_ne_nil hne
  have hbounds : ∀ x ∈ latencies es, r.minLatency.toNat ≤ x ∧ x ≤ r.maxLatency.toNat := by
    intro x hx
    obtain ⟨e, he, rfl⟩ := List.mem_map.mp hx
    have hlat := H.latency e he
    rw [BitVec.le_def, BitVec.le_def, BitVec.toNat_setWidth_of_le (by decide),
      BitVec.toNat_setWidth_of_le (by decide)] at hlat
    exact hlat
  have hlow : (latencies es).length * r.minLatency.toNat ≤ (latencies es).sum :=
    List.card_nsmul_le_sum _ _ fun x hx => (hbounds x hx).1
  have hhigh : (latencies es).sum ≤ (latencies es).length * r.maxLatency.toNat :=
    List.sum_le_card_nsmul _ _ fun x hx => (hbounds x hx).2
  refine ⟨(Nat.le_div_iff_mul_le hpos).mpr ?_, Nat.div_le_of_le_mul hhigh⟩
  rwa [Nat.mul_comm]

/-- The sum of the latencies, as a number. -/
theorem LossLaw.sum_eq {es : List (CheckerEvent aw)} {r : CheckerRec} (H : LossLaw es r) :
    r.sumLatency = BitVec.ofNat 64 (latencies es).sum := by
  rw [H.sum]
  clear H
  induction es with
  | nil => rfl
  | cons e es ih =>
    rw [List.map_cons, List.sum_cons, ih, latencies, latencies, List.map_cons, List.sum_cons,
      BitVec.ofNat_add, BitVec.ofNat_toNat, BitVec.setWidth_eq]

/-- The host's division of a sum by the number of samples. -/
theorem toInt_average {sum n : ℕ} (hsum : sum < 2 ^ 64) (hn : n < 2 ^ 64) (hpos : 0 < n)
    {x : BitVec 32} (hx : sum / n ≤ x.toNat) :
    (average (BitVec.ofNat 64 sum) (BitVec.ofNat 64 n)).toInt = (sum / n : ℕ) := by
  have hlt := x.isLt
  have hne : BitVec.ofNat 64 n ≠ 0 := by
    intro h
    have hnat := congrArg BitVec.toNat h
    rw [BitVec.toNat_ofNat, Nat.mod_eq_of_lt hn] at hnat
    exact absurd hnat (Nat.ne_of_gt hpos)
  have hnat : (average (BitVec.ofNat 64 sum) (BitVec.ofNat 64 n)).toNat = sum / n := by
    rw [average, if_neg hne, BitVec.toNat_udiv, BitVec.toNat_ofNat, BitVec.toNat_ofNat,
      Nat.mod_eq_of_lt hsum, Nat.mod_eq_of_lt hn]
  rw [BitVec.toInt_eq_toNat_of_lt (by omega), hnat]

section Report

variable (cfg : PwConfig) (cards : List CardRuntime) (m : PwFlowMeta)

/-- The latency fields, when they are there, for counters with samples. -/
theorem getInt_flowObject
    (hvalid : (flowObject cfg cards m).get "latency_valid" = some (.bool true))
    (hsampled : (reported cfg cards m).sampleCount ≠ 0) :
    let rs := reported cfg cards m
    let o := flowObject cfg cards m
    o.getInt "min_latency" = rs.minLatency.toNat ∧
      o.getInt "max_latency" = rs.maxLatency.toNat ∧
      o.getInt "avg_latency" = (average rs.sumLatency rs.sampleCount).toInt ∧
      o.getInt "jitter_min" = rs.jitterMin.toNat ∧
      o.getInt "jitter_max" = rs.jitterMax.toNat ∧
      o.getInt "jitter_avg" = (average rs.jitterSum rs.sampleCount).toInt := by
  cases hslot : m.rxSlotValid with
  | false => simp [flowObject, hslot, JsonObject.get, List.lookup_cons] at hvalid
  | true =>
    have hok : ((readSlot cfg cards m.rxCardId m.rxLocalFlowId).2 = true ∧
        (readSlot cfg cards m.txCardId m.txLocalFlowId).2 = true) ∧
          (m.latencyValid = true ∨ ¬m.txCardId = m.rxCardId) := by
      simpa [flowObject, hslot, JsonObject.get, List.lookup_cons] using hvalid
    have hrs : reported cfg cards m = (readSlot cfg cards m.rxCardId m.rxLocalFlowId).1 := by
      rw [reported, if_pos hslot]
    rw [hrs] at hsampled
    have hne : ¬(readSlot cfg cards m.rxCardId m.rxLocalFlowId).1.sampleCount = 0#64 := hsampled
    simp [flowObject, latencyFields, jsonInt64, JsonValue.getInt64, hslot, hok, hrs, hne,
      JsonObject.getInt, JsonObject.get, List.lookup_cons]

variable {cfg cards m}

/-- **The report of a record.** -/
theorem reportOrdered_iff {es : List (CheckerEvent aw)} {r : CheckerRec} (HL : LossLaw es r)
    (HJ : JitterLaw (latencies es) r) (hne : es ≠ []) (hov : StatsFit (latencies es))
    {tx : BitVec 48} {txBytes : BitVec 64}
    (hread : reported cfg cards m = flowStatsOf { rx := r.readout, tx, txBytes })
    (hvalid : (flowObject cfg cards m).get "latency_valid" = some (.bool true)) :
    ReportOrdered (flowObject cfg cards m) ↔ Spread (latencies es) := by
  have hlen : (latencies es).length = es.length := List.length_map _
  have hnil : latencies es ≠ [] := by simpa [latencies] using hne
  have hpos := List.length_pos_of_ne_nil hnil
  obtain ⟨hlow, hhigh⟩ := HL.average_between hne
  have hjit := HJ.average_le_max
  have hsamples : r.sampleCount = BitVec.ofNat 64 (latencies es).length := by
    rw [HL.samples, hlen]
  have hsampled : (reported cfg cards m).sampleCount ≠ 0 := by
    have hzero : (0 : BitVec 64).toNat = 0 := rfl
    have hcount : (reported cfg cards m).sampleCount = r.sampleCount := by rw [hread]; rfl
    rw [hcount, hsamples, Ne, ← BitVec.toNat_inj, BitVec.toNat_ofNat, hzero,
      Nat.mod_eq_of_lt hov.samples]
    omega
  have havg := toInt_average hov.latency hov.samples hpos hhigh
  have hjavg := toInt_average hov.jitter hov.samples hpos hjit
  rw [← HL.sum_eq, ← hsamples] at havg
  rw [← HJ.sum, ← hsamples] at hjavg
  have hmin : ((r.minLatency.setWidth 64).setWidth 32).toNat = r.minLatency.toNat := by simp
  have hmax : ((r.maxLatency.setWidth 64).setWidth 32).toNat = r.maxLatency.toNat := by simp
  obtain ⟨vmin, vmax, vavg, vjmin, vjmax, vjavg⟩ := getInt_flowObject cfg cards m hvalid hsampled
  simp only [hread, flowStatsOf, CheckerRec.readout] at vmin vmax vavg vjmin vjmax vjavg
  rw [hmin] at vmin
  rw [hmax] at vmax
  rw [havg] at vavg
  rw [hjavg] at vjavg
  rw [← HJ.min_le_average_iff hnil]
  constructor
  · intro h
    have hle := h.jitterMin
    rw [vjmin, vjavg] at hle
    exact_mod_cast hle
  · intro h
    refine ⟨?_, ?_, ?_, ?_⟩
    · rw [vmin, vavg]
      exact_mod_cast hlow
    · rw [vmax, vavg]
      exact_mod_cast hhigh
    · rw [vjmin, vjavg]
      exact_mod_cast h
    · rw [vjmax, vjavg]
      exact_mod_cast hjit

end Report

/-! ## Runs of the checker -/

/-- The test events that a run has taken for flow `j`. -/
def flowTests (numFlows : ℕ) (ins : List (CheckerIn aw)) (j : BitVec aw) :
    List (CheckerEvent aw) :=
  testEvents ((takenEvents numFlows ins).filter fun e => e.idx == j)

/-- **Reported statistics are ordered exactly when the gaps are spread.**  After a reset and any
cycles, let the drained memory of a checker hold test events for a flow, in whatever order, with
no counter overflown; let the flow's frames arrive on that port only, and let the host read the
merged record of the slot.  Then the averages that the report has for the flow lie between the
reported extremes if and only if two latencies or more were sampled, and the gaps between
consecutive ones exceed the smallest gap, all together, by as much as that gap is. -/
theorem reported_stats_ordered_iff {numFlows aw : ℕ} (haw : aw = Nat.clog 2 numFlows)
    {s : CheckerBram aw} (hreset : s.Reset) (ins : List (CheckerIn aw))
    (hd : (run (CheckerBram.step numFlows) s ins).Drained) (j : BitVec aw)
    (hj : j.toNat < numFlows) (hne : flowTests numFlows ins j ≠ [])
    (hov : StatsFit (latencies (flowTests numFlows ins j)))
    {recs : Fin 2 → CheckerRec} {p q : Fin 2} (hpq : q ≠ p) (hblank : recs q = {})
    (hrec : recs p = (run (CheckerBram.step numFlows) s ins).mem j)
    {cfg : PwConfig} {cards : List CardRuntime} {m : PwFlowMeta} {tx : BitVec 48}
    {txBytes : BitVec 64}
    (hread : reported cfg cards m = flowStatsOf { rx := mergePorts recs, tx, txBytes })
    (hvalid : (flowObject cfg cards m).get "latency_valid" = some (.bool true)) :
    ReportOrdered (flowObject cfg cards m) ↔ Spread (latencies (flowTests numFlows ins j)) := by
  have hclamped : ∀ e ∈ (takenEvents numFlows ins).filter fun e => e.idx == j, e.Clamped :=
    fun e he => clamped_takenEvents numFlows ins e (List.mem_filter.mp he).1
  have hmem := (tracks_run haw hreset ins).mem_of_drained hd j hj
  rw [merged_of_blank hpq hblank, hrec, hmem] at hread
  exact reportOrdered_iff (lossLaw_foldl _ hclamped) (jitterLaw_foldl _ hclamped) hne hov hread
    hvalid

/-- A frame with the sequence number `seq`, received at time `ts`. -/
def sampleFrameAt (seq ts : BitVec 64) : CheckerIn 1 := { sampleCheckerIn seq with timestamp := ts }

/-- After the sweep, numbers 5 and 6 in order, the second received at time `ts`. -/
def sampleTwoFrames (ts : BitVec 64) : List (CheckerIn 1) :=
  List.replicate 3 sampleCheckerIdle ++ [sampleCheckerIn 5, sampleFrameAt 6 ts, sampleCheckerIdle]

/-- A card that reads the record of flow 1 after these frames. -/
def sampleReader (ts : BitVec 64) : CardRuntime :=
  { isOpen := true, snapshotOk := true
    flowStatsRead := fun _ =>
      (flowStatsOf { rx := mergePorts (fun p => if p = 0 then
        (run (CheckerBram.step 2) sampleChecker (sampleTwoFrames ts)).mem 1 else {}) }, true) }

/-- A flow that is received in slot 1 of the card it is sent from. -/
def sampleMeta : PwFlowMeta :=
  { globalFlowId := 1, txCardId := 0, rxCardId := 0, txLocalFlowId := 0, rxLocalFlowId := 1
    latencyValid := true, rxSlotValid := true }

/-- Two frames with the same latency. -/
theorem reported_stats_ordered_sample :
    ReportOrdered (flowObject sampleHeaderConfig [sampleReader 50] sampleMeta) := by
  refine (reported_stats_ordered_iff (show 1 = Nat.clog 2 2 by decide)
    (s := sampleChecker) ⟨rfl, rfl, rfl, rfl⟩ (sampleTwoFrames 50)
    ⟨by decide +kernel, by decide +kernel⟩ 1 (by decide) (by decide +kernel)
    ⟨by decide +kernel, by decide +kernel, by decide +kernel⟩ (q := 1) (p := 0) (by decide) rfl
    rfl rfl (by decide +kernel)).mpr ?_
  exact ⟨0, by decide +kernel, by decide +kernel, by decide +kernel⟩

/-- **The reported jitter is not ordered.**  Numbers 5 and 6 arrive in order with latencies 40
and 45: the one gap of 5 is reported as a minimum of 5 and an average of 2. -/
theorem jitter_average_below_min :
    (flowTests 2 (sampleTwoFrames 55) 1).map (·.seq) = [5, 6] ∧
      latencies (flowTests 2 (sampleTwoFrames 55) 1) = [40, 45] ∧
      (flowObject sampleHeaderConfig [sampleReader 55] sampleMeta).getInt "jitter_min" = 5 ∧
      (flowObject sampleHeaderConfig [sampleReader 55] sampleMeta).getInt "jitter_avg" = 2 ∧
      ¬ReportOrdered (flowObject sampleHeaderConfig [sampleReader 55] sampleMeta) := by
  have hmin : (flowObject sampleHeaderConfig [sampleReader 55] sampleMeta).getInt
      "jitter_min" = 5 := by decide +kernel
  have havg : (flowObject sampleHeaderConfig [sampleReader 55] sampleMeta).getInt
      "jitter_avg" = 2 := by decide +kernel
  refine ⟨by decide +kernel, by decide +kernel, hmin, havg, ?_⟩
  intro h
  have hle := h.jitterMin
  rw [hmin, havg] at hle
  exact absurd hle (by decide)

end PacketWyrm
