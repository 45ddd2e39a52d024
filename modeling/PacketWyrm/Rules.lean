import PacketWyrm.Compile
import PacketWyrm.Tables

/-!
# Compiled rules and the shared comparators

A rule is compiled to a set of bits over a pool of comparators that all rules
of the card share.  The pool only grows, so a rule keeps its comparators while
later rules are added, and it matches exactly the keys that every comparator it
asked for matches.

## Main definitions

* `Covers` — the care bits of a rule stand for the comparators it asked for.
* `RuleSpec.matches` — all of them match.

## Main results

* `appendSpecs_covers` — the invariant of the rule passes.
* `result_eq_select` — the hardware's result is the choice among the rules.
-/

namespace PacketWyrm

open Lib

/-! ## The comparator pool -/

/-- The care bits are exactly those of the given comparators. -/
structure Covers (cmps : List PwFcCmp) (udfs : List PwFcUdf) (care : BitVec 16)
    (needCmps : List PwFcCmp) (needUdfs : List PwFcUdf) : Prop where
  bit : ∀ i, care.getLsbD i = true →
    (i < numCmp ∧ ∃ c ∈ needCmps, cmps[i]? = some c) ∨
    (numCmp ≤ i ∧ i < numCmp + numUdf ∧ ∃ u ∈ needUdfs, udfs[i - numCmp]? = some u)
  cmp : ∀ c ∈ needCmps, ∃ i < numCmp, care.getLsbD i = true ∧ cmps[i]? = some c
  udf : ∀ u ∈ needUdfs, ∃ j < numUdf, care.getLsbD (numCmp + j) = true ∧ udfs[j]? = some u

private theorem getElem?_of_prefix {α : Type} {l l' : List α} (h : l <+: l') {i : ℕ} {x : α}
    (hx : l[i]? = some x) : l'[i]? = some x := by
  obtain ⟨t, rfl⟩ := h
  rw [List.getElem?_append_left (List.getElem?_eq_some_iff.mp hx).1]
  exact hx

/-- A growing pool keeps what a rule's bits stand for. -/
theorem Covers.mono {cmps cmps' : List PwFcCmp} {udfs udfs' : List PwFcUdf} {care : BitVec 16}
    {nc : List PwFcCmp} {nu : List PwFcUdf} (H : Covers cmps udfs care nc nu)
    (hc : cmps <+: cmps') (hu : udfs <+: udfs') : Covers cmps' udfs' care nc nu := by
  refine ⟨fun i hi => ?_, fun c hcm => ?_, fun u hum => ?_⟩
  · rcases H.bit i hi with ⟨hlt, c, hcm, hget⟩ | ⟨hle, hlt, u, hum, hget⟩
    · exact .inl ⟨hlt, c, hcm, getElem?_of_prefix hc hget⟩
    · exact .inr ⟨hle, hlt, u, hum, getElem?_of_prefix hu hget⟩
  · obtain ⟨i, hlt, hbit, hget⟩ := H.cmp c hcm
    exact ⟨i, hlt, hbit, getElem?_of_prefix hc hget⟩
  · obtain ⟨j, hlt, hbit, hget⟩ := H.udf u hum
    exact ⟨j, hlt, hbit, getElem?_of_prefix hu hget⟩

theorem covers_nil (cmps : List PwFcCmp) (udfs : List PwFcUdf) : Covers cmps udfs 0 [] [] :=
  ⟨fun i hi => by simp at hi, fun c hc => by simp at hc, fun u hu => by simp at hu⟩

/-- The bits of a care mask after one more comparator. -/
theorem getLsbD_or_bit {care : BitVec 16} {b : ℕ} (hb : b < 16) (i : ℕ) :
    (care ||| 1#16 <<< b).getLsbD i = true ↔ care.getLsbD i = true ∨ i = b := by
  rw [BitVec.getLsbD_or, Bool.or_eq_true]
  refine or_congr_right ?_
  by_cases hi : i < 16
  · by_cases hib : i < b
    · simp [hi, hib]
      omega
    · simp [hi, hib]
      omega
  · simp [hi]
    omega

/-- A pool within its capacity. -/
structure PoolFits (cp : PwCardProgram) : Prop where
  cmps : cp.fcCmps.length ≤ numCmp
  udfs : cp.fcUdfs.length ≤ numUdf

/-- `cp'` has the pool of `cp`, perhaps with more comparators. -/
structure PoolGrows (cp cp' : PwCardProgram) : Prop where
  cmps : cp.fcCmps <+: cp'.fcCmps
  udfs : cp.fcUdfs <+: cp'.fcUdfs
  rules : cp'.fcRules = cp.fcRules
  fits : PoolFits cp → PoolFits cp'

theorem PoolGrows.refl (cp : PwCardProgram) : PoolGrows cp cp :=
  ⟨List.prefix_rfl, List.prefix_rfl, rfl, id⟩

theorem PoolGrows.trans {a b c : PwCardProgram} (h : PoolGrows a b) (h' : PoolGrows b c) :
    PoolGrows a c :=
  ⟨h.cmps.trans h'.cmps, h.udfs.trans h'.udfs, h'.rules.trans h.rules, h'.fits ∘ h.fits⟩

/-- `append_fc_cmp` finds the comparator or adds it, and returns its bit. -/
theorem appendFcCmp_spec {cp cp' : PwCardProgram} {c : PwFcCmp} {b : ℕ}
    (h : appendFcCmp cp c = .ok (cp', b)) (hfits : PoolFits cp) :
    PoolGrows cp cp' ∧ b < numCmp ∧ cp'.fcCmps[b]? = some c := by
  rw [appendFcCmp] at h
  split at h
  · rename_i i hi
    obtain ⟨rfl, rfl⟩ : cp = cp' ∧ i = b := by simpa using h
    obtain ⟨hlt, hget, -⟩ := List.idxOf?_eq_some_iff.mp hi
    exact ⟨PoolGrows.refl cp, hlt.trans_le hfits.cmps, by simp [hlt, hget]⟩
  · split at h
    · cases h
    · rename_i hcap
      obtain ⟨rfl, rfl⟩ := Prod.mk.inj (Except.ok.inj h)
      refine ⟨⟨List.prefix_append _ _, List.prefix_rfl, rfl, fun hf => ⟨?_, hf.udfs⟩⟩,
        by omega, by simp⟩
      simp only [List.length_append, List.length_singleton]
      omega

theorem appendFcUdf_spec {cp cp' : PwCardProgram} {u : PwFcUdf} {b : ℕ}
    (h : appendFcUdf cp u = .ok (cp', b)) (hfits : PoolFits cp) :
    PoolGrows cp cp' ∧ ∃ j < numUdf, b = numCmp + j ∧ cp'.fcUdfs[j]? = some u := by
  rw [appendFcUdf] at h
  split at h
  · rename_i i hi
    obtain ⟨rfl, rfl⟩ : cp = cp' ∧ numCmp + i = b := by simpa using h
    obtain ⟨hlt, hget, -⟩ := List.idxOf?_eq_some_iff.mp hi
    exact ⟨PoolGrows.refl cp, i, hlt.trans_le hfits.udfs, rfl, by simp [hlt, hget]⟩
  · split at h
    · cases h
    · rename_i hcap
      obtain ⟨rfl, rfl⟩ := Prod.mk.inj (Except.ok.inj h)
      refine ⟨⟨List.prefix_rfl, List.prefix_append _ _, rfl, fun hf => ⟨hf.cmps, ?_⟩⟩,
        _, by omega, rfl, by simp⟩
      simp only [List.length_append, List.length_singleton]
      omega

/-- Caring about one more field comparator. -/
theorem careCmp_spec {t t' : PwCardProgram × BitVec 16} {c : PwFcCmp} {nc : List PwFcCmp}
    {nu : List PwFcUdf} (h : careCmp t c = .ok t') (hfits : PoolFits t.1)
    (H : Covers t.1.fcCmps t.1.fcUdfs t.2 nc nu) :
    PoolGrows t.1 t'.1 ∧ Covers t'.1.fcCmps t'.1.fcUdfs t'.2 (nc ++ [c]) nu := by
  simp only [careCmp, bind_eq_ok_iff] at h
  obtain ⟨⟨cp', b⟩, happ, h⟩ := h
  obtain rfl := Except.ok.inj h
  obtain ⟨hgrow, hb, hget⟩ := appendFcCmp_spec happ hfits
  have H' := H.mono hgrow.cmps hgrow.udfs
  have hb16 : b < 16 := hb.trans (by decide)
  refine ⟨hgrow, fun i hi => ?_, fun x hx => ?_, fun u hu => ?_⟩
  · rcases (getLsbD_or_bit hb16 i).mp hi with hi | rfl
    · rcases H'.bit i hi with ⟨hlt, x, hx, hg⟩ | hudf
      · exact .inl ⟨hlt, x, by simp [hx], hg⟩
      · exact .inr hudf
    · exact .inl ⟨hb, c, by simp, hget⟩
  · rcases List.mem_append.mp hx with hx | hx
    · obtain ⟨i, hlt, hbit, hg⟩ := H'.cmp x hx
      exact ⟨i, hlt, (getLsbD_or_bit hb16 i).mpr (.inl hbit), hg⟩
    · obtain rfl := List.mem_singleton.mp hx
      exact ⟨b, hb, (getLsbD_or_bit hb16 b).mpr (.inr rfl), hget⟩
  · obtain ⟨j, hlt, hbit, hg⟩ := H'.udf u hu
    exact ⟨j, hlt, (getLsbD_or_bit hb16 _).mpr (.inl hbit), hg⟩

/-- Caring about one more window comparator. -/
theorem careUdf_spec {t t' : PwCardProgram × BitVec 16} {u : PwFcUdf} {nc : List PwFcCmp}
    {nu : List PwFcUdf} (h : careUdf t u = .ok t') (hfits : PoolFits t.1)
    (H : Covers t.1.fcCmps t.1.fcUdfs t.2 nc nu) :
    PoolGrows t.1 t'.1 ∧ Covers t'.1.fcCmps t'.1.fcUdfs t'.2 nc (nu ++ [u]) := by
  simp only [careUdf, bind_eq_ok_iff] at h
  obtain ⟨⟨cp', b⟩, happ, h⟩ := h
  obtain rfl := Except.ok.inj h
  obtain ⟨hgrow, j, hj, rfl, hget⟩ := appendFcUdf_spec happ hfits
  have H' := H.mono hgrow.cmps hgrow.udfs
  have hb16 : numCmp + j < 16 := by
    have : j < 2 := hj
    simp only [numCmp]
    omega
  refine ⟨hgrow, fun i hi => ?_, fun x hx => ?_, fun x hx => ?_⟩
  · rcases (getLsbD_or_bit hb16 i).mp hi with hi | rfl
    · rcases H'.bit i hi with hcmp | ⟨hle, hlt, x, hx, hg⟩
      · exact .inl hcmp
      · exact .inr ⟨hle, hlt, x, by simp [hx], hg⟩
    · exact .inr ⟨by omega, by omega, u, by simp, by simpa using hget⟩
  · obtain ⟨i, hlt, hbit, hg⟩ := H'.cmp x hx
    exact ⟨i, hlt, (getLsbD_or_bit hb16 i).mpr (.inl hbit), hg⟩
  · rcases List.mem_append.mp hx with hx | hx
    · obtain ⟨i, hlt, hbit, hg⟩ := H'.udf x hx
      exact ⟨i, hlt, (getLsbD_or_bit hb16 _).mpr (.inl hbit), hg⟩
    · obtain rfl := List.mem_singleton.mp hx
      exact ⟨j, hj, (getLsbD_or_bit hb16 _).mpr (.inr rfl), hget⟩

/-! ## Adding rules -/

/-- The rule `r` of the card is the compiled form of `s`. -/
structure RuleFor (cp : PwCardProgram) (s : RuleSpec) (r : PwFcRule) : Prop where
  covers : Covers cp.fcCmps cp.fcUdfs r.care s.cmps s.udfs
  eq : r = { care := r.care, action := s.action, egress := s.egress, localFlowId := 0
             logicalIfId := s.logicalIfId, priority := s.priority }

/-- **The invariant of the rule passes**: pool and rules fit, and the rules of
the card are the compiled forms of those added, in order. -/
structure RulesOk (cp : PwCardProgram) (specs : List RuleSpec) : Prop where
  fits : PoolFits cp
  rules : cp.fcRules.length ≤ numRule
  each : List.Forall₂ (RuleFor cp) specs cp.fcRules

theorem rulesOk_empty {cp : PwCardProgram} (hc : cp.fcCmps = []) (hu : cp.fcUdfs = [])
    (hr : cp.fcRules = []) : RulesOk cp [] :=
  ⟨⟨by simp [hc], by simp [hu]⟩, by simp [hr], by simp [hr]⟩

/-- The comparators of a rule are in the pool, and its care bits are theirs. -/
theorem careAll_spec {cp : PwCardProgram} {cmps : List PwFcCmp} {udfs : List PwFcUdf}
    {t t' : PwCardProgram × BitVec 16} (hcmps : cmps.foldlM careCmp (cp, 0) = .ok t)
    (hudfs : udfs.foldlM careUdf t = .ok t') (hfits : PoolFits cp) :
    PoolGrows cp t'.1 ∧ Covers t'.1.fcCmps t'.1.fcUdfs t'.2 cmps udfs := by
  have hc : PoolGrows cp t.1 ∧ Covers t.1.fcCmps t.1.fcUdfs t.2 cmps [] := by
    refine foldlM_ok_induction (P := fun pre s =>
      PoolGrows cp s.1 ∧ Covers s.1.fcCmps s.1.fcUdfs s.2 pre []) hcmps
      ⟨PoolGrows.refl cp, covers_nil _ _⟩ ?_
    rintro pre c post s s' - ⟨hg, H⟩ hs
    obtain ⟨hg', H'⟩ := careCmp_spec hs (hg.fits hfits) H
    exact ⟨hg.trans hg', H'⟩
  refine foldlM_ok_induction (P := fun pre s =>
    PoolGrows cp s.1 ∧ Covers s.1.fcCmps s.1.fcUdfs s.2 cmps pre) hudfs hc ?_
  rintro pre u post s s' - ⟨hg, H⟩ hs
  obtain ⟨hg', H'⟩ := careUdf_spec hs (hg.fits hfits) H
  exact ⟨hg.trans hg', H'⟩

theorem appendSpec_rulesOk {cp cp' : PwCardProgram} {s : RuleSpec} {specs : List RuleSpec}
    (h : appendSpec cp s = .ok cp') (H : RulesOk cp specs) : RulesOk cp' (specs ++ [s]) := by
  simp only [appendSpec, bind_eq_ok_iff] at h
  obtain ⟨t, hcmps, ⟨mid, care⟩, hudfs, h⟩ := h
  obtain ⟨hgrow, hcov⟩ := careAll_spec hcmps hudfs H.fits
  rw [appendFcRule] at h
  split at h
  · cases h
  · rename_i hcap
    obtain rfl := Except.ok.inj h
    have hrules : mid.fcRules = cp.fcRules := hgrow.rules
    refine ⟨⟨(hgrow.fits H.fits).cmps, (hgrow.fits H.fits).udfs⟩, ?_, ?_⟩
    · simp only [List.length_append, List.length_singleton]
      have hroom : ¬numRule ≤ mid.fcRules.length := hcap
      omega
    · rw [hrules]
      refine List.rel_append (H.each.imp fun x r hr => ?_)
        (.cons ⟨hcov, rfl⟩ .nil)
      exact ⟨hr.covers.mono hgrow.cmps hgrow.udfs, hr.eq⟩

/-- **The rule passes keep the invariant.** -/
theorem appendSpecs_rulesOk {cp cp' : PwCardProgram} {specs : List RuleSpec}
    (h : specs.foldlM appendSpec cp = .ok cp') (H : RulesOk cp []) : RulesOk cp' specs := by
  refine foldlM_ok_induction (P := fun pre s => RulesOk s pre) h H ?_
  intro pre s post c c' _ hc hs
  exact appendSpec_rulesOk hs hc

/-! ## Evaluating rules -/

/-- Every comparator of the rule matches. -/
def RuleSpec.matches (s : RuleSpec) (k : PwMatchKey) (win : Window) (base : BitVec 16) : Bool :=
  s.cmps.all (fun c => c.row.matches k) && s.udfs.all (fun u => u.row.matches win base)

/-- What a winning rule makes of the result. -/
def RuleSpec.result (s : RuleSpec) : PwClassResult :=
  { hit := true, action := s.action, egressPort := s.egress.setWidth 4, localFlowId := 0
    logicalIfId := s.logicalIfId }

section Bits

variable {cp : PwCardProgram} {k : PwMatchKey} {win : Window} {base : BitVec 16} {i : Fin 14}

theorem cmatch_of_cmp {c : PwFcCmp} (hlt : i.val < 12) (hget : cp.fcCmps[i.val]? = some c) :
    cp.fieldTables.cmatch k win base i = c.row.matches k := by
  simp [FieldTables.cmatch, hlt, PwCardProgram.fieldTables, hget]

theorem cmatch_of_udf {u : PwFcUdf} (hle : 12 ≤ i.val) (hget : cp.fcUdfs[i.val - 12]? = some u) :
    cp.fieldTables.cmatch k win base i = u.row.matches win base := by
  have hlt : ¬i.val < 12 := by omega
  simp [FieldTables.cmatch, hlt, PwCardProgram.fieldTables, hget]

end Bits

/-- **A compiled rule hits exactly the keys its comparators match**, however its
comparators are shared with other rules. -/
theorem hit_row_eq {cp : PwCardProgram} {s : RuleSpec} {r : PwFcRule} (H : RuleFor cp s r)
    (k : PwMatchKey) (win : Window) (base : BitVec 16) :
    r.row.hit (cp.fieldTables.cmatch k win base) = s.matches k win base := by
  rw [Bool.eq_iff_iff, RuleRow.hit_eq_true_iff, RuleSpec.matches, Bool.and_eq_true,
    List.all_eq_true, List.all_eq_true]
  have hbit : ∀ i : Fin 14, r.row.care.getLsbD i = r.care.getLsbD i := by
    intro i
    simp [PwFcRule.row, i.isLt]
  constructor
  · rintro ⟨-, hall⟩
    refine ⟨fun c hc => ?_, fun u hu => ?_⟩
    · obtain ⟨i, hlt, hb, hget⟩ := H.covers.cmp c hc
      have hlt' : i < 12 := hlt
      have hi := hall ⟨i, by omega⟩ (by rw [hbit]; exact hb)
      rwa [cmatch_of_cmp hlt' hget] at hi
    · obtain ⟨j, hlt, hb, hget⟩ := H.covers.udf u hu
      have hlt' : j < 2 := hlt
      have hi := hall ⟨12 + j, by omega⟩ (by rw [hbit]; exact hb)
      rwa [cmatch_of_udf (Nat.le_add_right _ _) (by simpa using hget)] at hi
  · rintro ⟨hc, hu⟩
    refine ⟨rfl, fun i hi => ?_⟩
    rw [hbit] at hi
    rcases H.covers.bit i hi with ⟨hlt, c, hcm, hget⟩ | ⟨hle, hlt, u, hum, hget⟩
    · rw [cmatch_of_cmp hlt hget]
      exact hc c hcm
    · rw [cmatch_of_udf hle hget]
      exact hu u hum

/-- **The hardware's result is the choice among the rules of the card.** -/
theorem result_eq_select {cp : PwCardProgram} {specs : List RuleSpec} (H : RulesOk cp specs)
    (k : PwMatchKey) (win : Window) (base : BitVec 16) :
    cp.fieldTables.result k win base =
      (select (fun s => s.priority.toNat) (fun s => s.matches k win base) RuleSpec.result
        specs).getD {} := by
  have hrows : List.ofFn cp.fieldTables.rule =
      cp.fcRules.map PwFcRule.row ++
      List.replicate (32 - cp.fcRules.length) ({} : RuleRow) :=
    ofFn_getElem?_getD PwFcRule.row {} H.rules
  have hdisabled : ∀ n, (List.replicate n ({} : RuleRow)).filter
      (RuleRow.hit (cp.fieldTables.cmatch k win base)) = [] := by
    intro n
    rw [List.filter_eq_nil_iff]
    intro r hr
    obtain ⟨-, rfl⟩ := List.mem_replicate.mp hr
    simp [RuleRow.hit]
  rw [FieldTables.result_eq, hrows]
  have hselect : select (fun r : RuleRow => r.prio.toNat)
      (RuleRow.hit (cp.fieldTables.cmatch k win base)) RuleRow.result
      (cp.fcRules.map PwFcRule.row ++ List.replicate (32 - cp.fcRules.length) ({} : RuleRow)) =
      select (fun r : PwFcRule => r.row.prio.toNat)
        (fun r => r.row.hit (cp.fieldTables.cmatch k win base)) (fun r => r.row.result)
        cp.fcRules := by
    rw [select, List.filter_append, hdisabled, List.append_nil, List.filter_map, firstBest_map,
      Option.map_map]
    rfl
  rw [hselect]
  congr 1
  symm
  refine select_eq_of_forall₂ (H.each.imp fun s r hr => ?_)
  refine ⟨(hit_row_eq hr k win base).symm, ?_, ?_⟩
  · rw [hr.eq]
    rfl
  · rw [hr.eq]
    rfl

end PacketWyrm
