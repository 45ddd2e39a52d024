import PacketWyrm.Background
import PacketWyrm.HashTable
import PacketWyrm.Lib.MultiplyShift

/-!
# Seeds of the hash table

The compiler looks for a seed that gives every header-classified flow of a card a bucket of
its own.  The bucket of a flow depends on the exclusive or of its masked key words only, and
multiplication by a random odd number spreads different words over the buckets, so few
flows with different words have such a seed.  Many flows need not have one, and the compiler
tries 4096 seeds.

## Main definitions

* `headerFlows`, `maskedKey`, `keyFold` — what the seed has to separate.
* `Separates` — a seed that does.

## Main results

* `exists_separates` — few flows with different folds have a seed.
* `compile_iff_separates` — when the compiler finds one.
* `hash_placement` — both.
* `distinct_keys_without_placement` — flows that are not placed.
-/

namespace PacketWyrm

open Lib

/-! ## What a seed separates -/

/-- The header-classified flows that are measured on a card. -/
def headerFlows (cfg : PwConfig) (c : BitVec 16) : List PwFlow :=
  cfg.flows.filter (measuredHeader cfg c)

/-- The key of a flow under the mask of a card. -/
def maskedKey (cfg : PwConfig) (c : BitVec 16) (f : PwFlow) : KeyWords :=
  fun i => pwFcHashWords f i &&& cardHashMask cfg c i

/-- `k32` of `pw_fc_hash_index`. -/
def keyFold (w : KeyWords) : BitVec 32 := (List.finRange 11).foldl (fun k32 i => k32 ^^^ w i) 0

/-- Under the seed each of the flows has a bucket of its own. -/
def Separates (cfg : PwConfig) (c : BitVec 16) (seed : BitVec 32) : Prop :=
  ((headerFlows cfg c).map fun f => pwFcHashIndex (maskedKey cfg c f) seed).Nodup

instance (cfg : PwConfig) (c : BitVec 16) (seed : BitVec 32) : Decidable (Separates cfg c seed) :=
  inferInstanceAs (Decidable (List.Nodup _))

/-! ## Seeds exist -/

/-- The compiler's index is multiply-shift of the fold. -/
theorem toNat_pwFcHashIndex (w : KeyWords) (seed : BitVec 32) :
    (pwFcHashIndex w seed).toNat = mulShift (31 + 1) 25 (keyFold w).toNat (seed ||| 1).toNat := by
  simp only [pwFcHashIndex, mulShift, keyFold]
  generalize (List.finRange 11).foldl (fun k32 i => k32 ^^^ w i) 0 = k
  rw [BitVec.toNat_setWidth, BitVec.toNat_ushiftRight, Nat.shiftRight_eq_div_pow, BitVec.toNat_mul]
  omega

/-- A seed separates when the multiply-shifts of the folds differ. -/
theorem separates_iff {cfg : PwConfig} {c : BitVec 16} {seed : BitVec 32} :
    Separates cfg c seed ↔ (((headerFlows cfg c).map fun f => keyFold (maskedKey cfg c f)).map
      fun k => mulShift (31 + 1) 25 k.toNat (seed ||| 1).toNat).Nodup := by
  have hmap : ((headerFlows cfg c).map fun f => keyFold (maskedKey cfg c f)).map
      (fun k => mulShift (31 + 1) 25 k.toNat (seed ||| 1).toNat) =
        ((headerFlows cfg c).map fun f => pwFcHashIndex (maskedKey cfg c f) seed).map
          BitVec.toNat := by
    rw [List.map_map, List.map_map]
    exact List.map_congr_left fun f _ => (toNat_pwFcHashIndex _ _).symm
  rw [hmap, Separates, List.nodup_map_iff fun x y h => BitVec.eq_of_toNat_eq h]

/-- An odd number is a seed that is used as it is. -/
theorem toNat_seed_or_one {s : ℕ} (h : s ∈ oddSeeds 31) : (BitVec.ofNat 32 s ||| 1).toNat = s := by
  rw [mem_oddSeeds] at h
  have hor : BitVec.ofNat 32 s ||| 1#32 = BitVec.ofNat 32 s := by
    apply BitVec.eq_of_getLsbD_eq
    intro i hi
    rw [BitVec.getLsbD_or, BitVec.getLsbD_one]
    by_cases h0 : i = 0
    · subst h0
      rw [BitVec.getLsbD_ofNat, Nat.testBit_zero]
      simp [h.1]
    · simp [h0]
  calc (BitVec.ofNat 32 s ||| 1#32).toNat = s % 2 ^ 32 := by rw [hor, BitVec.toNat_ofNat]
    _ = s := Nat.mod_eq_of_lt h.2

/-- **Few keys with different folds have a seed.** -/
theorem exists_seed {ks : List KeyWords} (hfold : (ks.map keyFold).Nodup)
    (hfew : ks.length * (ks.length - 1) < hashDepth) :
    ∃ seed, (ks.map fun w => pwFcHashIndex w seed).Nodup := by
  set folds := (ks.map keyFold).map BitVec.toNat with hfolds
  have hnodup : folds.Nodup := hfold.map fun x y h => BitVec.eq_of_toNat_eq h
  have hlength : folds.length = ks.length := by simp [hfolds]
  have hmem : ∀ w ∈ ks, (keyFold w).toNat ∈ folds.toFinset := by
    intro w hw
    rw [List.mem_toFinset]
    exact List.mem_map_of_mem (List.mem_map_of_mem hw)
  obtain ⟨s, hs, hinj⟩ := exists_injOn_mulShift (w := 31) (m := 25) (K := folds.toFinset)
    (by
      intro a ha
      obtain ⟨x, -, rfl⟩ := List.mem_map.mp (List.mem_toFinset.mp ha)
      exact x.isLt)
    (by
      rw [List.toFinset_card_of_nodup hnodup, hlength, Nat.choose_two_right]
      rw [hashDepth] at hfew
      omega)
  refine ⟨BitVec.ofNat 32 s, ?_⟩
  -- Equal buckets are equal folds, and those are equal for one key only.
  refine List.Nodup.map_on ?_ hfold.of_map
  intro v hv w hw heq
  have hbucket := congrArg BitVec.toNat heq
  rw [toNat_pwFcHashIndex, toNat_pwFcHashIndex, toNat_seed_or_one hs] at hbucket
  have hsame := BitVec.eq_of_toNat_eq (hinj (hmem v hv) (hmem w hw) hbucket)
  exact List.inj_on_of_nodup_map hfold hv hw hsame

/-- **Few flows with different folds have a seed.** -/
theorem exists_separates {cfg : PwConfig} {c : BitVec 16}
    (hfold : ((headerFlows cfg c).map fun f => keyFold (maskedKey cfg c f)).Nodup)
    (hfew : (headerFlows cfg c).length * ((headerFlows cfg c).length - 1) < hashDepth) :
    ∃ seed, Separates cfg c seed := by
  have h := @exists_seed ((headerFlows cfg c).map (maskedKey cfg c))
    (by simpa [List.map_map, Function.comp_def] using hfold) (by simpa using hfew)
  simpa [Separates, List.map_map, Function.comp_def] using h

/-! ## When the search succeeds -/

/-- An attempt fails only at a bucket in use. -/
theorem placeAll_isSome_iff {seed : BitVec 32} {used : List (BitVec 16)} {es : List PwFcHashEntry} :
    (placeAll seed used es).isSome = true ↔
      (∀ e ∈ es, pwFcHashIndex e.keyWord seed ∉ used) ∧
        (es.map fun e => pwFcHashIndex e.keyWord seed).Nodup := by
  induction es generalizing used with
  | nil => simp [placeAll]
  | cons e es ih =>
    rw [placeAll]
    by_cases hused : pwFcHashIndex e.keyWord seed ∈ used
    · simp [hused]
    · simp only [hused, if_false, Option.isSome_map, ih, List.mem_cons, not_or, forall_eq_or_imp,
        List.map_cons, List.nodup_cons, List.mem_map, not_exists, not_and, not_false_eq_true,
        true_and]
      constructor
      · rintro ⟨hfree, hnd⟩
        exact ⟨fun x hx => (hfree x hx).2, fun x hx => (hfree x hx).1, hnd⟩
      · rintro ⟨hout, hfree, hnd⟩
        exact ⟨fun x hx => ⟨hfree x hx, hout x hx⟩, hnd⟩

/-- The search fails only when each of its attempts does. -/
theorem seedSearch_isSome_iff {es : List PwFcHashEntry} {attempt left : ℕ} :
    (seedSearch es attempt left).isSome = true ↔
      ∃ k < left, (placeAll (attemptSeed (attempt + k)) [] es).isSome = true := by
  induction left generalizing attempt with
  | zero => simp [seedSearch]
  | succ left ih =>
    rw [seedSearch]
    cases hplace : placeAll (attemptSeed attempt) [] es with
    | some placed =>
      refine ⟨fun _ => ⟨0, Nat.succ_pos left, ?_⟩, fun _ => rfl⟩
      rw [Nat.add_zero, hplace]
      rfl
    | none =>
      rw [ih]
      constructor
      · rintro ⟨k, hk, h⟩
        exact ⟨k + 1, by omega, by rwa [← Nat.add_assoc, Nat.add_right_comm]⟩
      · rintro ⟨k, hk, h⟩
        cases k with
        | zero => simp [hplace] at h
        | succ k => exact ⟨k, by omega, by rwa [Nat.add_right_comm, Nat.add_assoc]⟩

/-- Different keys are no duplicates. -/
theorem findDuplicate_of_nodup {seen es : List PwFcHashEntry}
    (h : ((seen ++ es).map PwFcHashEntry.keyWord).Nodup) : findDuplicate seen es = none := by
  induction es generalizing seen with
  | nil => rfl
  | cons e es ih =>
    have hfirst : seen.find? (fun d => keyEq e.keyWord d.keyWord) = none := by
      rw [List.find?_eq_none]
      intro d hd heq
      rw [keyEq_eq_true_iff] at heq
      rw [List.map_append, List.nodup_append] at h
      exact h.2.2 _ (List.mem_map_of_mem hd) _ (List.mem_map_of_mem List.mem_cons_self) heq.symm
    rw [findDuplicate, hfirst]
    exact ih (by rwa [List.append_assoc, List.singleton_append])

/-- The post-pass succeeds when one of its seeds places the keys. -/
theorem hashPostPass_ok_iff {cfg : PwConfig} {cp : PwCardProgram} :
    (∃ cp', hashPostPass cfg cp = .ok cp') ↔
      ∃ attempt < 4096, (cp.hashEntries.map fun e =>
        pwFcHashIndex (fun i => e.keyWord i &&& cardHashMask cfg cp.cardId i)
          (attemptSeed attempt)).Nodup := by
  set mask := cardHashMask cfg cp.cardId with hmask
  set entries := cp.hashEntries.map (PwFcHashEntry.masked mask) with hentries
  have hsearch : (seedSearch entries 0 4096).isSome = true ↔
      ∃ attempt < 4096, (cp.hashEntries.map fun e =>
        pwFcHashIndex (fun i => e.keyWord i &&& mask i) (attemptSeed attempt)).Nodup := by
    rw [seedSearch_isSome_iff]
    simp [placeAll_isSome_iff, hentries, List.map_map, Function.comp_def, PwFcHashEntry.masked]
  rw [← hsearch]
  constructor
  · rintro ⟨cp', h⟩
    obtain ⟨hnil, -⟩ | ⟨seed, placed, -, hfound, -⟩ := hashPostPass_cases h
    · rw [hsearch, hnil]
      exact ⟨0, by decide, List.nodup_nil⟩
    · rw [hentries, hfound]
      rfl
  · intro h
    -- A seed that places the keys gives different keys different buckets.
    have hnone : findDuplicate [] entries = none := by
      obtain ⟨attempt, -, hnd⟩ := hsearch.mp h
      refine findDuplicate_of_nodup ?_
      refine List.Nodup.of_map (fun w => pwFcHashIndex w (attemptSeed attempt)) ?_
      simpa [hentries, List.map_map, Function.comp_def, PwFcHashEntry.masked] using hnd
    obtain ⟨⟨seed, placed⟩, hfound⟩ := Option.isSome_iff_exists.mp h
    simp only [hashPostPass, ← hmask, ← hentries, hnone, hfound]
    split
    · exact ⟨_, rfl⟩
    · exact ⟨_, rfl⟩

/-- Keys that differ are placed, or the table is full. -/
theorem hashPostPass_ok_or_error {cfg : PwConfig} {cp : PwCardProgram}
    (h : (cp.hashEntries.map fun e =>
      fun i => e.keyWord i &&& cardHashMask cfg cp.cardId i).Nodup) :
    (∃ cp', hashPostPass cfg cp = .ok cp') ∨ hashPostPass cfg cp = .error (bare .noResources) := by
  set mask := cardHashMask cfg cp.cardId with hmask
  have hnone : findDuplicate [] (cp.hashEntries.map (PwFcHashEntry.masked mask)) = none := by
    refine findDuplicate_of_nodup ?_
    simpa [List.map_map, Function.comp_def, PwFcHashEntry.masked] using h
  simp only [hashPostPass, ← hmask, hnone]
  split
  · exact .inl ⟨_, rfl⟩
  · split
    · exact .inl ⟨_, rfl⟩
    · exact .inr rfl

/-! ## When the compiler succeeds -/

/-- `pw_flow_compile` up to the hash post-pass. -/
def beforeHash (cfg : PwConfig) : Except PwFailure PwProgram := do
  pwConfigValidate cfg
  let out ← compileFlows cfg (initProgram cfg)
  let out ← (compilePuntRules cfg out).mapError
    (blame "punt"
      (s!"field-comparator pool exhausted (limit NCMP={numCmp}, shared across "
        ++ "punt+forward rules); reduce per-rule match conditions"))
  (compileForwardRules cfg out).mapError
    (blame "forwards"
      (s!"field-comparator pool exhausted (limit NCMP={numCmp}, shared across "
        ++ "punt+forward rules); a /128 IPv6 match costs 4 + 1 is_ipv6, "
        ++ "/64 costs 2 + 1; reduce per-rule match conditions"))

theorem pwFlowCompile_eq_beforeHash (cfg : PwConfig) :
    pwFlowCompile cfg = (do
      let out ← beforeHash cfg
      (out.perCard.mapM (hashPostPass cfg)).map fun perCard => { out with perCard }) := by
  simp only [pwFlowCompile, beforeHash, bind_assoc]
  rfl

section BeforeHash

variable {cfg : PwConfig} {out : PwProgram} (h : beforeHash cfg = .ok out)

include h

theorem cardIds_beforeHash :
    out.perCard.map PwCardProgram.cardId = cfg.cards.map PwCard.id := by
  simp only [beforeHash, bind_eq_ok_iff, mapError_eq_ok_iff, compileFlows_eq_ok_iff] at h
  obtain ⟨-, -, mid, hmid, q, hpunt, hfwd⟩ := h
  rw [(compileRules_spec hpunt hfwd).ids, cardIds_compileFlows hmid, cardIds_initProgram]

/-- The post-pass of a card starts from the keys of its flows. -/
theorem keyWords_beforeHash {cp : PwCardProgram} (hcp : cp ∈ out.perCard) :
    cp.hashEntries.map PwFcHashEntry.keyWord = (headerFlows cfg cp.cardId).map pwFcHashWords := by
  have hids := cardIds_beforeHash h
  simp only [beforeHash, bind_eq_ok_iff, mapError_eq_ok_iff, compileFlows_eq_ok_iff] at h
  obtain ⟨⟨⟩, hv, mid, hmid, q, hpunt, hfwd⟩ := h
  have hnodup : (out.perCard.map PwCardProgram.cardId).Nodup := by
    rw [hids]
    exact nodup_cardIds (pwConfigValidate_eq_ok_iff.mp hv)
  have hslot : cardSlot out cp.cardId = some cp :=
    (find?_eq_some_iff_mem hnodup).mpr ⟨hcp, rfl⟩
  obtain ⟨x, hx, hfold⟩ := (compileRules_spec hpunt hfwd).before hslot
  have hentries : cp.hashEntries = x.hashEntries := by
    rw [appendSpecs_frame hfold]
    rfl
  rw [hentries, keyWords_compileFlows hmid hx]
  rfl

/-- The post-pass of a card succeeds when one of its seeds separates the flows. -/
theorem hashPostPass_iff_separates {cp : PwCardProgram} (hcp : cp ∈ out.perCard) :
    (∃ cp', hashPostPass cfg cp = .ok cp') ↔
      ∃ attempt < 4096, Separates cfg cp.cardId (attemptSeed attempt) := by
  have hkeys : ∀ seed, (cp.hashEntries.map fun e =>
      pwFcHashIndex (fun i => e.keyWord i &&& cardHashMask cfg cp.cardId i) seed) =
        (headerFlows cfg cp.cardId).map
          fun f => pwFcHashIndex (maskedKey cfg cp.cardId f) seed := by
    intro seed
    have hmap := congrArg
      (List.map fun w : KeyWords =>
        pwFcHashIndex (fun i => w i &&& cardHashMask cfg cp.cardId i) seed)
      (keyWords_beforeHash h hcp)
    rw [List.map_map, List.map_map] at hmap
    exact hmap
  simp only [hashPostPass_ok_iff, hkeys, Separates]

theorem forall_card_iff {P : BitVec 16 → Prop} :
    (∀ cp ∈ out.perCard, P cp.cardId) ↔ ∀ card ∈ cfg.cards, P card.id := by
  rw [← List.forall_mem_map (f := PwCardProgram.cardId) (P := P), cardIds_beforeHash h,
    List.forall_mem_map]

end BeforeHash

/-- **The compiler accepts** when the stages before the post-pass do and for every card one of
the 4096 seeds it tries separates the flows. -/
theorem compile_iff_separates (cfg : PwConfig) :
    (∃ p, pwFlowCompile cfg = .ok p) ↔
      (∃ out, beforeHash cfg = .ok out) ∧
        ∀ card ∈ cfg.cards, ∃ attempt < 4096, Separates cfg card.id (attemptSeed attempt) := by
  rw [pwFlowCompile_eq_beforeHash]
  cases h : beforeHash cfg with
  | error e => simp [bind, Except.bind]
  | ok out =>
    rw [← forall_card_iff h
      (P := fun c => ∃ attempt < 4096, Separates cfg c (attemptSeed attempt))]
    have hpost : (∃ l, out.perCard.mapM (hashPostPass cfg) = .ok l) ↔
        ∀ cp ∈ out.perCard, ∃ attempt < 4096, Separates cfg cp.cardId (attemptSeed attempt) := by
      rw [exists_mapM_ok_iff]
      exact forall₂_congr fun cp hcp => hashPostPass_iff_separates h hcp
    rw [← hpost]
    change (∃ p, (out.perCard.mapM (hashPostPass cfg)).map _ = .ok p) ↔ _
    generalize out.perCard.mapM (hashPostPass cfg) = r
    cases r <;> simp [Except.map]

/-- **The compiler rejects flows whose keys differ** for want of a placement only. -/
theorem compile_noResources_iff {cfg : PwConfig} {out : PwProgram} (h : beforeHash cfg = .ok out)
    (hkeys : ∀ card ∈ cfg.cards, ((headerFlows cfg card.id).map (maskedKey cfg card.id)).Nodup) :
    pwFlowCompile cfg = .error (bare .noResources) ↔
      ∃ card ∈ cfg.cards, ∀ attempt < 4096, ¬ Separates cfg card.id (attemptSeed attempt) := by
  -- A card fails only for want of a placement, and so does the pass over the cards.
  have hcards : ∀ cp ∈ out.perCard, (∃ cp', hashPostPass cfg cp = .ok cp') ∨
      hashPostPass cfg cp = .error (bare .noResources) := by
    intro cp hcp
    apply hashPostPass_ok_or_error
    have hmap := congrArg (List.map fun w : KeyWords =>
      (fun i => w i &&& cardHashMask cfg cp.cardId i : KeyWords)) (keyWords_beforeHash h hcp)
    rw [List.map_map, List.map_map] at hmap
    have hnodup := (forall_card_iff h
      (P := fun c => ((headerFlows cfg c).map (maskedKey cfg c)).Nodup)).mpr hkeys cp hcp
    exact hmap ▸ hnodup
  have hcompile : pwFlowCompile cfg = .error (bare .noResources) ↔
      ¬ ∃ p, pwFlowCompile cfg = .ok p := by
    rw [pwFlowCompile_eq_beforeHash, h]
    change (out.perCard.mapM (hashPostPass cfg)).map _ = _ ↔
      ¬ ∃ p, (out.perCard.mapM (hashPostPass cfg)).map _ = .ok p
    rcases mapM_ok_or_error hcards with ⟨l, hl⟩ | hl <;> simp [hl, Except.map]
  rw [hcompile, compile_iff_separates]
  simp only [h, Except.ok.injEq, exists_eq', true_and, not_forall, not_exists, not_and, exists_prop]

/-- **Placement of header-classified flows.**  Flows of a card whose masked keys have different
folds have a seed when they are few, two of them in particular.  Once the stages before the
post-pass succeed, flows whose masked keys differ are accepted exactly when for every card one of
the 4096 seeds separates them, and are rejected for want of a placement otherwise. -/
theorem hash_placement (cfg : PwConfig) :
    (∀ c, ((headerFlows cfg c).map fun f => keyFold (maskedKey cfg c f)).Nodup →
      (headerFlows cfg c).length * ((headerFlows cfg c).length - 1) < hashDepth →
        ∃ seed, Separates cfg c seed) ∧
    ∀ out, beforeHash cfg = .ok out →
      (∀ card ∈ cfg.cards, ((headerFlows cfg card.id).map (maskedKey cfg card.id)).Nodup) →
        ((∃ p, pwFlowCompile cfg = .ok p) ↔
          ∀ card ∈ cfg.cards, ∃ attempt < 4096, Separates cfg card.id (attemptSeed attempt)) ∧
        (pwFlowCompile cfg = .error (bare .noResources) ↔
          ∃ card ∈ cfg.cards, ∀ attempt < 4096, ¬ Separates cfg card.id (attemptSeed attempt)) := by
  refine ⟨fun c hfold hfew => exists_separates hfold hfew, ?_⟩
  intro out h hkeys
  refine ⟨?_, compile_noResources_iff h hkeys⟩
  rw [compile_iff_separates]
  simp [h]

theorem hash_placement_sample :
    (∃ seed, Separates sampleHeaderConfig 0 seed) ∧
      ∃ attempt < 4096, Separates sampleHeaderConfig 0 (attemptSeed attempt) := by
  obtain ⟨p, hp, -⟩ := exists_of_okAnd
    (show okAnd (pwFlowCompile sampleHeaderConfig) (fun _ => true) = true by decide +kernel)
  obtain ⟨out, hout, -⟩ := exists_of_okAnd
    (show okAnd (beforeHash sampleHeaderConfig) (fun _ => true) = true by decide +kernel)
  obtain ⟨hexists, hcompile⟩ := hash_placement sampleHeaderConfig
  refine ⟨hexists 0 (by decide +kernel) (by decide +kernel), ?_⟩
  exact (hcompile out hout (by decide +kernel)).1.mp ⟨p, hp⟩ sampleCard (by decide +kernel)

/-! ## Flows without a seed -/

/-- A flow whose fold is `k`. -/
def foldedFlow (id k : BitVec 32) : PwFlow :=
  { sampleHeaderFlow id (0x1E010203 ^^^ k) with
    ipv4 :=
      { present := true, dst := 0x1E010203 ^^^ k, ttl := 64
        src := 0x1E010203 ^^^ (4000#32 <<< 16 ||| 5000) ^^^ 0x0800 ^^^ 17 } }

/-- The high bytes of the folds of flows that crowd the table. -/
def crowdedBytes : List ℕ :=
  [0, 2, 4, 6, 8, 10, 12, 14, 16, 18, 20, 22, 1, 25, 49, 73, 97, 121, 145, 169, 193, 217, 241]

/-- Twenty-three flows on one card. -/
def crowdedConfig : PwConfig :=
  { cards := [sampleCard]
    flows := crowdedBytes.map fun j =>
      foldedFlow (BitVec.ofNat 32 (j + 1)) (BitVec.ofNat 32 (j * 2 ^ 24)) }

/-- Two flows that none of the seeds of the search separates. -/
def unluckyConfig : PwConfig :=
  { cards := [sampleCard], flows := [foldedFlow 1 0, foldedFlow 2 0x27BC28] }

/-- A flow between two hosts that use one port number. -/
def mirroredFlow (id src dst : BitVec 32) (tx rx : BitVec 16) : PwFlow :=
  { sampleHeaderFlow id dst with
    txGlobalPort := tx, rxGlobalPort := rx
    ipv4 := { present := true, src, dst, ttl := 64 }
    udp := { srcPort := 5000, dstPort := 5000, l4Proto := 17, tcpFlags := 2 } }

/-- Both directions of the traffic between two hosts. -/
def mirroredConfig : PwConfig :=
  { cards := [sampleCard]
    flows := [mirroredFlow 1 0x0A000001 0x0A000002 0 1, mirroredFlow 2 0x0A000002 0x0A000001 1 0] }

theorem seed_or_one_mod_two (seed : BitVec 32) : (seed ||| 1).toNat % 2 = 1 := by
  change (seed ||| 1#32).toNat % 2 = 1
  rw [BitVec.toNat_or]
  simp [Nat.or_mod_two_eq_one]

/-- No seed gives the twenty-three flows different buckets: its low byte decides. -/
theorem not_separates_crowded (seed : BitVec 32) : ¬ Separates crowdedConfig 0 seed := by
  have hfolds : (headerFlows crowdedConfig 0).map (fun f => keyFold (maskedKey crowdedConfig 0 f)) =
      crowdedBytes.map fun j => BitVec.ofNat 32 (j * 2 ^ 24) := by decide +kernel
  have hbytes : ∀ j ∈ crowdedBytes, j < 256 := by decide
  have hnone : ∀ s < 2 ^ 8, s % 2 = 1 → ¬ (crowdedBytes.map fun j => mulShift 8 1 j s).Nodup := by
    decide +kernel
  have hodd := seed_or_one_mod_two seed
  rw [separates_iff, hfolds, List.map_map]
  have hmap : crowdedBytes.map
      ((fun k : BitVec 32 => mulShift (31 + 1) 25 k.toNat (seed ||| 1).toNat) ∘
        fun j => BitVec.ofNat 32 (j * 2 ^ 24)) =
        crowdedBytes.map fun j => mulShift 8 1 j ((seed ||| 1).toNat % 2 ^ 8) := by
    refine List.map_congr_left fun j hj => ?_
    have hlt : j * 2 ^ 24 < 2 ^ 32 := by
      have := hbytes j hj
      omega
    rw [Function.comp_apply, BitVec.toNat_ofNat, Nat.mod_eq_of_lt hlt, mulShift_mod]
    exact mulShift_mul_two_pow 8 1 24 j _
  rw [hmap]
  exact hnone _ (Nat.mod_lt _ (by decide)) (by omega)

/-- Keys that differ in the order of their words only share their buckets. -/
theorem not_separates_mirrored (seed : BitVec 32) : ¬ Separates mirroredConfig 0 seed := by
  have hfolds :
      (headerFlows mirroredConfig 0).map (fun f => keyFold (maskedKey mirroredConfig 0 f)) =
        List.replicate 2 0x13881B9A#32 := by decide +kernel
  rw [separates_iff, hfolds]
  simp

/-- The second fold is so small a multiple that its products stay in the bucket of the first. -/
theorem not_separates_unlucky {attempt : ℕ} (h : attempt < 4096) :
    ¬ Separates unluckyConfig 0 (attemptSeed attempt) := by
  have hfolds : (headerFlows unluckyConfig 0).map (fun f => keyFold (maskedKey unluckyConfig 0 f)) =
      [0#32, 0x27BC28#32] := by decide +kernel
  have hall : ((List.range 4096).all fun k =>
      mulShift (31 + 1) 25 0x27BC28 (attemptSeed k ||| 1).toNat == 0) = true := by decide +kernel
  have hzero := List.all_eq_true.mp hall attempt (List.mem_range.mpr h)
  rw [beq_iff_eq] at hzero
  rw [separates_iff, hfolds]
  intro hnodup
  simp only [List.map_cons, List.map_nil, List.nodup_cons, List.mem_singleton] at hnodup
  apply hnodup.1
  calc mulShift (31 + 1) 25 (0#32).toNat (attemptSeed attempt ||| 1).toNat = 0 := by
        simp [mulShift]
    _ = mulShift (31 + 1) 25 (0x27BC28#32).toNat (attemptSeed attempt ||| 1).toNat := hzero.symm

/-- **Different keys need not have a placement.**  Twenty-three flows whose folds differ have no
seed at all.  The two directions between hosts that use one port number have one fold, and
no seed.  Two flows whose folds differ can miss all seeds of the search. -/
theorem distinct_keys_without_placement :
    (((headerFlows crowdedConfig 0).map (maskedKey crowdedConfig 0)).Nodup ∧
      ((headerFlows crowdedConfig 0).map fun f => keyFold (maskedKey crowdedConfig 0 f)).Nodup ∧
      pwFlowCompile crowdedConfig = .error (bare .noResources) ∧
      ∀ seed, ¬ Separates crowdedConfig 0 seed) ∧
    ((headerFlows mirroredConfig 0).length = 2 ∧
      ((headerFlows mirroredConfig 0).map (maskedKey mirroredConfig 0)).Nodup ∧
      pwFlowCompile mirroredConfig = .error (bare .noResources) ∧
      ∀ seed, ¬ Separates mirroredConfig 0 seed) ∧
    (headerFlows unluckyConfig 0).length = 2 ∧
      ((headerFlows unluckyConfig 0).map fun f => keyFold (maskedKey unluckyConfig 0 f)).Nodup ∧
      pwFlowCompile unluckyConfig = .error (bare .noResources) := by
  have hcard : ∀ {cfg : PwConfig}, cfg.cards = [sampleCard] →
      okAnd (beforeHash cfg) (fun _ => true) = true →
      ((headerFlows cfg 0).map (maskedKey cfg 0)).Nodup →
      (∀ attempt < 4096, ¬ Separates cfg 0 (attemptSeed attempt)) →
      pwFlowCompile cfg = .error (bare .noResources) := by
    intro cfg hcards hout hkeys hnone
    obtain ⟨out, hout, -⟩ := exists_of_okAnd hout
    refine (compile_noResources_iff hout ?_).mpr ⟨sampleCard, ?_, hnone⟩
    · rw [hcards]
      intro card hmem
      obtain rfl := List.mem_singleton.mp hmem
      exact hkeys
    · rw [hcards]
      exact List.mem_singleton_self _
  have hcrowded : ((headerFlows crowdedConfig 0).map (maskedKey crowdedConfig 0)).Nodup := by
    decide +kernel
  have hmirrored : ((headerFlows mirroredConfig 0).map (maskedKey mirroredConfig 0)).Nodup := by
    decide +kernel
  have hunlucky : ((headerFlows unluckyConfig 0).map (maskedKey unluckyConfig 0)).Nodup := by
    decide +kernel
  refine ⟨⟨hcrowded, by decide +kernel, ?_, not_separates_crowded⟩,
    ⟨by decide +kernel, hmirrored, ?_, not_separates_mirrored⟩,
    by decide +kernel, by decide +kernel, ?_⟩
  · exact hcard rfl (by decide +kernel) hcrowded fun _ _ => not_separates_crowded _
  · exact hcard rfl (by decide +kernel) hmirrored fun _ _ => not_separates_mirrored _
  · exact hcard rfl (by decide +kernel) hunlucky fun _ h => not_separates_unlucky h

end PacketWyrm
