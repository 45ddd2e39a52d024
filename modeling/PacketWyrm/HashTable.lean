import PacketWyrm.Compile
import PacketWyrm.Tables

/-!
# The compiled hash table is sound

The compiler hashes a key with `pw_fc_hash_index`, the hardware with `fold` and
`mulshift`; the compiler masks and places keys in a post-pass, the hardware
masks each received key before it looks.  Both agree, so a lookup finds the one
entry whose key the frame has, and nothing else.

## Main definitions

* `SoundHashTable` — what a placed table guarantees.

## Main results

* `pwFcHashIndex_eq` — the two hash functions are one.
* `soundHashTable_of_postPass` — the post-pass establishes soundness.
* `lookup_eq_some_iff` — a sound table's lookup.
* `compiled_hash_sound` — every card of every compiled program.
-/

namespace PacketWyrm

open Lib

/-! ## One hash function -/

theorem fold_packWords (w : KeyWords) :
    fold (packWords w) = (List.finRange 11).foldl (fun k32 i => k32 ^^^ w i) 0 := by
  simp [fold]

/-- **The compiler's index is the hardware's.** -/
theorem pwFcHashIndex_eq (w : KeyWords) (seed : BitVec 32) :
    (pwFcHashIndex w seed).toNat = (mulshift (fold (packWords w)) seed).toNat := by
  rw [fold_packWords]
  simp only [pwFcHashIndex, mulshift]
  generalize (List.finRange 11).foldl (fun k32 i => k32 ^^^ w i) 0 * (seed ||| 1) = prod
  have hlt : prod.toNat / 2 ^ 25 < 2 ^ 7 := by omega
  simp only [BitVec.toNat_setWidth, BitVec.toNat_ushiftRight, BitVec.extractLsb'_toNat,
    Nat.shiftRight_eq_div_pow]
  omega

theorem pwFcHashIndex_lt (w : KeyWords) (seed : BitVec 32) :
    (pwFcHashIndex w seed).toNat < hashDepth := by
  rw [pwFcHashIndex_eq]
  exact (mulshift (fold (packWords w)) seed).isLt

/-! ## Placement -/

/-- An attempt that places every key keeps keys and slots, gives every entry
the index of its key, and uses no bucket twice. -/
theorem placeAll_spec {seed : BitVec 32} {used : List (BitVec 16)}
    {es placed : List PwFcHashEntry} (h : placeAll seed used es = some placed) :
    List.Forall₂ (fun e e' : PwFcHashEntry =>
      e' = { e with index := pwFcHashIndex e.keyWord seed }) es placed ∧
    (∀ e ∈ placed, e.index ∉ used) ∧ (placed.map PwFcHashEntry.index).Nodup := by
  induction es generalizing used placed with
  | nil =>
    obtain rfl : [] = placed := by simpa [placeAll] using h
    simp
  | cons e es ih =>
    rw [placeAll] at h
    split at h
    · cases h
    · rename_i hfree
      obtain ⟨rest, hrest, rfl⟩ := Option.map_eq_some_iff.mp h
      obtain ⟨hkeys, hout, hnd⟩ := ih hrest
      refine ⟨.cons rfl hkeys, ?_, ?_⟩
      · intro x hx
        rcases List.mem_cons.mp hx with rfl | hx
        · exact hfree
        · exact fun hu => hout x hx (List.mem_cons_of_mem _ hu)
      · rw [List.map_cons, List.nodup_cons]
        refine ⟨fun hmem => ?_, hnd⟩
        obtain ⟨x, hx, hidx⟩ := List.mem_map.mp hmem
        exact hout x hx (hidx ▸ List.mem_cons_self)

theorem seedSearch_spec {es placed : List PwFcHashEntry} {attempt left : ℕ} {seed : BitVec 32}
    (h : seedSearch es attempt left = some (seed, placed)) :
    placeAll seed [] es = some placed := by
  induction left generalizing attempt with
  | zero => simp [seedSearch] at h
  | succ left ih =>
    rw [seedSearch] at h
    split at h
    · rename_i placed' hp
      obtain ⟨rfl, rfl⟩ : attemptSeed attempt = seed ∧ placed' = placed := by simpa using h
      exact hp
    · exact ih h

@[simp] theorem keyEq_eq_true_iff {v w : KeyWords} : keyEq v w = true ↔ v = w := by
  simp [keyEq, funext_iff]

/-- No duplicate found means pairwise distinct keys. -/
theorem findDuplicate_eq_none {seen es : List PwFcHashEntry} (h : findDuplicate seen es = none) :
    (∀ e ∈ es, ∀ d ∈ seen, e.keyWord ≠ d.keyWord) ∧
      es.Pairwise fun d e => d.keyWord ≠ e.keyWord := by
  induction es generalizing seen with
  | nil => simp
  | cons e es ih =>
    rw [findDuplicate] at h
    split at h
    · cases h
    · rename_i hnone
      have hfirst : ∀ d ∈ seen, e.keyWord ≠ d.keyWord := by
        intro d hd he
        have := List.find?_eq_none.mp hnone d hd
        simp [he] at this
      obtain ⟨hlater, hpw⟩ := ih h
      refine ⟨fun x hx d hd => ?_, List.Pairwise.cons (fun x hx he => ?_) hpw⟩
      · rcases List.mem_cons.mp hx with rfl | hx
        · exact hfirst d hd
        · exact hlater x hx d (List.mem_append_left _ hd)
      · exact hlater x hx e (by simp) he.symm

/-! ## Soundness of a table -/

/-- A placed table: indices in range and pairwise distinct, keys masked and
pairwise distinct, and each index the hardware's for its key. -/
structure SoundHashTable (cp : PwCardProgram) : Prop where
  index_lt : ∀ e ∈ cp.hashEntries, e.index.toNat < hashDepth
  index_nodup : (cp.hashEntries.map PwFcHashEntry.index).Nodup
  key_masked : ∀ e ∈ cp.hashEntries, (fun i => e.keyWord i &&& cp.hashMask i) = e.keyWord
  key_nodup : (cp.hashEntries.map PwFcHashEntry.keyWord).Nodup
  index_eq : ∀ e ∈ cp.hashEntries, e.index.toNat =
    (mulshift (fold (packWords e.keyWord &&& packWords cp.hashMask)) cp.hashSeed).toNat

/-- **The post-pass leaves a sound table.** -/
theorem soundHashTable_of_postPass {cfg : PwConfig} {cp cp' : PwCardProgram}
    (h : hashPostPass cfg cp = .ok cp') : SoundHashTable cp' := by
  obtain ⟨hnil, rfl⟩ | ⟨seed, placed, hdup, hseed, rfl⟩ := hashPostPass_cases h
  · constructor <;> simp [hnil]
  · set mask := cardHashMask cfg cp.cardId
    obtain ⟨hkeys, -, hnd⟩ := placeAll_spec (seedSearch_spec hseed)
    have horig : ∀ e ∈ placed, e.index = pwFcHashIndex e.keyWord seed ∧
        (fun i => e.keyWord i &&& mask i) = e.keyWord := by
      intro e he
      obtain ⟨d, hd, rfl⟩ := exists_left_of_forall₂ hkeys he
      obtain ⟨d₀, -, rfl⟩ := List.mem_map.mp hd
      refine ⟨rfl, funext fun i => ?_⟩
      simp [PwFcHashEntry.masked, BitVec.and_assoc]
    have hsame : placed.map PwFcHashEntry.keyWord =
        (cp.hashEntries.map (PwFcHashEntry.masked mask)).map PwFcHashEntry.keyWord :=
      map_eq_map_of_forall₂ (hkeys.imp fun d e he => by rw [he])
    refine ⟨fun e he => ?_, hnd, fun e he => (horig e he).2, ?_, fun e he => ?_⟩
    · rw [(horig e he).1]
      exact pwFcHashIndex_lt _ _
    · rw [hsame]
      exact List.pairwise_map.mpr (findDuplicate_eq_none hdup).2
    · rw [(horig e he).1, pwFcHashIndex_eq, packWords_and, (horig e he).2]

/-! ## Lookups -/

section Lookup

variable {cp : PwCardProgram} (H : SoundHashTable cp) (lfw : ℕ)

/-- The bucket of an entry holds it. -/
theorem bucket_of_mem (H : SoundHashTable cp) {e : PwFcHashEntry} (he : e ∈ cp.hashEntries)
    (hne : cp.hashEntries.isEmpty = false) :
    (cp.hashTables lfw).bucket (Fin.ofNat 128 e.index.toNat) = e.bucket lfw := by
  have hnd : (cp.hashEntries.map fun e => Fin.ofNat 128 e.index.toNat).Nodup := by
    have : cp.hashEntries.map (fun e => Fin.ofNat 128 e.index.toNat) =
        (cp.hashEntries.map PwFcHashEntry.index).map (fun i => Fin.ofNat 128 i.toNat) := by simp
    rw [this]
    refine List.Nodup.map_on ?_ H.index_nodup
    rintro _ hi _ hj hij
    obtain ⟨d, hd, rfl⟩ := List.mem_map.mp hi
    obtain ⟨d', hd', rfl⟩ := List.mem_map.mp hj
    have h₁ := H.index_lt d hd
    have h₂ := H.index_lt d' hd'
    apply BitVec.eq_of_toNat_eq
    have := congrArg Fin.val hij
    simp only [Fin.ofNat, hashDepth] at this h₁ h₂
    omega
  simp only [PwCardProgram.hashTables, hne, Bool.false_eq_true, if_false]
  exact writeAll_of_mem hnd he _

/-- A valid bucket holds some entry. -/
theorem exists_of_bucket_valid {i : Fin 128} (h : ((cp.hashTables lfw).bucket i).valid = true) :
    ∃ e ∈ cp.hashEntries, cp.hashEntries.isEmpty = false ∧
      (cp.hashTables lfw).mask = packWords cp.hashMask ∧
      (cp.hashTables lfw).seed = cp.hashSeed ∧ Fin.ofNat 128 e.index.toNat = i := by
  cases hne : cp.hashEntries.isEmpty with
  | true => simp [PwCardProgram.hashTables, hne, HashTables.init] at h
  | false =>
    simp only [PwCardProgram.hashTables, hne, Bool.false_eq_true, if_false] at h ⊢
    by_contra hno
    rw [writeAll_of_not_mem fun e he hi => hno ⟨e, he, trivial, trivial, trivial, hi⟩] at h
    simp at h

include H in
/-- **The lookup of a sound table**: a hit on the entry whose key the frame has
under the mask, with that entry's slot. -/
theorem lookup_eq_some_iff {k : PwMatchKey} {lfid : BitVec lfw} :
    (cp.hashTables lfw).lookup k = some lfid ↔
      ∃ e ∈ cp.hashEntries, packWords e.keyWord = assemble k &&& packWords cp.hashMask ∧
        e.localFlowId.setWidth lfw = lfid := by
  constructor
  · intro h
    simp only [HashTables.lookup, Option.ite_none_right_eq_some, Bool.and_eq_true, beq_iff_eq,
      Option.some.injEq] at h
    obtain ⟨⟨hvalid, hkey⟩, hl⟩ := h
    obtain ⟨e, he, hne, hmask, hseed, hi⟩ := exists_of_bucket_valid lfw hvalid
    rw [← hi, bucket_of_mem lfw H he hne] at hkey hl
    exact ⟨e, he, by rw [← hmask]; exact hkey, hl⟩
  · rintro ⟨e, he, hkey, rfl⟩
    have hne : cp.hashEntries.isEmpty = false := by
      cases hl : cp.hashEntries with
      | nil => simp [hl] at he
      | cons => rfl
    have hmask : (cp.hashTables lfw).mask = packWords cp.hashMask := by
      simp [PwCardProgram.hashTables, hne]
    have hindex : (cp.hashTables lfw).index (assemble k &&& packWords cp.hashMask) =
        Fin.ofNat 128 e.index.toNat := by
      rw [← hkey]
      have hi := H.index_eq e he
      rw [packWords_and, H.key_masked e he] at hi
      apply Fin.ext
      have hlt := H.index_lt e he
      simp only [HashTables.index, PwCardProgram.hashTables, hne, Bool.false_eq_true, if_false,
        Fin.ofNat, hashDepth, BitVec.val_toFin] at hlt ⊢
      omega
    simp only [HashTables.lookup, hmask, hindex, bucket_of_mem lfw H he hne,
      PwFcHashEntry.bucket, hkey]
    simp

end Lookup

/-! ## Compiled programs -/

/-- The post-pass masks the keys and places them; slots and order stay. -/
theorem hashPostPass_entries {cfg : PwConfig} {cp cp' : PwCardProgram}
    (h : hashPostPass cfg cp = .ok cp') :
    List.Forall₂ (fun d e : PwFcHashEntry => e.localFlowId = d.localFlowId ∧
      e.keyWord = fun i => d.keyWord i &&& cp'.hashMask i) cp.hashEntries cp'.hashEntries := by
  obtain ⟨hnil, rfl⟩ | ⟨seed, placed, -, hseed, rfl⟩ := hashPostPass_cases h
  · rw [hnil]
    exact List.Forall₂.nil
  · obtain ⟨hkeys, -, -⟩ := placeAll_spec (seedSearch_spec hseed)
    rw [List.forall₂_map_left_iff] at hkeys
    refine hkeys.imp ?_
    intro d e he
    rw [he]
    exact ⟨rfl, rfl⟩

/-- Every card of a compiled program has its hash slots among its rows. -/
theorem slotsInRange_of_compile {cfg : PwConfig} {p : PwProgram} (h : pwFlowCompile cfg = .ok p)
    {cp : PwCardProgram} (hcp : cp ∈ p.perCard) : SlotsInRange cp := by
  obtain ⟨-, -, mid, hflows, -, htrace⟩ := pwFlowCompile_spec h
  obtain ⟨T⟩ := htrace cp hcp
  have H := slotsInRange_flows hflows T.flows_eq
  have hslots : cp.hashEntries.map PwFcHashEntry.localFlowId =
      T.afterFlows.hashEntries.map PwFcHashEntry.localFlowId := by
    rw [← T.hashEntries_eq]
    exact map_eq_map_of_forall₂ ((hashPostPass_entries T.hash_eq).imp fun _ _ h => h.1)
  refine ⟨T.flowRows_eq ▸ H.rows, fun e he => ?_, ?_⟩
  swap
  · rw [T.flowRows_eq, T.mapEntries_eq]
    exact H.map
  have hmem : e.localFlowId ∈ cp.hashEntries.map PwFcHashEntry.localFlowId :=
    List.mem_map_of_mem he
  rw [hslots] at hmem
  obtain ⟨d, hd, hdl⟩ := List.mem_map.mp hmem
  rw [T.flowRows_eq, ← hdl]
  exact H.hash d hd

/-- **Every compiled hash table is sound.**  On every card the table is sound,
a lookup hits exactly when some entry is the key under the mask, and the slot
it returns is that entry's whenever the slots of the card fit the slot
register of `lfw` bits. -/
theorem compiled_hash_sound {cfg : PwConfig} {p : PwProgram} (h : pwFlowCompile cfg = .ok p)
    {cp : PwCardProgram} (hcp : cp ∈ p.perCard) :
    SoundHashTable cp ∧ ∀ (lfw : ℕ) (k : PwMatchKey),
      (((cp.hashTables lfw).lookup k).isSome = true ↔
        ∃ e ∈ cp.hashEntries, packWords e.keyWord = assemble k &&& packWords cp.hashMask) ∧
      ∀ e ∈ cp.hashEntries, packWords e.keyWord = assemble k &&& packWords cp.hashMask →
        (cp.hashTables lfw).lookup k = some (e.localFlowId.setWidth lfw) ∧
        (cp.flowRows.length ≤ 2 ^ lfw →
          (e.localFlowId.setWidth lfw).toNat = e.localFlowId.toNat) := by
  obtain ⟨-, -, mid, -, -, htrace⟩ := pwFlowCompile_spec h
  obtain ⟨T⟩ := htrace cp hcp
  have H : SoundHashTable cp := soundHashTable_of_postPass T.hash_eq
  refine ⟨H, fun lfw k => ⟨?_, fun e he hkey => ⟨?_, fun hfit => ?_⟩⟩⟩
  · rw [Option.isSome_iff_exists]
    constructor
    · rintro ⟨lfid, hl⟩
      obtain ⟨e, he, hkey, -⟩ := (lookup_eq_some_iff H lfw).mp hl
      exact ⟨e, he, hkey⟩
    · rintro ⟨e, he, hkey⟩
      exact ⟨_, (lookup_eq_some_iff H lfw).mpr ⟨e, he, hkey, rfl⟩⟩
  · exact (lookup_eq_some_iff H lfw).mpr ⟨e, he, hkey, rfl⟩
  · rw [BitVec.toNat_setWidth]
    exact Nat.mod_eq_of_lt (((slotsInRange_of_compile h hcp).hash e he).trans_le hfit)

theorem compiled_hash_sound_sample :
    ∃ p cp, pwFlowCompile sampleHeaderConfig = .ok p ∧ cp ∈ p.perCard ∧
      cp.hashEntries.length = 2 ∧ SoundHashTable cp := by
  obtain ⟨p, hp, hcheck⟩ := exists_of_okAnd
    (show okAnd (pwFlowCompile sampleHeaderConfig)
      (fun p => p.perCard.any fun cp => cp.hashEntries.length == 2) = true by decide +kernel)
  obtain ⟨cp, hcp, hlen⟩ := List.any_eq_true.mp hcheck
  exact ⟨p, cp, hp, hcp, by simpa using hlen, (compiled_hash_sound hp hcp).1⟩

end PacketWyrm
