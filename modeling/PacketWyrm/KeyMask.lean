import PacketWyrm.Compile

/-!
# The key mask of a card

The hash key of a card is compared under one mask, which every header-classified
flow received there narrows.  Narrowing is an and with bits of the flow's own,
so the mask does not depend on the order of the flows, and each flow can be
taken out of it.

## Main results

* `pwFcRelaxMask_eq_and` — narrowing by a flow is an and with its bits.
* `cardHashMask_insert` — what one more flow does to the mask.
* `getLsbD_cardHashMask` — the mask, bit by bit.
* `relax_cardHashMask_eq_iff` — when one more flow narrows nothing.
-/

namespace PacketWyrm

open Lib

/-- The mask that has every bit. -/
def fullMask : KeyWords := fun _ => BitVec.allOnes 32

theorem relaxAddrWord_eq_and (v6 : Bool) (mod : PwFieldMod) (full : BitVec 128) (matchSet : Bool)
    (matchMask : BitVec 128) (w : ℕ) (m : BitVec 32) :
    relaxAddrWord v6 mod full matchSet matchMask w m =
      m &&& relaxAddrWord v6 mod full matchSet matchMask w (BitVec.allOnes 32) := by
  simp only [relaxAddrWord]
  split <;> split <;> (try split) <;> (try split) <;>
    simp only [BitVec.and_assoc, BitVec.allOnes_and, BitVec.and_allOnes]

theorem relaxPorts_eq_and (f : PwFlow) (m : BitVec 32) :
    relaxPorts f m = m &&& relaxPorts f (BitVec.allOnes 32) := by
  simp only [relaxPorts]
  split <;> split <;> split <;>
    simp only [BitVec.and_assoc, BitVec.allOnes_and, BitVec.and_allOnes]

theorem relaxVlan_eq_and (f : PwFlow) (m : BitVec 32) :
    relaxVlan f m = m &&& relaxVlan f (BitVec.allOnes 32) := by
  simp only [relaxVlan]
  split <;> simp only [BitVec.allOnes_and, BitVec.and_allOnes]

/-- **Narrowing by a flow is an and with the bits the flow leaves.** -/
theorem pwFcRelaxMask_eq_and (m : KeyWords) (f : PwFlow) (i : Fin 11) :
    pwFcRelaxMask m f i = m i &&& pwFcRelaxMask fullMask f i := by
  match i with
  | 0 =>
    simp only [pwFcRelaxMask, fullMask]
    split
    · rw [relaxAddrWord_eq_and _ _ _ _ _ _ (m 0 &&& _),
        relaxAddrWord_eq_and _ _ _ _ _ _ (BitVec.allOnes 32 &&& _), BitVec.allOnes_and,
        BitVec.and_assoc]
    · exact relaxAddrWord_eq_and _ _ _ _ _ _ _
  | 1 => exact relaxAddrWord_eq_and _ _ _ _ _ _ _
  | 2 => exact relaxAddrWord_eq_and _ _ _ _ _ _ _
  | 3 => exact relaxAddrWord_eq_and _ _ _ _ _ _ _
  | 4 => exact relaxAddrWord_eq_and _ _ _ _ _ _ _
  | 5 => exact relaxAddrWord_eq_and _ _ _ _ _ _ _
  | 6 => exact relaxAddrWord_eq_and _ _ _ _ _ _ _
  | 7 => exact relaxAddrWord_eq_and _ _ _ _ _ _ _
  | 8 => exact relaxPorts_eq_and f _
  | 9 => exact relaxVlan_eq_and f _
  | 10 => exact (BitVec.and_allOnes).symm

theorem pwFcRelaxMask_comm (m : KeyWords) (f g : PwFlow) :
    pwFcRelaxMask (pwFcRelaxMask m f) g = pwFcRelaxMask (pwFcRelaxMask m g) f := by
  funext i
  rw [pwFcRelaxMask_eq_and (pwFcRelaxMask m f) g, pwFcRelaxMask_eq_and m f,
    pwFcRelaxMask_eq_and (pwFcRelaxMask m g) f, pwFcRelaxMask_eq_and m g, BitVec.and_assoc,
    BitVec.and_assoc, BitVec.and_comm (pwFcRelaxMask fullMask f i)]

/-- A flow may be taken last. -/
theorem foldl_relax_comm (l : List PwFlow) (m : KeyWords) (f : PwFlow) :
    l.foldl pwFcRelaxMask (pwFcRelaxMask m f) = pwFcRelaxMask (l.foldl pwFcRelaxMask m) f := by
  induction l generalizing m with
  | nil => rfl
  | cons g l ih => rw [List.foldl_cons, List.foldl_cons, pwFcRelaxMask_comm, ih]

/-- **One more flow narrows the mask of its receive card** when it is
header-classified, and leaves the others alone. -/
theorem cardHashMask_insert (cfg : PwConfig) (pre post : List PwFlow) (f : PwFlow)
    (c : BitVec 16) :
    cardHashMask { cfg with flows := pre ++ f :: post } c =
      if relaxesCard cfg c f then
        pwFcRelaxMask (cardHashMask { cfg with flows := pre ++ post } c) f
      else cardHashMask { cfg with flows := pre ++ post } c := by
  have hcard : ∀ l, relaxesCard { cfg with flows := l } c = relaxesCard cfg c := fun _ => rfl
  simp only [cardHashMask, hcard, List.filter_append, List.filter_cons]
  split
  · rw [List.foldl_append, List.foldl_cons, foldl_relax_comm, ← List.foldl_append]
  · rfl

/-- The bits of the key that a flow leaves in the mask. -/
def keptBits (f : PwFlow) : KeyWords := pwFcRelaxMask fullMask f

theorem getLsbD_foldl_relax (l : List PwFlow) (m : KeyWords) (i : Fin 11) (b : ℕ) :
    (l.foldl pwFcRelaxMask m i).getLsbD b =
      ((m i).getLsbD b && l.all fun g => (keptBits g i).getLsbD b) := by
  induction l generalizing m with
  | nil => simp
  | cons g l ih =>
    rw [List.foldl_cons, ih, pwFcRelaxMask_eq_and, BitVec.getLsbD_and, List.all_cons,
      Bool.and_assoc]
    rfl

/-- **The mask of a card has the bits that every header-classified flow received
there leaves.** -/
theorem getLsbD_cardHashMask (cfg : PwConfig) (c : BitVec 16) (i : Fin 11) {b : ℕ} (hb : b < 32) :
    (cardHashMask cfg c i).getLsbD b =
      (cfg.flows.filter (relaxesCard cfg c)).all fun g => (keptBits g i).getLsbD b := by
  have hfull : (0xFFFFFFFF#32).getLsbD b = true := by
    rw [show 0xFFFFFFFF#32 = BitVec.allOnes 32 by decide, BitVec.getLsbD_allOnes]
    simpa using hb
  rw [cardHashMask, getLsbD_foldl_relax]
  exact (congrArg (· && _) hfull).trans (Bool.true_and _)

/-- A flow narrows the mask of a card by nothing when another flow received
there clears each bit it clears. -/
theorem relax_cardHashMask_eq_iff (cfg : PwConfig) (c : BitVec 16) (f : PwFlow) :
    pwFcRelaxMask (cardHashMask cfg c) f = cardHashMask cfg c ↔
      ∀ (i : Fin 11) (b : ℕ), b < 32 → (keptBits f i).getLsbD b = false →
        ∃ g ∈ cfg.flows, relaxesCard cfg c g = true ∧ (keptBits g i).getLsbD b = false := by
  have hbit : ∀ i b, (pwFcRelaxMask (cardHashMask cfg c) f i).getLsbD b =
      ((cardHashMask cfg c i).getLsbD b && (keptBits f i).getLsbD b) := by
    intro i b
    rw [pwFcRelaxMask_eq_and, BitVec.getLsbD_and]
    rfl
  constructor
  · intro h i b hb hf
    have hmask := hbit i b
    rw [h, hf, Bool.and_false, getLsbD_cardHashMask cfg c i hb, List.all_eq_false] at hmask
    obtain ⟨g, hg, hgb⟩ := hmask
    obtain ⟨hmem, hcard⟩ := List.mem_filter.mp hg
    exact ⟨g, hmem, hcard, by simpa using hgb⟩
  · intro h
    funext i
    apply BitVec.eq_of_getLsbD_eq
    intro b hb
    rw [hbit]
    cases hf : (keptBits f i).getLsbD b with
    | true => exact Bool.and_true _
    | false =>
      obtain ⟨g, hmem, hcard, hgb⟩ := h i b hb hf
      rw [Bool.and_false, eq_comm, getLsbD_cardHashMask cfg c i hb, List.all_eq_false]
      exact ⟨g, List.mem_filter.mpr ⟨hmem, hcard⟩, by simp [hgb]⟩

end PacketWyrm
