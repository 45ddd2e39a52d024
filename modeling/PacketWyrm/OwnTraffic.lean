import Mathlib.Tactic.FinCases
import PacketWyrm.Background
import PacketWyrm.ParseBack
import PacketWyrm.RxSlots

/-!
# A header-classified flow and its own frames

The compiler stores the key words of a flow's own header, with the bits that the
flow's modifiers vary taken out of the mask.  The hardware assembles the key
words of a parsed frame.  For a frame of the flow the two agree in every bit of
the mask, up to the EtherType: the compiler stores that of the inner header, the
parser reads that of the outer one.

## Main definitions

* `sentWords` — the key words of a frame of a flow.

## Main results

* `assembleWords_eq` — the hardware's words of a key of the flow.
* `sentWords_eq_of_kept` — they have the stored bits, where the mask has a bit.
* `own_frame_hit_iff` — which header-classified flows receive their own frames.
-/

namespace PacketWyrm

open Lib

/-! ## Masks and modifiers -/

/-- A modifier leaves the bits that its mask does not have. -/
theorem getLsbD_modified_of_clear {n : ℕ} {mode : PwFieldMode} {mask stream base : BitVec n}
    {b : ℕ} (h : mode ≠ .static → mask.getLsbD b = false) :
    (modified mode mask stream base).getLsbD b = base.getLsbD b := by
  rw [getLsbD_modified, if_neg]
  intro hc
  rw [h hc.1] at hc
  exact Bool.false_ne_true hc.2

theorem active_iff (m : PwFieldMod) : m.active = true ↔ m.mode ≠ .static := by
  simp [PwFieldMod.active]

/-- What is left has no bit that was taken out. -/
theorem clear_of_and_not {n : ℕ} {m k : BitVec n} {b : ℕ} (h : (m &&& ~~~k).getLsbD b = true) :
    k.getLsbD b = false := by
  have hb : b < n := BitVec.lt_of_getLsbD h
  rw [BitVec.getLsbD_and, BitVec.getLsbD_not, Bool.and_eq_true] at h
  simpa [hb] using h.2

/-- A bit that is left in an address word is none that the modifier varies. -/
theorem clear_of_relaxAddrWord {v6 : Bool} {mod : PwFieldMod} {full : BitVec 128}
    {matchSet : Bool} {matchMask : BitVec 128} {w : ℕ} {m : BitVec 32} {b : ℕ}
    (h : (relaxAddrWord v6 mod full matchSet matchMask w m).getLsbD b = true)
    (hact : mod.mode ≠ .static) :
    (w = 0 → (mod.mask.setWidth 32).getLsbD b = false) ∧
      (w ≠ 0 → v6 = true → (ipv6MaskWord full w).getLsbD b = false) := by
  -- the match mask only clears more
  have hmod : (if w = 0 then m &&& ~~~(mod.mask.setWidth 32)
      else if v6 then m &&& ~~~(ipv6MaskWord full w) else m).getLsbD b = true := by
    simp only [relaxAddrWord, (active_iff mod).mpr hact, if_true] at h
    split at h
    · rw [BitVec.getLsbD_and, Bool.and_eq_true] at h
      exact h.1
    · exact h
  constructor
  · intro hw
    rw [if_pos hw] at hmod
    exact clear_of_and_not hmod
  · intro hw hv
    rw [if_neg hw, if_pos hv] at hmod
    exact clear_of_and_not hmod

/-- An address of a frame has the configured bits where the mask has one. -/
theorem getLsbD_addr_of_kept {v6 : Bool} {mod : PwFieldMod} {full : BitVec 128}
    {matchSet : Bool} {matchMask : BitVec 128} {w : ℕ} {m : BitVec 32} {b : ℕ}
    (h : (relaxAddrWord v6 mod full matchSet matchMask w m).getLsbD b = true)
    (hmask : v6 = true → mod.mask = (full.setWidth 32).setWidth 64)
    (stream6 base6 : BitVec 128) (stream4 base4 : BitVec 32) :
    (if v6 then modified mod.mode full stream6 base6
      else 0#96 ++ modified mod.mode (mod.mask.setWidth 32) stream4 base4).getLsbD (32 * w + b) =
      (if v6 then base6 else 0#96 ++ base4).getLsbD (32 * w + b) := by
  have hb : b < 32 := BitVec.lt_of_getLsbD h
  have hclear := clear_of_relaxAddrWord h
  cases hv : v6 with
  | true =>
    apply getLsbD_modified_of_clear
    intro hact
    by_cases hw : w = 0
    · have hlow := (hclear hact).1 hw
      rw [hmask hv] at hlow
      simpa [hw, hb, show b < 64 by omega] using hlow
    · have hword := (hclear hact).2 hw hv
      simpa [ipv6MaskWord, hb] using hword
  | false =>
    simp only [Bool.false_eq_true, if_false, BitVec.getLsbD_append]
    by_cases hw : w = 0
    · rw [if_pos (by omega), if_pos (by omega)]
      apply getLsbD_modified_of_clear
      intro hact
      simpa [hw] using (hclear hact).1 hw
    · rw [if_neg (by omega), if_neg (by omega)]

/-- A bit that is left in the ports word is none that a port's modifier varies. -/
theorem clear_of_relaxPorts {f : PwFlow} {m : BitVec 32} {b : ℕ}
    (h : (relaxPorts f m).getLsbD b = true) :
    (b < 16 → f.mod.udpDst.mode ≠ .static → (f.mod.udpDst.mask.setWidth 16).getLsbD b = false) ∧
      (16 ≤ b → f.mod.udpSrc.mode ≠ .static →
        (f.mod.udpSrc.mask.setWidth 16).getLsbD (b - 16) = false) := by
  have hb : b < 32 := BitVec.lt_of_getLsbD h
  have hlow : (0xFFFF : BitVec 32) = (BitVec.allOnes 16).setWidth 32 := by decide
  rw [relaxPorts, hlow] at h
  constructor
  · intro h16 hact
    simp only [(active_iff _).mpr hact, if_true] at h
    have hdst : (m &&& ~~~(f.mod.udpDst.mask.setWidth 32 &&&
        (BitVec.allOnes 16).setWidth 32)).getLsbD b = true := by
      split at h <;> split at h <;> simp only [BitVec.getLsbD_and, Bool.and_eq_true] at h ⊢
      · exact h.1.1
      · exact h.1
      · exact h.1
      · exact h
    have hclear := clear_of_and_not hdst
    rw [BitVec.getLsbD_and, BitVec.getLsbD_setWidth, BitVec.getLsbD_setWidth,
      BitVec.getLsbD_allOnes] at hclear
    simpa [h16, hb] using hclear
  · intro h16 hact
    simp only [(active_iff _).mpr hact, if_true] at h
    have hclear := clear_of_and_not h
    rw [BitVec.getLsbD_shiftLeft, BitVec.getLsbD_and, BitVec.getLsbD_setWidth,
      BitVec.getLsbD_setWidth, BitVec.getLsbD_allOnes] at hclear
    simpa [hb, show ¬b < 16 by omega, show b - 16 < 16 by omega, show b - 16 < 32 by omega]
      using hclear

/-- A bit that is left in the tag's half of word 9 is none that its modifier
varies. -/
theorem clear_of_relaxVlan {f : PwFlow} {m : BitVec 32} {b : ℕ}
    (h : (relaxVlan f m).getLsbD b = true) (h16 : 16 ≤ b) (h28 : b < 28)
    (hact : f.mod.vlan.mode ≠ .static) :
    (f.mod.vlan.mask.setWidth 12).getLsbD (b - 16) = false := by
  have hlow : (0x0FFF : BitVec 32) = (BitVec.allOnes 12).setWidth 32 := by decide
  rw [relaxVlan, if_pos ((active_iff _).mpr hact), hlow] at h
  have hclear := clear_of_and_not h
  rw [BitVec.getLsbD_shiftLeft, BitVec.getLsbD_and, BitVec.getLsbD_setWidth,
    BitVec.getLsbD_setWidth, BitVec.getLsbD_allOnes] at hclear
  simpa [show b < 32 by omega, show ¬b < 16 by omega, show b - 16 < 12 by omega,
    show b - 16 < 32 by omega] using hclear

/-- No flow takes a bit of the EtherType out of the mask. -/
theorem getLsbD_relaxVlan_low {f : PwFlow} {b : ℕ} (hb : b < 16) :
    (relaxVlan f (BitVec.allOnes 32)).getLsbD b = true := by
  have hall : (BitVec.allOnes 32).getLsbD b = true := by
    rw [BitVec.getLsbD_allOnes]
    exact decide_eq_true (by omega)
  rw [relaxVlan]
  split
  · rw [BitVec.getLsbD_and, hall, BitVec.getLsbD_not, BitVec.getLsbD_shiftLeft]
    simp [hb, show b < 32 by omega]
  · exact hall

/-! ## The words of a frame and the words that are stored -/

/-- The key words made of these fields. -/
def keyWords (dst src : BitVec 128) (srcPort dstPort : BitVec 16) (vlanId : BitVec 12)
    (ethertype : BitVec 16) (proto : Byte) : KeyWords := fun i =>
  match i with
  | 0 => dst.extractLsb' 0 32
  | 1 => dst.extractLsb' 32 32
  | 2 => dst.extractLsb' 64 32
  | 3 => dst.extractLsb' 96 32
  | 4 => src.extractLsb' 0 32
  | 5 => src.extractLsb' 32 32
  | 6 => src.extractLsb' 64 32
  | 7 => src.extractLsb' 96 32
  | 8 => srcPort ++ dstPort
  | 9 => 0#4 ++ vlanId ++ ethertype
  | 10 => 0#24 ++ proto

namespace PwFlow

variable (f : PwFlow)

/-- The EtherType in the stored key: that of the flow's own header, never of an
outer one. -/
def storedEt : BitVec 16 :=
  if f.traffic.frameTemplate = .l2raw ∧ f.l2.ethertype ≠ 0 then f.l2.ethertype
  else familyEt f.ipv6.present

/-- The source address in the stored key. -/
def storedSrc : BitVec 128 :=
  if f.traffic.frameTemplate = .l2raw then 0
  else if f.ipv6.present then f.ipv6.src else 0#96 ++ f.ipv4.src

/-- The destination address in the stored key. -/
def storedDst : BitVec 128 :=
  if f.traffic.frameTemplate = .l2raw then 0
  else if f.ipv6.present then f.ipv6.dst else 0#96 ++ f.ipv4.dst

end PwFlow

/-- The key words of the flow's frame with sequence number `seq`. -/
def sentWords (f : PwFlow) (seq : BitVec 64) : KeyWords :=
  keyWords (f.keyDst seq) (f.keySrc seq) (f.keySrcPort seq) (f.keyDstPort seq)
    (if f.l2.vlanSet then f.vlanAt seq else 0) f.etAt f.keyProto

/-- **The hardware's words of a key of the flow.** -/
theorem assembleWords_eq {f : PwFlow} {seq : BitVec 64} {k : PwMatchKey} (h : KeyOf f seq k) :
    assembleWords k = sentWords f seq := by
  have hinner := h.innerVlanValid
  rw [sentWords, ← h.ethertype, ← h.vlanId, ← h.l3Proto, ← h.src, ← h.dst, ← h.l4Src, ← h.l4Dst]
  funext i
  match i with
  | 0 | 1 | 2 | 3 | 4 | 5 | 6 | 7 | 8 | 10 => rfl
  | 9 =>
    change 0#3 ++ BitVec.ofBool k.innerVlanValid ++ k.vlanId ++ k.ethertype = _
    rw [hinner]
    rfl

theorem shiftLeft_or_eq_append (x y : BitVec 16) :
    x.setWidth 32 <<< 16 ||| y.setWidth 32 = x ++ y := shiftLeft_or_halves x y

theorem hashVlan16_eq (f : PwFlow) :
    hashVlan16 f =
      (0#4 ++ if f.l2.vlanSet then f.l2.vlan.setWidth 12 else 0#12 : BitVec 16).setWidth 32 := by
  rw [hashVlan16]
  split
  · rw [show (0x0FFF : BitVec 32) = (BitVec.allOnes 12).setWidth 32 by decide]
    apply BitVec.eq_of_getLsbD_eq
    intro b hb
    rw [BitVec.getLsbD_and, BitVec.getLsbD_setWidth, BitVec.getLsbD_setWidth,
      BitVec.getLsbD_allOnes, BitVec.getLsbD_setWidth, BitVec.getLsbD_append]
    by_cases h12 : b < 12
    · simp [hb, h12]
    · simp [h12]
  · rfl

theorem setWidth_eq_append {n : ℕ} (k : ℕ) (a : BitVec n) : a.setWidth (k + n) = 0#k ++ a := by
  apply BitVec.eq_of_getLsbD_eq
  intro b hb
  rw [BitVec.getLsbD_setWidth, BitVec.getLsbD_append]
  split
  · simp [hb]
  · rw [BitVec.getLsbD_of_ge a b (by omega)]
    simp

theorem setWidth_familyEt (v6 : Bool) :
    (if v6 then 0x86DD else 0x0800 : BitVec 32) = (PwFlow.familyEt v6).setWidth 32 := by
  cases v6 <;> rfl

theorem setWidth_storedEt (f : PwFlow) (h2 : f.traffic.frameTemplate = .l2raw) :
    (if f.l2.ethertype ≠ 0 then f.l2.ethertype.setWidth 32
      else if f.ipv6.present then 0x86DD else 0x0800 : BitVec 32) &&& 0xFFFF =
      f.storedEt.setWidth 32 := by
  have het : (if f.l2.ethertype ≠ 0 then f.l2.ethertype.setWidth 32
      else if f.ipv6.present then 0x86DD else 0x0800 : BitVec 32) = f.storedEt.setWidth 32 := by
    rw [PwFlow.storedEt, setWidth_familyEt]
    by_cases he : f.l2.ethertype ≠ 0
    · rw [if_pos he, if_pos ⟨h2, he⟩]
    · rw [if_neg he, if_neg (fun h => he h.2)]
  rw [het]
  apply BitVec.eq_of_toNat_eq
  rw [BitVec.toNat_and, BitVec.toNat_setWidth]
  have hlt := f.storedEt.isLt
  rw [show (0xFFFF : BitVec 32).toNat = 2 ^ 16 - 1 by decide, Nat.and_two_pow_sub_one_eq_mod]
  omega

/-- **The words that the compiler stores.** -/
theorem pwFcHashWords_eq {f : PwFlow} (hf : f.Parsed) :
    pwFcHashWords f =
      keyWords f.storedDst f.storedSrc (if f.hasL4 then f.udp.srcPort else 0)
        (if f.hasL4 then f.udp.dstPort else 0)
        (if f.l2.vlanSet then f.l2.vlan.setWidth 12 else 0) f.storedEt f.keyProto := by
  have hproto : f.udp.l4Proto ≠ 0 := by
    rcases hf.l4Proto with h | h <;> rw [h] <;> decide
  funext i
  by_cases h2 : f.traffic.frameTemplate = .l2raw
  · have hl4 : f.hasL4 = false := by simp [PwFlow.hasL4, h2]
    have hdst : f.storedDst = 0 := by rw [PwFlow.storedDst, if_pos h2]
    have hsrc : f.storedSrc = 0 := by rw [PwFlow.storedSrc, if_pos h2]
    have hp : f.keyProto = 0 := by rw [PwFlow.keyProto, if_pos h2]
    rw [pwFcHashWords, if_pos h2, setWidth_storedEt f h2, hashVlan16_eq, shiftLeft_or_eq_append,
      hl4, hdst, hsrc, hp, if_neg Bool.false_ne_true, if_neg Bool.false_ne_true]
    fin_cases i <;> rfl
  · have hdst : f.storedDst =
        if f.ipv6.present then f.ipv6.dst else f.ipv4.dst.setWidth 128 := by
      rw [PwFlow.storedDst, if_neg h2, setWidth_eq_append 96]
    have hsrc : f.storedSrc =
        if f.ipv6.present then f.ipv6.src else f.ipv4.src.setWidth 128 := by
      rw [PwFlow.storedSrc, if_neg h2, setWidth_eq_append 96]
    have het : f.storedEt = PwFlow.familyEt f.ipv6.present := by
      rw [PwFlow.storedEt, if_neg (fun h => h2 h.1)]
    have hp : f.keyProto = f.udp.l4Proto := by rw [PwFlow.keyProto, if_neg h2]
    rw [pwFcHashWords, if_neg h2, hdst, hsrc, het, hp]
    simp only [setWidth_familyEt, hashVlan16_eq, shiftLeft_or_eq_append, if_pos hproto]
    fin_cases i
    case «8» =>
      change _ = keyWords _ _ _ _ _ _ _ 8
      rw [keyWords]
      cases ht : f.traffic.frameTemplate with
      | l2raw => exact absurd ht h2
      | test | l3raw | l4raw => simp [PwFlow.hasL4, ht]
    case «10» => exact setWidth_eq_append 24 _
    all_goals rfl

/-! ## Agreement under the mask -/

section Kept

variable {f : PwFlow} (hf : f.Parsed) (seq : BitVec 64)

include hf

/-- A kept bit of a word of the destination address. -/
theorem getLsbD_keyDst_of_kept {w : ℕ} {m : BitVec 32} {b : ℕ}
    (h : (relaxAddrWord f.ipv6.present f.mod.dstIpv4 f.mod.dstIpv6Mask f.matchIpv6DstSet
      f.matchIpv6DstMask w m).getLsbD b = true) :
    (f.keyDst seq).getLsbD (32 * w + b) = f.storedDst.getLsbD (32 * w + b) := by
  rw [PwFlow.keyDst, PwFlow.storedDst]
  split
  · rfl
  · exact getLsbD_addr_of_kept h hf.dstMask _ _ _ _

/-- A kept bit of a word of the source address. -/
theorem getLsbD_keySrc_of_kept {w : ℕ} {m : BitVec 32} {b : ℕ}
    (h : (relaxAddrWord f.ipv6.present f.mod.srcIpv4 f.mod.srcIpv6Mask f.matchIpv6SrcSet
      f.matchIpv6SrcMask w m).getLsbD b = true) :
    (f.keySrc seq).getLsbD (32 * w + b) = f.storedSrc.getLsbD (32 * w + b) := by
  rw [PwFlow.keySrc, PwFlow.storedSrc]
  split
  · rfl
  · exact getLsbD_addr_of_kept h hf.srcMask _ _ _ _

omit hf in
/-- A kept bit of the ports. -/
theorem getLsbD_ports_of_kept {m : BitVec 32} {b : ℕ} (h : (relaxPorts f m).getLsbD b = true) :
    (f.keySrcPort seq ++ f.keyDstPort seq).getLsbD b =
      ((if f.hasL4 then f.udp.srcPort else 0) ++
        (if f.hasL4 then f.udp.dstPort else 0)).getLsbD b := by
  obtain ⟨hdst, hsrc⟩ := clear_of_relaxPorts h
  rw [BitVec.getLsbD_append, BitVec.getLsbD_append, PwFlow.keySrcPort, PwFlow.keyDstPort]
  cases f.hasL4 with
  | false => rfl
  | true =>
    simp only [if_true]
    split
    · exact getLsbD_modified_of_clear (hdst ‹_›)
    · exact getLsbD_modified_of_clear (hsrc (by omega))

omit hf in
/-- A kept bit of the tag's half of word 9. -/
theorem getLsbD_vlan_of_kept {m : BitVec 32} {b : ℕ} (h : (relaxVlan f m).getLsbD b = true)
    (h16 : 16 ≤ b) (h28 : b < 28) :
    (if f.l2.vlanSet then f.vlanAt seq else 0).getLsbD (b - 16) =
      (if f.l2.vlanSet then f.l2.vlan.setWidth 12 else 0#12).getLsbD (b - 16) := by
  split
  · exact getLsbD_modified_of_clear (clear_of_relaxVlan h h16 h28)
  · rfl

/-- **Where the mask has a bit, a frame of the flow has the stored one**, but
for the EtherType. -/
theorem sentWords_eq_of_kept {i : Fin 11} {b : ℕ} (h : (keptBits f i).getLsbD b = true)
    (het : i = 9 → b < 16 → f.etAt.getLsbD b = f.storedEt.getLsbD b) :
    (sentWords f seq i).getLsbD b = (pwFcHashWords f i).getLsbD b := by
  have hb : b < 32 := BitVec.lt_of_getLsbD h
  rw [pwFcHashWords_eq hf, sentWords]
  match i with
  | 0 =>
    have hdst := getLsbD_keyDst_of_kept hf seq (w := 0) h
    simpa [keyWords, hb] using hdst
  | 1 =>
    have hdst := getLsbD_keyDst_of_kept hf seq (w := 1) h
    simpa [keyWords, hb] using hdst
  | 2 =>
    have hdst := getLsbD_keyDst_of_kept hf seq (w := 2) h
    simpa [keyWords, hb] using hdst
  | 3 =>
    have hdst := getLsbD_keyDst_of_kept hf seq (w := 3) h
    simpa [keyWords, hb] using hdst
  | 4 =>
    have hsrc := getLsbD_keySrc_of_kept hf seq (w := 0) h
    simpa [keyWords, hb] using hsrc
  | 5 =>
    have hsrc := getLsbD_keySrc_of_kept hf seq (w := 1) h
    simpa [keyWords, hb] using hsrc
  | 6 =>
    have hsrc := getLsbD_keySrc_of_kept hf seq (w := 2) h
    simpa [keyWords, hb] using hsrc
  | 7 =>
    have hsrc := getLsbD_keySrc_of_kept hf seq (w := 3) h
    simpa [keyWords, hb] using hsrc
  | 8 => exact getLsbD_ports_of_kept seq h
  | 9 =>
    simp only [keyWords, BitVec.getLsbD_append]
    by_cases h16 : b < 16
    · rw [if_pos h16, if_pos h16]
      exact het rfl h16
    · rw [if_neg h16, if_neg h16]
      by_cases h28 : b - 16 < 12
      · rw [if_pos h28, if_pos h28]
        exact getLsbD_vlan_of_kept seq h (by omega) (by omega)
      · rw [if_neg h28, if_neg h28]
  | 10 => rfl

/-- **A frame of the flow has the stored words under the mask exactly when it has
the stored EtherType.** -/
theorem words_eq_iff {M : KeyWords}
    (hkept : ∀ i b, (M i).getLsbD b = true → (keptBits f i).getLsbD b = true)
    (het : ∀ b < 16, (M 9).getLsbD b = true) :
    packWords (pwFcHashWords f) &&& packWords M = packWords (sentWords f seq) &&& packWords M ↔
      f.etAt = f.storedEt := by
  rw [packWords_and, packWords_and, packWords_inj]
  constructor
  · intro h
    apply BitVec.eq_of_getLsbD_eq
    intro b hb
    have hbit := congrArg (fun w : KeyWords => (w 9).getLsbD b) h
    simp only [BitVec.getLsbD_and, het b hb, Bool.and_true, pwFcHashWords_eq hf, sentWords, keyWords,
      BitVec.getLsbD_append, if_pos hb] at hbit
    exact hbit.symm
  · intro h
    funext i
    apply BitVec.eq_of_getLsbD_eq
    intro b hb
    rw [BitVec.getLsbD_and, BitVec.getLsbD_and]
    cases hm : (M i).getLsbD b with
    | false => rw [Bool.and_false, Bool.and_false]
    | true => rw [sentWords_eq_of_kept hf seq (hkept i b hm) (fun _ _ => by rw [h])]

omit hf in
/-- The stored EtherType is the one that is sent when a tunnel does not change
the family. -/
theorem etAt_eq_storedEt_iff
    (hraw : f.traffic.frameTemplate ≠ .test → f.encap.present = false) :
    f.etAt = f.storedEt ↔
      (f.encap.present = true → f.encap.outerIpv6.present = f.ipv6.present) := by
  rw [PwFlow.etAt, PwFlow.storedEt]
  cases hp : f.encap.present with
  | false => simp
  | true =>
    have ht : f.traffic.frameTemplate ≠ .l2raw := by
      rw [template_eq_test hraw hp]
      decide
    rw [if_pos rfl, if_neg (fun h => ht h.1)]
    cases f.encap.outerIpv6.present <;> cases f.ipv6.present <;> simp [PwFlow.familyEt]

end Kept

/-- No frame has EtherType 0. -/
theorem PwFlow.etAt_ne_zero (f : PwFlow) : f.etAt ≠ 0 := by
  have hfam : ∀ v6, PwFlow.familyEt v6 ≠ 0 := by decide
  rw [PwFlow.etAt]
  split
  · exact hfam _
  · split
    · rename_i h
      exact h.2
    · exact hfam _

/-! ## Compiled flows -/

/-- The lookup of a parsed frame hits with the slot `lfid`. -/
def HitsSlot {lfw : ℕ} (t : HashTables lfw) (o : ParserOut) (lfid : BitVec 32) : Prop :=
  o.keyValid = true ∧ ∃ l, t.lookup o.key = some l ∧ l.setWidth 32 = lfid

/-- A hit with a flow's slot is a key that has the flow's stored words. -/
theorem CompiledRx.hash_slot_iff {rx : List (PwFlow × PwFlowMeta)} {cp : PwCardProgram} {lfw : ℕ}
    (H : CompiledRx rx cp) (hfit : cp.flowRows.length ≤ 2 ^ lfw) {x : PwFlow × PwFlowMeta}
    (hx : x ∈ rx) (hh : x.1.classifyHeader = true) (k : PwMatchKey) :
    (∃ l, (cp.hashTables lfw).lookup k = some l ∧ l.setWidth 32 = x.2.rxLocalFlowId) ↔
      packWords (pwFcHashWords x.1) &&& packWords cp.hashMask =
        assemble k &&& packWords cp.hashMask := by
  constructor
  · intro h
    obtain ⟨l, hl, hslot⟩ := h
    obtain ⟨y, hy, -, hkey, hyl⟩ := H.hash_lookup_iff.mp hl
    rw [← hyl, setWidth_slot ((H.slots y hy).trans_le hfit)] at hslot
    rw [H.slot_inj y hy x hx hslot] at hkey
    exact hkey
  · intro hkey
    exact ⟨_, H.hash_lookup_iff.mpr ⟨x, hx, hh, hkey, rfl⟩,
      setWidth_slot ((H.slots x hx).trans_le hfit)⟩

/-- The mask of a card leaves no bit that a header-classified flow of the card
takes out, and all bits of the EtherType. -/
theorem hashMask_kept {cfg : PwConfig} {c : BitVec 16} {f : PwFlow} (hf : f ∈ cfg.flows)
    (hrelax : relaxesCard cfg c f = true) :
    (∀ i b, (cardHashMask cfg c i).getLsbD b = true → (keptBits f i).getLsbD b = true) ∧
      ∀ b < 16, (cardHashMask cfg c 9).getLsbD b = true := by
  constructor
  · intro i b h
    rw [getLsbD_cardHashMask cfg c i (BitVec.lt_of_getLsbD h), List.all_eq_true] at h
    exact h f (List.mem_filter.mpr ⟨hf, hrelax⟩)
  · intro b hb
    rw [getLsbD_cardHashMask cfg c 9 (by omega), List.all_eq_true]
    intro g _
    exact getLsbD_relaxVlan_low hb

section Compiled

variable {cfg : PwConfig} {p : PwProgram} (h : pwFlowCompile cfg = .ok p) {i : ℕ} {f : PwFlow}
  (hf : cfg.flows[i]? = some f) {m : PwFlowMeta} (hm : p.flowMeta[i]? = some m)

include h hf hm

/-- The receive card of a flow has a program, and the flow is among those that
narrow its mask. -/
theorem exists_rxCard : ∃ cp, cardSlot p m.rxCardId = some cp ∧
    (f.classifyHeader = true → relaxesCard cfg cp.cardId f = true) := by
  obtain ⟨-, hids, mid, hflows, hmeta, -⟩ := pwFlowCompile_spec h
  have hzip : (f, m) ∈ cfg.flows.zip mid.flowMeta := by
    apply List.mem_of_getElem? (i := i)
    rw [List.getElem?_zip_eq_some, ← hmeta]
    exact ⟨hf, hm⟩
  obtain ⟨ref, href, hcard⟩ := rxCardId_flows hflows (f, m) hzip
  obtain ⟨cp, hcp⟩ := exists_cardSlot_of_resolve cfg hids href
  have hid : cp.cardId = ref.cardId := cardId_of_cardSlot cp hcp
  exact ⟨cp, hcard ▸ hcp, fun hh => by simp [relaxesCard, hh, href, hid]⟩

/-- **When a frame of the flow hits the flow's slot.** -/
theorem hitsSlot_iff_of_sent (hparsed : f.Parsed) (hbg : f.background = false)
    (hh : f.classifyHeader = true) {cp : PwCardProgram}
    (hcp : cardSlot p m.rxCardId = some cp) {lfw : ℕ} (hfit : cp.flowRows.length ≤ 2 ^ lfw)
    {seq : BitVec 64} {frame : List Byte} (hsent : Sent f seq frame) (old : Window)
    (port : BitVec 4) :
    HitsSlot (cp.hashTables lfw) (parseFrame old ⟨port, frame⟩) m.rxLocalFlowId ↔
      (f.encap.present = true → f.encap.outerIpv6.present = f.ipv6.present) ∧ ¬f.FakesTag := by
  obtain ⟨S⟩ := pwFlowCompile_eq_ok_iff.mp h
  have hmem : f ∈ cfg.flows := List.mem_of_getElem? hf
  have hraw := fun ht => ((S.valid.flow f hmem).raw ht).2.2
  rw [HitsSlot]
  by_cases hfake : f.FakesTag
  · rw [not_keyValid_of_fakesTag hsent hraw hfake old port]
    simp [hfake]
  · obtain ⟨cp', hcp', hrelax⟩ := exists_rxCard h hf hm
    obtain rfl := Option.some.inj (hcp.symm.trans hcp')
    have hcpMem : cp ∈ p.perCard := List.mem_of_find?_eq_some hcp
    have hmask : cp.hashMask = cardHashMask cfg cp.cardId :=
      hashMask_of_compile S hcpMem ⟨f, hmem, by simp [measuredHeader, hbg, hrelax hh]⟩
    obtain ⟨hkept, hlow⟩ := hashMask_kept hmem (hrelax hh)
    have hrx : (f, m) ∈ received cfg.flows p.flowMeta cp.cardId := by
      refine mem_received.mpr ⟨?_, hbg, (cardId_of_cardSlot cp hcp).symm⟩
      apply List.mem_of_getElem? (i := i)
      rw [List.getElem?_zip_eq_some]
      exact ⟨hf, hm⟩
    obtain ⟨hkv, hkey⟩ := keyOf_parseFrame hsent hparsed hraw hfake f.etAt_ne_zero old port
    have hslot := (compiledRx_of_compile h hcpMem).hash_slot_iff hfit hrx hh
      (parseFrame old ⟨port, frame⟩).key
    rw [hslot, assemble, assembleWords_eq hkey, hmask, words_eq_iff hparsed seq hkept hlow,
      etAt_eq_storedEt_iff hraw]
    simp [hkv, hfake]

end Compiled

/-- **Which header-classified flows receive their own frames.**  In a
configuration that is parsed and compiles, a frame that the generator builds
from the row of a measured, header-classified flow, for every sequence number,
time stamp and length of the sweep, and whatever the parser's window held
before, is a hit on the flow's receive card with the flow's own slot exactly
when a tunnel of the flow has the family of its inner header and the flow is not
a raw one that fakes a tag. -/
theorem own_frame_hit_iff {cfg : PwConfig} {p : PwProgram} (hcfg : cfg.Parsed)
    (h : pwFlowCompile cfg = .ok p) {i : ℕ} {f : PwFlow} (hf : cfg.flows[i]? = some f)
    (hbg : f.background = false) (hh : f.classifyHeader = true) :
    ∃ m row cp, p.flowMeta[i]? = some m ∧ p.txRowOf m = some row ∧
      cardSlot p m.rxCardId = some cp ∧
      ∀ lfw, cp.flowRows.length ≤ 2 ^ lfw →
        ∀ (old : Window) (port : BitVec 4) (seq ts : BitVec 64) (cur : BitVec 16),
          HitsSlot (cp.hashTables lfw)
              (parseFrame old ⟨port, genFrame (pwDecodeFlowRow row.byte) seq ts cur⟩)
              m.rxLocalFlowId ↔
            (f.encap.present = true → f.encap.outerIpv6.present = f.ipv6.present) ∧
              ¬f.FakesTag := by
  obtain ⟨hparsed, hraw, m, row, hm, hrow, hr⟩ := exists_rowOf_of_compile hcfg h hf
  obtain ⟨cp, hcp, -⟩ := exists_rxCard h hf hm
  refine ⟨m, row, cp, hm, hrow, hcp, ?_⟩
  intro lfw hfit old port seq ts cur
  have hsent : Sent f seq (genFrame _ seq ts cur) := sent_genFrame hr hparsed hraw cur
  exact hitsSlot_iff_of_sent h hf hm hparsed hbg hh hcp hfit hsent old port

/-- The conditions at a sample flow, with a slot register of five bits. -/
theorem own_frame_hit_sample :
    ∃ p m row cp, pwFlowCompile sampleHeaderConfig = .ok p ∧ p.flowMeta[0]? = some m ∧
      p.txRowOf m = some row ∧ cardSlot p m.rxCardId = some cp ∧ cp.flowRows.length ≤ 2 ^ 5 ∧
      ∀ (old : Window) (port : BitVec 4) (seq ts : BitVec 64) (cur : BitVec 16),
        HitsSlot (cp.hashTables 5)
          (parseFrame old ⟨port, genFrame (pwDecodeFlowRow row.byte) seq ts cur⟩)
          m.rxLocalFlowId := by
  obtain ⟨p, hp, hrows⟩ := exists_of_okAnd
    (show okAnd (pwFlowCompile sampleHeaderConfig)
      (fun p => p.perCard.all fun cp => decide (cp.flowRows.length ≤ 2 ^ 5)) = true by
        decide +kernel)
  obtain ⟨m, row, cp, hm, hrow, hcp, hhit⟩ := own_frame_hit_iff parsed_sampleHeaderConfig hp
    (i := 0) (f := sampleHeaderFlow 1 0x0A000002) rfl rfl rfl
  have hfit : cp.flowRows.length ≤ 2 ^ 5 :=
    of_decide_eq_true (List.all_eq_true.mp hrows cp (List.mem_of_find?_eq_some hcp))
  refine ⟨p, m, row, cp, hp, hm, hrow, hcp, hfit, ?_⟩
  intro old port seq ts cur
  exact (hhit 5 hfit old port seq ts cur).mpr (by decide)

/-- A sample flow of IPv6 packets in an IPv4 tunnel. -/
def sampleTunnelFlow : PwFlow :=
  { sampleHeaderFlow 1 0x0A000002 with
    ipv4 := {}
    ipv6 := { present := true, src := 0x20010DB8000000000000000000000001
              dst := 0x20010DB8000000000000000000000002, hopLimit := 64 }
    encap := { present := true, type := .ipip
               outerIpv4 := { present := true, src := 0x0A000001, dst := 0x0A000002, ttl := 64 } }
    rxExpect := .tunneled }

/-- A configuration with that flow alone. -/
def sampleTunnelConfig : PwConfig := { cards := [sampleCard], flows := [sampleTunnelFlow] }

/-- **A tunnel of the other family hides the flow from its own entry.**  No frame
of the flow hits its slot. -/
theorem tunnel_frame_missed :
    sampleTunnelConfig.Parsed ∧ ∃ p m row cp, pwFlowCompile sampleTunnelConfig = .ok p ∧
      p.flowMeta[0]? = some m ∧ p.txRowOf m = some row ∧ cardSlot p m.rxCardId = some cp ∧
      cp.flowRows.length ≤ 2 ^ 5 ∧
      ¬HitsSlot (cp.hashTables 5)
        (parseFrame (fun _ => 0) ⟨1, genFrame (pwDecodeFlowRow row.byte) 0 0 0⟩)
        m.rxLocalFlowId := by
  have hflow : sampleTunnelFlow.Parsed := by
    constructor <;>
      simp [sampleTunnelFlow, sampleHeaderFlow, PwFlowTraffic.lenLo, PwFlowTraffic.lenHi]
  have hparsed : sampleTunnelConfig.Parsed := hflow.singleton rfl
  obtain ⟨p, hp, hrows⟩ := exists_of_okAnd
    (show okAnd (pwFlowCompile sampleTunnelConfig)
      (fun p => p.perCard.all fun cp => decide (cp.flowRows.length ≤ 2 ^ 5)) = true by
        decide +kernel)
  have hf : sampleTunnelConfig.flows[0]? = some sampleTunnelFlow := rfl
  obtain ⟨-, hraw, m, row, hm, hrow, hr⟩ := exists_rowOf_of_compile hparsed hp hf
  obtain ⟨cp, hcp, -⟩ := exists_rxCard hp hf hm
  have hfit : cp.flowRows.length ≤ 2 ^ 5 :=
    of_decide_eq_true (List.all_eq_true.mp hrows cp (List.mem_of_find?_eq_some hcp))
  have hsent : Sent sampleTunnelFlow 0 (genFrame _ 0 0 0) := sent_genFrame hr hflow hraw 0
  refine ⟨hparsed, p, m, row, cp, hp, hm, hrow, hcp, hfit, ?_⟩
  rw [hitsSlot_iff_of_sent hp hf hm hflow rfl rfl hcp hfit hsent (fun _ => 0) 1]
  decide

end PacketWyrm
