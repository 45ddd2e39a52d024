import Mathlib.Algebra.Order.BigOperators.Group.Finset
import Mathlib.Algebra.Order.Ring.Abs
import Mathlib.Algebra.Ring.Int.Parity
import Mathlib.Data.Finset.Powerset
import Mathlib.Data.Finset.Prod
import Mathlib.Data.Int.GCD
import Mathlib.Data.Int.ModEq
import Mathlib.RingTheory.Coprime.Lemmas
import Mathlib.Algebra.GroupWithZero.Associated
import Mathlib.Data.Nat.Factorization.Basic
import Mathlib.Tactic.Common
import Mathlib.Tactic.Ring
import Mathlib.Tactic.Linarith
import Mathlib.Tactic.LinearCombination

/-!
# Multiply-shift hashing

A key is multiplied by an odd seed modulo a power of two, and the high bits of the product
are its bucket.  Two keys share a bucket under few seeds only, so few keys have a seed under
which none of them do.

## Main definitions

* `mulShift` — the bucket of a key under a seed, `oddSeeds` — the seeds.

## Main results

* `card_collide_le` — the family is almost universal.
* `exists_injOn_mulShift` — a seed without collisions.
-/

namespace PacketWyrm.Lib

/-- The product with the seed modulo `2 ^ w`, without its low `m` bits. -/
def mulShift (w m a s : ℕ) : ℕ := a * s % 2 ^ w / 2 ^ m

/-- Of a multiple of `2 ^ t` the low `t` bits stay zero. -/
theorem mulShift_mul_two_pow (w m t a s : ℕ) :
    mulShift (w + t) (m + t) (a * 2 ^ t) s = mulShift w m a s := by
  have hprod : a * 2 ^ t * s = a * s * 2 ^ t := by ring
  rw [mulShift, mulShift, hprod, pow_add, pow_add, Nat.mul_mod_mul_right,
    Nat.mul_div_mul_right _ _ (Nat.two_pow_pos t)]

/-- Only the low `w` bits of a seed matter. -/
theorem mulShift_mod (w m a s : ℕ) : mulShift w m a (s % 2 ^ w) = mulShift w m a s := by
  rw [mulShift, mulShift, Nat.mul_mod_mod]

/-- The odd numbers below `2 ^ (w + 1)`. -/
def oddSeeds (w : ℕ) : Finset ℕ := (Finset.range (2 ^ w)).image fun k => 2 * k + 1

theorem card_oddSeeds (w : ℕ) : (oddSeeds w).card = 2 ^ w := by
  rw [oddSeeds, Finset.card_image_of_injective, Finset.card_range]
  intro k l h
  dsimp only at h
  omega

theorem mem_oddSeeds {w s : ℕ} : s ∈ oddSeeds w ↔ s % 2 = 1 ∧ s < 2 ^ (w + 1) := by
  rw [oddSeeds, Finset.mem_image]
  constructor
  · rintro ⟨k, hk, rfl⟩
    rw [Finset.mem_range] at hk
    omega
  · rintro ⟨hodd, hlt⟩
    exact ⟨s / 2, Finset.mem_range.mpr (by omega), by omega⟩

/-- The seeds under which two keys share a bucket. -/
def collide (w m a b : ℕ) : Finset ℕ :=
  (oddSeeds w).filter fun s => mulShift (w + 1) m a s = mulShift (w + 1) m b s

theorem collide_comm (w m a b : ℕ) : collide w m a b = collide w m b a := by
  simp only [collide, eq_comm]

/-- The difference of the products of two keys. -/
def productGap (w a b s : ℕ) : ℤ := (a * s % 2 ^ w : ℕ) - (b * s % 2 ^ w : ℕ)

/-- Products in one bucket differ by less than its size. -/
theorem abs_productGap_lt {w m a b s : ℕ} (h : mulShift w m a s = mulShift w m b s) :
    |productGap w a b s| < 2 ^ m := by
  have hx := Nat.div_add_mod (a * s % 2 ^ w) (2 ^ m)
  have hy := Nat.div_add_mod (b * s % 2 ^ w) (2 ^ m)
  have hxlt := Nat.mod_lt (a * s % 2 ^ w) (Nat.two_pow_pos m)
  have hylt := Nat.mod_lt (b * s % 2 ^ w) (Nat.two_pow_pos m)
  rw [mulShift, mulShift] at h
  rw [h] at hx
  have hcast : ((2 ^ m : ℕ) : ℤ) = 2 ^ m := by push_cast; rfl
  rw [productGap, abs_lt, ← hcast]
  omega

/-- The products differ by the multiple of the difference of the keys. -/
theorem dvd_mul_sub_productGap {a b : ℕ} (w s : ℕ) (hle : b ≤ a) :
    (2 ^ w : ℤ) ∣ ((a - b : ℕ) : ℤ) * s - productGap w a b s := by
  have hmod : ∀ x : ℕ, (2 ^ w : ℤ) ∣ (x : ℤ) - (x % 2 ^ w : ℕ) := by
    intro x
    rw [← Nat.cast_sub (Nat.mod_le _ _)]
    exact_mod_cast Nat.dvd_sub_mod x
  have hsub := dvd_sub (hmod (a * s)) (hmod (b * s))
  have heq : ((a - b : ℕ) : ℤ) * s - productGap w a b s =
      (((a * s : ℕ) : ℤ) - (a * s % 2 ^ w : ℕ)) - (((b * s : ℕ) : ℤ) - (b * s % 2 ^ w : ℕ)) := by
    rw [productGap, Nat.cast_sub hle]
    push_cast
    ring
  rw [heq]
  exact hsub

/-- The difference of the products of keys that differ by an odd multiple of `2 ^ t`. -/
theorem productGap_eq {w a b s t u : ℕ} (hle : b ≤ a) (hd : a - b = 2 ^ t * u) (ht : t ≤ w)
    (hu : Odd u) (hs : s % 2 = 1) :
    ∃ o : ℤ, productGap (w + 1) a b s = 2 ^ t * o ∧ Odd o ∧ (2 ^ (w + 1 - t) : ℤ) ∣ u * s - o := by
  have hdvd := dvd_mul_sub_productGap (w + 1) s hle
  have hsplit : (2 ^ (w + 1) : ℤ) = 2 ^ t * 2 ^ (w + 1 - t) := by
    rw [← pow_add]
    congr 1
    omega
  obtain ⟨q, hq⟩ := hdvd
  rw [hd] at hq
  push_cast at hq
  refine ⟨u * s - 2 ^ (w + 1 - t) * q, ?_, ?_, ⟨q, by ring⟩⟩
  · rw [hsplit] at hq
    linear_combination -hq
  · have hprod : Odd ((u : ℤ) * s) := by
      have hs' : Odd s := Nat.odd_iff.mpr hs
      exact_mod_cast hu.mul hs'
    have heven : Even ((2 : ℤ) ^ (w + 1 - t) * q) :=
      (even_two.pow_of_ne_zero (by omega)).mul_right q
    exact hprod.sub_even heven

/-- The odd numbers between `-2 ^ n` and `2 ^ n`, `n` not zero, are `2 ^ n` many. -/
def oddGaps (n : ℕ) : Finset ℤ := (Finset.range (2 ^ n)).image fun k : ℕ => 2 * (k : ℤ) + 1 - 2 ^ n

theorem card_oddGaps_le (n : ℕ) : (oddGaps n).card ≤ 2 ^ n :=
  Finset.card_image_le.trans (Finset.card_range _).le

theorem mem_oddGaps {n : ℕ} {o : ℤ} (hn : n ≠ 0) (ho : Odd o) (hlt : |o| < 2 ^ n) :
    o ∈ oddGaps n := by
  have heven : Even ((2 : ℤ) ^ n) := even_two.pow_of_ne_zero hn
  obtain ⟨k, hk⟩ := ho.add_even heven
  have hcast : ((2 ^ n : ℕ) : ℤ) = 2 ^ n := by push_cast; rfl
  rw [abs_lt] at hlt
  rw [oddGaps, Finset.mem_image]
  refine ⟨k.toNat, ?_, ?_⟩
  · rw [Finset.mem_range]
    omega
  · omega

/-- An odd multiple of `2 ^ t` is smaller than a bucket only if `t < m`. -/
theorem lt_of_odd_mul {t m : ℕ} {o : ℤ} (hodd : Odd o) (h : |2 ^ t * o| < 2 ^ m) :
    t < m ∧ |o| < 2 ^ (m - t) := by
  have hone : 1 ≤ |o| := Int.one_le_abs (by rintro rfl; simp at hodd)
  have hpos : (0 : ℤ) < 2 ^ t := by positivity
  rw [abs_mul, abs_of_pos hpos] at h
  have htm : t < m := by
    by_contra hge
    have hpow : (2 : ℤ) ^ m ≤ 2 ^ t := pow_le_pow_right₀ (by norm_num) (by omega)
    nlinarith
  refine ⟨htm, lt_of_mul_lt_mul_left ?_ hpos.le⟩
  rwa [← pow_add, Nat.add_sub_cancel' htm.le]

/-- An odd multiple of a seed determines its low bits. -/
theorem seed_unique {n u s s' : ℕ} {o : ℤ} (hu : Odd u) (h : (2 ^ n : ℤ) ∣ u * s - o)
    (h' : (2 ^ n : ℤ) ∣ u * s' - o) (hq : s / 2 ^ n = s' / 2 ^ n) : s = s' := by
  have hsub : (2 ^ n : ℤ) ∣ u * ((s : ℤ) - s') := by
    have := dvd_sub h h'
    rwa [sub_sub_sub_cancel_right, ← mul_sub] at this
  have hcop : IsCoprime (2 ^ n : ℤ) u := by
    have hodd : ¬ 2 ∣ u := Nat.two_dvd_ne_zero.mpr (Nat.odd_iff.mp hu)
    have hnat : Nat.Coprime (2 ^ n) u :=
      Nat.Coprime.pow_left n ((Nat.Prime.coprime_iff_not_dvd Nat.prime_two).mpr hodd)
    exact_mod_cast Nat.isCoprime_iff_coprime.mpr hnat
  have hmod : s' ≡ s [MOD 2 ^ n] := by
    rw [Nat.modEq_iff_dvd]
    exact_mod_cast hcop.dvd_of_dvd_mul_left hsub
  rw [← Nat.div_add_mod s (2 ^ n), ← Nat.div_add_mod s' (2 ^ n), hq, hmod]

/-- **Two keys share a bucket under few seeds.**  The difference of the keys is an odd multiple
of `2 ^ t`; the difference of the products is too, and with the high bits of the seed it
determines the seed. -/
theorem card_collide_le {w m a b : ℕ} (ha : a < 2 ^ (w + 1)) (hlt : b < a) :
    (collide w m a b).card ≤ 2 ^ m := by
  obtain ⟨t, u, hu, hd⟩ := Nat.exists_eq_two_pow_mul_odd (n := a - b) (by omega)
  have ht : t ≤ w := by
    by_contra hge
    have hpow : 2 ^ (w + 1) ≤ 2 ^ t := Nat.pow_le_pow_right (by decide) (by omega)
    have hone : 2 ^ t * 1 ≤ 2 ^ t * u := Nat.mul_le_mul_left _ hu.pos
    omega
  have hoff : ∀ s ∈ collide w m a b, t < m ∧ ∃ o : ℤ, productGap (w + 1) a b s / 2 ^ t = o ∧
      o ∈ oddGaps (m - t) ∧ (2 ^ (w + 1 - t) : ℤ) ∣ u * s - o := by
    intro s hs
    rw [collide, Finset.mem_filter, mem_oddSeeds] at hs
    obtain ⟨o, ho, hodd, hdvd⟩ := productGap_eq hlt.le hd ht hu hs.1.1
    have hsmall := abs_productGap_lt hs.2
    rw [ho] at hsmall
    obtain ⟨htm, habs⟩ := lt_of_odd_mul hodd hsmall
    refine ⟨htm, o, ?_, mem_oddGaps (by omega) hodd habs, hdvd⟩
    rw [ho, Int.mul_ediv_cancel_left _ (by positivity)]
  -- the seed is found again from the difference and the high bits
  have hcard : (collide w m a b).card ≤ (oddGaps (m - t) ×ˢ Finset.range (2 ^ t)).card := by
    apply Finset.card_le_card_of_injOn fun s => (productGap (w + 1) a b s / 2 ^ t, s / 2 ^ (w + 1 - t))
    · intro s hs
      obtain ⟨-, o, ho, hmem, -⟩ := hoff s hs
      have hlow : s < 2 ^ (w + 1) := (mem_oddSeeds.mp (Finset.mem_filter.mp hs).1).2
      have hhigh : s / 2 ^ (w + 1 - t) < 2 ^ t := by
        apply Nat.div_lt_of_lt_mul
        rwa [← pow_add, Nat.sub_add_cancel (by omega)]
      rw [← ho] at hmem
      exact Finset.mem_product.mpr ⟨hmem, Finset.mem_range.mpr hhigh⟩
    · intro s hs s' hs' heq
      obtain ⟨-, o, ho, -, hdvd⟩ := hoff s hs
      obtain ⟨-, o', ho', -, hdvd'⟩ := hoff s' hs'
      obtain ⟨h₁, h₂⟩ := Prod.mk.inj heq
      rw [ho, ho'] at h₁
      subst h₁
      exact seed_unique hu hdvd hdvd' h₂
  rcases (collide w m a b).eq_empty_or_nonempty with hempty | ⟨s, hs⟩
  · rw [hempty, Finset.card_empty]
    exact Nat.zero_le _
  · calc (collide w m a b).card
        ≤ (oddGaps (m - t)).card * (Finset.range (2 ^ t)).card := by
          rwa [Finset.card_product] at hcard
      _ ≤ 2 ^ (m - t) * 2 ^ t := by
          rw [Finset.card_range]
          exact Nat.mul_le_mul_right _ (card_oddGaps_le _)
      _ = 2 ^ m := by rw [← pow_add, Nat.sub_add_cancel (hoff s hs).1.le]

/-- **Few keys have a seed without collisions.** -/
theorem exists_injOn_mulShift {w m : ℕ} {K : Finset ℕ} (hK : ∀ a ∈ K, a < 2 ^ (w + 1))
    (hfew : K.card.choose 2 * 2 ^ m < 2 ^ w) :
    ∃ s ∈ oddSeeds w, Set.InjOn (fun a => mulShift (w + 1) m a s) K := by
  by_contra hnone
  -- every seed has two keys that share a bucket
  have hcover : oddSeeds w ⊆ (K.powersetCard 2).biUnion fun T =>
      (oddSeeds w).filter fun s => ¬ Set.InjOn (fun a => mulShift (w + 1) m a s) T := by
    intro s hs
    have hnot : ¬ Set.InjOn (fun a => mulShift (w + 1) m a s) K := fun h => hnone ⟨s, hs, h⟩
    simp only [Set.InjOn, not_forall] at hnot
    obtain ⟨a, ha, b, hb, heq, hne⟩ := hnot
    rw [Finset.mem_biUnion]
    refine ⟨{a, b}, ?_, ?_⟩
    · rw [Finset.mem_powersetCard, Finset.card_pair hne]
      exact ⟨by simp [Finset.insert_subset_iff, Finset.mem_coe.mp ha, Finset.mem_coe.mp hb], rfl⟩
    · rw [Finset.mem_filter]
      exact ⟨hs, fun h => hne (h (by simp) (by simp) heq)⟩
  have hpair : ∀ T ∈ K.powersetCard 2, ((oddSeeds w).filter fun s =>
      ¬ Set.InjOn (fun a => mulShift (w + 1) m a s) T).card ≤ 2 ^ m := by
    intro T hT
    rw [Finset.mem_powersetCard, Finset.card_eq_two] at hT
    obtain ⟨hsub, a, b, hne, rfl⟩ := hT
    have heq : ((oddSeeds w).filter fun s =>
        ¬ Set.InjOn (fun a => mulShift (w + 1) m a s) ({a, b} : Finset ℕ)) = collide w m a b := by
      apply Finset.filter_congr
      intro s _
      rw [Finset.coe_pair, Set.injOn_pair]
      tauto
    rw [heq]
    have ha := hK a (hsub (by simp))
    have hb := hK b (hsub (by simp))
    rcases Nat.lt_or_gt_of_ne hne with hlt | hlt
    · rw [collide_comm]
      exact card_collide_le hb hlt
    · exact card_collide_le ha hlt
  have hle := (Finset.card_le_card hcover).trans (Finset.card_biUnion_le_card_mul _ _ _ hpair)
  rw [card_oddSeeds, Finset.card_powersetCard] at hle
  omega

end PacketWyrm.Lib
