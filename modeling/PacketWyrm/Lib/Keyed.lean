import Mathlib.Data.List.Forall2
import Mathlib.Data.List.Nodup
import Mathlib.Tactic.Common

/-!
# Records found by their key

A list of records, each with a key, searched from the front: `find?` is the
search, `modifyKey` the update of the record that the search finds.

## Main results

* `find?_modifyKey` — an update is seen at its own key and at no other.
* `map_key_modifyKey` — an update that keeps keys keeps all of them.
-/

namespace PacketWyrm.Lib

variable {κ α : Type} [DecidableEq κ] {key : α → κ} {f : α → α}

/-- Replace the first record whose key is `k`. -/
def modifyKey (key : α → κ) (k : κ) (f : α → α) : List α → List α
  | [] => []
  | x :: xs => if key x = k then f x :: xs else x :: modifyKey key k f xs

/-- An update that keeps the key it is made at keeps the list of keys. -/
theorem map_key_modifyKey {k : κ} (hf : ∀ x, key x = k → key (f x) = k) (l : List α) :
    (modifyKey key k f l).map key = l.map key := by
  induction l with
  | nil => rfl
  | cons x xs ih =>
    by_cases h : key x = k
    · simp [modifyKey, h, hf x h]
    · simp [modifyKey, h, ih]

/-- **The frame law of keyed updates**: the record of the updated key changes,
every other search sees what it saw before. -/
theorem find?_modifyKey {k : κ} (hf : ∀ x, key x = k → key (f x) = k) (k' : κ) (l : List α) :
    (modifyKey key k f l).find? (fun x => key x == k') =
      if k' = k then (l.find? (fun x => key x == k')).map f
      else l.find? (fun x => key x == k') := by
  induction l with
  | nil => simp [modifyKey]
  | cons x xs ih =>
    by_cases hx : key x = k
    · by_cases hk : k' = k
      · simp [modifyKey, hx, hk, hf x hx]
      · have hk' : ¬k = k' := fun h => hk h.symm
        simp [modifyKey, hx, hk, hf x hx, hk']
    · by_cases hk' : key x = k'
      · have hkk : ¬k' = k := fun h => hx (hk'.trans h)
        simp [modifyKey, hk', hkk]
      · simp [modifyKey, hx, hk', ih]

/-- With distinct keys, the search finds every record of the list. -/
theorem find?_eq_some_iff_mem {l : List α} (h : (l.map key).Nodup) {k : κ} {x : α} :
    l.find? (fun y => key y == k) = some x ↔ x ∈ l ∧ key x = k := by
  constructor
  · intro hx
    exact ⟨List.mem_of_find?_eq_some hx, by simpa using List.find?_some hx⟩
  · rintro ⟨hx, rfl⟩
    induction l with
    | nil => simp at hx
    | cons y ys ih =>
      rw [List.map_cons, List.nodup_cons] at h
      rcases List.mem_cons.mp hx with rfl | hx
      · simp
      · have hne : ¬key y = key x := fun he => h.1 (he ▸ List.mem_map_of_mem hx)
        simp [hne, ih h.2 hx]

/-- Elements with pairwise different keys are known by their keys. -/
theorem eq_of_pairwise_key_ne {α κ : Type} (key : α → κ) {l : List α}
    (h : l.Pairwise fun x y => key x ≠ key y) {x y : α} (hx : x ∈ l) (hy : y ∈ l)
    (hk : key x = key y) : x = y :=
  List.inj_on_of_nodup_map (List.pairwise_map.mpr h) hx hy hk

/-- Two lists with the same keys are related position by position when their
records of one key are. -/
theorem forall₂_of_find? {α κ : Type} [DecidableEq κ] (key : α → κ) {R : α → α → Prop}
    {l l' : List α} (hkeys : l'.map key = l.map key) (hnodup : (l.map key).Nodup)
    (h : ∀ k x, l.find? (fun y => key y == k) = some x →
      ∃ x', l'.find? (fun y => key y == k) = some x' ∧ R x x') :
    List.Forall₂ R l l' := by
  have hlen : l.length = l'.length := by simpa using (congrArg List.length hkeys).symm
  rw [List.forall₂_iff_get]
  refine ⟨hlen, fun i hi hi' => ?_⟩
  obtain ⟨x', hx', hR⟩ := h (key (l.get ⟨i, hi⟩)) (l.get ⟨i, hi⟩)
    ((find?_eq_some_iff_mem hnodup).mpr ⟨List.get_mem _ _, rfl⟩)
  have hkey : key (l'.get ⟨i, hi'⟩) = key (l.get ⟨i, hi⟩) := by
    have := congrArg (fun m => m[i]?) hkeys
    simpa [hi, hi'] using this
  have hmem := (find?_eq_some_iff_mem (hkeys ▸ hnodup)).mpr
    ⟨List.get_mem l' ⟨i, hi'⟩, hkey⟩
  obtain rfl := Option.some.inj (hmem.symm.trans hx')
  exact hR

end PacketWyrm.Lib
