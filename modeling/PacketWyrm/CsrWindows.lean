import PacketWyrm.Programming

/-!
# The windows of the register map

Every table of the card is programmed through a window of its own.  Here are the windows with their
bounds, and the window that each write of a program goes to.

## Main definitions

* `CsrWindow` — the windows; `CsrWindow.Has` — a word at an offset lies in the window.

## Main results

* `CsrWindow.eq_of_has` — no word lies in two windows.
* `has_of_mem_mapWrites` and its siblings — the writes of a program keep to their windows.
-/

namespace PacketWyrm

open Lib CsrState

/-- The windows, and the blocks of registers beside them, that the tables are programmed and the
counters are read through. -/
inductive CsrWindow where
  | identity
  | flowidMap
  | fcCmp
  | fcUdf
  | fcRule
  | hashMask
  | hashSeed
  | fcHash
  | flowTable
  | histogram
  | statsSnapshot
  deriving DecidableEq, Repr

namespace CsrWindow

/-- The first offset of a window. -/
def first : CsrWindow → ℕ
  | identity => 0x0000
  | flowidMap => winFlowidMap
  | fcCmp => winFcCmp
  | fcUdf => winFcUdf
  | fcRule => winFcRule
  | hashMask => winHashMask
  | hashSeed => regHashSeed
  | fcHash => winFcHash
  | flowTable => winFlowTable
  | histogram => 0xA000
  | statsSnapshot => 0xC000

/-- The first offset past a window: past its last row, where the rows do not fill it. -/
def past : CsrWindow → ℕ
  | identity => 0x0028
  | flowidMap => 0x0800
  | fcCmp => winFcCmp + numCmp * 16
  | fcUdf => winFcUdf + numUdf * 16
  | fcRule => winFcRule + numRule * 16
  | hashMask => winHashMask + hashKeyWords * 4
  | hashSeed => 0x3000
  | fcHash => 0x5000
  | flowTable => 0xA000
  | histogram => 0xC000
  | statsSnapshot => 0x10000

/-- The four bytes at an offset lie in the window. -/
structure Has (w : CsrWindow) (off : ℕ) : Prop where
  le : w.first ≤ off
  lt : off + 4 ≤ w.past

/-- **No word lies in two windows.** -/
theorem eq_of_has {w w' : CsrWindow} {off : ℕ} (h : w.Has off) (h' : w'.Has off) : w = w' := by
  have hle := h.le
  have hlt := h.lt
  have hle' := h'.le
  have hlt' := h'.lt
  have hsep : ∀ a b : CsrWindow, a ≠ b → a.past ≤ b.first ∨ b.past ≤ a.first := by
    intro a b
    cases a <;> cases b <;> decide
  by_contra hne
  rcases hsep w w' hne with hs | hs <;> omega

/-- The windows fill 64 KB. -/
theorem past_le (w : CsrWindow) : w.past ≤ 0x10000 := by
  cases w <;> decide

end CsrWindow

/-! ## The writes of a program -/

theorem mem_inWindow {base : ℕ} {l : List (ℕ × BitVec 32)} {w : CsrWrite}
    (h : w ∈ inWindow base l) : ∃ x ∈ l, w.addr = base + x.1 := by
  obtain ⟨x, hx, rfl⟩ := List.mem_map.mp h
  exact ⟨x, hx, rfl⟩

section Windows

variable {w : CsrWrite}

theorem has_of_mem_mapWrites {entries : List PwFlowidMapEntry}
    (h : ∀ m ∈ entries, m.flowId.toNat < 256) (hw : w ∈ mapWrites entries) :
    CsrWindow.flowidMap.Has w.addr := by
  obtain ⟨x, hx, hwx⟩ := mem_inWindow hw
  have hoff : ∃ i < 256, x.1 = i * 4 := by
    rw [List.mem_append, List.mem_map, List.mem_map] at hx
    rcases hx with ⟨i, -, rfl⟩ | ⟨m, hm, rfl⟩
    · exact ⟨i.val, i.isLt, rfl⟩
    · exact ⟨m.flowId.toNat, h m hm, rfl⟩
  obtain ⟨i, hi, hoff⟩ := hoff
  constructor
  · rw [CsrWindow.first]
    omega
  · rw [CsrWindow.past, hwx, winFlowidMap]
    omega

theorem has_of_mem_cmpWrites {cmps : List PwFcCmp} (h : cmps.length ≤ numCmp)
    (hw : w ∈ cmpWrites cmps) : CsrWindow.fcCmp.Has w.addr := by
  obtain ⟨x, hx, hwx⟩ := mem_inWindow hw
  have hlt := offset_lt_of_mem_rows h hx
  constructor
  · rw [CsrWindow.first]
    omega
  · rw [CsrWindow.past, hwx]
    omega

theorem has_of_mem_udfWrites {udfs : List PwFcUdf} (h : udfs.length ≤ numUdf)
    (hw : w ∈ udfWrites udfs) : CsrWindow.fcUdf.Has w.addr := by
  obtain ⟨x, hx, hwx⟩ := mem_inWindow hw
  have hlt := offset_lt_of_mem_rows h hx
  constructor
  · rw [CsrWindow.first]
    omega
  · rw [CsrWindow.past, hwx]
    omega

/-- There are writes for every rule of the card, and for no more. -/
theorem has_of_mem_ruleWrites {rules : List PwFcRule} (hw : w ∈ ruleWrites rules) :
    CsrWindow.fcRule.Has w.addr := by
  obtain ⟨x, hx, hwx⟩ := mem_inWindow hw
  obtain ⟨i, -, hx⟩ := List.mem_flatMap.mp hx
  have hi := i.isLt
  constructor
  · rw [CsrWindow.first]
    omega
  · rw [CsrWindow.past, hwx, numRule]
    split at hx
    · simp only [List.mem_cons, List.not_mem_nil, or_false] at hx
      rcases hx with rfl | rfl | rfl <;> dsimp only <;> omega
    · rw [List.mem_singleton] at hx
      rw [hx]
      dsimp only
      omega

theorem has_of_mem_hashClearWrites (hw : w ∈ hashClearWrites) : CsrWindow.fcHash.Has w.addr := by
  obtain ⟨x, hx, hwx⟩ := mem_inWindow hw
  obtain ⟨b, -, rfl⟩ := List.mem_map.mp hx
  have hb := b.isLt
  constructor
  · rw [CsrWindow.first]
    omega
  · rw [CsrWindow.past, hwx, winFcHash]
    dsimp only
    omega

theorem has_of_mem_hashMaskWrites {mask : KeyWords} (hw : w ∈ hashMaskWrites mask) :
    CsrWindow.hashMask.Has w.addr := by
  obtain ⟨x, hx, hwx⟩ := mem_inWindow hw
  obtain ⟨k, -, rfl⟩ := List.mem_map.mp hx
  have hk := k.isLt
  constructor
  · rw [CsrWindow.first]
    omega
  · rw [CsrWindow.past, hwx, hashKeyWords]
    dsimp only
    omega

theorem has_of_mem_hashEntryWrites {entries : List PwFcHashEntry}
    (h : ∀ e ∈ entries, e.index.toNat < 128) (hw : w ∈ hashEntryWrites entries) :
    CsrWindow.fcHash.Has w.addr := by
  obtain ⟨x, hx, hwx⟩ := mem_inWindow hw
  obtain ⟨e, he, hx⟩ := List.mem_flatMap.mp hx
  have hidx := h e he
  simp only [List.mem_append, List.mem_map, List.mem_singleton] at hx
  constructor
  · rw [CsrWindow.first]
    omega
  · rw [CsrWindow.past, hwx, winFcHash]
    rcases hx with ⟨k, -, rfl⟩ | rfl
    · have hk := k.isLt
      dsimp only
      omega
    · dsimp only
      omega

end Windows

end PacketWyrm
