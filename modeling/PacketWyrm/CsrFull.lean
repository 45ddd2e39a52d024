import PacketWyrm.Classify
import PacketWyrm.Lib.Table

/-!
# The register file's write side

`pw_csr_full` with the classifiers' tables behind it.  Each of the table
windows latches the words of a row as they arrive and commits the row on one
particular word: comparators, window comparators and rules on their third word,
a hash bucket on its control word, a flow-id map entry at once.  The write
machine is single-outstanding, so a write is one step, and the one-cycle stage
in front of the hash key register has drained before the next write.

## Main definitions

* `CmpWindow`, `UdfWindow`, `RuleWindow`, `HashWindow` — a window's staging
  registers and its committed table.
* `CsrState` — all windows; `CsrState.write` — one bus write.
* `CsrState.IsReset` — the state after configuration and reset: nothing is
  programmed, and the staging registers, which reset leaves alone, hold anything.

## Main results

* `CsrState.run_cmp` and its siblings — a list of writes into one window acts on
  that window alone.
-/

namespace PacketWyrm

open Lib

variable {lfw : ℕ}

/-! ## Windows -/

/-- Comparator rows, 16 bytes each: `src`, `mask`, and `value` which commits. -/
structure CmpWindow where
  accSrc : BitVec 5
  accMask : BitVec 32
  table : Fin 12 → CmpRow

/-- A write at an offset of the window.  The window has room for 16 rows and
the classifier has 12. -/
def CmpWindow.write (w : CmpWindow) (off : ℕ) (d : BitVec 32) : CmpWindow :=
  match off % 16 with
  | 0 => { w with accSrc := d.setWidth 5 }
  | 4 => { w with accMask := d }
  | 8 =>
    if h : off / 16 < 12 then
      { w with
        table := Function.update w.table ⟨off / 16, h⟩
          { src := w.accSrc, mask := w.accMask, value := d } }
    else w
  | _ => w

/-- Window comparator rows: `offset`, `mask`, and `value` which commits. -/
structure UdfWindow where
  accOffset : BitVec 16
  accMask : BitVec 32
  table : Fin 2 → UdfRow

/-- A write at an offset of the window; the row index has one bit. -/
def UdfWindow.write (w : UdfWindow) (off : ℕ) (d : BitVec 32) : UdfWindow :=
  match off % 16 with
  | 0 => { w with accOffset := d.setWidth 16 }
  | 4 => { w with accMask := d }
  | 8 =>
    { w with
      table := Function.update w.table (Fin.ofNat 2 (off / 16))
        { offset := w.accOffset, mask := w.accMask, value := d } }
  | _ => w

/-- Rule rows: `word0`, `local_flow_id`, and `logical_if_id` which commits. -/
structure RuleWindow where
  accCare : BitVec 14
  accAction : BitVec 3
  accEgress : BitVec 4
  accPrio : BitVec 8
  accEnable : Bool
  accLfid : BitVec 32
  table : Fin 32 → RuleRow

/-- A write at an offset of the window; the row index has five bits. -/
def RuleWindow.write (w : RuleWindow) (off : ℕ) (d : BitVec 32) : RuleWindow :=
  match off % 16 with
  | 0 =>
    { w with
      accCare := d.extractLsb' 0 14, accAction := d.extractLsb' 14 3
      accEgress := d.extractLsb' 17 4, accPrio := d.extractLsb' 21 8
      accEnable := d.getLsbD 31 }
  | 4 => { w with accLfid := d }
  | 8 =>
    { w with
      table := Function.update w.table (Fin.ofNat 32 (off / 16))
        { care := w.accCare, action := .ofCode w.accAction, egress := w.accEgress
          lfid := w.accLfid, lif := d, prio := w.accPrio, enable := w.accEnable } }
  | _ => w

/-- The hash table: the staged key, and what is committed. -/
structure HashWindow (lfw : ℕ) where
  accKey : HashKey
  table : HashTables lfw

/-- The bucket a control word commits. -/
def HashBucket.ofCtrl (lfw : ℕ) (key : HashKey) (d : BitVec 32) : HashBucket lfw :=
  { valid := d.getLsbD 31, key := key, lfid := d.setWidth lfw }

/-- A write into the buckets' window, 64 bytes a bucket: eleven key words, then
the control word. -/
def HashWindow.write (w : HashWindow lfw) (off : ℕ) (d : BitVec 32) : HashWindow lfw :=
  if h : off % 64 ≤ 0x28 then
    { w with accKey := setWord w.accKey ⟨off % 64 / 4, by omega⟩ d }
  else if off % 64 = 0x2C then
    { w with
      table :=
        { w.table with
          bucket := Function.update w.table.bucket (Fin.ofNat 128 (off / 64))
            (.ofCtrl lfw w.accKey d) } }
  else w

/-- A write into the key mask's window. -/
def HashWindow.writeMask (w : HashWindow lfw) (off : ℕ) (d : BitVec 32) : HashWindow lfw :=
  if h : off / 4 < 11 then
    { w with table := { w.table with mask := setWord w.table.mask ⟨off / 4, h⟩ d } }
  else w

/-- A write of the seed register. -/
def HashWindow.writeSeed (w : HashWindow lfw) (d : BitVec 32) : HashWindow lfw :=
  { w with table := { w.table with seed := d } }

/-- The entry a word of the flow-id map stands for. -/
def MapEntry.ofData (lfw : ℕ) (d : BitVec 32) : MapEntry lfw :=
  { valid := d.getLsbD 31, lfid := d.setWidth lfw }

/-- A write into the flow-id map's window commits at once. -/
def FlowidMap.write (m : FlowidMap lfw) (off : ℕ) (d : BitVec 32) : FlowidMap lfw :=
  Function.update m (Fin.ofNat 256 (off / 4)) (.ofData lfw d)

/-! ## The register file -/

/-- A bus write. -/
structure CsrWrite where
  addr : ℕ
  data : BitVec 32
  deriving DecidableEq, Repr

/-- The windows that classification is programmed through. -/
structure CsrState (lfw : ℕ) where
  map : FlowidMap lfw
  cmp : CmpWindow
  udf : UdfWindow
  rule : RuleWindow
  hash : HashWindow lfw

/-- The flow-id map's window. -/
def winFlowidMap : ℕ := 0x0400

/-- The comparators' window. -/
def winFcCmp : ℕ := 0x2000

/-- The window comparators' window. -/
def winFcUdf : ℕ := 0x2100

/-- The rules' window. -/
def winFcRule : ℕ := 0x2200

/-- The key mask's window. -/
def winHashMask : ℕ := 0x2F00

/-- The seed register. -/
def regHashSeed : ℕ := 0x2FFC

/-- The buckets' window. -/
def winFcHash : ℕ := 0x3000

/-- The flow table's window. -/
def winFlowTable : ℕ := 0x6000

namespace CsrState

/-- One write.  The windows are disjoint; a write elsewhere (the flow table,
the counters, the slow path) leaves the classification alone. -/
def write (s : CsrState lfw) (w : CsrWrite) : CsrState lfw :=
  if 0x0400 ≤ w.addr ∧ w.addr < 0x0800 then
    { s with map := s.map.write (w.addr - 0x0400) w.data }
  else if 0x2000 ≤ w.addr ∧ w.addr < 0x2100 then
    { s with cmp := s.cmp.write (w.addr - 0x2000) w.data }
  else if 0x2100 ≤ w.addr ∧ w.addr < 0x2200 then
    { s with udf := s.udf.write (w.addr - 0x2100) w.data }
  else if 0x2200 ≤ w.addr ∧ w.addr < 0x2600 then
    { s with rule := s.rule.write (w.addr - 0x2200) w.data }
  else if w.addr = 0x2FFC then
    { s with hash := s.hash.writeSeed w.data }
  else if 0x2F00 ≤ w.addr ∧ w.addr < 0x2F30 then
    { s with hash := s.hash.writeMask (w.addr - 0x2F00) w.data }
  else if 0x3000 ≤ w.addr ∧ w.addr < 0x5000 then
    { s with hash := s.hash.write (w.addr - 0x3000) w.data }
  else s

/-- A list of writes. -/
def run (s : CsrState lfw) (ws : List CsrWrite) : CsrState lfw := ws.foldl write s

/-- What is committed: the tables the ports classify with. -/
def tables (s : CsrState lfw) : CardTables lfw :=
  { field := { cmp := s.cmp.table, udf := s.udf.table, rule := s.rule.table }
    hash := s.hash.table
    map := s.map }

/-- Nothing is programmed. -/
def IsReset (s : CsrState lfw) : Prop := s.tables = .init

@[simp] theorem run_nil (s : CsrState lfw) : s.run [] = s := rfl

theorem run_append (s : CsrState lfw) (ws ws' : List CsrWrite) :
    s.run (ws ++ ws') = (s.run ws).run ws' :=
  List.foldl_append

/-! ## Writes into one window -/

/-- Writes given by their offsets in a window. -/
def inWindow (base : ℕ) (l : List (ℕ × BitVec 32)) : List CsrWrite :=
  l.map fun x => ⟨base + x.1, x.2⟩

section Windows

variable {l : List (ℕ × BitVec 32)}

theorem run_map (h : ∀ x ∈ l, x.1 < 0x400) (s : CsrState lfw) :
    s.run (inWindow winFlowidMap l) =
      { s with map := l.foldl (fun m x => m.write x.1 x.2) s.map } := by
  rw [run, inWindow, List.foldl_map]
  apply foldl_component map (fun s m => { s with map := m })
  · intro s m; rfl
  · intro s m m'; rfl
  · intro s; rfl
  · intro x hx s
    have := h x hx
    unfold winFlowidMap
    rw [write]
    dsimp only
    rw [if_pos (by omega), Nat.add_sub_cancel_left]

theorem run_cmp (h : ∀ x ∈ l, x.1 < 0x100) (s : CsrState lfw) :
    s.run (inWindow winFcCmp l) =
      { s with cmp := l.foldl (fun c x => c.write x.1 x.2) s.cmp } := by
  rw [run, inWindow, List.foldl_map]
  apply foldl_component cmp (fun s c => { s with cmp := c })
  · intro s c; rfl
  · intro s c c'; rfl
  · intro s; rfl
  · intro x hx s
    have := h x hx
    unfold winFcCmp
    rw [write]
    dsimp only
    rw [if_neg (by omega), if_pos (by omega), Nat.add_sub_cancel_left]

theorem run_udf (h : ∀ x ∈ l, x.1 < 0x100) (s : CsrState lfw) :
    s.run (inWindow winFcUdf l) =
      { s with udf := l.foldl (fun u x => u.write x.1 x.2) s.udf } := by
  rw [run, inWindow, List.foldl_map]
  apply foldl_component udf (fun s u => { s with udf := u })
  · intro s u; rfl
  · intro s u u'; rfl
  · intro s; rfl
  · intro x hx s
    have := h x hx
    unfold winFcUdf
    rw [write]
    dsimp only
    rw [if_neg (by omega), if_neg (by omega), if_pos (by omega), Nat.add_sub_cancel_left]

theorem run_rule (h : ∀ x ∈ l, x.1 < 0x400) (s : CsrState lfw) :
    s.run (inWindow winFcRule l) =
      { s with rule := l.foldl (fun r x => r.write x.1 x.2) s.rule } := by
  rw [run, inWindow, List.foldl_map]
  apply foldl_component rule (fun s r => { s with rule := r })
  · intro s r; rfl
  · intro s r r'; rfl
  · intro s; rfl
  · intro x hx s
    have := h x hx
    unfold winFcRule
    rw [write]
    dsimp only
    rw [if_neg (by omega), if_neg (by omega), if_neg (by omega),
      if_pos (by omega), Nat.add_sub_cancel_left]

theorem run_hashMask (h : ∀ x ∈ l, x.1 < 0x30) (s : CsrState lfw) :
    s.run (inWindow winHashMask l) =
      { s with hash := l.foldl (fun k x => k.writeMask x.1 x.2) s.hash } := by
  rw [run, inWindow, List.foldl_map]
  apply foldl_component hash (fun s k => { s with hash := k })
  · intro s k; rfl
  · intro s k k'; rfl
  · intro s; rfl
  · intro x hx s
    have := h x hx
    unfold winHashMask
    rw [write]
    dsimp only
    rw [if_neg (by omega), if_neg (by omega), if_neg (by omega), if_neg (by omega),
      if_neg (by omega), if_pos (by omega), Nat.add_sub_cancel_left]

theorem run_hash (h : ∀ x ∈ l, x.1 < 0x2000) (s : CsrState lfw) :
    s.run (inWindow winFcHash l) =
      { s with hash := l.foldl (fun k x => k.write x.1 x.2) s.hash } := by
  rw [run, inWindow, List.foldl_map]
  apply foldl_component hash (fun s k => { s with hash := k })
  · intro s k; rfl
  · intro s k k'; rfl
  · intro s; rfl
  · intro x hx s
    have := h x hx
    unfold winFcHash
    rw [write]
    dsimp only
    rw [if_neg (by omega), if_neg (by omega), if_neg (by omega), if_neg (by omega),
      if_neg (by omega), if_neg (by omega), if_pos (by omega), Nat.add_sub_cancel_left]

/-- Writes past the classifier's windows leave it alone. -/
theorem run_of_ge {ws : List CsrWrite} (h : ∀ w ∈ ws, 0x5000 ≤ w.addr) (s : CsrState lfw) : s.run ws = s := by
  induction ws with
  | nil => rfl
  | cons w ws ih =>
    have hw := h w List.mem_cons_self
    have hstep : s.write w = s := by
      rw [write, if_neg (by omega), if_neg (by omega), if_neg (by omega), if_neg (by omega),
        if_neg (by omega), if_neg (by omega), if_neg (by omega)]
    rw [run, List.foldl_cons, hstep]
    exact ih fun v hv => h v (List.mem_cons_of_mem _ hv)

end Windows

end CsrState

end PacketWyrm
