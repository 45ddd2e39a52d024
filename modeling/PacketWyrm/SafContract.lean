import PacketWyrm.FrameSaf

/-!
# The store-and-forward buffer is a queue of frames

Under the timing contract the circuit `Saf` refines the queue `SafSpec`: the ring
holds the stored beats and then the frame in progress, the descriptor ring holds
the tags of the frames that are not yet sent whole.

## Main results

* `Saf.holds_step` — one clock edge keeps the circuit and the queue related.
* `saf_contract` — what is drained, with what is still queued, is the accepted
  frames in order, each beat with its frame's tag.
-/

namespace PacketWyrm

open Lib

variable {aw daw : ℕ} {ρ : Type}

/-! ## Frames and their tags -/

/-- No beat is a last one. -/
def Unended (l : List Beat) : Prop := ∀ b ∈ l, b.tlast = false

/-- A frame from some beat on to its last. -/
def WholeFrame (f : List Beat) : Prop := ∃ l b, f = l ++ [b] ∧ Unended l ∧ b.tlast = true

/-- A beat that is not a last one is followed by a beat with its tag. -/
def TagsAgree : List (Beat × ρ) → Prop
  | [] => True
  | x :: q => (x.1.tlast = true ∨ q.head?.map Prod.snd = some x.2) ∧ TagsAgree q

theorem TagsAgree.append {q r : List (Beat × ρ)} (hq : TagsAgree q) (hr : TagsAgree r) :
    TagsAgree (q ++ r) := by
  induction q with
  | nil => exact hr
  | cons x q ih =>
    refine ⟨?_, ih hq.2⟩
    cases q with
    | nil =>
      -- nothing follows in `q`, so the beat is a last one
      apply Or.inl
      simpa using hq.1
    | cons y q => exact hq.1

/-- The beats of one frame have one tag. -/
theorem WholeFrame.tagsAgree {f : List Beat} (h : WholeFrame f) (tag : ρ) :
    TagsAgree (f.map fun b => (b, tag)) := by
  obtain ⟨l, b, rfl, -, hb⟩ := h
  induction l with
  | nil => exact ⟨Or.inl hb, trivial⟩
  | cons c l ih =>
    refine ⟨Or.inr ?_, ih⟩
    cases l with
    | nil => rfl
    | cons d l => rfl

/-- The first tag is the one of the first beat. -/
theorem TagsAgree.tags_eq_cons {x : Beat × ρ} {q : List (Beat × ρ)} (h : TagsAgree (x :: q)) :
    ∃ r, ((x :: q).filter fun y => y.1.tlast).map Prod.snd = x.2 :: r := by
  induction q generalizing x with
  | nil =>
    have hlast : x.1.tlast = true := by simpa using h.1
    exact ⟨[], by simp [hlast]⟩
  | cons y q ih =>
    by_cases hlast : x.1.tlast = true
    · exact ⟨_, by rw [List.filter_cons, if_pos hlast, List.map_cons]⟩
    · have hy : y.2 = x.2 := by simpa using h.1.resolve_left hlast
      rw [List.filter_cons, if_neg hlast, ← hy]
      exact ih h.2

/-- A frame brings one tag. -/
theorem WholeFrame.tags_tagged {f : List Beat} (h : WholeFrame f) (tag : ρ) :
    ((f.map fun b => (b, tag)).filter fun y => y.1.tlast).map Prod.snd = [tag] := by
  obtain ⟨l, b, rfl, hl, hb⟩ := h
  have hnone : (l.map fun b => (b, tag)).filter (fun y => y.1.tlast) = [] := by
    rw [List.filter_eq_nil_iff]
    intro y hy
    obtain ⟨c, hc, rfl⟩ := List.mem_map.mp hy
    simp [hl c hc]
  rw [List.map_append, List.filter_append, hnone]
  simp [hb]

theorem Unended.concat {l : List Beat} {b : Beat} (h : Unended l) (hb : b.tlast = false) :
    Unended (l ++ [b]) := by
  intro c hc
  rw [List.mem_append, List.mem_singleton] at hc
  cases hc with
  | inl hc => exact h c hc
  | inr hc => rw [hc, hb]

namespace SafSpec

/-- Only a beat that is shown is taken. -/
theorem shown_of_consume {t : SafSpec ρ} {i : SafIn ρ} (h : t.consume i = true) :
    t.shown = true := by
  rw [consume, Bool.and_eq_true] at h
  exact h.1

@[simp] theorem shown_write (t : SafSpec ρ) (i : SafIn ρ) :
    (t.write aw daw i).shown = t.shown := by
  rw [write]
  split
  · rfl
  · split
    · rfl
    · rfl

end SafSpec

/-! ## The relation -/

/-- The frame in progress, as the phase has it. -/
def SafPhase.Shape : SafPhase → List Beat → Prop
  | streaming, cur => Unended cur
  | due, cur => WholeFrame cur

/-- What the registers and memories of the circuit hold of the queue: `w` is the
part of the frame in progress that was written. -/
structure Saf.Holds (p : SafPhase) (s : Saf aw daw ρ) (t : SafSpec ρ) (w : List Beat) : Prop where
  shape : p.Shape t.cur
  fits : t.stored.length + w.length ≤ 2 ^ aw
  wrCommit : s.wrCommit = s.rdPtr + BitVec.ofNat (aw + 1) t.stored.length
  wrSpec : s.wrSpec = s.rdPtr + BitVec.ofNat (aw + 1) (t.stored.length + w.length)
  beats : RingAt s.mem s.rdPtr (t.stored ++ w)
  aborted : s.aborted = t.noRoom
  written : t.noRoom = false → w = t.cur
  fresh : t.cur = [] → w = []
  tagsFit : t.tags.length ≤ 2 ^ daw
  descWr : s.descWr = s.descRd + BitVec.ofNat (daw + 1) t.tags.length
  descs : RingAt s.desc s.descRd t.tags
  agree : TagsAgree t.queue
  dvalid : s.dvalid = t.shown
  dbeat : t.shown = true → t.queue.head?.map Prod.fst = some s.dbeat
  overflowDrop : s.overflowDrop = t.overflowDrop

namespace Saf.Holds

variable {p : SafPhase} {s : Saf aw daw ρ} {t : SafSpec ρ} {w : List Beat}

/-- Room for a beat. -/
theorem canWrite_eq (h : s.Holds p t w) :
    s.canWrite = !decide (t.stored.length + w.length = 2 ^ aw) := by
  rw [Saf.canWrite, h.wrSpec]
  rw [Bool.eq_iff_iff]
  simp only [bne_iff_ne, ne_eq, advance_sub_eq_depth_iff h.fits, Bool.not_eq_true',
    decide_eq_false_iff_not]

theorem descFull_eq (h : s.Holds p t w) : s.descFull = decide (t.tags.length = 2 ^ daw) := by
  rw [Saf.descFull, h.descWr, Bool.eq_iff_iff]
  simp only [beq_iff_eq, advance_sub_eq_depth_iff h.tagsFit, decide_eq_true_eq]

theorem descEmpty_eq (h : s.Holds p t w) : s.descEmpty = t.tags.isEmpty := by
  rw [Saf.descEmpty, h.descWr, Bool.eq_iff_iff, beq_iff_eq, eq_comm,
    eq_advance_iff h.tagsFit, List.length_eq_zero_iff, List.isEmpty_iff]

/-- The beat that is shown is a queued one. -/
theorem shown_le_length (h : s.Holds p t w) : t.shown.toNat ≤ t.queue.length := by
  cases hshown : t.shown with
  | false => exact Nat.zero_le _
  | true =>
    have hbeat := h.dbeat hshown
    cases hq : t.queue with
    | nil =>
      rw [hq] at hbeat
      cases hbeat
    | cons x q => simp

/-- While something is queued, its first beat's tag is the first one. -/
theorem tags_eq_cons (h : s.Holds p t w) {x : Beat × ρ} {q : List (Beat × ρ)}
    (hq : t.queue = x :: q) : ∃ r, t.tags = x.2 :: r := by
  have hagree := h.agree
  rw [hq] at hagree
  rw [SafSpec.tags, hq]
  exact hagree.tags_eq_cons

theorem queue_ne_nil_of_stored (hs : t.stored ≠ []) : t.queue ≠ [] := by
  intro hq
  apply hs
  simp [SafSpec.stored, hq]

theorem avail_eq (h : s.Holds p t w) : s.avail = !t.stored.isEmpty := by
  have hfits : t.stored.length ≤ 2 ^ aw := by
    have := h.fits
    omega
  have hne : (s.rdPtr != s.wrCommit) = !t.stored.isEmpty := by
    rw [h.wrCommit, Bool.eq_iff_iff]
    simp only [bne_iff_ne, ne_eq, eq_advance_iff hfits, List.length_eq_zero_iff,
      Bool.not_eq_true', List.isEmpty_eq_false_iff]
  rw [Saf.avail, hne, h.descEmpty_eq]
  cases hs : t.stored.isEmpty with
  | true => rfl
  | false =>
    obtain ⟨x, q, hq⟩ := List.exists_cons_of_ne_nil
      (queue_ne_nil_of_stored (List.isEmpty_eq_false_iff.mp hs))
    obtain ⟨r, hr⟩ := h.tags_eq_cons hq
    rw [hr]
    rfl

theorem consume_eq (h : s.Holds p t w) (i : SafIn ρ) : s.consume i = t.consume i := by
  rw [Saf.consume, SafSpec.consume, h.dvalid]

theorem fetch_eq (h : s.Holds p t w) (i : SafIn ρ) : s.fetch i = t.fetch i := by
  rw [Saf.fetch, SafSpec.fetch, h.avail_eq, h.dvalid, h.consume_eq]

/-- **The beat that is shown is the first of the queue, with its tag.** -/
theorem sent_eq [Zero ρ] (h : s.Holds p t w) (i : SafIn ρ) : s.sent i = t.sent i := by
  rw [Saf.sent, SafSpec.sent, h.consume_eq]
  by_cases hc : t.consume i = true
  · rw [if_pos hc, if_pos hc]
    have hbeat := h.dbeat (SafSpec.shown_of_consume hc)
    cases hq : t.queue with
    | nil =>
      rw [hq] at hbeat
      cases hbeat
    | cons x q =>
      obtain ⟨r, hr⟩ := h.tags_eq_cons hq
      have hdescs := h.descs
      rw [hr] at hdescs
      rw [hq] at hbeat
      have hx : x.1 = s.dbeat := by simpa using hbeat
      rw [h.descEmpty_eq, hr, hdescs.head, ← hx]
      rfl
  · rw [if_neg hc, if_neg hc]

/-! ## The drain side -/

/-- A fetch shows the next beat. -/
theorem drain_fetch (h : s.Holds p t w) (hshown : t.shown = false) {b : Beat} {r : List Beat}
    (hs : t.stored = b :: r) : (s.drain false true b).Holds p (t.drain false true) w := by
  have hqueue : t.queue.map Prod.fst = b :: r := by
    rw [← hs, SafSpec.stored, hshown]
    rfl
  have hstored : (t.drain false true).stored = r := by
    show (t.queue.map Prod.fst).drop 1 = r
    rw [hqueue]
    rfl
  have hlen : t.stored.length = r.length + 1 := by rw [hs, List.length_cons]
  have hbeats := h.beats
  rw [hs, List.cons_append] at hbeats
  exact
    { h with
      fits := by
        have := h.fits
        rw [hstored]
        omega
      wrCommit := by
        rw [hstored]
        exact h.wrCommit.trans (by rw [hlen, advance_succ]; rfl)
      wrSpec := by
        have hsum : t.stored.length + w.length = r.length + w.length + 1 := by omega
        rw [hstored]
        exact h.wrSpec.trans (by rw [hsum, advance_succ]; rfl)
      beats := by
        rw [hstored]
        exact hbeats.tail
      dvalid := rfl
      dbeat := by
        intro _
        have hhead := congrArg List.head? hqueue
        rw [List.head?_map] at hhead
        exact hhead }

/-- A beat that is taken leaves the queue, and a last one takes its tag along. -/
theorem drain_consume (h : s.Holds p t w) (hshown : t.shown = true) (b : Beat) :
    (s.drain true false b).Holds p (t.drain true false) w := by
  cases hq : t.queue with
  | nil =>
    have hbeat := h.dbeat hshown
    rw [hq] at hbeat
    cases hbeat
  | cons x q =>
    have hx : x.1 = s.dbeat := by
      have hbeat := h.dbeat hshown
      rw [hq] at hbeat
      simpa using hbeat
    have hstored : (t.drain true false).stored = t.stored := by
      simp [SafSpec.stored, SafSpec.drain, hq, hshown]
    have hagree := h.agree
    rw [hq] at hagree
    have hqueue : (t.drain true false).queue = q := by simp [SafSpec.drain, hq]
    have hdesc : (t.drain true false).tags.length ≤ 2 ^ daw ∧
        s.descWr = (s.drain true false b).descRd +
          BitVec.ofNat (daw + 1) (t.drain true false).tags.length ∧
        RingAt s.desc (s.drain true false b).descRd (t.drain true false).tags := by
      by_cases hlast : x.1.tlast = true
      · have htags : t.tags = x.2 :: (t.drain true false).tags := by
          rw [SafSpec.tags, SafSpec.tags, hqueue, hq, List.filter_cons, if_pos hlast,
            List.map_cons]
        have hrd : (s.drain true false b).descRd = s.descRd + 1 := by
          simp [Saf.drain, ← hx, hlast]
        have hlen : t.tags.length = (t.drain true false).tags.length + 1 := by
          rw [htags, List.length_cons]
        have hdescs := h.descs
        rw [htags] at hdescs
        rw [hrd, ← advance_succ, ← hlen]
        have := h.tagsFit
        exact ⟨by omega, h.descWr, hdescs.tail⟩
      · have htags : (t.drain true false).tags = t.tags := by
          rw [SafSpec.tags, SafSpec.tags, hqueue, hq, List.filter_cons, if_neg hlast]
        have hrd : (s.drain true false b).descRd = s.descRd := by
          simp [Saf.drain, ← hx, hlast]
        rw [htags, hrd]
        exact ⟨h.tagsFit, h.descWr, h.descs⟩
    exact
      { h with
        fits := by rw [hstored]; exact h.fits
        wrCommit := by rw [hstored]; exact h.wrCommit
        wrSpec := by rw [hstored]; exact h.wrSpec
        beats := by rw [hstored]; exact h.beats
        tagsFit := hdesc.1
        descWr := hdesc.2.1
        descs := hdesc.2.2
        agree := by rw [hqueue]; exact hagree.2
        dvalid := by simp [SafSpec.drain, Saf.drain]
        dbeat := by simp [SafSpec.drain] }

/-- **The drain side of a cycle.**  The beat in the register is taken first, which
makes place for the next. -/
theorem drain (h : s.Holds p t w) {c f : Bool} {b : Beat} (hc : c = true → t.shown = true)
    (hf : f = true → (t.shown = true → c = true) ∧ t.stored.head? = some b) :
    (s.drain c f b).Holds p (t.drain c f) w := by
  have hfetch : ∀ {s : Saf aw daw ρ} {t : SafSpec ρ}, s.Holds p t w → t.shown = false →
      t.stored.head? = some b → (s.drain false true b).Holds p (t.drain false true) w := by
    intro s t h hshown hb
    obtain ⟨r, hr⟩ := List.head?_eq_some_iff.mp hb
    exact h.drain_fetch hshown hr
  cases c with
  | false =>
    cases f with
    | false =>
      have hs : s.drain false false b = s := by simp [Saf.drain]
      have ht : t.drain false false = t := by simp [SafSpec.drain]
      rw [hs, ht]
      exact h
    | true =>
      obtain ⟨hidle, hb⟩ := hf rfl
      have hshown : t.shown = false := by
        cases hsh : t.shown with
        | false => rfl
        | true => cases hidle hsh
      exact hfetch h hshown hb
  | true =>
    have hcons := h.drain_consume (hc rfl) b
    cases f with
    | false => exact hcons
    | true =>
      have hs : s.drain true true b = (s.drain true false b).drain false true b := by
        simp [Saf.drain]
      have ht : t.drain true true = (t.drain true false).drain false true := by
        simp [SafSpec.drain]
      have hstored : (t.drain true false).stored = t.stored := by
        simp [SafSpec.stored, SafSpec.drain, hc rfl]
      rw [hs, ht]
      apply hfetch hcons
      · simp [SafSpec.drain]
      · rw [hstored]
        exact (hf rfl).2

/-! ## The write side -/

theorem write_idle (h : s.Holds .streaming t w) {i : SafIn ρ} (hd : i.decValid = false)
    (hv : i.tvalid = false) : (s.write i).Holds .streaming (t.write aw daw i) w := by
  have hs : s.write i = { s with overflowDrop := false } := by
    simp [Saf.write, Saf.beatWe, Saf.commits, hd, hv]
  have ht : t.write aw daw i = { t with overflowDrop := false } := by
    simp [SafSpec.write, hd, hv]
  rw [hs, ht]
  exact { h with overflowDrop := rfl }

/-- A beat is written while there is room; without room the frame is given up. -/
theorem write_beat (h : s.Holds .streaming t w) {i : SafIn ρ} (hd : i.decValid = false)
    (hv : i.tvalid = true) :
    ∃ w', (s.write i).Holds (SafPhase.streaming.next i) (t.write aw daw i) w' := by
  have hshape : (SafPhase.streaming.next i).Shape (t.cur ++ [i.beat]) := by
    cases hlast : i.beat.tlast with
    | false =>
      simp only [SafPhase.next, hv, hlast, Bool.and_false, Bool.false_eq_true, if_false]
      exact Unended.concat h.shape hlast
    | true =>
      simp only [SafPhase.next, hv, hlast, Bool.and_true, if_true]
      exact ⟨t.cur, i.beat, rfl, h.shape, hlast⟩
  by_cases hwe : s.beatWe i = true
  · have hab : s.aborted = false ∧ s.canWrite = true := by
      simpa [Saf.beatWe, hv] using hwe
    have hroom : t.noRoom = false := by rw [← h.aborted, hab.1]
    have hw := h.written hroom
    have hlt : t.stored.length + w.length < 2 ^ aw := by
      have hcan := hab.2
      rw [h.canWrite_eq] at hcan
      have hfits := h.fits
      have hne : t.stored.length + w.length ≠ 2 ^ aw := by simpa using hcan
      omega
    have hs : s.write i =
        { s with
          mem := Function.update s.mem (s.wrSpec.setWidth aw) i.beat
          wrSpec := s.wrSpec + 1
          overflowDrop := false } := by
      simp [Saf.write, Saf.commits, hd, hwe, hv]
    have ht : t.write aw daw i = { t with cur := t.cur ++ [i.beat], overflowDrop := false } := by
      rw [hw] at hlt
      simp only [SafSpec.write, hd, hv, Bool.false_eq_true, if_false, if_true]
      rw [decide_eq_false (Nat.ne_of_lt hlt), Bool.or_false]
    have hslot : s.wrSpec.setWidth aw = ringSlot s.rdPtr (t.stored ++ w).length := by
      rw [h.wrSpec, setWidth_advance, List.length_append]
    refine ⟨w ++ [i.beat], ?_⟩
    rw [hs, ht]
    exact
      { h with
        shape := hshape
        fits := by
          show t.stored.length + (w ++ [i.beat]).length ≤ _
          rw [List.length_append, List.length_singleton]
          omega
        wrSpec := by
          show s.wrSpec + 1 = s.rdPtr + BitVec.ofNat _ (t.stored.length + (w ++ [i.beat]).length)
          rw [h.wrSpec, succ_advance, List.length_append, List.length_singleton]
          rfl
        beats := by
          show RingAt _ _ (t.stored ++ (w ++ [i.beat]))
          rw [hslot, ← List.append_assoc]
          apply h.beats.push
          rw [List.length_append]
          exact hlt
        written := by
          intro _
          show w ++ [i.beat] = t.cur ++ [i.beat]
          rw [hw]
        fresh := by
          intro hnil
          simp at hnil
        overflowDrop := rfl }
  · have hfull : (t.noRoom || decide (t.stored.length + t.cur.length = 2 ^ aw)) = true := by
      have hor : s.aborted = true ∨ s.canWrite = false := by
        cases hab : s.aborted with
        | true => exact Or.inl rfl
        | false =>
          apply Or.inr
          simpa [Saf.beatWe, hv, hab] using hwe
      cases hnr : t.noRoom with
      | true => rfl
      | false =>
        have hcan := hor.resolve_left (by rw [h.aborted, hnr]; exact Bool.false_ne_true)
        rw [h.canWrite_eq, h.written hnr] at hcan
        simpa using hcan
    have hs : s.write i = { s with aborted := true, overflowDrop := false } := by
      have hwe' : s.beatWe i = false := by simpa using hwe
      simp [Saf.write, Saf.commits, hd, hwe', hv]
    have ht : t.write aw daw i =
        { t with cur := t.cur ++ [i.beat], noRoom := true, overflowDrop := false } := by
      simp only [SafSpec.write, hd, hv, Bool.false_eq_true, if_false, if_true, hfull]
    refine ⟨w, ?_⟩
    rw [hs, ht]
    exact
      { h with
        shape := hshape
        aborted := rfl
        written := by
          intro hno
          cases hno
        fresh := by
          intro hnil
          simp at hnil
        overflowDrop := rfl }

/-- The decision publishes the frame exactly when it is accepted. -/
theorem commits_eq (h : s.Holds .due t w) {i : SafIn ρ} (hd : i.decValid = true) :
    s.commits i = (t.decision daw i).accepted := by
  have hne : t.noRoom = false → (s.wrSpec != s.wrCommit) = true := by
    intro hroom
    have hw := h.written hroom
    obtain ⟨l, b, hcur, -, -⟩ := h.shape
    have hpos : w.length ≠ 0 := by simp [hw, hcur]
    have hfits := h.fits
    have hwr : s.wrSpec = s.wrCommit + BitVec.ofNat (aw + 1) w.length := by
      rw [h.wrSpec, h.wrCommit, BitVec.ofNat_add, BitVec.add_assoc]
    rw [bne_iff_ne, ne_comm, hwr, Ne, eq_advance_iff (by omega)]
    exact hpos
  rw [Saf.commits, SafDecision.accepted, SafSpec.decision, h.aborted, h.descFull_eq, hd]
  cases hroom : t.noRoom with
  | true => simp
  | false => simp [hne hroom]

/-- The decision makes room again for all but the accepted frames. -/
theorem write_decision (h : s.Holds .due t w) {i : SafIn ρ} (hd : i.decValid = true)
    (hv : i.tvalid = false) : (s.write i).Holds .streaming (t.write aw daw i) [] := by
  have hcommit := h.commits_eq hd
  have hwe : s.beatWe i = false := by simp [Saf.beatWe, hv]
  have hnil : Unended [] := by simp [Unended]
  cases hacc : (t.decision daw i).accepted with
  | false =>
    rw [hacc] at hcommit
    have hdrop : (i.decKeep && (s.aborted || s.descFull)) = i.decKeep := by
      rw [h.aborted, h.descFull_eq]
      simp only [SafDecision.accepted, SafSpec.decision] at hacc
      cases hk : i.decKeep with
      | false => rfl
      | true =>
        rw [hk] at hacc
        simpa [or_iff_not_imp_left] using hacc
    have hs : s.write i =
        { s with wrSpec := s.wrCommit, aborted := false, overflowDrop := i.decKeep } := by
      simp [Saf.write, hd, hwe, hcommit, hdrop]
    have ht : t.write aw daw i =
        { t with
          cur := [], noRoom := false, decided := t.decided ++ [t.decision daw i]
          overflowDrop := i.decKeep } := by
      simp [SafSpec.write, hd, hacc]
    rw [hs, ht]
    exact
      { h with
        shape := hnil
        fits := (Nat.le_add_right _ _).trans h.fits
        wrSpec := h.wrCommit
        beats := by
          rw [List.append_nil]
          exact h.beats.of_append
        aborted := rfl
        written := fun _ => rfl
        fresh := fun _ => rfl
        overflowDrop := rfl }
  | true =>
    rw [hacc] at hcommit
    have hroom : t.noRoom = false ∧ ¬ t.tags.length = 2 ^ daw := by
      simp only [SafDecision.accepted, SafSpec.decision, Bool.and_eq_true, Bool.not_eq_true',
        decide_eq_false_iff_not] at hacc
      exact ⟨hacc.1.2, hacc.2⟩
    have hw := h.written hroom.1
    have hframe : WholeFrame t.cur := h.shape
    have hs : s.write i =
        { s with
          aborted := false, wrCommit := s.wrSpec
          desc := Function.update s.desc (s.descWr.setWidth daw) i.decTag
          descWr := s.descWr + 1, overflowDrop := false } := by
      simp [Saf.write, hd, hwe, hcommit]
    have ht : t.write aw daw i =
        { t with
          cur := [], noRoom := false, queue := t.queue ++ (t.decision daw i).tagged
          decided := t.decided ++ [t.decision daw i], overflowDrop := false } := by
      simp [SafSpec.write, hd, hacc]
    have hmap : (t.decision daw i).tagged.map Prod.fst = w := by
      simp [SafDecision.tagged, SafSpec.decision, hw, Function.comp_def]
    have hstored : (t.write aw daw i).stored = t.stored ++ w := by
      rw [ht]
      show ((t.queue ++ (t.decision daw i).tagged).map Prod.fst).drop t.shown.toNat = _
      rw [List.map_append, hmap, List.drop_append_of_le_length, SafSpec.stored]
      rw [List.length_map]
      exact h.shown_le_length
    have htags : (t.write aw daw i).tags = t.tags ++ [i.decTag] := by
      rw [ht]
      show ((t.queue ++ (t.decision daw i).tagged).filter fun x => x.1.tlast).map Prod.snd = _
      rw [List.filter_append, List.map_append]
      exact congrArg _ (hframe.tags_tagged i.decTag)
    have hslot : s.descWr.setWidth daw = ringSlot s.descRd t.tags.length := by
      rw [h.descWr, setWidth_advance]
    have hagree : TagsAgree (t.write aw daw i).queue := by
      rw [ht]
      exact h.agree.append (hframe.tagsAgree i.decTag)
    have hbeat : t.shown = true →
        (t.write aw daw i).queue.head?.map Prod.fst = some s.dbeat := by
      intro hshown
      rw [ht, ← h.dbeat hshown]
      have hne := h.shown_le_length
      rw [hshown] at hne
      cases hq : t.queue with
      | nil => simp [hq] at hne
      | cons x q => rfl
    have hlt : t.tags.length < 2 ^ daw := lt_of_le_of_ne h.tagsFit hroom.2
    rw [hs]
    exact
      { shape := by rw [ht]; exact hnil
        fits := by
          rw [hstored, List.length_append]
          exact h.fits
        wrCommit := by
          rw [hstored, List.length_append]
          exact h.wrSpec
        wrSpec := by
          rw [hstored, List.length_append]
          exact h.wrSpec
        beats := by
          rw [hstored, List.append_nil]
          exact h.beats
        aborted := by rw [ht]
        written := by
          intro _
          rw [ht]
        fresh := fun _ => rfl
        tagsFit := by
          rw [htags, List.length_append]
          exact hlt
        descWr := by
          rw [htags, List.length_append, List.length_singleton, ← succ_advance, ← h.descWr]
        descs := by
          rw [htags, hslot]
          exact h.descs.push hlt i.decTag
        agree := hagree
        dvalid := by
          rw [ht]
          exact h.dvalid
        dbeat := by
          rw [ht] at hbeat ⊢
          exact hbeat
        overflowDrop := by rw [ht] }

/-- **The write side of a cycle.** -/
theorem write (h : s.Holds p t w) {i : SafIn ρ} (hi : p.allow i) :
    ∃ w', (s.write i).Holds (p.next i) (t.write aw daw i) w' := by
  cases p with
  | streaming =>
    have hd : i.decValid = false := hi
    cases hv : i.tvalid with
    | false =>
      have hnext : SafPhase.streaming.next i = .streaming := by simp [SafPhase.next, hv]
      rw [hnext]
      exact ⟨w, h.write_idle hd hv⟩
    | true => exact h.write_beat hd hv
  | due => exact ⟨[], h.write_decision hi.1 hi.2⟩

/-- What is stored stays so while a frame is written. -/
theorem stored_write_head? (h : s.Holds p t w) {i : SafIn ρ} (hs : t.stored ≠ []) :
    (t.write aw daw i).stored.head? = t.stored.head? := by
  have happend : ∀ l : List (Beat × ρ),
      (((t.queue ++ l).map Prod.fst).drop t.shown.toNat).head? = t.stored.head? := by
    intro l
    rw [List.map_append, List.drop_append_of_le_length (by simpa using h.shown_le_length)]
    show (t.stored ++ _).head? = _
    exact List.head?_append_of_ne_nil _ hs
  rw [SafSpec.write]
  split
  · exact happend _
  · split
    · rfl
    · rfl

/-- **One clock edge keeps the circuit and the queue related.** -/
theorem step [Zero ρ] (h : s.Holds p t w) {i : SafIn ρ} (hi : p.allow i) :
    (∃ w', (s.step i).Holds (p.next i) (t.step aw daw i) w') ∧ s.sent i = t.sent i := by
  refine ⟨?_, h.sent_eq i⟩
  obtain ⟨w', hw'⟩ := h.write hi
  refine ⟨w', ?_⟩
  have hshown : (t.write aw daw i).shown = t.shown := t.shown_write i
  rw [Saf.step, SafSpec.step, h.consume_eq, h.fetch_eq]
  apply hw'.drain
  · intro hc
    rw [hshown]
    exact SafSpec.shown_of_consume hc
  · intro hf
    rw [SafSpec.fetch, Bool.and_eq_true, Bool.or_eq_true, Bool.not_eq_true'] at hf
    have hs : t.stored ≠ [] := by simpa using hf.1
    rw [hshown, h.stored_write_head? hs]
    refine ⟨?_, ?_⟩
    · intro hsh
      rw [hsh] at hf
      simpa using hf.2
    · obtain ⟨b, r, hr⟩ := List.exists_cons_of_ne_nil hs
      have hbeats := h.beats
      rw [hr, List.cons_append] at hbeats
      rw [hr, hbeats.head]
      rfl

/-- The queue fits into the memory and the output register. -/
theorem length_queue_le (h : s.Holds p t w) : t.queue.length ≤ 2 ^ aw + 1 := by
  have hfits := h.fits
  rw [SafSpec.stored, List.length_drop, List.length_map] at hfits
  have := Bool.toNat_le t.shown
  omega

end Saf.Holds

/-- Nothing arrives and the drain side is ready. -/
structure SafIn.Quiet (i : SafIn ρ) : Prop where
  tvalid : i.tvalid = false
  decValid : i.decValid = false
  tready : i.tready = true

/-! ## The queue over whole runs -/

/-- The beats of the accepted frames, in the order of their decisions. -/
def acceptedBeats (l : List (SafDecision ρ)) : List (Beat × ρ) :=
  (l.filter SafDecision.accepted).flatMap SafDecision.tagged

@[simp] theorem acceptedBeats_append (l m : List (SafDecision ρ)) :
    acceptedBeats (l ++ m) = acceptedBeats l ++ acceptedBeats m := by
  rw [acceptedBeats, List.filter_append, List.flatMap_append]
  rfl

/-- Every beat that enters the queue stays in it until it is sent, and every frame
that arrives is decided once. -/
structure SafSpec.Conserves (t : SafSpec ρ) (out : List (Beat × ρ))
    (arrived : List (List Beat × Bool × ρ)) : Prop where
  shown : t.shown = true → t.queue ≠ []
  queue : out ++ t.queue = acceptedBeats t.decided
  decided : t.decided.map (fun d => (d.frame, d.keep, d.tag)) = arrived

namespace SafSpec

theorem conserves_init (ρ : Type) : ({} : SafSpec ρ).Conserves [] [] :=
  { shown := by intro h; cases h
    queue := rfl
    decided := rfl }

/-- The write side of a cycle appends to the queue what it decides. -/
theorem write_appends (aw daw : ℕ) (t : SafSpec ρ) (i : SafIn ρ) :
    ∃ d, (t.write aw daw i).queue = t.queue ++ acceptedBeats d ∧
      (t.write aw daw i).decided = t.decided ++ d ∧
      d.map (fun d => (d.frame, d.keep, d.tag)) =
        (if i.decValid then [(t.cur, i.decKeep, i.decTag)] else []) := by
  rw [write]
  split
  · refine ⟨[t.decision daw i], ?_, rfl, rfl⟩
    cases hacc : (t.decision daw i).accepted with
    | false => simp [acceptedBeats, hacc]
    | true => simp [acceptedBeats, hacc]
  · split
    · exact ⟨[], by simp [acceptedBeats], by simp, rfl⟩
    · exact ⟨[], by simp [acceptedBeats], by simp, rfl⟩

/-- One cycle adds the beat that is sent and the frame that is decided. -/
theorem Conserves.step (aw daw : ℕ) {t : SafSpec ρ} {out : List (Beat × ρ)}
    {arrived : List (List Beat × Bool × ρ)} (h : t.Conserves out arrived) (i : SafIn ρ) :
    (t.step aw daw i).Conserves (out ++ (t.sent i).toList)
      (arrived ++ if i.decValid then [(t.cur, i.decKeep, i.decTag)] else []) := by
  obtain ⟨d, hqueue, hdecided, hmap⟩ := t.write_appends aw daw i
  have hsent : (t.sent i).toList ++ (t.step aw daw i).queue = (t.write aw daw i).queue := by
    rw [sent, SafSpec.step, drain]
    by_cases hc : t.consume i = true
    · obtain ⟨x, q, hq⟩ := List.exists_cons_of_ne_nil (h.shown (shown_of_consume hc))
      simp [hc, hqueue, hq]
    · simp [hc]
  refine ⟨?_, ?_, ?_⟩
  · intro hshown hnil
    rw [hnil, List.append_nil, hqueue] at hsent
    -- at most the beat that is taken was queued, so nothing is left to show
    have hstored : t.stored = [] := by
      rw [stored, List.drop_eq_nil_iff, List.length_map]
      have hlen := congrArg List.length hsent
      rw [List.length_append, sent] at hlen
      by_cases hc : t.consume i = true
      · have hone : (t.queue.head?).toList.length ≤ 1 := by
          cases t.queue.head? with
          | none => exact Nat.zero_le _
          | some x => exact Nat.le_refl _
        rw [if_pos hc] at hlen
        rw [shown_of_consume hc, Bool.toNat_true]
        omega
      · rw [if_neg hc, Option.toList_none, List.length_nil] at hlen
        omega
    change (t.fetch i || ((t.write aw daw i).shown && !t.consume i)) = true at hshown
    rw [shown_write, Bool.or_eq_true, Bool.and_eq_true, Bool.not_eq_true'] at hshown
    cases hshown with
    | inl hf =>
      rw [fetch, hstored] at hf
      cases hf
    | inr hs =>
      rw [sent, hs.2] at hsent
      exact h.shown hs.1 (List.append_eq_nil_iff.mp hsent.symm).1
  · rw [List.append_assoc, hsent, hqueue, ← List.append_assoc, h.queue]
    show _ = acceptedBeats (t.write aw daw i).decided
    rw [hdecided, acceptedBeats_append]
  · show (t.write aw daw i).decided.map _ = _
    rw [hdecided, List.map_append, h.decided, hmap]

theorem cur_step (t : SafSpec ρ) (i : SafIn ρ) :
    (t.step aw daw i).cur =
      if i.decValid then [] else if i.tvalid then t.cur ++ [i.beat] else t.cur := by
  show (t.write aw daw i).cur = _
  rw [write]
  split
  · rfl
  · split
    · rfl
    · rfl

/-- **The law of the queue**: over a run every beat of an accepted frame is sent or
still queued, in order. -/
theorem Conserves.run (aw daw : ℕ) {t : SafSpec ρ} {out : List (Beat × ρ)}
    {arrived : List (List Beat × Bool × ρ)} (h : t.Conserves out arrived) (l : List (SafIn ρ)) :
    (Lib.run (SafSpec.step aw daw) t l).Conserves
      (out ++ outputs SafSpec.sent (SafSpec.step aw daw) t l) (arrived ++ safArrivals t.cur l) := by
  induction l generalizing t out arrived with
  | nil => simpa [safArrivals] using h
  | cons i l ih =>
    have hnext := ih (h.step aw daw i)
    rw [cur_step] at hnext
    rw [run_cons, outputs_cons, ← List.append_assoc]
    have harrivals : (arrived ++ if i.decValid then [(t.cur, i.decKeep, i.decTag)] else []) ++
        safArrivals (if i.decValid then [] else if i.tvalid then t.cur ++ [i.beat] else t.cur) l =
        arrived ++ safArrivals t.cur (i :: l) := by
      rw [List.append_assoc, safArrivals]
      cases hd : i.decValid with
      | false => simp
      | true => simp
    rw [harrivals] at hnext
    exact hnext

/-! ## Draining -/

/-- A quiet cycle takes a beat out of the queue and shows the next. -/
theorem step_quiet (aw daw : ℕ) (t : SafSpec ρ) {i : SafIn ρ} (hi : i.Quiet) :
    t.step aw daw i =
      { t with
        queue := if t.shown then t.queue.tail else t.queue
        shown := !(if t.shown then t.queue.tail else t.queue).isEmpty
        overflowDrop := false } := by
  have hw : t.write aw daw i = { t with overflowDrop := false } := by
    simp [write, hi.tvalid, hi.decValid]
  rw [SafSpec.step, hw]
  cases hs : t.shown with
  | false => simp [drain, consume, fetch, stored, hi.tready, hs]
  | true => simp [drain, consume, fetch, stored, hi.tready, hs, ← List.map_tail]

/-- While the first beat is shown, each quiet cycle takes one. -/
theorem run_quiet_of_shown (aw daw : ℕ) {t : SafSpec ρ} (ht : t.shown = !t.queue.isEmpty)
    {l : List (SafIn ρ)} (hl : ∀ i ∈ l, i.Quiet) :
    (Lib.run (SafSpec.step aw daw) t l).queue = t.queue.drop l.length ∧
      (Lib.run (SafSpec.step aw daw) t l).decided = t.decided := by
  induction l generalizing t with
  | nil => exact ⟨rfl, rfl⟩
  | cons i l ih =>
    have htail : (if t.shown then t.queue.tail else t.queue) = t.queue.tail := by
      rw [ht]
      cases t.queue with
      | nil => rfl
      | cons x q => rfl
    have hstep := t.step_quiet aw daw (hl i List.mem_cons_self)
    rw [htail] at hstep
    rw [run_cons, hstep]
    obtain ⟨hq, hd⟩ := ih (t := { t with
        queue := t.queue.tail, shown := !t.queue.tail.isEmpty, overflowDrop := false }) rfl
      fun j hj => hl j (List.mem_cons_of_mem _ hj)
    refine ⟨?_, hd⟩
    rw [hq, List.length_cons, List.drop_tail]

/-- Quiet cycles empty the queue. -/
theorem run_quiet (aw daw : ℕ) (t : SafSpec ρ) {l : List (SafIn ρ)} (hl : ∀ i ∈ l, i.Quiet)
    (hlen : t.queue.length < l.length) :
    (Lib.run (SafSpec.step aw daw) t l).queue = [] ∧
      (Lib.run (SafSpec.step aw daw) t l).decided = t.decided := by
  cases l with
  | nil => cases hlen
  | cons i l =>
    have hstep := t.step_quiet aw daw (hl i List.mem_cons_self)
    have hshown : (t.step aw daw i).shown = !(t.step aw daw i).queue.isEmpty := by rw [hstep]
    have hle : (t.step aw daw i).queue.length ≤ t.queue.length := by
      rw [hstep]
      show (if t.shown then t.queue.tail else t.queue).length ≤ t.queue.length
      split
      · rw [List.length_tail]
        exact Nat.sub_le _ _
      · exact Nat.le_refl _
    obtain ⟨hq, hd⟩ := run_quiet_of_shown aw daw hshown
      fun j hj => hl j (List.mem_cons_of_mem _ hj)
    rw [run_cons, hq, hd, List.drop_eq_nil_iff, hstep]
    rw [List.length_cons] at hlen
    rw [hstep] at hle
    exact ⟨by omega, rfl⟩

end SafSpec

/-! ## The contract of the buffer -/

/-- A reset buffer is an empty queue. -/
theorem Saf.Reset.holds {s : Saf aw daw ρ} (h : s.Reset) : s.Holds .streaming {} [] :=
  { shape := by simp [SafPhase.Shape, Unended]
    fits := by simp [SafSpec.stored]
    wrCommit := by simp [SafSpec.stored, h.wrCommit, h.rdPtr]
    wrSpec := by simp [SafSpec.stored, h.wrSpec, h.rdPtr]
    beats := RingAt.nil
    aborted := h.aborted
    written := fun _ => rfl
    fresh := fun _ => rfl
    tagsFit := Nat.zero_le _
    descWr := by simp [SafSpec.tags, h.descWr, h.descRd]
    descs := RingAt.nil
    agree := trivial
    dvalid := h.dvalid
    dbeat := by intro hshown; cases hshown
    overflowDrop := h.overflowDrop }

/-- **The circuit refines the queue** over every run that keeps the contract. -/
theorem Saf.Reset.refines [Zero ρ] {s : Saf aw daw ρ} (h : s.Reset) {l : List (SafIn ρ)}
    (hl : SafContract l) :
    (∃ w, (run Saf.step s l).Holds (run SafPhase.next .streaming l)
      (run (SafSpec.step aw daw) {} l) w) ∧
    outputs Saf.sent Saf.step s l = outputs SafSpec.sent (SafSpec.step aw daw) {} l := by
  refine Follows.simulation (R := fun p s t => ∃ w, Saf.Holds p s t w) ?_ hl ⟨[], h.holds⟩
  intro p s t i hi hst
  obtain ⟨w, hw⟩ := hst
  exact hw.step hi

/-- What the buffer guarantees after the cycles `ins`, in terms of the queue. -/
structure SafLaw [Zero ρ] (s : Saf aw daw ρ) (ins : List (SafIn ρ)) : Prop where
  /-- Each frame is decided once, in order. -/
  decided : (run (SafSpec.step aw daw) {} ins).decided.map (fun d => (d.frame, d.keep, d.tag)) =
    safArrivals [] ins
  /-- What was drained, with what is queued, is the accepted frames. -/
  drained : outputs Saf.sent Saf.step s ins ++ (run (SafSpec.step aw daw) {} ins).queue =
    acceptedBeats (run (SafSpec.step aw daw) {} ins).decided
  /-- No queued beat is overwritten. -/
  stored : RingAt (run Saf.step s ins).mem (run Saf.step s ins).rdPtr
    (run (SafSpec.step aw daw) {} ins).stored
  /-- Between frames nothing else takes space. -/
  released : (run (SafSpec.step aw daw) {} ins).cur = [] →
    (run Saf.step s ins).wrSpec - (run Saf.step s ins).rdPtr =
      BitVec.ofNat (aw + 1) (run (SafSpec.step aw daw) {} ins).stored.length
  /-- A kept frame that is dropped is reported. -/
  reported : (run Saf.step s ins).overflowDrop = (run (SafSpec.step aw daw) {} ins).overflowDrop
  /-- Quiet cycles drain all of it. -/
  empties : ∀ quiet : List (SafIn ρ), (∀ i ∈ quiet, i.Quiet) → SafContract (ins ++ quiet) →
    2 ^ aw + 2 ≤ quiet.length →
    outputs Saf.sent Saf.step s (ins ++ quiet) =
      acceptedBeats (run (SafSpec.step aw daw) {} ins).decided

/-- **The buffer's contract**: from a reset, over every run that keeps the timing
contract and with any pattern of drain-side ready. -/
theorem saf_contract [Zero ρ] {s : Saf aw daw ρ} (hs : s.Reset) {ins : List (SafIn ρ)}
    (hins : SafContract ins) : SafLaw s ins := by
  obtain ⟨⟨w, hw⟩, hout⟩ := hs.refines hins
  have hqueue := (SafSpec.conserves_init ρ).run aw daw ins
  simp only [List.nil_append] at hqueue
  exact
    { decided := hqueue.decided
      drained := by
        rw [hout]
        exact hqueue.queue
      stored := hw.beats.of_append
      released := by
        intro hcur
        rw [hw.wrSpec, hw.fresh hcur, BitVec.add_comm, BitVec.add_sub_cancel]
        rfl
      reported := hw.overflowDrop
      empties := by
        intro quiet hq hcontract hlen
        obtain ⟨-, houts⟩ := hs.refines hcontract
        have hall := (SafSpec.conserves_init ρ).run aw daw (ins ++ quiet)
        have hshort : (run (SafSpec.step aw daw) {} ins).queue.length < quiet.length := by
          have := hw.length_queue_le
          omega
        obtain ⟨hnil, hdecided⟩ := SafSpec.run_quiet aw daw _ hq hshort
        have hlaw := hall.queue
        rw [run_append, hnil, hdecided, List.append_nil, List.nil_append] at hlaw
        rw [houts, hlaw] }

/-- A cycle with a beat, the drain side not ready. -/
def sampleSafBeat (d : BitVec 64) (last : Bool) : SafIn (BitVec 5) :=
  { beat := { tdata := d, tkeep := 0xff, tlast := last }, tvalid := true, decValid := false
    decKeep := false, decTag := 0, tready := false }

/-- A cycle with a decision. -/
def sampleSafDecision (keep : Bool) (tag : BitVec 5) : SafIn (BitVec 5) :=
  { beat := {}, tvalid := false, decValid := true, decKeep := keep, decTag := tag, tready := false }

/-- A cycle in which only the drain side moves. -/
def sampleSafQuiet : SafIn (BitVec 5) :=
  { beat := {}, tvalid := false, decValid := false, decKeep := false, decTag := 0, tready := true }

/-- A kept frame of two beats, a discarded one, and a kept one too long for the
four beats of the buffer. -/
def sampleSafFrames : List (SafIn (BitVec 5)) :=
  [sampleSafBeat 1 false, sampleSafBeat 2 true, sampleSafDecision true 7,
    sampleSafBeat 3 true, sampleSafDecision false 8,
    sampleSafBeat 4 false, sampleSafBeat 5 false, sampleSafBeat 6 false, sampleSafBeat 7 false,
    sampleSafBeat 8 true, sampleSafDecision true 9]

/-- A buffer of four beats and two descriptors after a reset. -/
def sampleSaf : Saf 2 1 (BitVec 5) :=
  { mem := fun _ => {}, rdPtr := 0, wrCommit := 0, wrSpec := 0, aborted := false
    desc := fun _ => 0, descRd := 0, descWr := 0, overflowDrop := false, dbeat := {}
    dvalid := false }

/-- Only the first of the three frames is drained, with its tag. -/
theorem saf_contract_sample :
    outputs Saf.sent Saf.step sampleSaf (sampleSafFrames ++ List.replicate 6 sampleSafQuiet) =
      [({ tdata := 1, tkeep := 0xff, tlast := false }, 7),
        ({ tdata := 2, tkeep := 0xff, tlast := true }, 7)] := by
  have hreset : sampleSaf.Reset := ⟨rfl, rfl, rfl, rfl, rfl, rfl, rfl, rfl⟩
  have hcontract : SafContract sampleSafFrames := by
    simp [SafContract, Follows, sampleSafFrames, SafPhase.allow, SafPhase.next, sampleSafBeat,
      sampleSafDecision]
  have hall : SafContract (sampleSafFrames ++ List.replicate 6 sampleSafQuiet) := by
    apply hcontract.append
    simp [Follows, sampleSafFrames, SafPhase.allow, SafPhase.next, sampleSafBeat,
      sampleSafDecision, sampleSafQuiet, run, List.replicate]
  have hquiet : ∀ i ∈ List.replicate 6 sampleSafQuiet, i.Quiet := by
    intro i hi
    rw [List.eq_of_mem_replicate hi]
    exact ⟨rfl, rfl, rfl⟩
  rw [(saf_contract hreset hcontract).empties _ hquiet hall (by decide)]
  decide +kernel

end PacketWyrm
