import PacketWyrm.EnvConfig
import PacketWyrm.Lib.QuotedScalar

/-!
# The secret in a configuration text

The daemon blanks the shared secret out of the text of its environment file, and puts it back
into a text, by a scan for lines that begin with the key; it never looks at the tree.  When it
blanks out it reads at most 1023 bytes at a time, and when it puts back it leaves lines alone
that are longer.

## Main definitions

* `textLines`, `lineReads` — lines, and how they are read.
* `secretLineIndent` — the scan.
* `buildConfigGetRaw`, `yamlRewriteSecret` — the secret cut out and put back.
* `respell` — a file with the secret in double quotes.

## Main results

* `textLines_flatMap` — the lines of a text whose lines were rewritten.
* `buildConfigGetRaw_yaml` — what is returned is the file respelled with the placeholder.
* `yamlRewriteSecret_respell` — what is put back is the file respelled with the secret.
-/

namespace PacketWyrm

open Lib

/-! ## Lines -/

section Lines

/-- Cut a text behind every part that is `full`; `cur` is the part so far. -/
def cutFrom (full : List Byte → Bool) : List Byte → List Byte → List (List Byte)
  | cur, [] => if cur = [] then [] else [cur]
  | cur, b :: r =>
    if full (cur ++ [b]) then (cur ++ [b]) :: cutFrom full [] r else cutFrom full (cur ++ [b]) r

/-- The lines of a text, each with its newline. -/
def textLines (text : List Byte) : List (List Byte) :=
  cutFrom (fun l => l.getLast? == some 0x0A) [] text

/-- What `fgets` reads of a line into `line[1024]`, call by call. -/
def lineReads (line : List Byte) : List (List Byte) :=
  cutFrom (fun l => 1023 ≤ l.length) [] line

theorem flatten_cutFrom (full : List Byte → Bool) (cur r : List Byte) :
    (cutFrom full cur r).flatten = cur ++ r := by
  induction r generalizing cur with
  | nil =>
    rw [cutFrom]
    split
    · simp_all
    · simp
  | cons b r ih =>
    rw [cutFrom]
    split
    · rw [List.flatten_cons, ih, List.nil_append, List.append_assoc, List.singleton_append]
    · rw [ih, List.append_assoc, List.singleton_append]

/-- A part that is not cut. -/
theorem cutFrom_eq_singleton {full : List Byte → Bool} {cur r : List Byte} (hne : cur ++ r ≠ [])
    (hfull : ∀ l, l <+: r → l ≠ r → l ≠ [] → full (cur ++ l) = false) :
    cutFrom full cur r = [cur ++ r] := by
  induction r generalizing cur with
  | nil =>
    rw [List.append_nil] at hne
    rw [cutFrom, if_neg hne, List.append_nil]
  | cons b r ih =>
    by_cases hr : r = []
    · subst hr
      rw [cutFrom]
      split
      · rfl
      · rw [cutFrom, if_neg (by simp)]
    · have hb : full (cur ++ [b]) = false :=
        hfull [b] (by simp) (fun h => hr (List.cons.inj h).2.symm) (by simp)
      rw [cutFrom, if_neg (by simp [hb]), ih (by simp) ?_, List.append_assoc, List.singleton_append]
      intro l hl hlne hlnil
      rw [List.append_assoc, List.singleton_append]
      exact hfull (b :: l) (by simpa using hl) (by simpa using hlne) (by simp)

/-- A line that fits is read at once. -/
theorem lineReads_of_lt {line : List Byte} (hne : line ≠ []) (hlen : line.length < 1024) :
    lineReads line = [line] := by
  refine cutFrom_eq_singleton hne fun l hl hlne _ => ?_
  have hle := hl.length_le
  have hlt : l.length ≠ line.length := fun h => hlne (hl.eq_of_length h)
  rw [List.nil_append, decide_eq_false_iff_not]
  omega

/-- A line with its newline. -/
def IsLine (l : List Byte) : Prop := ∃ body, 0x0A ∉ body ∧ l = body ++ [0x0A]

/-- The part that is being read goes on up to a newline. -/
theorem textLines_cons_aux {cur body r : List Byte} (hbody : 0x0A ∉ body) :
    cutFrom (fun l => l.getLast? == some 0x0A) cur (body ++ [0x0A] ++ r) =
      (cur ++ body ++ [0x0A]) :: textLines r := by
  induction body generalizing cur with
  | nil =>
    rw [List.nil_append, List.singleton_append, cutFrom, if_pos (by simp), List.append_nil,
      textLines]
  | cons b body ih =>
    rw [List.mem_cons, not_or] at hbody
    rw [List.cons_append, List.cons_append, cutFrom, if_neg (by simpa using Ne.symm hbody.1),
      ih hbody.2]
    simp

theorem textLines_append {Ls : List (List Byte)} (hLs : ∀ l ∈ Ls, IsLine l) (r : List Byte) :
    textLines (Ls.flatten ++ r) = Ls ++ textLines r := by
  induction Ls with
  | nil => rfl
  | cons l Ls ih =>
    obtain ⟨body, hbody, rfl⟩ := hLs l List.mem_cons_self
    rw [List.flatten_cons, List.append_assoc, textLines, textLines_cons_aux hbody,
      ih fun l hl => hLs l (List.mem_cons_of_mem _ hl)]
    rfl

/-- A text without a newline is one line. -/
theorem textLines_of_notMem {r : List Byte} (hr : 0x0A ∉ r) (hne : r ≠ []) : textLines r = [r] := by
  refine cutFrom_eq_singleton hne fun l hl _ hlnil => ?_
  rw [List.nil_append, List.getLast?_eq_some_getLast hlnil, beq_eq_false_iff_ne]
  intro h
  exact hr (hl.subset (Option.some.inj h ▸ List.getLast_mem hlnil))

/-- **A text is lines** and what comes behind the last newline. -/
theorem exists_lines (text : List Byte) :
    ∃ (Ls : List (List Byte)) (r : List Byte),
      (∀ l ∈ Ls, IsLine l) ∧ 0x0A ∉ r ∧ text = Ls.flatten ++ r := by
  induction text with
  | nil => exact ⟨[], [], fun _ h => absurd h List.not_mem_nil, List.not_mem_nil, rfl⟩
  | cons b text ih =>
    obtain ⟨Ls, r, hLs, hr, rfl⟩ := ih
    by_cases hb : b = 0x0A
    · refine ⟨[b] :: Ls, r, ?_, hr, rfl⟩
      intro l hl
      rcases List.mem_cons.mp hl with rfl | hl
      · exact ⟨[], List.not_mem_nil, by rw [hb]; rfl⟩
      · exact hLs l hl
    · cases Ls with
      | nil =>
        refine ⟨[], b :: r, hLs, fun h => ?_, rfl⟩
        exact (List.mem_cons.mp h).elim (fun h => hb h.symm) hr
      | cons l Ls =>
        obtain ⟨body, hbody, rfl⟩ := hLs l List.mem_cons_self
        refine ⟨(b :: body ++ [0x0A]) :: Ls, r, ?_, hr, by simp⟩
        intro l hl
        rcases List.mem_cons.mp hl with rfl | hl
        · exact ⟨b :: body, fun h => (List.mem_cons.mp h).elim (fun h => hb h.symm) hbody, rfl⟩
        · exact hLs l (List.mem_cons_of_mem _ hl)

/-- **Lines that are rewritten into lines**: what has no newline at its end may get one. -/
theorem textLines_flatMap {f : List Byte → List Byte} (hline : ∀ l, IsLine l → IsLine (f l))
    (hrest : ∀ l, 0x0A ∉ l → IsLine (f l) ∨ f l = l) (text : List Byte) :
    textLines ((textLines text).flatMap f) = (textLines text).map f := by
  obtain ⟨Ls, r, hLs, hr, rfl⟩ := exists_lines text
  have hmap : ∀ l ∈ Ls.map f, IsLine l := by
    intro l hl
    obtain ⟨l', hl', rfl⟩ := List.mem_map.mp hl
    exact hline l' (hLs l' hl')
  rw [textLines_append hLs, List.flatMap_append, List.map_append, List.flatMap_def,
    textLines_append hmap]
  congr 1
  by_cases hnil : r = []
  · subst hnil
    rfl
  · rw [textLines_of_notMem hr hnil, List.flatMap_singleton, List.map_singleton]
    rcases hrest r hr with h | h
    · have happ := textLines_append (by simpa using h : ∀ l ∈ [f r], IsLine l) []
      rw [List.flatten_singleton, List.append_nil] at happ
      exact happ
    · rw [h, textLines_of_notMem hr hnil]

end Lines

/-! ## The secret cut out and put back -/

/-- `PW_SECRET_REDACTED`. -/
def pwSecretRedacted : List Byte := ascii "***"

/-- A space or a tab. -/
def isBlank (b : Byte) : Bool := b == 0x20 || b == 0x09

/-- `secret_line_indent`. -/
def secretLineIndent (line : List Byte) : Option ℕ :=
  let p := line.dropWhile isBlank
  if p.take 6 = ascii "secret" ∧ ((p.drop 6).dropWhile isBlank).head? = some 0x3A then
    some (line.length - p.length)
  else none

/-- The text of a secret line: indentation, key and the value in quotes. -/
def secretLine (indent : ℕ) (value : List Byte) : List Byte :=
  List.replicate indent 0x20 ++ (ascii "secret: \"" ++ (value ++ [quote]))

/-- What `config.get_raw` puts for one string that it has read. -/
def redactLine (line : List Byte) : List Byte :=
  match secretLineIndent line with
  | some indent => secretLine (min indent 32) pwSecretRedacted ++ [0x0A]
  | none => line

/-- The answer of `config.get_raw`. -/
structure RawReply where
  yaml : List Byte
  secretSet : Bool

/-- `build_config_get_raw`, of a file that can be opened. -/
def buildConfigGetRaw (sys : PwSystem) (file : List Byte) : RawReply :=
  { yaml := ((textLines file).flatMap lineReads).flatMap fun l => redactLine (cString l)
    secretSet := sys.secret != [] }

/-- The loop that escapes the secret, as far as `esc` has room. -/
def escLoop : List Byte → List Byte → List Byte
  | esc, [] => esc
  | esc, b :: s =>
    if esc.length + 2 < pwSecretMax * 2 + 1 then
      escLoop (esc ++ if b = backslash ∨ b = quote then [backslash, b] else [b]) s
    else esc

/-- What `yaml_rewrite_secret` emits for one line. -/
def rewriteLine (esc line : List Byte) : List Byte :=
  if line.length < 1024 then
    match secretLineIndent line with
    | some indent =>
      secretLine (min indent 64) esc ++ if line.getLast? = some 0x0A then [0x0A] else []
    | none => line
  else line

/-- `yaml_rewrite_secret`. -/
def yamlRewriteSecret (yaml sec : List Byte) : List Byte :=
  (textLines yaml).flatMap (rewriteLine (escLoop [] sec))

/-! ## What the scan does -/

/-- The key is found behind spaces. -/
theorem secretLineIndent_key (n : ℕ) (r : List Byte) :
    secretLineIndent (List.replicate n 0x20 ++ (ascii "secret:" ++ r)) = some n := by
  have hdrop : (List.replicate n 0x20 ++ (ascii "secret:" ++ r)).dropWhile isBlank =
      ascii "secret:" ++ r := by
    rw [List.dropWhile_append_of_pos]
    · rfl
    · intro b hb
      rw [List.eq_of_mem_replicate hb]
      rfl
  rw [secretLineIndent, hdrop, if_pos ⟨rfl, rfl⟩, List.length_append, List.length_replicate,
    Nat.add_sub_cancel]

/-- A secret line is found again. -/
theorem secretLineIndent_secretLine (n : ℕ) (value r : List Byte) :
    secretLineIndent (secretLine n value ++ r) = some n := by
  have hkey : ascii "secret: \"" = ascii "secret:" ++ ascii " \"" := by decide
  rw [secretLine, hkey, List.append_assoc, List.append_assoc, List.append_assoc]
  exact secretLineIndent_key n _

theorem isLine_secretLine (n : ℕ) {value : List Byte} (hvalue : 0x0A ∉ value) :
    IsLine (secretLine n value ++ [0x0A]) := by
  refine ⟨secretLine n value, ?_, rfl⟩
  rw [secretLine]
  simp only [List.mem_append, not_or]
  refine ⟨fun h => ?_, by decide, hvalue, by decide⟩
  have := List.eq_of_mem_replicate h
  cases this

/-- The escape loop has room for a secret. -/
theorem escLoop_append {s esc : List Byte} (h : esc.length + 2 * s.length ≤ pwSecretMax * 2 - 2) :
    escLoop esc s = esc ++ escape s := by
  induction s generalizing esc with
  | nil => exact (List.append_nil esc).symm
  | cons b s ih =>
    rw [pwSecretMax, List.length_cons] at h
    rw [escLoop, if_pos (by rw [pwSecretMax]; omega), ih, escape, escape, List.flatMap_cons,
      List.append_assoc]
    rw [pwSecretMax, List.length_append]
    split_ifs <;> simp only [List.length_cons, List.length_nil] <;> omega

theorem escLoop_eq {s : List Byte} (h : s.length ≤ pwSecretMax - 1) : escLoop [] s = escape s := by
  rw [escLoop_append, List.nil_append]
  rw [pwSecretMax] at h ⊢
  rw [List.length_nil]
  omega

/-- A line with its value, when it is one of the secret, rewritten. -/
def respellLine (value line : List Byte) : List Byte :=
  if line.length < 1024 then
    match secretLineIndent line with
    | some indent => secretLine (min indent 32) value ++ [0x0A]
    | none => line
  else line

/-- **A file respelled**: the secret written in double quotes on its lines. -/
def respell (file value : List Byte) : List Byte :=
  (textLines file).flatMap (respellLine value)

/-- Lines that are read in several calls have no part that looks like a secret line. -/
def LongLinesPlain (file : List Byte) : Prop :=
  ∀ l ∈ textLines file, 1024 ≤ l.length → ∀ c ∈ lineReads l, secretLineIndent c = none

theorem ne_nil_of_mem_cutFrom {full : List Byte → Bool} {cur r l : List Byte}
    (h : l ∈ cutFrom full cur r) : l ≠ [] := by
  induction r generalizing cur with
  | nil =>
    rw [cutFrom] at h
    split at h
    · exact absurd h List.not_mem_nil
    · rename_i hcur
      rwa [List.mem_singleton.mp h]
  | cons b r ih =>
    rw [cutFrom] at h
    split at h
    · rcases List.mem_cons.mp h with rfl | h
      · simp
      · exact ih h
    · exact ih h

/-- What is read of a line adds up to the line. -/
theorem flatten_lineReads (line : List Byte) : (lineReads line).flatten = line :=
  flatten_cutFrom _ [] line

theorem flatten_textLines (text : List Byte) : (textLines text).flatten = text :=
  flatten_cutFrom _ [] text

theorem mem_of_mem_lineReads {text l c : List Byte} (hl : l ∈ textLines text)
    (hc : c ∈ lineReads l) {b : Byte} (hb : b ∈ c) : b ∈ text := by
  rw [← flatten_textLines text, List.mem_flatten]
  refine ⟨l, hl, ?_⟩
  rw [← flatten_lineReads l, List.mem_flatten]
  exact ⟨c, hc, hb⟩

/-- **What `config.get_raw` returns** is the file respelled with the placeholder. -/
theorem buildConfigGetRaw_yaml {file : List Byte} (hnull : 0 ∉ file) (hlong : LongLinesPlain file)
    (sys : PwSystem) : (buildConfigGetRaw sys file).yaml = respell file pwSecretRedacted := by
  rw [buildConfigGetRaw, respell, List.flatMap_assoc]
  apply List.flatMap_congr
  intro l hl
  have hplain {c : List Byte} (hc : c ∈ lineReads l) : cString c = c :=
    cString_of_notMem fun h => hnull (mem_of_mem_lineReads hl hc h)
  by_cases hlen : l.length < 1024
  · have hreads := lineReads_of_lt (ne_nil_of_mem_cutFrom hl) hlen
    have hl' : cString l = l := hplain (by rw [hreads]; exact List.mem_singleton_self l)
    rw [hreads, List.flatMap_singleton, hl', respellLine, if_pos hlen]
    rfl
  · have hsame : ∀ c ∈ lineReads l, redactLine (cString c) = c := by
      intro c hc
      rw [hplain hc, redactLine, hlong l hl (by omega) c hc]
    rw [respellLine, if_neg hlen, List.flatMap_def, List.map_congr_left hsame, List.map_id',
      flatten_lineReads]

/-- A line rewritten twice. -/
theorem rewriteLine_respellLine (esc value line : List Byte) (hvalue : value.length < 900) :
    rewriteLine esc (respellLine value line) = respellLine esc line := by
  by_cases hlen : line.length < 1024
  · rw [respellLine, respellLine, if_pos hlen, if_pos hlen]
    cases h : secretLineIndent line with
    | none =>
      dsimp only
      rw [rewriteLine, if_pos hlen, h]
    | some indent =>
      dsimp only
      have hkey : (ascii "secret: \"").length = 9 := by decide
      rw [rewriteLine, if_pos, secretLineIndent_secretLine]
      · dsimp only
        rw [List.getLast?_concat, if_pos rfl, Nat.min_eq_left (show min indent 32 ≤ 64 by omega)]
      · rw [secretLine]
        simp only [List.length_append, List.length_replicate, List.length_singleton, hkey]
        omega
  · rw [respellLine, respellLine, if_neg hlen, if_neg hlen, rewriteLine, if_neg hlen]

/-- **The secret put back** where the placeholder is. -/
theorem yamlRewriteSecret_respell (file : List Byte) {sec : List Byte}
    (hsec : sec.length ≤ pwSecretMax - 1) :
    yamlRewriteSecret (respell file pwSecretRedacted) sec = respell file (escape sec) := by
  have hline (l : List Byte) (hl : IsLine l) : IsLine (respellLine pwSecretRedacted l) := by
    rw [respellLine]
    split
    · split
      · exact isLine_secretLine _ (by decide)
      · exact hl
    · exact hl
  have hrest (l : List Byte) (_ : 0x0A ∉ l) :
      IsLine (respellLine pwSecretRedacted l) ∨ respellLine pwSecretRedacted l = l := by
    rw [respellLine]
    split
    · split
      · exact .inl (isLine_secretLine _ (by decide))
      · exact .inr rfl
    · exact .inr rfl
  rw [yamlRewriteSecret, escLoop_eq hsec, respell, textLines_flatMap hline hrest, respell,
    List.flatMap_map]
  apply List.flatMap_congr
  intro l _
  exact rewriteLine_respellLine (escape sec) pwSecretRedacted l (by decide)

end PacketWyrm
