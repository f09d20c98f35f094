import Switchboard.LogFile
import Switchboard.Proofs.Disk.Names

/-!
# What a rotation moves where

* `LogFile.moved`, `numbered_join`: the names of moved logs, which stand beside the log;
* `LogFile.Shelf`: the directory of a log, with nothing but files in it;
* `shift_files`: the logs that were moved before are moved by one;
* `Turned`, `rotate_grown`, `rotate_kept`: what a rotation does to a log that has grown, and to one that has not;
* `Ledger`, `Shelved`: the contents that a log had when it was moved, and a directory that holds the newest of them;
* `rounds_keep_newest`: this is what any number of rounds comes to;
* `Aside`, `shift_aside`: names of a directory, whatever stands there, that a rotation is not about;
* `within_limit_iff`: the limit is kept exactly if it is not zero, and was kept before.

Nothing is lost on the way: each log is moved to a name that has just become free, since the one with the highest number
goes first.
-/

namespace Switchboard.LogFile

open Disk (Place Confined NamesFile SameWays)

/-! ## Names -/

/-- The name of a moved log. -/
def moved (name : String) (i : Nat) : String := name ++ "." ++ toString i

lemma moved_injective {name : String} {i j : Nat} (h : moved name i = moved name j) : i = j := by
  have hlist := congrArg String.toList h
  simp only [moved, String.toList_append] at hlist
  have hdigits : Nat.toDigits 10 i = Nat.toDigits 10 j := by simpa using List.append_cancel_left hlist
  rw [← Nat.ofDigitChars_ten_toDigits (n := i), hdigits, Nat.ofDigitChars_ten_toDigits]

lemma length_moved (name : String) (i : Nat) : name.length + 2 ≤ (moved name i).length := by
  have hdigits : 0 < (Nat.repr i).length := by
    rw [← String.length_toList, Nat.toList_repr]
    exact List.length_pos_iff.mpr Nat.toDigits_ne_nil
  have hlength : (moved name i).length = name.length + 1 + (Nat.repr i).length := by
    simp only [moved, String.length_append]
    rfl
  omega

lemma moved_ne (name : String) (i : Nat) : moved name i ≠ name := by
  intro h
  have hlength := length_moved name i
  rw [h] at hlength
  omega

/-- The log, and the logs moved up to a number, have names that files can have. -/
structure Fits (name : String) (n : Nat) : Prop where
  plain : Path.Plain name
  short : ∀ i ≤ n, (moved name i).utf8ByteSize ≤ 255

lemma Fits.mono {name : String} {m n : Nat} (h : Fits name n) (hm : m ≤ n) : Fits name m :=
  ⟨h.plain, fun i hi => h.short i (hi.trans hm)⟩

lemma Fits.moved {name : String} {n : Nat} (h : Fits name n) {i : Nat} (hi : i ≤ n) : Path.Plain (moved name i) := by
  have hdigits : ∀ c ∈ (Nat.repr i).toList, c.isDigit = true := by
    intro c hc
    rw [Nat.toList_repr] at hc
    exact Nat.isDigit_of_mem_toDigits (by decide) (by decide) hc
  have hnot : ∀ c : Char, c ∉ name.toList → c ≠ '.' → c.isDigit = false → c ∉ (LogFile.moved name i).toList := by
    intro c hname hdot hc hmem
    simp only [LogFile.moved, String.toList_append, List.mem_append] at hmem
    rcases hmem with (hmem | hmem) | hmem
    · exact hname hmem
    · exact hdot (List.mem_singleton.mp hmem)
    · rw [hdigits c hmem] at hc
      cases hc
  have hlength := length_moved name i
  have hne : name.length ≠ 0 := by
    intro hzero
    exact h.plain.proper.1 (String.length_eq_zero_iff.mp hzero)
  have hproper : ∀ t : String, t.length ≤ 2 → LogFile.moved name i ≠ t := by
    rintro t ht rfl
    omega
  exact ⟨hnot _ h.plain.slash (by decide) (by decide), hnot _ h.plain.nul (by decide) (by decide),
    ⟨hproper _ (by decide), hproper _ (by decide), hproper _ (by decide)⟩, h.short i hi⟩

/-- The log of the program fits, however many logs are kept. -/
lemma fits_name {n : Nat} (h : n < 2 ^ 32) : Fits name n := by
  have hbytes : ∀ cs : List Char, String.utf8Len cs ≤ 4 * cs.length := by
    intro cs
    induction cs with
    | nil => simp
    | cons c rest ih =>
      have hchar := c.utf8Size_le_four
      rw [String.utf8Len_cons, List.length_cons]
      omega
  refine ⟨by constructor <;> decide, fun i hi => ?_⟩
  have hdigits : (Nat.repr i).length ≤ 10 := Nat.repr_length i 10 (by decide) (by omega)
  have hsize : (Nat.repr i).utf8ByteSize ≤ 4 * (Nat.repr i).length := by
    have hlist := hbytes (Nat.repr i).toList
    rwa [← String.utf8ByteSize_ofList, String.ofList_toList, String.length_toList] at hlist
  have hall : (moved name i).utf8ByteSize = 10 + (Nat.repr i).utf8ByteSize := by
    simp only [moved, String.utf8ByteSize_append]
    rfl
  omega

/-! ## The directory of a log -/

variable {directory : Path} {name : String} {parent : Place} {d d' : Disk} {n : Nat}

lemma numbered_join (h : Path.Plain name) (i : Nat) :
    Rotation.numbered (directory.join ⟨name⟩) i = directory.home.join ⟨moved name i⟩ := by
  rw [Rotation.numbered, Path.parent?_join directory h, Path.fileName?_join directory h]
  rfl

/-- A moved log stands beside the log. -/
lemma place_numbered (hfits : Fits name n) {i : Nat} (hi : i ≤ n)
    (h : d.place (directory.join ⟨name⟩) = .ok (parent ++ [name])) :
    d.place (Rotation.numbered (directory.join ⟨name⟩) i) = .ok (parent ++ [moved name i]) := by
  obtain ⟨parent', heq, hplace⟩ := Disk.place_join hfits.plain (hfits.moved hi) h
  obtain rfl := List.append_cancel_right heq
  rw [numbered_join hfits.plain]
  exact (Disk.place_home directory (hfits.moved hi)).trans hplace

/-- The directory of a log is there, and nothing but files is in it. -/
structure Shelf (directory : Path) (name : String) (parent : Place) (d : Disk) : Prop where
  standing : d.Standing
  place : d.place (directory.join ⟨name⟩) = .ok (parent ++ [name])
  files : ∀ x, d.entry? (parent ++ [x]) ≠ some .directory

namespace Shelf

lemma log (h : Shelf directory name parent d) (hname : Path.Plain name) :
    d.NamesFile (directory.join ⟨name⟩) (parent ++ [name]) := ⟨h.place, Disk.demandsDirectory_join directory hname⟩

lemma numbered (h : Shelf directory name parent d) (hfits : Fits name n) {i : Nat} (hi : i ≤ n) :
    d.NamesFile (Rotation.numbered (directory.join ⟨name⟩) i) (parent ++ [moved name i]) := by
  refine ⟨place_numbered hfits hi h.place, ?_⟩
  rw [numbered_join hfits.plain]
  exact Disk.demandsDirectory_join _ (hfits.moved hi)

lemma leads (h : Shelf directory name parent d) : d.Leads parent :=
  Disk.reaches_concat.mp (Disk.place_of_ways (fun _ hleads => hleads) rfl h.standing h.place).1

lemma reaches (h : Shelf directory name parent d) (x : String) : d.Reaches (parent ++ [x]) := h.leads.child x

/-- A directory of files is one as long as no directories come or go. -/
lemma ways (h : Shelf directory name parent d) (hways : SameWays d d') : Shelf directory name parent d' := by
  refine ⟨hways.standing h.standing, (hways.place h.standing h.place).2, fun x hx => ?_⟩
  have hleads := (hways.leads _).mpr ((hways.reaches (h.reaches x)).leads hx)
  exact h.files x (hleads _ (List.prefix_refl _))

lemma entry (h : Shelf directory name parent d) (x : String) :
    d.entry? (parent ++ [x]) = none ∨ ∃ content, d.entry? (parent ++ [x]) = some (.file content) := by
  cases hentry : d.entry? (parent ++ [x]) with
  | none => exact .inl rfl
  | some e =>
    cases e with
    | directory => exact absurd hentry (h.files x)
    | file content => exact .inr ⟨content, rfl⟩

end Shelf

/-! ## Moving by one -/

lemma place_eq_iff {x y : String} : parent ++ [x] = parent ++ [y] ↔ x = y := by simp

lemma moved_place_ne {i j : Nat} (h : i ≠ j) : parent ++ [moved name i] ≠ parent ++ [moved name j] := fun heq =>
  h (moved_injective (place_eq_iff.mp heq))

lemma log_place_ne (i : Nat) : parent ++ [name] ≠ parent ++ [moved name i] := fun heq =>
  moved_ne name i (place_eq_iff.mp heq).symm

/-- The place of a log that was moved, up to a number. -/
def MovedPlace (name : String) (parent : Place) (n : Nat) (place : Place) : Prop :=
  ∃ i, 1 ≤ i ∧ i ≤ n ∧ place = parent ++ [moved name i]

lemma movedPlace_iff {i : Nat} : MovedPlace name parent n (parent ++ [moved name i]) ↔ 1 ≤ i ∧ i ≤ n := by
  constructor
  · rintro ⟨j, hj, hjn, heq⟩
    obtain rfl := moved_injective (place_eq_iff.mp heq)
    exact ⟨hj, hjn⟩
  · exact fun ⟨hi, hin⟩ => ⟨i, hi, hin, rfl⟩

/-- One log is moved to the next number, which is free, if it is there. -/
lemma exists_move (hshelf : Shelf directory name parent d) (hfits : Fits name (n + 1))
    (hfree : d.entry? (parent ++ [moved name (n + 1)]) = none) :
    ∃ d', d'.entry? (parent ++ [moved name n]) = none ∧
      d'.entry? (parent ++ [moved name (n + 1)]) = d.entry? (parent ++ [moved name n]) ∧
      Confined (fun place => place = parent ++ [moved name n] ∨ place = parent ++ [moved name (n + 1)]) d d' ∧
      (d.pathExists (Rotation.numbered (directory.join ⟨name⟩) n) = true ∧
        d.rename (Rotation.numbered (directory.join ⟨name⟩) n) (Rotation.numbered (directory.join ⟨name⟩) (n + 1)) = .ok d' ∨
        ¬ d.pathExists (Rotation.numbered (directory.join ⟨name⟩) n) = true ∧ d' = d) := by
  have hsource := hshelf.numbered hfits (Nat.le_succ n)
  have htarget := hshelf.numbered hfits (Nat.le_refl (n + 1))
  rcases hshelf.entry (moved name n) with hnone | ⟨content, hfile⟩
  · have hexists : ¬ d.pathExists (Rotation.numbered (directory.join ⟨name⟩) n) = true := by
      rw [hsource.pathExists, hnone]
      exact Bool.false_ne_true
    exact ⟨d, hnone, by rw [hfree, hnone], .refl _ d, .inr ⟨hexists, rfl⟩⟩
  · have hexists : d.pathExists (Rotation.numbered (directory.join ⟨name⟩) n) = true := by
      rw [hsource.pathExists, hfile]
      rfl
    obtain ⟨d', hrename, hgone, hthere, hconfined⟩ :=
      hsource.rename hshelf.standing hfile htarget (by rw [hfree]; exact nofun) (moved_place_ne (Nat.succ_ne_self n).symm)
    exact ⟨d', hgone, by rw [hthere, hfile], hconfined, .inl ⟨hexists, hrename⟩⟩

/-- Where the number after the last one is free, all moved logs are moved by one. -/
theorem shift_files (hshelf : Shelf directory name parent d) (hfits : Fits name (n + 1))
    (hfree : d.entry? (parent ++ [moved name (n + 1)]) = none) :
    ∃ d', Rotation.shift (directory.join ⟨name⟩) n d = (.ok (), d') ∧
      Confined (MovedPlace name parent (n + 1)) d d' ∧ d'.entry? (parent ++ [moved name 1]) = none ∧
      ∀ i, 1 ≤ i → i ≤ n → d'.entry? (parent ++ [moved name (i + 1)]) = d.entry? (parent ++ [moved name i]) := by
  -- the number that is moved first is free afterwards, so the rest is a shift of its own
  induction n generalizing d with
  | zero => exact ⟨d, rfl, .refl _ d, hfree, fun i hi hin => absurd hin (by omega)⟩
  | succ n ih =>
    obtain ⟨d₁, hgone, hthere, hconfined₁, hstep⟩ := exists_move hshelf hfits hfree
    obtain ⟨d', hshift, hconfined, hfirst, holder⟩ := ih (hshelf.ways hconfined₁.ways) (hfits.mono (Nat.le_succ _)) hgone
    refine ⟨d', ?_, ?_, hfirst, ?_⟩
    · rw [Rotation.shift]
      rcases hstep with ⟨hexists, hrename⟩ | ⟨hexists, rfl⟩
      · rw [if_pos hexists, hrename]
        exact hshift
      · rw [if_neg hexists]
        exact hshift
    · refine (hconfined₁.mono ?_).trans (hconfined.mono ?_)
      · rintro place (rfl | rfl)
        · exact ⟨n + 1, by omega, by omega, rfl⟩
        · exact ⟨n + 2, by omega, by omega, rfl⟩
      · rintro place ⟨i, hi, hin, rfl⟩
        exact ⟨i, hi, by omega, rfl⟩
    · intro i hi hin
      rcases Nat.lt_or_ge n i with hlast | hbefore
      · -- the log with the highest number was moved first
        obtain rfl : i = n + 1 := by omega
        rw [hconfined.rest _ ((hshelf.ways hconfined₁.ways).reaches _) (by rw [movedPlace_iff]; omega), hthere]
      · rw [holder i hi hbefore, hconfined₁.rest _ (hshelf.reaches _)]
        rintro (heq | heq)
        · exact moved_place_ne (by omega) heq
        · exact moved_place_ne (by omega) heq

/-! ## One rotation -/

/-- A log was moved: it is gone, it is the newest of the moved logs, and each of those is what the one before it was. -/
structure Turned (r : Rotation) (name : String) (parent : Place) (d d' : Disk) : Prop where
  log : d'.entry? (parent ++ [name]) = none
  newest : d'.entry? (parent ++ [moved name 1]) = d.entry? (parent ++ [name])
  older : ∀ i, 2 ≤ i → i ≤ r.maxFiles → d'.entry? (parent ++ [moved name i]) = d.entry? (parent ++ [moved name (i - 1)])
  others : Confined (fun place => place = parent ++ [name] ∨ MovedPlace name parent r.maxFiles place) d d'

/-- The log is there, and has grown to the size from which it is moved. -/
def Grown (r : Rotation) (name : String) (parent : Place) (d : Disk) : Prop :=
  ∃ content, d.entry? (parent ++ [name]) = some (.file content) ∧ r.maxSize ≤ content.size

/-- The oldest log makes room. -/
lemma dropOldest_files (r : Rotation) (hshelf : Shelf directory name parent d) (hfits : Fits name r.maxFiles) :
    ∃ d', r.dropOldest (directory.join ⟨name⟩) d = .ok d' ∧ d'.entry? (parent ++ [moved name r.maxFiles]) = none ∧
      Confined (· = parent ++ [moved name r.maxFiles]) d d' := by
  have holdest := hshelf.numbered hfits (Nat.le_refl r.maxFiles)
  rw [Rotation.dropOldest, holdest.pathExists]
  rcases hshelf.entry (moved name r.maxFiles) with hnone | ⟨content, hfile⟩
  · rw [hnone]
    exact ⟨d, rfl, hnone, .refl _ d⟩
  · rw [hfile]
    exact holdest.removeFile hfile

/-- A log that has grown is moved. -/
theorem rotate_grown (r : Rotation) (hkept : 1 ≤ r.maxFiles) (hfits : Fits name r.maxFiles)
    (hshelf : Shelf directory name parent d) (hgrown : Grown r name parent d) :
    ∃ d', r.rotate (directory.join ⟨name⟩) d = (.ok (), d') ∧ Turned r name parent d d' := by
  obtain ⟨content, hfile, hsize⟩ := hgrown
  obtain ⟨n, hn⟩ : ∃ n, r.maxFiles = n + 1 := ⟨r.maxFiles - 1, by omega⟩
  -- the oldest log makes room (`d₁`), the others are moved by one (`d₂`), and the log takes number one (`d₃`)
  obtain ⟨d₁, hdrop, hfree, hconfined₁⟩ := dropOldest_files r hshelf hfits
  have hshelf₁ := hshelf.ways hconfined₁.ways
  rw [hn] at hfits hfree
  obtain ⟨d₂, hshift, hconfined₂, hfirst, holder⟩ := shift_files hshelf₁ hfits hfree
  have hshelf₂ := hshelf₁.ways hconfined₂.ways
  have hfile₁ : d₁.entry? (parent ++ [name]) = some (.file content) := by
    rw [hconfined₁.rest _ (hshelf.reaches _) (log_place_ne _), hfile]
  have hfile₂ : d₂.entry? (parent ++ [name]) = some (.file content) := by
    rw [hconfined₂.rest _ (hshelf₁.reaches _) (fun ⟨i, _, _, heq⟩ => log_place_ne i heq), hfile₁]
  obtain ⟨d₃, hrename, hgone, hthere, hconfined₃⟩ := (hshelf₂.log hfits.plain).rename hshelf₂.standing hfile₂
    (hshelf₂.numbered hfits (by omega)) (by rw [hfirst]; exact nofun) (log_place_ne 1)
  refine ⟨d₃, ?_, hgone, by rw [hthere, hfile], ?_, ?_⟩
  · rw [Rotation.rotate, (hshelf.log hfits.plain).size_file hfile]
    dsimp only
    rw [if_neg (Nat.not_lt.mpr hsize), Rotation.move, hdrop]
    dsimp only
    rw [hn, Nat.add_sub_cancel, hshift]
    dsimp only
    rw [hrename]
    rfl
  · intro i hi hin
    obtain ⟨j, rfl⟩ : ∃ j, i = j + 1 := ⟨i - 1, by omega⟩
    have hapart₃ : ¬ (parent ++ [moved name (j + 1)] = parent ++ [name] ∨
        parent ++ [moved name (j + 1)] = parent ++ [moved name 1]) := by
      rintro (heq | heq)
      · exact log_place_ne (j + 1) heq.symm
      · exact moved_place_ne (by omega) heq
    rw [hconfined₃.rest _ (hshelf₂.reaches _) hapart₃, holder j (by omega) (by omega),
      hconfined₁.rest _ (hshelf.reaches _) (moved_place_ne (by omega)), Nat.add_sub_cancel]
  · refine (hconfined₁.mono ?_).trans ((hconfined₂.mono ?_).trans (hconfined₃.mono ?_))
    · rintro place rfl
      exact .inr ⟨r.maxFiles, hkept, Nat.le_refl _, rfl⟩
    · intro place hplace
      exact .inr (hn ▸ hplace)
    · rintro place (rfl | rfl)
      · exact .inl rfl
      · exact .inr ⟨1, Nat.le_refl 1, hkept, rfl⟩

/-- A log that has not grown stays, and so does everything else. -/
theorem rotate_kept (r : Rotation) (hname : Path.Plain name) (hshelf : Shelf directory name parent d)
    (hsmall : ¬ Grown r name parent d) : r.rotate (directory.join ⟨name⟩) d = (.ok (), d) := by
  rw [Rotation.rotate]
  rcases hshelf.entry name with hnone | ⟨content, hfile⟩
  · rw [(hshelf.log hname).size_none hnone]
    rfl
  · have hlt : content.size < r.maxSize := by
      by_contra hge
      exact hsmall ⟨content, hfile, Nat.not_lt.mp hge⟩
    rw [(hshelf.log hname).size_file hfile]
    dsimp only
    rw [if_pos hlt]
    rfl

/-- A rotation succeeds, and moves the log exactly if it has grown. -/
theorem rotate_files (r : Rotation) (hkept : 1 ≤ r.maxFiles) (hfits : Fits name r.maxFiles)
    (hshelf : Shelf directory name parent d) :
    ∃ d', r.rotate (directory.join ⟨name⟩) d = (.ok (), d') ∧ (Grown r name parent d → Turned r name parent d d') ∧
      (¬ Grown r name parent d → d' = d) := by
  by_cases hgrown : Grown r name parent d
  · obtain ⟨d', hrotate, hturned⟩ := rotate_grown r hkept hfits hshelf hgrown
    exact ⟨d', hrotate, fun _ => hturned, fun hnot => absurd hgrown hnot⟩
  · exact ⟨d, rotate_kept r hfits.plain hshelf hgrown, fun h => absurd h hgrown, fun _ => rfl⟩

/-! ## Rounds -/

/-- The log is written, or left as it is. -/
def written (log : Path) (d : Disk) : Option ByteArray → Except Disk.Fault Disk
  | none => .ok d
  | some content => d.write log content

/-- The log is written, or left as it is, and then rotated. -/
def round (r : Rotation) (log : Path) (d : Disk) (content : Option ByteArray) : Except Disk.Fault Disk :=
  match written log d content with
  | .error e => .error e
  | .ok d =>
    match r.rotate log d with
    | (.ok (), d) => .ok d
    | (.error e, _) => .error e

/-- What became of the contents of a log: the one it has now, and those it had when it was moved, the newest first. -/
structure Ledger where
  log : Option ByteArray := none
  moved : List ByteArray := []

/-- A round as it is recorded. -/
def Ledger.round (r : Rotation) (l : Ledger) (content : Option ByteArray) : Ledger :=
  match content.or l.log with
  | none => l
  | some now => if now.size < r.maxSize then { l with log := some now } else { log := none, moved := now :: l.moved }

/-- The record of all rounds since the directory was empty. -/
def ledger (r : Rotation) (history : List (Option ByteArray)) : Ledger := history.foldl (Ledger.round r) {}

/-- The directory holds what the log is now, and of what it was when it was moved the newest, as many as are kept, in
order of their age; and nothing else. -/
structure Shelved (r : Rotation) (name : String) (parent : Place) (l : Ledger) (d : Disk) : Prop where
  log : d.entry? (parent ++ [name]) = l.log.map .file
  moved : ∀ i, d.entry? (parent ++ [moved name (i + 1)]) = (l.moved.take r.maxFiles)[i]?.map .file
  others : ∀ x, x ≠ name → (∀ i, x ≠ LogFile.moved name (i + 1)) → d.entry? (parent ++ [x]) = none

/-- Writing the log succeeds, and changes nothing else. -/
lemma exists_written (hname : Path.Plain name) (hshelf : Shelf directory name parent d) (content : Option ByteArray) :
    ∃ d', written (directory.join ⟨name⟩) d content = .ok d' ∧
      d'.entry? (parent ++ [name]) = (content.map .file).or (d.entry? (parent ++ [name])) ∧
      Confined (· = parent ++ [name]) d d' := by
  cases content with
  | none => exact ⟨d, rfl, rfl, .refl _ d⟩
  | some content => exact (hshelf.log hname).write hshelf.standing (hshelf.files name) content

/-- What is recorded before the rotation of a round. -/
lemma Shelved.written {r : Rotation} {l : Ledger} (h : Shelved r name parent l d)
    (hshelf : Shelf directory name parent d) {content : Option ByteArray}
    (hlog : d'.entry? (parent ++ [name]) = (content.map .file).or (d.entry? (parent ++ [name])))
    (hconfined : Confined (· = parent ++ [name]) d d') : Shelved r name parent { l with log := content.or l.log } d' := by
  have hrest : ∀ x, x ≠ name → d'.entry? (parent ++ [x]) = d.entry? (parent ++ [x]) := fun x hx =>
    hconfined.rest _ (hshelf.reaches x) fun heq => hx (place_eq_iff.mp heq)
  refine ⟨?_, fun i => ?_, fun x hx hmoved => ?_⟩
  · rw [hlog, h.log]
    cases content <;> rfl
  · rw [hrest _ (moved_ne name _), h.moved]
  · rw [hrest x hx, h.others x hx hmoved]

/-- What is recorded when the log is moved. -/
lemma Shelved.turned {r : Rotation} {l : Ledger} (h : Shelved r name parent l d)
    (hshelf : Shelf directory name parent d) {now : ByteArray} (hnow : l.log = some now)
    (hturned : Turned r name parent d d') : Shelved r name parent { log := none, moved := now :: l.moved } d' := by
  have hrest : ∀ x, x ≠ name → (∀ i, 1 ≤ i → i ≤ r.maxFiles → x ≠ LogFile.moved name i) →
      d'.entry? (parent ++ [x]) = d.entry? (parent ++ [x]) := by
    intro x hx hmoved
    refine hturned.others.rest _ (hshelf.reaches x) ?_
    rintro (heq | ⟨i, hi, hin, heq⟩)
    · exact hx (place_eq_iff.mp heq)
    · exact hmoved i hi hin (place_eq_iff.mp heq)
  refine ⟨hturned.log, fun i => ?_, fun x hx hmoved => ?_⟩
  · rw [List.getElem?_take]
    rcases Nat.lt_or_ge i r.maxFiles with hlt | hge
    · rw [if_pos hlt]
      cases i with
      | zero => rw [hturned.newest, h.log, hnow, List.getElem?_cons_zero]
      | succ i =>
        rw [hturned.older (i + 2) (by omega) (by omega), List.getElem?_cons_succ]
        have hbefore := h.moved i
        rwa [List.getElem?_take, if_pos (by omega)] at hbefore
    · -- logs with higher numbers are not touched, and there are none
      have hapart : ∀ j, 1 ≤ j → j ≤ r.maxFiles → LogFile.moved name (i + 1) ≠ LogFile.moved name j := by
        intro j _ hj heq
        have := moved_injective heq
        omega
      rw [if_neg (Nat.not_lt.mpr hge), hrest _ (moved_ne name _) hapart, h.moved, List.getElem?_take,
        if_neg (Nat.not_lt.mpr hge)]
  · refine (hrest x hx fun i hi _ => ?_).trans (h.others x hx hmoved)
    obtain ⟨j, rfl⟩ : ∃ j, i = j + 1 := ⟨i - 1, by omega⟩
    exact hmoved j

/-- A round does what is recorded. -/
lemma exists_round (r : Rotation) (hkept : 1 ≤ r.maxFiles) (hfits : Fits name r.maxFiles)
    (hshelf : Shelf directory name parent d) (content : Option ByteArray) :
    ∃ d', round r (directory.join ⟨name⟩) d content = .ok d' ∧ SameWays d d' ∧
      ∀ l, Shelved r name parent l d → Shelved r name parent (l.round r content) d' := by
  obtain ⟨d₁, hwritten, hlog, hconfined⟩ := exists_written hfits.plain hshelf content
  have hshelf₁ := hshelf.ways hconfined.ways
  obtain ⟨d₂, hrotate, hgrown, hkeeps⟩ := rotate_files r hkept hfits hshelf₁
  refine ⟨d₂, by rw [round, hwritten]; dsimp only; rw [hrotate], ?_, fun l hl => ?_⟩
  · by_cases h : Grown r name parent d₁
    · exact hconfined.ways.trans (hgrown h).others.ways
    · rw [hkeeps h]
      exact hconfined.ways
  · -- `d₁` is recorded before the rotation, and what is recorded says whether the log has grown
    have hl₁ := hl.written hshelf hlog hconfined
    have hentry := hl₁.log
    unfold Ledger.round
    cases hnow : content.or l.log with
    | none =>
      rw [hnow] at hl₁ hentry
      have hnot : ¬ Grown r name parent d₁ := by
        rintro ⟨now, hfile, -⟩
        rw [hfile] at hentry
        cases hentry
      have hnone : l.log = none := by
        cases content with
        | none => exact hnow
        | some now => cases hnow
      rw [hkeeps hnot]
      rw [← hnone] at hl₁
      exact hl₁
    | some now =>
      rw [hnow] at hl₁ hentry
      dsimp only
      split
      · next hsmall =>
        have hnot : ¬ Grown r name parent d₁ := by
          rintro ⟨now', hfile, hsize⟩
          rw [hfile] at hentry
          obtain rfl : now' = now := by simpa using hentry
          omega
        rw [hkeeps hnot]
        exact hl₁
      · next hlarge => exact hl₁.turned hshelf₁ rfl (hgrown ⟨now, hentry, Nat.not_lt.mp hlarge⟩)

/-- Any number of rounds does what is recorded. -/
lemma exists_rounds (r : Rotation) (hkept : 1 ≤ r.maxFiles) (hfits : Fits name r.maxFiles)
    (hshelf : Shelf directory name parent d) (history : List (Option ByteArray)) :
    ∃ d', history.foldlM (round r (directory.join ⟨name⟩)) d = .ok d' ∧ Shelf directory name parent d' ∧
      ∀ l, Shelved r name parent l d → Shelved r name parent (history.foldl (Ledger.round r) l) d' := by
  induction history generalizing d with
  | nil => exact ⟨d, rfl, hshelf, fun l hl => hl⟩
  | cons content rest ih =>
    obtain ⟨d₁, hround, hways, hledger⟩ := exists_round r hkept hfits hshelf content
    obtain ⟨d', hrest, hshelf', hrecord⟩ := ih (hshelf.ways hways)
    refine ⟨d', ?_, hshelf', fun l hl => hrecord _ (hledger l hl)⟩
    rw [List.foldlM_cons, hround]
    exact hrest

/-- After any rounds, whatever is written next is moved as `Turned` says if it has grown, and else nothing changes; and a
directory that was empty holds the newest contents, as many as are kept. -/
theorem rounds_keep_newest (r : Rotation) (hkept : 1 ≤ r.maxFiles) (hfits : Fits name r.maxFiles)
    (hshelf : Shelf directory name parent d) (history : List (Option ByteArray)) :
    ∃ d', history.foldlM (round r (directory.join ⟨name⟩)) d = .ok d' ∧
      (∀ content, ∃ d₁ d₂, written (directory.join ⟨name⟩) d' content = .ok d₁ ∧
        r.rotate (directory.join ⟨name⟩) d₁ = (.ok (), d₂) ∧ (Grown r name parent d₁ → Turned r name parent d₁ d₂) ∧
        (¬ Grown r name parent d₁ → d₂ = d₁)) ∧
      ((∀ x, d.entry? (parent ++ [x]) = none) → Shelved r name parent (ledger r history) d') := by
  obtain ⟨d', hrounds, hshelf', hrecord⟩ := exists_rounds r hkept hfits hshelf history
  refine ⟨d', hrounds, fun content => ?_, fun hempty => hrecord {} ?_⟩
  · obtain ⟨d₁, hwritten, -, hconfined⟩ := exists_written hfits.plain hshelf' content
    obtain ⟨d₂, hrotate, hlaw⟩ := rotate_files r hkept hfits (hshelf'.ways hconfined.ways)
    exact ⟨d₁, d₂, hwritten, hrotate, hlaw⟩
  · exact ⟨hempty _, fun i => by rw [hempty]; simp, fun x _ _ => hempty x⟩

/-- Two of three logs are kept. -/
theorem newest_two_of_three :
    ∃ d' : Disk, [some ⟨#[1]⟩, none, some ⟨#[2]⟩, some ⟨#[3]⟩].foldlM
        (round { maxSize := 1, maxFiles := 2 } ((Path.mk "").join ⟨LogFile.name⟩)) {} = .ok d' ∧
      d'.entry? [moved LogFile.name 1] = some (.file ⟨#[3]⟩) ∧ d'.entry? [moved LogFile.name 2] = some (.file ⟨#[2]⟩) ∧
      d'.entry? [moved LogFile.name 3] = none := by
  have hfits : Fits LogFile.name 2 := fits_name (by decide)
  have hplace : Disk.place {} ((Path.mk "").join ⟨LogFile.name⟩) = .ok [LogFile.name] := by
    rw [Disk.place_join_eq ⟨""⟩ hfits.plain]
    rfl
  have hshelf : Shelf ⟨""⟩ LogFile.name [] {} := ⟨Disk.leads_root _, hplace, fun x => by simp [Disk.entry?]⟩
  obtain ⟨d', hrounds, -, hkeeps⟩ := rounds_keep_newest { maxSize := 1, maxFiles := 2 } (by decide) hfits hshelf
    [some ⟨#[1]⟩, none, some ⟨#[2]⟩, some ⟨#[3]⟩]
  have hshelved := hkeeps fun x => by simp [Disk.entry?]
  exact ⟨d', hrounds, hshelved.moved 0, hshelved.moved 1, hshelved.moved 2⟩

/-! ## Names that are not touched -/

section Limit

/- Unlike on a `Shelf`, anything may stand at the names of moved logs here, and a rotation may fail. -/
variable {d'' : Disk}

/-- All names of a directory but some stand for what they stood for. -/
structure Aside (parent : Place) (touched : String → Prop) (d d' : Disk) : Prop where
  current : d'.current = d.current
  rest : ∀ x, ¬ touched x → d'.entry? (parent ++ [x]) = d.entry? (parent ++ [x])

namespace Aside

variable {touched touched' : String → Prop}

lemma refl (touched : String → Prop) (d : Disk) : Aside parent touched d d := ⟨rfl, fun _ _ => rfl⟩

lemma trans (h : Aside parent touched d d') (h' : Aside parent touched d' d'') : Aside parent touched d d'' :=
  ⟨h'.current.trans h.current, fun x hx => (h'.rest x hx).trans (h.rest x hx)⟩

lemma mono (h : Aside parent touched d d') (hsub : ∀ x, touched x → touched' x) : Aside parent touched' d d' :=
  ⟨h.current, fun x hx => h.rest x fun htouched => hx (hsub x htouched)⟩

end Aside

/-- The paths of a rotation lead to the directory of the log, if they lead anywhere. -/
structure Spelled (directory : Path) (name : String) (parent : Place) (n : Nat) (d : Disk) : Prop where
  log : ∀ place, d.place (directory.join ⟨name⟩) = .ok place → place = parent ++ [name]
  moved : ∀ i ≤ n, ∀ place, d.place (Rotation.numbered (directory.join ⟨name⟩) i) = .ok place →
    place = parent ++ [moved name i]

lemma spelled_of_place (hfits : Fits name n) (h : d.place (directory.join ⟨name⟩) = .ok (parent ++ [name]))
    (hcurrent : d'.current = d.current) : Spelled directory name parent n d' :=
  ⟨fun _ hplace => (Disk.place_unique hcurrent h hplace).symm,
    fun _ hi _ hplace => (Disk.place_unique hcurrent (place_numbered hfits hi h) hplace).symm⟩

/-- A move is about the name that is given up, and the one that is taken. -/
lemma rename_aside {source target : Path} {a b : String} (h : d.rename source target = .ok d')
    (hsource : ∀ place, d.place source = .ok place → place = parent ++ [a])
    (htarget : ∀ place, d.place target = .ok place → place = parent ++ [b]) :
    Aside parent (fun x => x = a ∨ x = b) d d' := by
  obtain ⟨src, dst, hsrc, hdst, rfl⟩ := Disk.rename_ok_places h
  obtain rfl := hsource src hsrc
  obtain rfl := htarget dst hdst
  split
  · exact .refl _ d
  · refine ⟨rfl, fun x hx => ?_⟩
    obtain ⟨hxa, hxb⟩ := not_or.mp hx
    rw [Disk.entry?_move_other (Disk.not_prefix_of_ne hxb), if_neg fun hboth => Disk.not_prefix_of_ne hxa hboth.1]

/-- The oldest log is the one at the limit. -/
lemma dropOldest_aside {r : Rotation} (hspelled : Spelled directory name parent n d) (hn : r.maxFiles ≤ n)
    (h : r.dropOldest (directory.join ⟨name⟩) d = .ok d') : Aside parent (· = moved name r.maxFiles) d d' := by
  unfold Rotation.dropOldest at h
  split at h
  · obtain ⟨place, hplace, rfl⟩ := Disk.removeFile_ok_place h
    obtain rfl := hspelled.moved _ hn place hplace
    refine ⟨rfl, fun x hx => ?_⟩
    rw [Disk.entry?_drop, if_neg fun hboth => Disk.not_prefix_of_ne hx hboth.1]
  · obtain rfl := Except.ok.inj h
    exact .refl _ d

/-- Logs are moved from numbers below the limit to numbers up to it. -/
lemma shift_aside (hfits : Fits name (n + 1)) (hplace : d.place (directory.join ⟨name⟩) = .ok (parent ++ [name]))
    (hcurrent : d'.current = d.current) (h : Rotation.shift (directory.join ⟨name⟩) n d' = (.ok (), d'')) :
    Aside parent (fun x => ∃ i, 1 ≤ i ∧ i ≤ n + 1 ∧ x = moved name i) d' d'' := by
  induction n generalizing d' with
  | zero =>
    obtain rfl := (Prod.mk.inj h).2
    exact .refl _ d'
  | succ n ih =>
    have hspelled : Spelled directory name parent (n + 2) d' := spelled_of_place hfits hplace hcurrent
    have hless : Fits name (n + 1) := hfits.mono (Nat.le_succ _)
    have hsub : ∀ x, (∃ i, 1 ≤ i ∧ i ≤ n + 1 ∧ x = moved name i) → ∃ i, 1 ≤ i ∧ i ≤ n + 2 ∧ x = moved name i :=
      fun x ⟨i, hi, hin, hx⟩ => ⟨i, hi, by omega, hx⟩
    rw [Rotation.shift] at h
    split at h
    · split at h
      · next d₁ hrename =>
        have hone := rename_aside hrename (hspelled.moved (n + 1) (by omega)) (hspelled.moved (n + 2) (by omega))
        refine (hone.mono ?_).trans ((ih hless (hone.current.trans hcurrent) h).mono hsub)
        rintro x (rfl | rfl)
        · exact ⟨n + 1, by omega, by omega, rfl⟩
        · exact ⟨n + 2, by omega, by omega, rfl⟩
      · cases (Prod.mk.inj h).1
    · exact (ih hless hcurrent h).mono hsub

/-! ## Above the limit -/

/-- The steps of a rotation that has succeeded. -/
lemma rotate_ok {r : Rotation} {log : Path} {size : Nat} (hsize : d.size log = .ok size) (hgrown : r.maxSize ≤ size)
    (h : r.rotate log d = (.ok (), d')) :
    ∃ d₁ d₂, r.dropOldest log d = .ok d₁ ∧ Rotation.shift log (r.maxFiles - 1) d₁ = (.ok (), d₂) ∧
      d₂.rename log (Rotation.numbered log 1) = .ok d' := by
  rw [Rotation.rotate, hsize] at h
  dsimp only at h
  rw [if_neg (Nat.not_lt.mpr hgrown), Rotation.move] at h
  split at h
  · cases (Prod.mk.inj h).1
  · next d₁ hdrop =>
    split at h
    · cases (Prod.mk.inj h).1
    · next d₂ hshift =>
      split at h
      · next d₃ hrename =>
        obtain rfl := (Prod.mk.inj h).2
        exact ⟨d₁, d₂, hdrop, hshift, hrename⟩
      · cases (Prod.mk.inj h).1

/-- What stands at the numbers above the limit stays there; but where the limit is zero, the log becomes number one. -/
theorem entry?_beyond {r : Rotation} (hfits : Fits name (max 1 r.maxFiles))
    (hplace : d.place (directory.join ⟨name⟩) = .ok (parent ++ [name])) {size : Nat}
    (hsize : d.size (directory.join ⟨name⟩) = .ok size) (hgrown : r.maxSize ≤ size)
    (h : r.rotate (directory.join ⟨name⟩) d = (.ok (), d')) {i : Nat} (hi : r.maxFiles < i) :
    d'.entry? (parent ++ [moved name i])
      = if r.maxFiles = 0 ∧ i = 1 then d.entry? (parent ++ [name]) else d.entry? (parent ++ [moved name i]) := by
  obtain ⟨d₁, d₂, hdrop, hshift, hrename⟩ := rotate_ok hsize hgrown h
  have hne : ∀ j, j < i → moved name i ≠ moved name j := by
    intro j hj heq
    have := moved_injective heq
    omega
  have hone : Fits name 1 := hfits.mono (le_max_left 1 r.maxFiles)
  have hdropped := dropOldest_aside (spelled_of_place hfits hplace rfl) (le_max_right 1 r.maxFiles) hdrop
  rcases Nat.eq_zero_or_pos r.maxFiles with hzero | hpos
  · -- nothing is shifted, and the log takes a number that is above the limit
    rw [hzero] at hshift
    obtain rfl : d₁ = d₂ := (Prod.mk.inj hshift).2
    have hspelled₁ : Spelled directory name parent 1 d₁ := spelled_of_place hone hplace hdropped.current
    by_cases hfirst : i = 1
    · subst hfirst
      rw [if_pos ⟨hzero, rfl⟩, ← hdropped.rest name (moved_ne name _).symm]
      obtain ⟨src, dst, hsrc, hdst, rfl⟩ := Disk.rename_ok_places hrename
      obtain rfl := hspelled₁.log src hsrc
      obtain rfl := hspelled₁.moved 1 (Nat.le_refl 1) dst hdst
      rw [if_neg (log_place_ne 1), Disk.entry?_move_target (by simp) (by simp)]
    · rw [if_neg fun hboth => hfirst hboth.2, ← hdropped.rest _ (hne _ hi)]
      have hmoved := rename_aside hrename hspelled₁.log (hspelled₁.moved 1 (Nat.le_refl 1))
      refine hmoved.rest _ (not_or.mpr ⟨moved_ne name i, hne 1 ?_⟩)
      omega
  · -- all that is moved, is moved to a number up to the limit
    have hless : Fits name (r.maxFiles - 1 + 1) := hfits.mono (by omega)
    have hshifted := shift_aside hless hplace hdropped.current hshift
    have hspelled₂ : Spelled directory name parent 1 d₂ :=
      spelled_of_place hone hplace (hshifted.current.trans hdropped.current)
    have hmoved := rename_aside hrename hspelled₂.log (hspelled₂.moved 1 (Nat.le_refl 1))
    have hbelow : ¬ ∃ j, 1 ≤ j ∧ j ≤ r.maxFiles - 1 + 1 ∧ moved name i = moved name j := by
      rintro ⟨j, -, hj, heq⟩
      exact hne j (by omega) heq
    rw [if_neg fun hboth => absurd hboth.1 (by omega), hmoved.rest _ (not_or.mpr ⟨moved_ne name i, hne 1 (by omega)⟩),
      hshifted.rest _ hbelow, hdropped.rest _ (hne _ hi)]

/-- After a rotation there are no logs with numbers above the limit exactly if there were none before, and the limit is
not zero. -/
theorem within_limit_iff {r : Rotation} (hfits : Fits name (max 1 r.maxFiles))
    (hplace : d.place (directory.join ⟨name⟩) = .ok (parent ++ [name])) {size : Nat}
    (hsize : d.size (directory.join ⟨name⟩) = .ok size) (hgrown : r.maxSize ≤ size)
    (h : r.rotate (directory.join ⟨name⟩) d = (.ok (), d')) :
    (∀ i, r.maxFiles < i → d'.entry? (parent ++ [moved name i]) = none) ↔
      0 < r.maxFiles ∧ ∀ i, r.maxFiles < i → d.entry? (parent ++ [moved name i]) = none := by
  have hbeyond := fun i => entry?_beyond (i := i) hfits hplace hsize hgrown h
  constructor
  · intro hnone
    have hpos : 0 < r.maxFiles := by
      by_contra hzero
      have hone := hnone 1 (by omega)
      rw [hbeyond 1 (by omega), if_pos ⟨by omega, rfl⟩] at hone
      -- the log was there, since it has a size
      have hfind : d.find (directory.join ⟨name⟩) = .error .notFound := by
        rw [Disk.find_of_place hplace, hone]
      rw [Disk.size, hfind] at hsize
      cases hsize
    refine ⟨hpos, fun i hi => ?_⟩
    rw [← hnone i hi, hbeyond i hi, if_neg fun hboth => absurd hboth.1 (by omega)]
  · rintro ⟨hpos, hnone⟩ i hi
    rw [hbeyond i hi, if_neg fun hboth => absurd hboth.1 (by omega), hnone i hi]

/-- A directory with two moved logs. -/
def twoMoved : Disk where
  entries := [([LogFile.name], .file ⟨#[1]⟩), ([moved LogFile.name 1], .file ⟨#[2]⟩), ([moved LogFile.name 2], .file ⟨#[3]⟩)]

/-- Where only one log is kept from now on, the second one stays. -/
theorem lowered_limit :
    ∃ d', Rotation.rotate { maxSize := 1, maxFiles := 1 } ((Path.mk "").join ⟨LogFile.name⟩) twoMoved = (.ok (), d') ∧
      ¬ ∀ i, 1 < i → d'.entry? [moved LogFile.name i] = none := by
  have hfits : Fits LogFile.name 1 := fits_name (by decide)
  have hplace : twoMoved.place ((Path.mk "").join ⟨LogFile.name⟩) = .ok ([] ++ [LogFile.name]) := by
    rw [Disk.place_join_eq ⟨""⟩ hfits.plain]
    rfl
  have hlog : twoMoved.entry? [LogFile.name] = some (.file ⟨#[1]⟩) := rfl
  have hshelf : Shelf ⟨""⟩ LogFile.name [] twoMoved := by
    refine ⟨Disk.leads_root _, hplace, fun x hx => ?_⟩
    simp only [Disk.entry?, twoMoved, List.lookup] at hx
    grind
  obtain ⟨d', hrotate, -⟩ := rotate_grown { maxSize := 1, maxFiles := 1 } (Nat.le_refl 1) hfits hshelf
    ⟨⟨#[1]⟩, hlog, Nat.le_refl 1⟩
  refine ⟨d', hrotate, fun hnone => ?_⟩
  have hsize := (hshelf.log hfits.plain).size_file hlog
  have hbefore := ((within_limit_iff hfits hplace hsize (Nat.le_refl 1) hrotate).mp hnone).2 2 (by decide)
  have hthere : (twoMoved.entry? ([] ++ [moved LogFile.name 2])).isSome = true := by decide
  rw [hbefore] at hthere
  cases hthere

end Limit

end Switchboard.LogFile
