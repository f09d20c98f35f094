import Switchboard.Disk
import Mathlib

/-!
# What a write changes, and what it does not

* `Disk.Leads`, `Disk.Reaches`, `Disk.Standing`: directories on the way to a place;
* `Disk.SameWays`: the same ways lead through two disks, so every path names the same place in both;
* `entry?_put`, `entry?_move_target`, `entry?_move_other`, `entry?_drop`: what stands where after a change;
* `writeText_ok`, `rename_ok`: what it takes to write a file and to move one over another;
* `isDirectory_makeDirectories`: directories that are made are there, and are not made again;
* `Confined`: a change that leaves directories, and everything but some places, as they are;
* `NamesFile.write`, `NamesFile.removeFile`, `NamesFile.rename`: on a path to a file each succeeds, and is confined to it;
* `rename_ok_places`, `removeFile_ok_place`: what has succeeded, whatever stood there;
* `place_unique`: where a path leads is a matter of its spelling, if it leads anywhere.

A file has nothing below it on any way: where a file is put or moved, no way leads through.
-/

namespace Switchboard.Disk

/-! ## Entries -/

@[simp] lemma entry?_root (d : Disk) : d.entry? [] = some .directory := rfl

lemma entry?_of_ne {place : Place} (h : place ≠ []) (d : Disk) : d.entry? place = d.entries.lookup place := if_neg h

/-- Entries of which some were taken out. -/
lemma lookup_filter {l : List (Place × Entry)} (keep : Place → Bool) (place : Place) :
    (l.filter fun x => keep x.1).lookup place = if keep place then l.lookup place else none := by
  induction l with
  | nil => simp
  | cons x rest ih =>
    obtain ⟨key, e⟩ := x
    rw [List.filter_cons]
    by_cases heq : place = key
    · subst heq
      cases hkeep : keep place with
      | true => simp
      | false =>
        rw [hkeep] at ih
        simpa using ih
    · have hbeq : (place == key) = false := by simpa using heq
      rw [List.lookup_cons, hbeq, ← ih]
      split
      · rw [List.lookup_cons, hbeq]
      · rfl

lemma entry?_put (d : Disk) (place : Place) (e : Entry) (other : Place) :
    entry? (d.put place e) other = if other = place ∧ other ≠ [] then some e else d.entry? other := by
  by_cases hroot : other = []
  · subst hroot
    simp
  · rw [entry?_of_ne hroot, entry?_of_ne hroot, put]
    simp only [List.lookup_append, lookup_filter fun x => x ≠ place]
    by_cases heq : other = place
    · subst heq
      simp [hroot]
    · have hbeq : (other == place) = false := by simpa using heq
      simp [heq, List.lookup_cons, hbeq]

lemma isPrefixOf_eq_false {a b : Place} (h : ¬ a <+: b) : a.isPrefixOf b = false := by
  rw [Bool.eq_false_iff, ne_eq, List.isPrefixOf_iff_prefix]
  exact h

/-- What is moved stands at its new place. -/
lemma entry?_move_target {source target : Place} (hsource : source ≠ []) (htarget : target ≠ []) (d : Disk) :
    entry? (d.move source target) target = d.entry? source := by
  have hprefix : target.isPrefixOf target = true := by simp
  rw [entry?_of_ne htarget, entry?_of_ne hsource, move, drop, drop]
  simp only [List.lookup_append, lookup_filter fun x => !target.isPrefixOf x, hprefix, Bool.not_true,
    Option.none_or, Bool.false_eq_true, if_false]
  induction d.entries with
  | nil => rfl
  | cons x rest ih =>
    obtain ⟨key, e⟩ := x
    rw [List.filterMap_cons]
    by_cases heq : source = key
    · subst heq
      simp
    · have hbeq : (source == key) = false := by simpa using heq
      rw [List.lookup_cons, hbeq, ← ih]
      split
      · rfl
      · next moved hmoved =>
        -- what is below the source comes to stand below the target
        split at hmoved
        · next hbelow =>
          obtain rfl := Option.some.inj hmoved
          obtain ⟨more, hkey⟩ : source <+: key := List.isPrefixOf_iff_prefix.mp hbelow
          have hne : more ≠ [] := by
            intro hnil
            exact heq (by rw [← hkey, hnil, List.append_nil])
          have hnot : (target == target ++ key.drop source.length) = false := by
            rw [← hkey]
            simpa using hne
          show List.lookup target ((target ++ key.drop source.length, e) :: _) = _
          rw [List.lookup_cons, hnot]
        · cases hmoved

/-- Elsewhere what is below the source is gone, and everything else stays. -/
lemma entry?_move_other {source target other : Place} (htarget : ¬ target <+: other) (d : Disk) :
    entry? (d.move source target) other = if source <+: other ∧ other ≠ [] then none else d.entry? other := by
  by_cases hroot : other = []
  · subst hroot
    simp
  have hmoved : (d.entries.filterMap fun x =>
      if source.isPrefixOf x.1 then some (target ++ x.1.drop source.length, x.2) else none).lookup other = none := by
    rw [List.lookup_eq_none_iff]
    intro x hx
    obtain ⟨y, -, hy⟩ := List.mem_filterMap.mp hx
    split at hy
    · rw [← Option.some.inj hy]
      have hne : other ≠ target ++ y.1.drop source.length := by
        intro heq
        exact htarget (heq ▸ List.prefix_append ..)
      simpa using hne
    · cases hy
  have hkeep := isPrefixOf_eq_false htarget
  rw [entry?_of_ne hroot, entry?_of_ne hroot, move, drop, drop]
  simp only [List.lookup_append, hmoved, lookup_filter fun x => !target.isPrefixOf x,
    lookup_filter fun x => !source.isPrefixOf x, hkeep, Bool.not_false, if_true, Option.or_none]
  by_cases hsource : source <+: other
  · have hbelow : source.isPrefixOf other = true := by simpa using hsource
    simp [hbelow, hsource, hroot]
  · have hbeside := isPrefixOf_eq_false hsource
    simp [hbeside, hsource]

lemma entry?_drop (d : Disk) (place other : Place) :
    entry? (d.drop place) other = if place <+: other ∧ other ≠ [] then none else d.entry? other := by
  by_cases hroot : other = []
  · subst hroot
    simp
  rw [entry?_of_ne hroot, entry?_of_ne hroot, drop]
  simp only [lookup_filter fun x => !place.isPrefixOf x]
  by_cases hbelow : place <+: other
  · have hfront : place.isPrefixOf other = true := by simpa using hbelow
    simp [hfront, hbelow, hroot]
  · simp [isPrefixOf_eq_false hbelow, hbelow]

/-! ## Ways -/

/-- The place and all above it are directories. -/
def Leads (d : Disk) (place : Place) : Prop := ∀ above, above <+: place → d.entry? above = some .directory

/-- All above the place are directories. -/
def Reaches (d : Disk) (place : Place) : Prop :=
  ∀ above, above <+: place → above ≠ place → d.entry? above = some .directory

/-- The current directory is there. -/
def Standing (d : Disk) : Prop := d.Leads d.current

lemma leads_root (d : Disk) : d.Leads [] := by
  intro above habove
  rw [List.prefix_nil.mp habove]
  rfl

lemma Leads.above {d : Disk} {place above : Place} (h : d.Leads place) (habove : above <+: place) : d.Leads above :=
  fun x hx => h x (hx.trans habove)

lemma Leads.reaches {d : Disk} {place : Place} (h : d.Leads place) : d.Reaches place := fun x hx _ => h x hx

lemma Reaches.leads {d : Disk} {place : Place} (h : d.Reaches place) (hplace : d.entry? place = some .directory) :
    d.Leads place := by
  intro above habove
  by_cases heq : above = place
  · rw [heq]
    exact hplace
  · exact h above habove heq

/-- What is right below a directory. -/
lemma Leads.child {d : Disk} {place : Place} (h : d.Leads place) (name : String) : d.Reaches (place ++ [name]) := by
  intro above habove hne
  rcases List.prefix_concat_iff.mp habove with heq | habove
  · exact absurd heq hne
  · exact h above habove

lemma directoryAt_eq_ok_iff {d : Disk} {place : Place} :
    d.directoryAt place = .ok () ↔ d.entry? place = some .directory := by
  unfold directoryAt
  split
  · next h => simp [h, pure, Except.pure]
  · next h => simp [h, throw, throwThe, MonadExceptOf.throw]
  · next h => simp [h, throw, throwThe, MonadExceptOf.throw]

/-- Ways that lead through one disk lead through another one. -/
def WaysInto (d d' : Disk) : Prop := ∀ place, d.Leads place → d'.Leads place

/-- Where every way of one disk leads through the other, pieces are followed to the same place. -/
lemma follow_of_ways {d d' : Disk} (hways : WaysInto d d') {pieces : List String} {place last : Place}
    (hplace : d.Reaches place) (h : d.follow place pieces = .ok last) :
    d.Reaches last ∧ d'.follow place pieces = .ok last := by
  induction pieces generalizing place with
  | nil =>
    obtain rfl : place = last := Except.ok.inj h
    exact ⟨hplace, rfl⟩
  | cons piece rest ih =>
    cases hdirectory : d.directoryAt place with
    | error e =>
      rw [follow, hdirectory] at h
      cases h
    | ok u =>
      have hleads : d.Leads place := hplace.leads (directoryAt_eq_ok_iff.mp hdirectory)
      have hother : d'.directoryAt place = .ok () :=
        directoryAt_eq_ok_iff.mpr (hways place hleads place (List.prefix_refl place))
      rw [follow, hdirectory] at h
      rw [follow, hother]
      by_cases hhere : piece = "."
      · simp only [hhere, if_true] at h ⊢
        exact ih hplace h
      by_cases hup : piece = ".."
      · simp only [hup, if_true] at h ⊢
        exact ih (hleads.above (List.dropLast_prefix place)).reaches h
      by_cases hlong : 255 < piece.utf8ByteSize
      · simp only [hhere, hup, hlong, if_false, if_true] at h
        cases h
      · simp only [hhere, hup, hlong, if_false] at h ⊢
        exact ih (hleads.child piece) h

/-- Where the pieces of a path are followed from. -/
def start (d : Disk) (p : Path) : Place := if p.isAbsolute then [] else d.current

lemma place_eq (d : Disk) (p : Path) :
    d.place p = if p.text.toList.contains '\x00' then .error .nulInPath
      else if p.text = "" then .error .notFound else d.follow (d.start p) (p.pieces.filter (· ≠ "")) := by
  by_cases hnul : p.text.toList.contains '\x00' = true
  · rw [place, if_pos hnul, if_pos hnul]
    rfl
  by_cases hempty : p.text = ""
  · rw [place, if_neg hnul, if_neg hnul, if_pos hempty, if_pos hempty]
    rfl
  · rw [place, if_neg hnul, if_neg hnul, if_neg hempty, if_neg hempty]
    rfl

/-- A path names the same place where every way of one disk leads through the other. -/
lemma place_of_ways {d d' : Disk} (hways : WaysInto d d') (hcurrent : d'.current = d.current) (hstanding : d.Standing)
    {p : Path} {last : Place} (h : d.place p = .ok last) : d.Reaches last ∧ d'.place p = .ok last := by
  have hsame : d'.start p = d.start p := by rw [start, start, hcurrent]
  have hstart : d.Reaches (d.start p) := by
    unfold start
    split
    · exact d.leads_root.reaches
    · exact hstanding.reaches
  rw [place_eq] at h ⊢
  split at h
  · cases h
  · next hnul =>
    split at h
    · cases h
    · next hempty =>
      rw [if_neg hnul, if_neg hempty, hsame]
      exact follow_of_ways hways hstart h

/-- What is found at a path. -/
lemma find_of_place {d : Disk} {p : Path} {last : Place} (h : d.place p = .ok last) :
    d.find p = match d.entry? last with
      | none => .error .notFound
      | some (.file content) => if demandsDirectory p then .error .notDirectory else .ok (last, .file content)
      | some .directory => .ok (last, .directory) := by
  have hbind : d.find p = (do
      match d.entry? last with
      | none => throw Fault.notFound
      | some (.file _) => if demandsDirectory p then throw Fault.notDirectory
      | some .directory => pure ()
      return (last, (d.entry? last).getD .directory) : Except Fault (Place × Entry)) := by
    rw [find, h]
    rfl
  rw [hbind]
  cases d.entry? last with
  | none => rfl
  | some e =>
    cases e with
    | directory => rfl
    | file content =>
      dsimp only
      split
      · rfl
      · rfl

/-- The same ways lead through both disks. -/
structure SameWays (d d' : Disk) : Prop where
  leads : ∀ place, d.Leads place ↔ d'.Leads place
  current : d'.current = d.current

namespace SameWays

variable {d d' d'' : Disk}

lemma refl (d : Disk) : SameWays d d := ⟨fun _ => Iff.rfl, rfl⟩

lemma trans (h : SameWays d d') (h' : SameWays d' d'') : SameWays d d'' :=
  ⟨fun place => (h.leads place).trans (h'.leads place), h'.current.trans h.current⟩

lemma symm (h : SameWays d d') : SameWays d' d := ⟨fun place => (h.leads place).symm, h.current.symm⟩

lemma standing (h : SameWays d d') (hstanding : d.Standing) : d'.Standing := by
  rw [Standing, h.current]
  exact (h.leads _).mp hstanding

lemma place (h : SameWays d d') (hstanding : d.Standing) {p : Path} {last : Place} (hplace : d.place p = .ok last) :
    d.Reaches last ∧ d'.place p = .ok last :=
  place_of_ways (fun _ => (h.leads _).mp) h.current hstanding hplace

/-- A path that leads to the same entry in both disks is read alike. -/
lemma read (h : SameWays d d') (hstanding : d.Standing) {p : Path}
    (hentry : ∀ last, d.place p = .ok last → d'.entry? last = d.entry? last) :
    (d'.readText p).toOption = (d.readText p).toOption := by
  cases hplace : d.place p with
  | ok last =>
    have hother := (h.place hstanding hplace).2
    have hfind : d'.find p = d.find p := by
      rw [find_of_place hplace, find_of_place hother, hentry last hplace]
    rw [readText, readText, Disk.read, Disk.read, hfind]
  | error e =>
    have hother : ∃ e', d'.place p = .error e' := by
      cases hother : d'.place p with
      | error e' => exact ⟨e', rfl⟩
      | ok last =>
        have hback := (h.symm.place (h.standing hstanding) hother).2
        rw [hplace] at hback
        cases hback
    obtain ⟨e', hother⟩ := hother
    rw [readText, readText, Disk.read, Disk.read, find, find, hother, hplace]
    rfl

/-- Ways do not lead through the place of a file. -/
lemma put_file {place : Place} (hplace : d.entry? place ≠ some .directory) (content : ByteArray) :
    SameWays d (d.put place (.file content)) := by
  have hsame : ∀ other, entry? (d.put place (.file content)) other = some .directory ↔
      d.entry? other = some .directory := by
    intro other
    rw [entry?_put]
    split
    · next heq =>
      rw [heq.1]
      exact iff_of_false nofun hplace
    · exact Iff.rfl
  refine ⟨?_, rfl⟩
  intro other
  exact forall₂_congr fun above _ => (hsame above).symm

/-- Nor do they lead through what is moved, or through what it is moved over. -/
lemma move {source target : Place} (hsource : d.entry? source ≠ some .directory)
    (htarget : d.entry? target ≠ some .directory) : SameWays d (d.move source target) := by
  have hsourceRoot : source ≠ [] := by
    rintro rfl
    exact hsource rfl
  have htargetRoot : target ≠ [] := by
    rintro rfl
    exact htarget rfl
  have hmoved : entry? (d.move source target) target ≠ some .directory := by
    rw [entry?_move_target hsourceRoot htargetRoot]
    exact hsource
  refine ⟨?_, rfl⟩
  intro place
  constructor
  · intro hleads above habove
    have hnotTarget : ¬ target <+: above := fun hbelow => htarget (hleads target (hbelow.trans habove))
    have hnotSource : ¬ source <+: above := fun hbelow => hsource (hleads source (hbelow.trans habove))
    rw [entry?_move_other hnotTarget, if_neg fun hboth => hnotSource hboth.1]
    exact hleads above habove
  · intro hleads above habove
    have hnotTarget : ¬ target <+: above := fun hbelow => hmoved (hleads target (hbelow.trans habove))
    have hentry := hleads above habove
    rw [entry?_move_other hnotTarget] at hentry
    split at hentry
    · cases hentry
    · exact hentry

end SameWays

/-! ## Files -/

variable {d d' : Disk}

/-- A file is written. -/
lemma write_of_place {p : Path} {last : Place} (h : d.place p = .ok last) (content : ByteArray) :
    d.write p content = match d.entry? last with
      | some .directory => .error .isDirectory
      | some (.file _) =>
        if demandsDirectory p then .error .notDirectory else .ok (d.put last (.file content))
      | none =>
        if demandsDirectory p then .error .isDirectory
        else match d.directoryAt last.dropLast with
          | .ok _ => .ok (d.put last (.file content))
          | .error e => .error e := by
  rw [write, h]
  simp only [bind, Except.bind]
  cases d.entry? last with
  | none =>
    dsimp only
    split
    · rfl
    · split
      · next hdirectory => rw [hdirectory]
      · next hdirectory => rw [hdirectory]; rfl
  | some e =>
    cases e with
    | directory => rfl
    | file old =>
      dsimp only
      split
      · rfl
      · rfl

/-- What it takes to write a file, and what it changes. -/
lemma writeText_ok {p : Path} {text : String} (h : d.writeText p text = .ok d') :
    ∃ last, d.place p = .ok last ∧ d.entry? last ≠ some .directory ∧ demandsDirectory p = false ∧
      d' = d.put last (.file text.toUTF8) := by
  unfold writeText at h
  cases hplace : d.place p with
  | error e =>
    rw [write, hplace] at h
    cases h
  | ok last =>
    rw [write_of_place hplace] at h
    refine ⟨last, rfl, ?_⟩
    cases hdemands : demandsDirectory p with
    | true =>
      rw [hdemands] at h
      split at h <;> cases h
    | false =>
      rw [hdemands] at h
      split at h
      · cases h
      · next hentry =>
        refine ⟨by rw [hentry]; exact nofun, rfl, ?_⟩
        exact (Except.ok.inj h).symm
      · next hentry =>
        refine ⟨by rw [hentry]; exact nofun, rfl, ?_⟩
        rw [if_neg Bool.false_ne_true] at h
        split at h
        · exact (Except.ok.inj h).symm
        · cases h

/-- A file is moved. -/
lemma rename_of_place {source target : Path} {src dst : Place} {content : ByteArray}
    (hsource : d.find source = .ok (src, .file content)) (hplace : d.place target = .ok dst) :
    d.rename source target = match d.entry? dst with
      | some .directory => .error .isDirectory
      | some (.file _) =>
        if demandsDirectory target then .error .notDirectory else .ok (if src = dst then d else d.move src dst)
      | none =>
        if demandsDirectory target then .error .notDirectory
        else match d.directoryAt dst.dropLast with
          | .ok _ => .ok (if src = dst then d else d.move src dst)
          | .error e => .error e := by
  rw [rename, hsource, hplace]
  simp only [bind, Except.bind]
  cases d.entry? dst with
  | none =>
    dsimp only
    split
    · rfl
    · split
      · next hdirectory => rw [hdirectory]
      · next hdirectory => rw [hdirectory]; rfl
  | some e =>
    cases e with
    | directory => rfl
    | file old =>
      dsimp only
      split
      · rfl
      · rfl

/-- What it takes to move a file over another one, and what it changes. -/
lemma rename_ok {source target : Path} {src : Place} {content : ByteArray}
    (hsource : d.find source = .ok (src, .file content)) (h : d.rename source target = .ok d') :
    ∃ dst, d.place target = .ok dst ∧ d.entry? dst ≠ some .directory ∧ demandsDirectory target = false ∧
      d' = if src = dst then d else d.move src dst := by
  cases hplace : d.place target with
  | error e =>
    rw [rename, hsource, hplace] at h
    cases h
  | ok dst =>
    rw [rename_of_place hsource hplace] at h
    refine ⟨dst, rfl, ?_⟩
    split at h
    · cases h
    · next hentry =>
      split at h
      · cases h
      · next hdemands =>
        refine ⟨?_, by simpa using hdemands, (Except.ok.inj h).symm⟩
        rw [hentry]
        exact nofun
    · next hentry =>
      split at h
      · cases h
      · next hdemands =>
        split at h
        · refine ⟨?_, by simpa using hdemands, (Except.ok.inj h).symm⟩
          rw [hentry]
          exact nofun
        · cases h

/-- A text that stands at a path is read there. -/
lemma readText_of_place {p : Path} {last : Place} {text : String} (hplace : d.place p = .ok last)
    (hentry : d.entry? last = some (.file text.toUTF8)) (hdemands : demandsDirectory p = false) :
    d.readText p = .ok text := by
  have hfind : d.find p = .ok (last, .file text.toUTF8) := by
    rw [find_of_place hplace, hentry]
    simp [hdemands]
  have hread : d.read p = .ok text.toUTF8 := by
    rw [Disk.read, hfind]
    rfl
  have htext : String.fromUTF8? text.toUTF8 = some text := by
    rw [String.fromUTF8?, String.toUTF8_eq_toByteArray, dif_pos text.isValidUTF8]
    rfl
  rw [readText, hread]
  simp only [bind, Except.bind, htext]
  rfl

/-- A directory that is found at a path. -/
lemma isDirectory_iff {p : Path} :
    d.isDirectory p = true ↔ ∃ last, d.place p = .ok last ∧ d.entry? last = some .directory := by
  unfold isDirectory
  cases hplace : d.place p with
  | error e =>
    have hfind : d.find p = .error e := by
      rw [find, hplace]
      rfl
    simp [hfind]
  | ok last =>
    rw [find_of_place hplace]
    cases hentry : d.entry? last with
    | none => simp [hentry]
    | some e =>
      cases e with
      | directory => simp [hentry]
      | file content =>
        dsimp only
        cases demandsDirectory p with
        | true => simp [hentry]
        | false => simp [hentry]

/-- A directory stays where ways go on. -/
lemma isDirectory_of_ways (hways : WaysInto d d') (hcurrent : d'.current = d.current) (hstanding : d.Standing) {p : Path}
    (h : d.isDirectory p = true) : d'.isDirectory p = true := by
  obtain ⟨last, hplace, hentry⟩ := isDirectory_iff.mp h
  obtain ⟨hreaches, hother⟩ := place_of_ways hways hcurrent hstanding hplace
  have hleads := hways last (hreaches.leads hentry)
  exact isDirectory_iff.mpr ⟨last, hother, hleads last (List.prefix_refl last)⟩

/-! ## Directories -/

/-- Directories come, and nothing else changes. -/
structure Grows (d d' : Disk) : Prop where
  ways : WaysInto d d'
  current : d'.current = d.current

lemma Grows.refl (d : Disk) : Grows d d := ⟨fun _ h => h, rfl⟩

lemma Grows.trans {d'' : Disk} (h : Grows d d') (h' : Grows d' d'') : Grows d d'' :=
  ⟨fun place hplace => h'.ways place (h.ways place hplace), h'.current.trans h.current⟩

lemma Grows.standing (h : Grows d d') (hstanding : d.Standing) : d'.Standing := by
  rw [Standing, h.current]
  exact h.ways _ hstanding

lemma grows_put_directory (d : Disk) (place : Place) : Grows d (d.put place .directory) := by
  refine ⟨?_, rfl⟩
  intro other hleads above habove
  rw [entry?_put]
  split
  · rfl
  · exact hleads above habove

lemma makeDirectory_ok {p : Path} (h : d.makeDirectory p = .ok d') :
    ∃ last, d.place p = .ok last ∧ last ≠ [] ∧ d' = d.put last .directory := by
  unfold makeDirectory at h
  cases hplace : d.place p with
  | error e =>
    rw [hplace] at h
    cases h
  | ok last =>
    rw [hplace] at h
    simp only [bind, Except.bind] at h
    split at h
    · cases h
    · next hentry =>
      split at h
      · cases h
      · refine ⟨last, rfl, ?_, (Except.ok.inj h).symm⟩
        intro hroot
        rw [hroot] at hentry
        cases hentry

/-- A directory that is ensured is there. -/
lemma ensureDirectory_ok (hstanding : d.Standing) {p : Path} (h : d.ensureDirectory p = (.ok (), d')) :
    Grows d d' ∧ d'.isDirectory p = true := by
  unfold ensureDirectory at h
  split at h
  · next made hmade =>
    obtain rfl : made = d' := (Prod.mk.inj h).2
    obtain ⟨last, hplace, hroot, rfl⟩ := makeDirectory_ok hmade
    have hgrows := grows_put_directory d last
    refine ⟨hgrows, isDirectory_iff.mpr ⟨last, (place_of_ways hgrows.ways rfl hstanding hplace).2, ?_⟩⟩
    rw [entry?_put, if_pos ⟨rfl, hroot⟩]
  · split at h
    · next hthere =>
      obtain rfl : d = d' := (Prod.mk.inj h).2
      exact ⟨.refl d, hthere⟩
    · cases (Prod.mk.inj h).1

lemma makeDirectoriesFrom_ok (hstanding : d.Standing) {p : Path} {above : List Path}
    (h : d.makeDirectoriesFrom p above = (.ok (), d')) : Grows d d' ∧ (p.text ≠ "" → d'.isDirectory p = true) := by
  induction above generalizing p d' with
  | nil =>
    unfold makeDirectoriesFrom at h
    split at h
    · next hempty =>
      obtain rfl : d = d' := (Prod.mk.inj h).2
      exact ⟨.refl d, fun hp => absurd hempty hp⟩
    · split at h
      · cases (Prod.mk.inj h).1
      · next heq => cases heq
      · obtain ⟨hgrows, hthere⟩ := ensureDirectory_ok hstanding h
        exact ⟨hgrows, fun _ => hthere⟩
  | cons q rest ih =>
    unfold makeDirectoriesFrom at h
    split at h
    · next hempty =>
      obtain rfl : d = d' := (Prod.mk.inj h).2
      exact ⟨.refl d, fun hp => absurd hempty hp⟩
    · split at h
      · next heq => cases heq
      · next q' rest' _ heq =>
        obtain ⟨rfl, rfl⟩ := List.cons.inj heq
        -- first the directory above, then this one
        split at h
        · next d₁ habove =>
          obtain ⟨hfirst, -⟩ := ih habove
          obtain ⟨hsecond, hthere⟩ := ensureDirectory_ok (hfirst.standing hstanding) h
          exact ⟨hfirst.trans hsecond, fun _ => hthere⟩
        · cases (Prod.mk.inj h).1
      · obtain ⟨hgrows, hthere⟩ := ensureDirectory_ok hstanding h
        exact ⟨hgrows, fun _ => hthere⟩

/-- Directories that are there are not made again. -/
lemma makeDirectories_of_isDirectory {p : Path} (h : p.text = "" ∨ d.isDirectory p = true) :
    d.makeDirectories p = (.ok (), d) := by
  rcases h with hempty | hthere
  · rw [makeDirectories, makeDirectoriesFrom.eq_def]
    dsimp only
    rw [if_pos hempty]
    rfl
  · obtain ⟨last, hplace, hentry⟩ := isDirectory_iff.mp hthere
    have hmake : d.makeDirectory p = .error .alreadyExists := by
      rw [makeDirectory, hplace]
      simp only [bind, Except.bind, hentry]
      rfl
    have hensure : d.ensureDirectory p = (.ok (), d) := by
      rw [ensureDirectory, hmake]
      simp only [hthere, if_true]
      rfl
    rw [makeDirectories, makeDirectoriesFrom.eq_def]
    dsimp only
    rw [hmake]
    split
    · rfl
    · exact hensure

/-! ## Confined changes -/

variable {d'' : Disk}

/-- Directories stay, and what stands at other places is what stood there. -/
structure Confined (touched : Place → Prop) (d d' : Disk) : Prop where
  ways : SameWays d d'
  rest : ∀ place, d.Reaches place → ¬ touched place → d'.entry? place = d.entry? place

lemma reaches_concat {place : Place} {name : String} : d.Reaches (place ++ [name]) ↔ d.Leads place := by
  constructor
  · intro h above habove
    refine h above (habove.trans (List.prefix_append ..)) ?_
    rintro rfl
    have hlength := habove.length_le
    simp at hlength
  · exact fun h => h.child name

namespace SameWays

lemma reaches (h : SameWays d d') {place : Place} (hplace : d.Reaches place) : d'.Reaches place := by
  rcases List.eq_nil_or_concat' place with rfl | ⟨parent, name, rfl⟩
  · exact d'.leads_root.reaches
  · exact reaches_concat.mpr ((h.leads parent).mp (reaches_concat.mp hplace))

/-- What is removed was not on the way to anything. -/
lemma drop {place : Place} (hplace : d.entry? place ≠ some .directory) : SameWays d (d.drop place) := by
  refine ⟨fun other => ⟨fun hleads above habove => ?_, fun hleads above habove => ?_⟩, rfl⟩
  · have hnot : ¬ place <+: above := fun hbelow => hplace (hleads place (hbelow.trans habove))
    rw [entry?_drop, if_neg fun hboth => hnot hboth.1]
    exact hleads above habove
  · have hentry := hleads above habove
    rw [entry?_drop] at hentry
    split at hentry
    · cases hentry
    · exact hentry

end SameWays

namespace Confined

variable {touched touched' : Place → Prop}

lemma refl (touched : Place → Prop) (d : Disk) : Confined touched d d := ⟨.refl d, fun _ _ _ => rfl⟩

lemma trans (h : Confined touched d d') (h' : Confined touched d' d'') : Confined touched d d'' := by
  refine ⟨h.ways.trans h'.ways, fun place hreaches hnot => ?_⟩
  rw [h'.rest place (h.ways.reaches hreaches) hnot, h.rest place hreaches hnot]

lemma mono (h : Confined touched d d') (hsub : ∀ place, touched place → touched' place) : Confined touched' d d' :=
  ⟨h.ways, fun place hreaches hnot => h.rest place hreaches fun htouched => hnot (hsub place htouched)⟩

end Confined

lemma Reaches.directoryAt {place : Place} (h : d.Reaches place) (hroot : place ≠ []) :
    d.directoryAt place.dropLast = .ok () := by
  rcases List.eq_nil_or_concat' place with rfl | ⟨parent, name, rfl⟩
  · exact absurd rfl hroot
  · rw [List.dropLast_concat]
    exact directoryAt_eq_ok_iff.mpr (reaches_concat.mp h parent (List.prefix_refl parent))

/-- Nothing that can be reached is below a file. -/
lemma Reaches.not_below {place other : Place} (h : d.Reaches other) (hplace : d.entry? place ≠ some .directory)
    (hne : other ≠ place) : ¬ place <+: other := fun hbelow => hplace (h place hbelow hne.symm)

/-! ## Changes of one file -/

/-- The path names the place, and whatever stands there may be a file. -/
structure NamesFile (d : Disk) (p : Path) (place : Place) : Prop where
  place : d.place p = .ok place
  plain : demandsDirectory p = false

namespace NamesFile

variable {p target : Path} {place dst : Place}

lemma reaches (h : d.NamesFile p place) (hstanding : d.Standing) : d.Reaches place :=
  (place_of_ways (fun _ hleads => hleads) rfl hstanding h.place).1

lemma find (h : d.NamesFile p place) :
    d.find p = match d.entry? place with
      | none => .error .notFound
      | some e => .ok (place, e) := by
  rw [find_of_place h.place, h.plain]
  cases d.entry? place with
  | none => rfl
  | some e => cases e <;> rfl

lemma pathExists (h : d.NamesFile p place) : d.pathExists p = (d.entry? place).isSome := by
  rw [Disk.pathExists, h.find]
  cases d.entry? place <;> rfl

lemma size_none (h : d.NamesFile p place) (hentry : d.entry? place = none) : d.size p = .error .notFound := by
  rw [Disk.size, h.find, hentry]
  rfl

lemma size_file (h : d.NamesFile p place) {content : ByteArray} (hentry : d.entry? place = some (.file content)) :
    d.size p = .ok content.size := by
  rw [Disk.size, h.find, hentry]
  rfl

/-- A file is written. -/
lemma write (h : d.NamesFile p place) (hstanding : d.Standing) (hentry : d.entry? place ≠ some .directory)
    (content : ByteArray) :
    ∃ d', d.write p content = .ok d' ∧ d'.entry? place = some (.file content) ∧ Confined (· = place) d d' := by
  have hroot : place ≠ [] := by
    rintro rfl
    exact hentry rfl
  refine ⟨d.put place (.file content), ?_, ?_, .put_file hentry content, ?_⟩
  · have hparent := (h.reaches hstanding).directoryAt hroot
    rw [write_of_place h.place, h.plain]
    cases hthere : d.entry? place with
    | none => simp [hparent]
    | some e =>
      cases e with
      | file old => rfl
      | directory => exact absurd hthere hentry
  · rw [entry?_put, if_pos ⟨rfl, hroot⟩]
  · intro other _ hne
    rw [entry?_put, if_neg fun hboth => hne hboth.1]

/-- A file is removed. -/
lemma removeFile (h : d.NamesFile p place) {content : ByteArray} (hentry : d.entry? place = some (.file content)) :
    ∃ d', d.removeFile p = .ok d' ∧ d'.entry? place = none ∧ Confined (· = place) d d' := by
  have hnot : d.entry? place ≠ some .directory := by
    rw [hentry]
    exact nofun
  have hroot : place ≠ [] := by
    rintro rfl
    exact hnot rfl
  refine ⟨d.drop place, ?_, ?_, .drop hnot, ?_⟩
  · rw [Disk.removeFile, h.find, hentry]
    rfl
  · rw [entry?_drop, if_pos ⟨List.prefix_refl place, hroot⟩]
  · intro other hreaches hne
    rw [entry?_drop, if_neg fun hboth => hreaches.not_below hnot hne hboth.1]

/-- A file is moved to another place, where no directory is. -/
lemma rename (h : d.NamesFile p place) (hstanding : d.Standing) {content : ByteArray}
    (hentry : d.entry? place = some (.file content)) (htarget : d.NamesFile target dst)
    (hfree : d.entry? dst ≠ some .directory) (hne : place ≠ dst) :
    ∃ d', d.rename p target = .ok d' ∧ d'.entry? place = none ∧ d'.entry? dst = some (.file content) ∧
      Confined (fun other => other = place ∨ other = dst) d d' := by
  have hnot : d.entry? place ≠ some .directory := by
    rw [hentry]
    exact nofun
  have hroot : place ≠ [] := by
    rintro rfl
    exact hnot rfl
  have hdstRoot : dst ≠ [] := by
    rintro rfl
    exact hfree rfl
  refine ⟨d.move place dst, ?_, ?_, ?_, .move hnot hfree, ?_⟩
  · have hfind : d.find p = .ok (place, .file content) := by rw [h.find, hentry]
    have hparent := (htarget.reaches hstanding).directoryAt hdstRoot
    rw [rename_of_place hfind htarget.place, htarget.plain]
    cases hthere : d.entry? dst with
    | none => simp [hparent, hne]
    | some e =>
      cases e with
      | file old => simp [hne]
      | directory => exact absurd hthere hfree
  · rw [entry?_move_other ((h.reaches hstanding).not_below hfree hne), if_pos ⟨List.prefix_refl place, hroot⟩]
  · rw [entry?_move_target hroot hdstRoot, hentry]
  · intro other hreaches hapart
    obtain ⟨hsource, hdst⟩ := not_or.mp hapart
    rw [entry?_move_other (hreaches.not_below hfree hdst), if_neg fun hboth => hreaches.not_below hnot hsource hboth.1]

end NamesFile

/-! ## Changes that have succeeded -/

lemma follow_unique {pieces : List String} {place a b : Place} (h : d.follow place pieces = .ok a)
    (h' : d'.follow place pieces = .ok b) : a = b := by
  induction pieces generalizing place with
  | nil => exact (Except.ok.inj h).symm.trans (Except.ok.inj h')
  | cons piece rest ih =>
    rw [follow] at h h'
    cases hdirectory : d.directoryAt place with
    | error e =>
      rw [hdirectory] at h
      cases h
    | ok u =>
      cases hdirectory' : d'.directoryAt place with
      | error e =>
        rw [hdirectory'] at h'
        cases h'
      | ok u' =>
        rw [hdirectory] at h
        rw [hdirectory'] at h'
        simp only [bind, Except.bind] at h h'
        split at h
        · next hhere =>
          rw [if_pos hhere] at h'
          exact ih h h'
        · next hhere =>
          rw [if_neg hhere] at h'
          split at h
          · next hup =>
            rw [if_pos hup] at h'
            exact ih h h'
          · next hup =>
            rw [if_neg hup] at h'
            split at h
            · cases h
            · next hlong =>
              rw [if_neg hlong] at h'
              exact ih h h'

/-- Where a path leads is a matter of its spelling, if it leads anywhere. -/
lemma place_unique (hcurrent : d'.current = d.current) {p : Path} {a b : Place} (h : d.place p = .ok a)
    (h' : d'.place p = .ok b) : a = b := by
  have hstart : d'.start p = d.start p := by rw [start, start, hcurrent]
  rw [place_eq] at h h'
  split at h
  · cases h
  · next hnul =>
    rw [if_neg hnul] at h'
    split at h
    · cases h
    · next hempty =>
      rw [if_neg hempty, hstart] at h'
      exact follow_unique h h'

lemma find_ok {p : Path} {place : Place} {e : Entry} (h : d.find p = .ok (place, e)) :
    d.place p = .ok place ∧ d.entry? place = some e := by
  cases hplace : d.place p with
  | error e =>
    rw [find, hplace] at h
    cases h
  | ok last =>
    rw [find_of_place hplace] at h
    split at h
    · cases h
    · next hentry =>
      split at h
      · cases h
      · obtain ⟨rfl, rfl⟩ := Prod.mk.inj (Except.ok.inj h)
        exact ⟨rfl, hentry⟩
    · next hentry =>
      obtain ⟨rfl, rfl⟩ := Prod.mk.inj (Except.ok.inj h)
      exact ⟨rfl, hentry⟩

/-- What was moved, be it a file or a directory. -/
lemma rename_ok_places {source target : Path} (h : d.rename source target = .ok d') :
    ∃ src dst, d.place source = .ok src ∧ d.place target = .ok dst ∧ d' = if src = dst then d else d.move src dst := by
  cases hfind : d.find source with
  | error e =>
    rw [Disk.rename, hfind] at h
    cases h
  | ok found =>
    obtain ⟨src, e⟩ := found
    cases hplace : d.place target with
    | error e =>
      rw [Disk.rename, hfind, hplace] at h
      cases h
    | ok dst =>
      refine ⟨src, dst, (find_ok hfind).1, rfl, ?_⟩
      rw [Disk.rename, hfind, hplace] at h
      simp only [bind, Except.bind] at h
      generalize (if src = dst then d else d.move src dst) = moved at h ⊢
      -- each check either refuses or goes on to the next one
      repeat' split at h
      all_goals first
        | exact (Except.ok.inj h).symm
        | cases h

lemma removeFile_ok_place {p : Path} (h : d.removeFile p = .ok d') :
    ∃ place, d.place p = .ok place ∧ d' = d.drop place := by
  unfold Disk.removeFile at h
  cases hfind : d.find p with
  | error e =>
    rw [hfind] at h
    cases h
  | ok found =>
    obtain ⟨place, e⟩ := found
    rw [hfind] at h
    cases e with
    | directory => cases h
    | file content => exact ⟨place, (find_ok hfind).1, (Except.ok.inj h).symm⟩

end Switchboard.Disk
