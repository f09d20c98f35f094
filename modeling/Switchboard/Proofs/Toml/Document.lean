import Switchboard.Proofs.Toml.Overlay
import Switchboard.Toml.Document

/-!
# Documents are read in order

* `Node.Tidy`, `Node.ordered_toToml`: what is built while a document is read, and the value that it is in the end;
* `ordered_value`: values, arrays and inline tables are in order;
* `ordered_read?`: so is a document.
-/

namespace Switchboard.Toml

namespace Node

mutual

/-- The values that were read are in order. -/
def Tidy : Node → Prop
  | leaf v => v.Ordered
  | table _ _ entries => EntriesTidy entries
  | tables items => ItemsTidy items

/-- `Tidy` of entries. -/
def EntriesTidy : List (String × Node) → Prop
  | [] => True
  | (_, n) :: rest => n.Tidy ∧ EntriesTidy rest

/-- `Tidy` of items. -/
def ItemsTidy : List Node → Prop
  | [] => True
  | n :: rest => n.Tidy ∧ ItemsTidy rest

end

variable {entries out : List (String × Node)} {items : List Node} {k : String} {n : Node}

lemma tidy_nil : EntriesTidy [] := trivial

lemma entriesTidy_iff : EntriesTidy entries ↔ ∀ e ∈ entries, e.2.Tidy := by
  induction entries with
  | nil => exact ⟨fun _ => List.forall_mem_nil _, fun _ => trivial⟩
  | cons e rest ih => rw [EntriesTidy, ih, List.forall_mem_cons]

lemma itemsTidy_iff : ItemsTidy items ↔ ∀ n ∈ items, n.Tidy := by
  induction items with
  | nil => exact ⟨fun _ => List.forall_mem_nil _, fun _ => trivial⟩
  | cons n rest ih => rw [ItemsTidy, ih, List.forall_mem_cons]

lemma EntriesTidy.of_lookup (h : EntriesTidy entries) (hn : entries.lookup k = some n) : n.Tidy :=
  entriesTidy_iff.mp h (k, n) (mem_of_lookup hn)

mutual

/-- What is built is in order when it is done. -/
theorem ordered_toToml : ∀ {n : Node}, n.Tidy → n.toToml.Ordered
  | leaf _, h => h
  | table _ _ entries, h => @ordered_entriesToToml entries h
  | tables items, h => inOrder_arr_iff.mpr (@ordered_itemsToToml items h)

theorem ordered_entriesToToml : ∀ {entries : List (String × Node)}, EntriesTidy entries →
    (Toml.table (entriesToToml entries)).Ordered
  | [], _ => inOrder_table_iff.mpr ⟨List.Pairwise.nil, List.forall_mem_nil _⟩
  | (k, n) :: rest, h => by
    have hrest := @ordered_entriesToToml rest h.2
    refine inOrder_table_iff.mpr ⟨sorted_insertEntry k _ hrest.sorted, fun e he => ?_⟩
    rcases inserts_entries.mem (x := (k, n.toToml)) he with rfl | hmem
    · exact ordered_toToml h.1
    · exact hrest.of_mem hmem

theorem ordered_itemsToToml : ∀ {items : List Node}, ItemsTidy items → ∀ v ∈ itemsToToml items, v.Ordered
  | [], _ => List.forall_mem_nil _
  | _ :: _, h => List.forall_mem_cons.mpr ⟨ordered_toToml h.1, ordered_itemsToToml h.2⟩

end

lemma EntriesTidy.set (h : EntriesTidy entries) (hn : n.Tidy) : EntriesTidy (setEntry k n entries) := by
  induction entries with
  | nil => exact ⟨hn, trivial⟩
  | cons e rest ih =>
    rw [setEntry]
    split
    · exact ⟨hn, h.2⟩
    · exact ⟨h.1, ih h.2⟩

/-- The last item of a list that is a table, and those before it. -/
lemma ItemsTidy.of_reverse {implicit dotted : Bool} {inner : List (String × Node)} {before : List Node}
    (h : ItemsTidy items) (hitems : items.reverse = table implicit dotted inner :: before) :
    EntriesTidy inner ∧ ∀ inner', EntriesTidy inner' → ItemsTidy (table implicit dotted inner' :: before).reverse := by
  have hall : ∀ n ∈ table implicit dotted inner :: before, n.Tidy := fun n hn =>
    itemsTidy_iff.mp h n (List.mem_reverse.mp (hitems ▸ hn))
  obtain ⟨hlast, hbefore⟩ := List.forall_mem_cons.mp hall
  refine ⟨hlast, fun inner' hinner' => itemsTidy_iff.mpr fun n hn => ?_⟩
  rcases List.mem_cons.mp (List.mem_reverse.mp hn) with rfl | hn
  · exact hinner'
  · exact hbefore n hn

lemma tidy_descend {f : List (String × Node) → Option (List (String × Node))} {path : List String}
    (hf : ∀ entries out, EntriesTidy entries → f entries = some out → EntriesTidy out) (h : EntriesTidy entries)
    (hout : descend path f entries = some out) : EntriesTidy out := by
  induction path generalizing entries out with
  | nil => exact hf entries out h hout
  | cons k rest ih =>
    rw [descend] at hout
    split at hout
    · obtain ⟨inner, hinner, hsome⟩ := Option.bind_eq_some_iff.mp hout
      obtain rfl := Option.some.inj hsome
      exact h.set (ih tidy_nil hinner)
    · next hlookup =>
      obtain ⟨inner, hinner, hsome⟩ := Option.bind_eq_some_iff.mp hout
      obtain rfl := Option.some.inj hsome
      exact h.set (ih (h.of_lookup hlookup) hinner)
    · next items hlookup =>
      split at hout
      · next hitems =>
        obtain ⟨inner, hinner, hsome⟩ := Option.bind_eq_some_iff.mp hout
        obtain rfl := Option.some.inj hsome
        obtain ⟨hlast, hnew⟩ := ItemsTidy.of_reverse (h.of_lookup hlookup) hitems
        exact h.set (hnew inner (ih hlast hinner))
      · cases hout
    · cases hout

lemma tidy_insertLast {v : Toml} (h : EntriesTidy entries) (hv : v.Ordered)
    (hout : insertDotted.insertLast v k entries = some out) : EntriesTidy out := by
  rw [insertDotted.insertLast] at hout
  split at hout
  · obtain rfl := Option.some.inj hout
    exact h.set hv
  · cases hout

lemma tidy_insertDotted {v : Toml} {dotted : Bool} {path : List String} (h : EntriesTidy entries) (hv : v.Ordered)
    (hout : insertDotted v dotted path entries = some out) : EntriesTidy out := by
  induction path generalizing dotted entries out with
  | nil => cases hout
  | cons k rest ih =>
    cases rest with
    | nil =>
      rw [insertDotted] at hout
      split at hout
      · exact tidy_insertLast h hv hout
      · cases hout
    | cons k' rest =>
      rw [insertDotted] at hout
      · split at hout
        · obtain ⟨inner, hinner, hsome⟩ := Option.bind_eq_some_iff.mp hout
          obtain rfl := Option.some.inj hsome
          exact h.set (ih tidy_nil hinner)
        · next hlookup =>
          obtain ⟨inner, hinner, hsome⟩ := Option.bind_eq_some_iff.mp hout
          obtain rfl := Option.some.inj hsome
          exact h.set (ih (h.of_lookup hlookup) hinner)
        · next items hlookup =>
          split at hout
          · next hitems =>
            obtain ⟨inner, hinner, hsome⟩ := Option.bind_eq_some_iff.mp hout
            obtain rfl := Option.some.inj hsome
            obtain ⟨hlast, hnew⟩ := ItemsTidy.of_reverse (h.of_lookup hlookup) hitems
            exact h.set (hnew inner (ih hlast hinner))
          · cases hout
        · cases hout
      · nofun

end Node

/-! ## Values -/

lemma ordered_numeral {cs rest : List Char} {v : Toml} (h : numeral cs = some (v, rest)) : v.Ordered := by
  unfold numeral at h
  split at h
  · obtain ⟨rfl, -⟩ := Prod.mk.inj (Option.some.inj h)
    exact trivial
  · split at h
    · obtain ⟨rfl, -⟩ := Prod.mk.inj (Option.some.inj h)
      exact trivial
    · obtain ⟨r, -, hr⟩ := Option.map_eq_some_iff.mp h
      obtain ⟨rfl, -⟩ := Prod.mk.inj hr
      exact trivial

/-- What so many calls read is in order. -/
structure ReadsInOrder (fuel : Nat) : Prop where
  value : ∀ {depth cs v rest}, Toml.value fuel depth cs = some (v, rest) → v.Ordered
  items : ∀ {depth acc cs v rest}, (∀ w ∈ acc, w.Ordered) → Toml.items fuel depth acc cs = some (v, rest) → v.Ordered
  pairs : ∀ {depth acc cs v rest}, Node.EntriesTidy acc → Toml.pairs fuel depth acc cs = some (v, rest) → v.Ordered

namespace ReadsInOrder

variable {fuel depth : Nat} {cs rest : List Char} {v : Toml}

lemma value_succ (h : ReadsInOrder fuel) (hv : Toml.value (fuel + 1) depth cs = some (v, rest)) : v.Ordered := by
  rw [Toml.value.eq_def] at hv
  dsimp only at hv
  split at hv
  · obtain ⟨rfl, -⟩ := Prod.mk.inj (Option.some.inj hv)
    exact trivial
  · obtain ⟨rfl, -⟩ := Prod.mk.inj (Option.some.inj hv)
    exact trivial
  · split at hv
    · cases hv
    · exact h.items (List.forall_mem_nil _) hv
  · split at hv
    · cases hv
    · split at hv
      · obtain ⟨rfl, -⟩ := Prod.mk.inj (Option.some.inj hv)
        exact inOrder_table_iff.mpr ⟨List.Pairwise.nil, List.forall_mem_nil _⟩
      · exact h.pairs Node.tidy_nil hv
  · split at hv
    · obtain ⟨r, -, hr⟩ := Option.map_eq_some_iff.mp hv
      obtain ⟨rfl, -⟩ := Prod.mk.inj hr
      exact trivial
    · split at hv
      · exact ordered_numeral hv
      · obtain ⟨r, -, hr⟩ := Option.map_eq_some_iff.mp hv
        obtain ⟨rfl, -⟩ := Prod.mk.inj hr
        exact trivial
  · cases hv

lemma items_succ (h : ReadsInOrder fuel) {acc : List Toml} (hacc : ∀ w ∈ acc, w.Ordered)
    (hv : Toml.items (fuel + 1) depth acc cs = some (v, rest)) : v.Ordered := by
  rw [Toml.items] at hv
  split at hv
  · obtain ⟨rfl, -⟩ := Prod.mk.inj (Option.some.inj hv)
    exact inOrder_arr_iff.mpr fun w hw => hacc w (List.mem_reverse.mp hw)
  · split at hv
    · cases hv
    · next hread =>
      have hacc' := List.forall_mem_cons.mpr ⟨h.value hread, hacc⟩
      split at hv
      · exact h.items hacc' hv
      · obtain ⟨rfl, -⟩ := Prod.mk.inj (Option.some.inj hv)
        exact inOrder_arr_iff.mpr fun w hw => hacc' w (List.mem_reverse.mp hw)
      · cases hv

lemma pairs_succ (h : ReadsInOrder fuel) {acc : List (String × Node)} (hacc : Node.EntriesTidy acc)
    (hv : Toml.pairs (fuel + 1) depth acc cs = some (v, rest)) : v.Ordered := by
  rw [Toml.pairs] at hv
  split at hv
  · split at hv
    · cases hv
    · next hread =>
      split at hv
      · cases hv
      · next hinsert =>
        have hacc' := Node.tidy_insertDotted hacc (h.value hread) hinsert
        split at hv
        · exact h.pairs hacc' hv
        · obtain ⟨rfl, -⟩ := Prod.mk.inj (Option.some.inj hv)
          exact Node.ordered_entriesToToml hacc'
        · cases hv
  · cases hv

end ReadsInOrder

/-- Values, the elements of arrays and the pairs of inline tables are read in order, by induction on the calls. -/
theorem readsInOrder (fuel : Nat) : ReadsInOrder fuel := by
  induction fuel with
  | zero =>
    refine ⟨fun hv => ?_, fun _ hv => ?_, fun _ hv => ?_⟩
    · rw [Toml.value] at hv
      cases hv
    · rw [Toml.items] at hv
      cases hv
    · rw [Toml.pairs] at hv
      cases hv
  | succ fuel ih => exact ⟨ih.value_succ, ih.items_succ, ih.pairs_succ⟩

/-! ## Documents -/

namespace Draft

variable {d d' : Draft} {root out : List (String × Node)} {path : List String}

/-- What was read so far is in order. -/
structure Tidy (d : Draft) : Prop where
  root : Node.EntriesTidy d.root
  entries : Node.EntriesTidy d.entries

lemma Tidy.write (h : d.Tidy) {entries : List (String × Node)} (hentries : Node.EntriesTidy entries) :
    Tidy { d with entries := entries } :=
  ⟨h.root, hentries⟩

lemma tidy_finish (h : d.Tidy) (hout : d.finish = some out) : Node.EntriesTidy out := by
  unfold finish at hout
  split at hout
  · obtain rfl := Option.some.inj hout
    exact h.entries
  · next k above hpath =>
    have htable : (Node.table false false d.entries).Tidy := h.entries
    refine Node.tidy_descend (fun entries out hentries hset => ?_) h.root hout
    split at hset
    · split at hset
      · obtain rfl := Option.some.inj hset
        exact hentries.set (Node.itemsTidy_iff.mpr (List.forall_mem_singleton.mpr htable))
      · next items hlookup =>
        obtain rfl := Option.some.inj hset
        have hitems : Node.ItemsTidy items := hentries.of_lookup hlookup
        refine hentries.set (Node.itemsTidy_iff.mpr fun n hn => ?_)
        rcases List.mem_append.mp hn with hn | hn
        · exact Node.itemsTidy_iff.mp hitems n hn
        · rw [List.mem_singleton.mp hn]
          exact htable
      · cases hset
    · obtain rfl := Option.some.inj hset
      exact hentries.set htable

lemma tidy_find {entries : List (String × Node)} (h : Node.EntriesTidy entries)
    (hout : beginTable.find path entries = some out) : Node.EntriesTidy out := by
  induction path generalizing entries with
  | nil =>
    obtain rfl : entries = out := Option.some.inj hout
    exact h
  | cons k rest ih =>
    rw [beginTable.find] at hout
    split at hout
    · next hlookup => exact ih (h.of_lookup hlookup) hout
    · next items hlookup =>
      have hitems : Node.ItemsTidy items := h.of_lookup hlookup
      split at hout
      · next hlast => exact ih (Node.itemsTidy_iff.mp hitems _ (List.mem_of_getLast? hlast)) hout
      · cases hout
    · cases hout

lemma tidy_beginTable (h : d.Tidy) (hd' : d.beginTable path = some d') : d'.Tidy := by
  obtain ⟨root, hroot, hd'⟩ := Option.bind_eq_some_iff.mp hd'
  have hroot := tidy_finish h hroot
  split at hd'
  · cases hd'
  · obtain ⟨root', hroot', hd'⟩ := Option.bind_eq_some_iff.mp hd'
    have hroot' : Node.EntriesTidy root' := by
      refine Node.tidy_descend (fun entries out hentries hsame => ?_) hroot hroot'
      obtain rfl := Option.some.inj hsame
      exact hentries
    split at hd'
    · cases hd'
    · next entries hfind =>
      have hentries := tidy_find hroot' hfind
      split at hd'
      · obtain rfl := Option.some.inj hd'
        exact ⟨hroot', trivial⟩
      · next inner hlookup =>
        obtain rfl := Option.some.inj hd'
        exact ⟨hroot', hentries.of_lookup hlookup⟩
      · cases hd'

lemma tidy_beginItem (h : d.Tidy) (hd' : d.beginItem path = some d') : d'.Tidy := by
  obtain ⟨root, hroot, hd'⟩ := Option.bind_eq_some_iff.mp hd'
  have hroot := tidy_finish h hroot
  split at hd'
  · cases hd'
  · obtain ⟨root', hroot', hd'⟩ := Option.bind_eq_some_iff.mp hd'
    obtain rfl := Option.some.inj hd'
    refine ⟨Node.tidy_descend (fun entries out hentries hsame => ?_) hroot hroot', trivial⟩
    split at hsame
    · obtain rfl := Option.some.inj hsame
      exact hentries
    · obtain rfl := Option.some.inj hsame
      exact hentries
    · cases hsame

end Draft

lemma tidy_lines {fuel : Nat} {d d' : Draft} {cs : List Char} (h : d.Tidy) (hd' : lines fuel d cs = some d') : d'.Tidy := by
  induction fuel generalizing d cs with
  | zero => cases hd'
  | succ fuel ih =>
    rw [lines] at hd'
    split at hd'
    · obtain rfl := Option.some.inj hd'
      exact h
    · split at hd'
      · split at hd'
        · next hbegin _ => exact ih (Draft.tidy_beginItem h hbegin) hd'
        · cases hd'
      · cases hd'
    · split at hd'
      · split at hd'
        · next hbegin _ => exact ih (Draft.tidy_beginTable h hbegin) hd'
        · cases hd'
      · cases hd'
    · split at hd'
      · exact ih h hd'
      · split at hd'
        · split at hd'
          · next hread =>
            split at hd'
            · next hinsert _ =>
              have hentries := Node.tidy_insertDotted h.entries ((readsInOrder _).value hread) hinsert
              exact ih (h.write hentries) hd'
            · cases hd'
          · cases hd'
        · cases hd'

/-- The tables of a document are in order of their keys, everywhere. -/
theorem ordered_read? {text : String} {entries : List (String × Toml)} (h : read? text = some entries) :
    (table entries).Ordered := by
  obtain ⟨d, hd, h⟩ := Option.bind_eq_some_iff.mp h
  obtain ⟨root, hroot, hentries⟩ := Option.bind_eq_some_iff.mp h
  obtain rfl := Option.some.inj hentries
  have hfirst : ({} : Draft).Tidy := ⟨trivial, trivial⟩
  exact Node.ordered_entriesToToml (Draft.tidy_finish (tidy_lines hfirst hd) hroot)

end Switchboard.Toml
