import Switchboard.Proofs.Breakpoint.Invariant
import Switchboard.Proofs.Launch.Isolation

/-!
# Ids that are given out

Both catalogs of the debugger number their entries. The counter of a catalog stands above the numbers of the entries that
were stored, and an entry that is made takes the number at which it stands. Counters have 64 bits.

* `Numbered`: a catalog as far as its numbers go;
* `Numbered.Takes`, `Numbered.Counts`: counting stays within 64 bits while entries are taken in, and while they are made;
* `Numbered.Apart`: no number is given out that is in use;
* `Lawful.takes_iff`, `counts_iff`, `apart_calls_iff`: when that is so, by the numbers alone;
* `ids_apart_iff`: both catalogs.

Where the counter has come to the last number it starts again from zero, and in time meets the entries that are there.
-/

namespace Switchboard.Debug

/-- A catalog `σ` as far as its numbers go, with stored entries `ε`, and calls `κ` that may make an entry. -/
structure Numbered (σ ε κ : Type) where
  /-- All numbers are below it. -/
  limit : Nat
  /-- Where the counter stands. -/
  next : σ → Nat
  /-- The entry of a number. -/
  get? : σ → Nat → Option ε
  /-- The number that a stored entry has. -/
  number : ε → Nat
  /-- The catalog with a stored entry, if that can be taken in. -/
  restore : σ → ε → σ
  /-- The number that a call gives out, if it makes an entry, and the catalog after it. -/
  call : σ → κ → Option Nat × σ

namespace Numbered

variable {σ ε κ : Type} (N : Numbered σ ε κ)

/-- The number has an entry. -/
def Used (s : σ) (n : Nat) : Prop := (N.get? s n).isSome

instance (s : σ) (n : Nat) : Decidable (N.Used s n) := inferInstanceAs (Decidable (_ = true))

/-- A catalog with all that was stored. -/
def load (start : σ) (stored : List ε) : σ := stored.foldl N.restore start

/-- Counting past the entries that are taken in stays below the limit. -/
def Takes : σ → List ε → Prop
  | _, [] => True
  | s, e :: rest => (N.restore s e = s ∨ N.number e + 1 < N.limit) ∧ Takes (N.restore s e) rest

/-- The numbers that calls give out, in order. -/
def given : σ → List κ → List Nat
  | _, [] => []
  | s, x :: rest => (N.call s x).1.toList ++ given (N.call s x).2 rest

/-- Where the counter comes to when it is counted on for every number that is given out, without a limit. -/
def spent (s : σ) (calls : List κ) : Nat := N.next s + (N.given s calls).length

/-- Counting past the numbers that are given out stays below the limit. -/
def Counts : σ → List κ → Prop
  | _, [] => True
  | s, x :: rest => ((N.call s x).1 = none ∨ N.next s + 1 < N.limit) ∧ Counts (N.call s x).2 rest

/-- No number is given out that is in use. -/
def Apart : σ → List κ → Prop
  | _, [] => True
  | s, x :: rest => (∀ n ∈ (N.call s x).1, ¬ N.Used s n) ∧ Apart (N.call s x).2 rest

/-- What a call that makes an entry does: the entry gets the number at which the counter stands, nothing changes under any
other number, and the counter goes on. -/
structure Makes (s : σ) (x : κ) : Prop where
  given : (N.call s x).1 = some (N.next s)
  entry : ∃ e, N.get? (N.call s x).2 = Function.update (N.get? s) (N.next s) (some e)
  next : N.next (N.call s x).2 = (N.next s + 1) % N.limit

/-- A call that makes no entry. -/
structure Spares (s : σ) (x : κ) : Prop where
  given : (N.call s x).1 = none
  used : ∀ n, N.Used (N.call s x).2 n ↔ N.Used s n
  next : N.next (N.call s x).2 = N.next s

/-- What happens to a stored entry that is taken in: its number was free, and the counter goes above it. -/
structure TakesIn (s : σ) (e : ε) : Prop where
  free : ¬ N.Used s (N.number e)
  used : ∀ n, N.Used (N.restore s e) n ↔ n = N.number e ∨ N.Used s n
  next : N.next (N.restore s e) = max (N.next s) ((N.number e + 1) % N.limit)

/-- A catalog that numbers its entries so. -/
structure Lawful : Prop where
  restore : ∀ s e, N.restore s e = s ∨ N.TakesIn s e
  call : ∀ s x, N.Spares s x ∨ N.Makes s x

/-- The counter and all numbers in use are below the limit. -/
structure Fits (s : σ) : Prop where
  next : N.next s < N.limit
  used : ∀ n, N.Used s n → n < N.limit

variable {N} {s : σ}

lemma used_of_update {t : σ} {k : Nat} {e : ε} (h : N.get? t = Function.update (N.get? s) k (some e)) (n : Nat) :
    N.Used t n ↔ n = k ∨ N.Used s n := by
  unfold Used
  rw [h, Function.update_apply]
  by_cases hn : n = k
  · simp [hn]
  · simp [hn]

lemma Spares.of_call {x : κ} {t : σ} (hcall : N.call s x = (none, t)) (hused : ∀ n, (N.get? t n).isSome = (N.get? s n).isSome)
    (hnext : N.next t = N.next s) : N.Spares s x := by
  refine ⟨by rw [hcall], fun n => ?_, by rw [hcall]; exact hnext⟩
  rw [hcall, Used, hused]
  rfl

lemma Spares.of_same {x : κ} (hcall : N.call s x = (none, s)) : N.Spares s x := .of_call hcall (fun _ => rfl) rfl

lemma Makes.of_call {x : κ} {t : σ} {e : ε} (hcall : N.call s x = (some (N.next s), t))
    (hentry : N.get? t = Function.update (N.get? s) (N.next s) (some e)) (hnext : N.next t = (N.next s + 1) % N.limit) :
    N.Makes s x := by
  refine ⟨by rw [hcall], ⟨e, ?_⟩, by rw [hcall]; exact hnext⟩
  rw [hcall]
  exact hentry

lemma Makes.used {x : κ} (h : N.Makes s x) (n : Nat) : N.Used (N.call s x).2 n ↔ n = N.next s ∨ N.Used s n := by
  obtain ⟨e, hentry⟩ := h.entry
  exact used_of_update hentry n

namespace Lawful

variable (h : N.Lawful)

include h

/-! ## Taking in -/

lemma used_load {n : Nat} (hn : N.Used s n) (stored : List ε) : N.Used (N.load s stored) n := by
  induction stored generalizing s with
  | nil => exact hn
  | cons e rest ih =>
    refine ih ?_
    rcases h.restore s e with hsame | htaken
    · rwa [hsame]
    · exact (htaken.used n).mpr (.inr hn)

/-- Counting stays below the limit exactly if no entry that is taken in has the last number. -/
lemma takes_iff (hlast : ∀ n, N.Used s n → n + 1 < N.limit) (stored : List ε) :
    N.Takes s stored ↔ ∀ n, N.Used (N.load s stored) n → n + 1 < N.limit := by
  induction stored generalizing s with
  | nil => exact iff_of_true trivial hlast
  | cons e rest ih =>
    show _ ∧ N.Takes (N.restore s e) rest ↔ ∀ n, N.Used (N.load (N.restore s e) rest) n → n + 1 < N.limit
    rcases h.restore s e with hsame | htaken
    · rw [hsame, ih hlast]
      exact and_iff_right (.inl rfl)
    · have hused : N.Used (N.restore s e) (N.number e) := (htaken.used _).mpr (.inl rfl)
      have hchanged : N.restore s e ≠ s := by
        intro hsame
        rw [hsame] at hused
        exact htaken.free hused
      constructor
      · rintro ⟨hroom, hrest⟩
        refine (ih ?_).mp hrest
        intro n hn
        rcases (htaken.used n).mp hn with rfl | hn
        · exact hroom.resolve_left hchanged
        · exact hlast n hn
      · intro hall
        have hroom : N.number e + 1 < N.limit := hall _ (h.used_load hused rest)
        refine ⟨.inr hroom, (ih ?_).mpr hall⟩
        intro n hn
        rcases (htaken.used n).mp hn with rfl | hn
        · exact hroom
        · exact hlast n hn

/-- What is taken in stays below the limit, and all of it but the last number is behind the counter. -/
lemma fits_load (hfits : N.Fits s) (hbehind : ∀ n, N.Used s n → n < N.next s ∨ n + 1 = N.limit) {stored : List ε}
    (hstored : ∀ e ∈ stored, N.number e < N.limit) :
    N.Fits (N.load s stored) ∧ ∀ n, N.Used (N.load s stored) n → n < N.next (N.load s stored) ∨ n + 1 = N.limit := by
  induction stored generalizing s with
  | nil => exact ⟨hfits, hbehind⟩
  | cons e rest ih =>
    obtain ⟨hnumber, hrest⟩ := List.forall_mem_cons.mp hstored
    have hlimit : 0 < N.limit := Nat.zero_lt_of_lt hnumber
    rcases h.restore s e with hsame | htaken
    · show N.Fits (N.load (N.restore s e) rest) ∧ _
      rw [show N.load s (e :: rest) = N.load s rest from congrArg (N.load · rest) hsame, hsame]
      exact ih hfits hbehind hrest
    · refine ih ⟨?_, ?_⟩ ?_ hrest
      · rw [htaken.next]
        exact max_lt hfits.next (Nat.mod_lt _ hlimit)
      · intro n hn
        rcases (htaken.used n).mp hn with rfl | hn
        · exact hnumber
        · exact hfits.used n hn
      · intro n hn
        rw [htaken.next]
        rcases (htaken.used n).mp hn with rfl | hn
        · by_cases hroom : N.number e + 1 < N.limit
          · rw [Nat.mod_eq_of_lt hroom]
            exact .inl (by omega)
          · exact .inr (by omega)
        · exact (hbehind n hn).imp_left fun hlt => by omega

/-! ## Giving out -/

/-- Numbers are given out one after the other, and after the last one again from zero. -/
lemma given_eq (hnext : N.next s < N.limit) (calls : List κ) :
    N.given s calls = (List.range (N.given s calls).length).map fun i => (N.next s + i) % N.limit := by
  induction calls generalizing s with
  | nil => rfl
  | cons x rest ih =>
    have hlimit : 0 < N.limit := Nat.zero_lt_of_lt hnext
    rw [given]
    rcases h.call s x with hspares | hmakes
    · rw [hspares.given]
      have hrest := ih (s := (N.call s x).2) (hspares.next ▸ hnext)
      rw [hspares.next] at hrest
      exact hrest
    · have hrest := ih (s := (N.call s x).2) (hmakes.next ▸ Nat.mod_lt _ hlimit)
      rw [hmakes.given, Option.toList_some, List.singleton_append, List.length_cons, List.range_succ_eq_map,
        List.map_cons, List.map_map, Nat.add_zero, Nat.mod_eq_of_lt hnext]
      refine congrArg (N.next s :: ·) (hrest.trans (List.map_congr_left fun i _ => ?_))
      rw [hmakes.next, Nat.mod_add_mod, Function.comp_apply, Nat.succ_eq_add_one, Nat.add_assoc, Nat.add_comm 1 i]

/-- Counting stays below the limit exactly if there are as many numbers left as are given out, and one more. -/
lemma counts_iff (hnext : N.next s < N.limit) (calls : List κ) :
    N.Counts s calls ↔ N.spent s calls < N.limit := by
  unfold spent
  induction calls generalizing s with
  | nil => exact iff_of_true trivial hnext
  | cons x rest ih =>
    rw [Counts, given]
    rcases h.call s x with hspares | hmakes
    · rw [ih (hspares.next ▸ hnext), hspares.next, hspares.given]
      exact and_iff_right (.inl rfl)
    · have hlimit : 0 < N.limit := Nat.zero_lt_of_lt hnext
      rw [ih (hmakes.next ▸ Nat.mod_lt _ hlimit), hmakes.next, hmakes.given, Option.toList_some, List.singleton_append,
        List.length_cons]
      by_cases hroom : N.next s + 1 < N.limit
      · rw [Nat.mod_eq_of_lt hroom, and_iff_right (.inr hroom)]
        omega
      · refine iff_of_false ?_ (by omega)
        rintro ⟨hnone | hlt, -⟩
        · cases hnone
        · exact hroom hlt

/-- No number in use is given out exactly if every one is either ahead of the counter and is not reached, or behind it and is
not reached after the counter has started again. -/
lemma apart_calls_iff (hfits : N.Fits s) (calls : List κ) :
    N.Apart s calls ↔ N.spent s calls ≤ N.next s + N.limit ∧
      ∀ n, N.Used s n → N.spent s calls ≤ n ∨ n < N.next s ∧ N.spent s calls ≤ n + N.limit := by
  unfold spent
  induction calls generalizing s with
  | nil =>
    have hnext := hfits.next
    simp only [given, List.length_nil]
    exact iff_of_true trivial ⟨by omega, fun n _ => by omega⟩
  | cons x rest ih =>
    have hnext := hfits.next
    rw [Apart, given]
    rcases h.call s x with hspares | hmakes
    · have hsame : N.Fits (N.call s x).2 :=
        ⟨hspares.next ▸ hnext, fun n hn => hfits.used n ((hspares.used n).mp hn)⟩
      rw [ih hsame, hspares.next, hspares.given]
      simp only [hspares.used]
      exact and_iff_right nofun
    · have hlimit : 0 < N.limit := Nat.zero_lt_of_lt hnext
      have hafter : N.Fits (N.call s x).2 := by
        refine ⟨hmakes.next ▸ Nat.mod_lt _ hlimit, fun n hn => ?_⟩
        rcases (hmakes.used n).mp hn with rfl | hn
        · exact hnext
        · exact hfits.used n hn
      rw [ih hafter, hmakes.given, hmakes.next, Option.toList_some, List.singleton_append, List.length_cons]
      generalize (N.given (N.call s x).2 rest).length = k
      have hcounter : (N.next s + 1 < N.limit ∧ (N.next s + 1) % N.limit = N.next s + 1) ∨
          (N.next s + 1 = N.limit ∧ (N.next s + 1) % N.limit = 0) := by
        by_cases hroom : N.next s + 1 < N.limit
        · exact .inl ⟨hroom, Nat.mod_eq_of_lt hroom⟩
        · have hlast : N.next s + 1 = N.limit := by omega
          exact .inr ⟨hlast, by rw [hlast, Nat.mod_self]⟩
      constructor
      · rintro ⟨hfree, -, hall⟩
        have hown := hall (N.next s) ((hmakes.used _).mpr (.inl rfl))
        refine ⟨by omega, fun n hn => ?_⟩
        have hne : n ≠ N.next s := fun heq => hfree _ rfl (heq ▸ hn)
        have hbelow := hfits.used n hn
        have hthere := hall n ((hmakes.used n).mpr (.inr hn))
        omega
      · rintro ⟨hk, hall⟩
        have hfree : ¬ N.Used s (N.next s) := fun hn => by
          have := hall _ hn
          omega
        refine ⟨fun n hn => ?_, by omega, fun n hn => ?_⟩
        · obtain rfl := Option.some.inj hn
          exact hfree
        · rcases (hmakes.used n).mp hn with rfl | hn
          · omega
          · have hthere := hall n hn
            omega

end Lawful

/-- What becomes of the numbers of a catalog when entries that were stored are taken in and others are made. -/
structure Outcome (start : σ) (stored : List ε) (calls : List κ) : Prop where
  /-- Numbers are given out one after the other, and after the last one again from zero. -/
  given : N.given (N.load start stored) calls = (List.range (N.given (N.load start stored) calls).length).map
    fun i => (N.next (N.load start stored) + i) % N.limit
  /-- Counting stays below the limit exactly if no entry that is taken in has the last number, and a number is left when the
  last entry has been made. -/
  within : N.Takes start stored ∧ N.Counts (N.load start stored) calls ↔
    (∀ n, N.Used (N.load start stored) n → n + 1 < N.limit) ∧ N.spent (N.load start stored) calls < N.limit
  /-- No number in use is given out exactly if each is either ahead of the counter and is not reached, or behind it and is
  not reached after the counter has started again. -/
  apart : N.Apart (N.load start stored) calls ↔
    N.spent (N.load start stored) calls ≤ N.next (N.load start stored) + N.limit ∧
      ∀ n, N.Used (N.load start stored) n → N.spent (N.load start stored) calls ≤ n ∨
        n < N.next (N.load start stored) ∧ N.spent (N.load start stored) calls ≤ n + N.limit
  /-- As long as counting stays below the limit, no number in use is given out. -/
  sound : N.Takes start stored → N.Counts (N.load start stored) calls → N.Apart (N.load start stored) calls

lemma Lawful.outcome (h : N.Lawful) {start : σ} (hempty : ∀ n, ¬ N.Used start n) (hnext : N.next start < N.limit)
    {stored : List ε} (hstored : ∀ e ∈ stored, N.number e < N.limit) (calls : List κ) :
    N.Outcome start stored calls := by
  have hstart : N.Fits start := ⟨hnext, fun n hn => absurd hn (hempty n)⟩
  obtain ⟨hfits, hbehind⟩ := h.fits_load hstart (fun n hn => absurd hn (hempty n)) hstored
  have htakes := h.takes_iff (fun n hn => absurd hn (hempty n)) stored
  have hcounts := h.counts_iff hfits.next calls
  have hapart := h.apart_calls_iff hfits calls
  refine ⟨h.given_eq hfits.next calls, and_congr htakes hcounts, hapart, ?_⟩
  intro htaken hcounted
  have hroom := hcounts.mp hcounted
  refine hapart.mpr ⟨by omega, fun n hn => .inr ?_⟩
  -- the last number is not in use, so all that are in use are behind the counter
  have hlast := htakes.mp htaken n hn
  have hlt := (hbehind n hn).resolve_right (Nat.ne_of_lt hlast)
  exact ⟨hlt, by omega⟩

end Numbered

/-! ## Breakpoints -/

namespace Breakpoint.Catalog

/-- A call that may make a breakpoint. -/
inductive Addition where
  | line (project : String) (path : Path) (line : Nat) (column : Option Nat) (anchor : Option Text.Anchor)
  | exception (caught uncaught : Bool)

/-- The id of the breakpoint that a call makes, if it makes one, and the catalog after it. -/
def add? (c : Catalog) : Addition → Option Nat × Catalog
  | .line project path line column anchor => c.addLine project path line column anchor
  | .exception caught uncaught =>
    let ((id, created), d) := c.setException caught uncaught
    (if created then some id else none, d)

/-- Breakpoints by their ids. -/
def numbered : Numbered Catalog Breakpoint Addition where
  limit := idLimit
  next := nextId
  get? := get?
  number := Breakpoint.id
  restore := restore
  call := add?

variable {c d : Catalog}

/-- A breakpoint that is put in is found under its id, and all others where they were. -/
lemma get?_of_insert {b : Breakpoint} (h : d.entries = insertOrdered b c.entries) :
    d.get? = Function.update c.get? b.id (some b) := by
  unfold get?
  rw [h]
  exact inserts.find?_put b c.entries

lemma takesIn_restore (c : Catalog) (b : Breakpoint) : c.restore b = c ∨ numbered.TakesIn c b := by
  rcases restore_cases c b with hsame | ⟨hput, hfree, -, -⟩
  · exact .inl hsame
  · have hget : (c.restore b).get? = Function.update c.get? b.id (some b) := get?_of_insert (by rw [hput]; rfl)
    refine .inr ⟨?_, fun n => Numbered.used_of_update (N := numbered) hget n, ?_⟩
    · show ¬ (c.get? b.id).isSome = true
      rw [Sound.get?_eq_none_iff.mpr hfree]
      exact Bool.false_ne_true
    · show (c.restore b).nextId = _
      rw [hput]
      rfl

/-- A call makes no breakpoint where there is one already. -/
lemma spares_or_makes (c : Catalog) (x : Addition) : numbered.Spares c x ∨ numbered.Makes c x := by
  cases x with
  | line project path line column anchor =>
    cases hfind : c.findLine? path line with
    | some b =>
      have hcall : c.addLine project path line column anchor = (none, c) := by simp [addLine, hfind]
      exact .inl (.of_same hcall)
    | none =>
      let b : Breakpoint := { id := c.nextId, kind := .line project path line column anchor }
      have hcall : c.addLine project path line column anchor =
          (some c.nextId, { c with nextId := (c.nextId + 1) % idLimit, entries := insertOrdered b c.entries }) := by
        simp [addLine, allocate, hfind, b]
      exact .inr (.of_call hcall (get?_of_insert (b := b) rfl) rfl)
  | exception caught uncaught =>
    let flagged (b : Breakpoint) : Breakpoint := { b with kind := .exception caught uncaught }
    cases hex : c.exception? with
    | some b =>
      have hcall : c.add? (.exception caught uncaught) = (none, c.modify b.id flagged) := by
        simp [add?, setException, hex, flagged]
      refine .inl (.of_call hcall (fun n => ?_) rfl)
      have hfind : (c.modify b.id flagged).get? n = Function.update c.get? b.id ((c.get? b.id).map flagged) n :=
        congrFun (Keyed.find?_modify Breakpoint.id (f := flagged) (fun _ hid => hid) c.entries) n
      show ((c.modify b.id flagged).get? n).isSome = (c.get? n).isSome
      rw [hfind, Function.update_apply]
      split
      · next heq => rw [heq, Option.isSome_map]
      · rfl
    | none =>
      let b : Breakpoint := { id := c.nextId, kind := .exception caught uncaught }
      have hcall : c.add? (.exception caught uncaught) =
          (some c.nextId, { c with
            nextId := (c.nextId + 1) % idLimit
            entries := insertOrdered b c.entries
            exceptionId := some c.nextId }) := by
        simp [add?, setException, allocate, hex, b]
      exact .inr (.of_call hcall (get?_of_insert (b := b) rfl) rfl)

lemma lawful_numbered : numbered.Lawful := ⟨takesIn_restore, spares_or_makes⟩

end Breakpoint.Catalog

/-! ## Launch configurations -/

namespace Launch.Catalog

/-- A call that may make a configuration. -/
inductive Addition where
  | create (name language project : String) (mode : Mode)
  | clone (source : Nat)

/-- The id of the configuration that a call makes, if it makes one, and the catalog after it. -/
def add? (c : Catalog) : Addition → Option Nat × Catalog
  | .create name language project mode =>
    let (id, d) := c.create name language project mode
    (some id, d)
  | .clone source =>
    match c.clone source with
    | .ok (id, d) => (some id, d)
    | .error _ => (none, c)

/-- Launch configurations by their ids. -/
def numbered : Numbered Catalog Launch Addition where
  limit := idLimit
  next := nextId
  get? := get?
  number := Launch.id
  restore := restore
  call := add?

lemma takesIn_restore (c : Catalog) (l : Launch) : c.restore l = c ∨ numbered.TakesIn c l := by
  cases htaken : (c.get? l.id).isSome with
  | true => exact .inl (by rw [restore, if_pos htaken])
  | false =>
    have hrestore : c.restore l = { c with
        nextId := max c.nextId ((l.id + 1) % idLimit)
        entries := insertOrdered { l with saved := true } c.entries } := by
      rw [restore, htaken, if_neg Bool.false_ne_true]
    have hget : (c.restore l).get? = Function.update c.get? l.id (some { l with saved := true }) := by
      rw [hrestore]
      exact inserts.find?_put { l with saved := true } c.entries
    refine .inr ⟨?_, fun n => Numbered.used_of_update (N := numbered) hget n, ?_⟩
    · show ¬ (c.get? l.id).isSome = true
      rw [htaken]
      exact Bool.false_ne_true
    · show (c.restore l).nextId = _
      rw [hrestore]
      rfl

/-- A call makes no copy of what is not there. -/
lemma spares_or_makes (c : Catalog) (x : Addition) : numbered.Spares c x ∨ numbered.Makes c x := by
  cases x with
  | create name language project mode =>
    have hget : (c.create name language project mode).2.get? = Function.update c.get? c.nextId _ := get?_add rfl
    exact .inr (.of_call rfl hget rfl)
  | clone source =>
    cases hget : c.get? source with
    | none =>
      have hcall : c.add? (.clone source) = (none, c) := by simp only [add?, clone_of_none hget]
      exact .inl (.of_same hcall)
    | some l =>
      have hcall : c.add? (.clone source) = (some c.nextId,
          (c.add fun id => { l with id, name := l.name ++ " (copy)", saved := true }).2) := by
        simp only [add?, clone_of_get? hget]
        rfl
      exact .inr (.of_call hcall (get?_add rfl) rfl)

lemma lawful_numbered : numbered.Lawful := ⟨takesIn_restore, spares_or_makes⟩

end Launch.Catalog

/-! ## Both catalogs -/

/-- Numbers as both catalogs of the debugger give them out, whatever was stored: exactly when counting stays within 64 bits,
and exactly when no number is given out that is in use. An entry that is made changes nothing under any other number, so
what is stored is overwritten exactly where a number in use is given out. -/
theorem ids_apart_iff (breakpoints : List Breakpoint) (launches : List Launch)
    (hbreakpoints : ∀ b ∈ breakpoints, b.id < 2 ^ 64) (hlaunches : ∀ l ∈ launches, l.id < 2 ^ 64)
    (added : List Breakpoint.Catalog.Addition) (created : List Launch.Catalog.Addition) :
    Breakpoint.Catalog.numbered.Outcome {} breakpoints added ∧ Launch.Catalog.numbered.Outcome {} launches created ∧
      (∀ c x, Breakpoint.Catalog.numbered.Spares c x ∨ Breakpoint.Catalog.numbered.Makes c x) ∧
      ∀ c x, Launch.Catalog.numbered.Spares c x ∨ Launch.Catalog.numbered.Makes c x := by
  have hnoBreakpoint : ∀ n, ¬ Breakpoint.Catalog.numbered.Used {} n := fun _ => Bool.false_ne_true
  have hnoLaunch : ∀ n, ¬ Launch.Catalog.numbered.Used {} n := fun _ => Bool.false_ne_true
  refine ⟨?_, ?_, Breakpoint.Catalog.spares_or_makes, Launch.Catalog.spares_or_makes⟩
  · exact Breakpoint.Catalog.lawful_numbered.outcome hnoBreakpoint (by decide) hbreakpoints added
  · exact Launch.Catalog.lawful_numbered.outcome hnoLaunch (by decide) hlaunches created

/-- The last two numbers are taken, and a line breakpoint is added: it gets the last number of all, and the breakpoint that had
it is gone. A configuration is stored under the last number but one, and another is created: the counter starts again. -/
theorem not_apart_at_limit :
    let breakpoints : List Breakpoint := [{ id := 2 ^ 64 - 2, kind := .line "p" ⟨"/a"⟩ 1 none none },
      { id := 2 ^ 64 - 1, kind := .line "p" ⟨"/a"⟩ 2 none none }]
    let launches : List Launch := [{ id := 2 ^ 64 - 2, name := "Main", language := "java", project := "p" }]
    let added : List Breakpoint.Catalog.Addition := [.line "p" ⟨"/a"⟩ 3 none none]
    let created : List Launch.Catalog.Addition := [.create "Test" "java" "p" .launch]
    let b := Breakpoint.Catalog.numbered
    let l := Launch.Catalog.numbered
    (∀ x ∈ breakpoints, x.id < 2 ^ 64) ∧ (∀ x ∈ launches, x.id < 2 ^ 64) ∧
      ¬ b.Apart (b.load {} breakpoints) added ∧
      ¬ (b.Takes {} breakpoints ∧ b.Counts (b.load {} breakpoints) added) ∧
      ¬ (l.Takes {} launches ∧ l.Counts (l.load {} launches) created) := by
  intro breakpoints launches added created b l
  have hbreakpoints : ∀ x ∈ breakpoints, x.id < 2 ^ 64 := by decide +kernel
  have hlaunches : ∀ x ∈ launches, x.id < 2 ^ 64 := by decide +kernel
  obtain ⟨hb, hl, -, -⟩ := ids_apart_iff breakpoints launches hbreakpoints hlaunches added created
  have hused : b.Used (b.load {} breakpoints) (2 ^ 64 - 1) := by decide +kernel
  have hnext : b.next (b.load {} breakpoints) = 2 ^ 64 - 1 := by decide +kernel
  have hadded : b.spent (b.load {} breakpoints) added = 2 ^ 64 := by decide +kernel
  have hcreated : l.spent (l.load {} launches) created = 2 ^ 64 := by decide +kernel
  refine ⟨hbreakpoints, hlaunches, fun hapart => ?_, fun hwithin => ?_, fun hwithin => ?_⟩
  · have hreached := (hb.apart.mp hapart).2 _ hused
    rw [hadded, hnext] at hreached
    omega
  · exact absurd ((hb.within.mp hwithin).1 _ hused) (by decide)
  · have hleft := (hl.within.mp hwithin).2
    rw [hcreated] at hleft
    exact absurd hleft (by decide)

end Switchboard.Debug
