import Switchboard.Analysis.Session
import Mathlib

/-!
# Places in the registry of analysis sessions

* `Registry.sameKey_iff`: two keys are the same if language and components of the workspace are;
* `Registry.Sound`: each entry is a session of its key, and no two entries have the same key;
* `Registry.Keeps`: a session is the one of its own language and workspace;
* `keeps_insert`, `keeps_remove`, `not_keeps_clear`: who keeps its place when a session comes in, one is taken out, or all.
-/

namespace Switchboard.Analysis

/-- The language and workspace of a session. -/
def Session.key (s : Session) : String × Path := (s.server.language, s.server.workspace)

namespace Registry

/-- What all spellings of a language and workspace have in common. -/
def common (key : String × Path) : String × List Path.Component := (key.1, key.2.components)

lemma sameKey_iff (a b : String × Path) : sameKey a b = true ↔ common a = common b := by
  unfold sameKey common Path.same
  rw [Bool.and_eq_true, decide_eq_true_eq, decide_eq_true_eq, Prod.mk.injEq]

lemma sameKey_eq_false (a b : String × Path) : sameKey a b = false ↔ common a ≠ common b := by
  rw [← Bool.not_eq_true, sameKey_iff]

/-- Every entry is a session of its key, and there is one entry for each key. -/
structure Sound (r : Registry) : Prop where
  entry : ∀ x ∈ r.table, x.2 < r.sessions.length ∧ common x.1 = common (r.session x.2).key
  nodup : (r.table.map fun x => common x.1).Nodup

/-- The session is the one of its language and workspace. -/
def Keeps (r : Registry) (k : Nat) : Prop := r.find? (r.session k).key.1 (r.session k).key.2 = some k

instance (r : Registry) (k : Nat) : Decidable (r.Keeps k) := inferInstanceAs (Decidable (_ = _))

/-! ## What is found -/

section Found

variable {r : Registry} {k : Nat} {language : String} {workspace : Path}

/-- Who is found is in the table under this key. -/
lemma mem_of_find? (h : r.find? language workspace = some k) :
    ∃ x ∈ r.table, common x.1 = common (language, workspace) ∧ x.2 = k := by
  obtain ⟨x, hx, rfl⟩ := Option.map_eq_some_iff.mp h
  have hkey := List.find?_some hx
  exact ⟨x, List.mem_of_find?_eq_some hx, (sameKey_iff _ _).mp hkey, rfl⟩

/-- Who is in the table is found under every spelling of its key. -/
lemma Sound.find?_eq (h : r.Sound) {x : (String × Path) × Nat} (hx : x ∈ r.table)
    (hkey : common x.1 = common (language, workspace)) : r.find? language workspace = some x.2 := by
  unfold find?
  cases hfound : r.table.find? fun y => sameKey y.1 (language, workspace) with
  | none =>
    have hnone := List.find?_eq_none.mp hfound x hx
    exact absurd ((sameKey_iff _ _).mpr hkey) hnone
  | some y =>
    have hsame : sameKey y.1 (language, workspace) = true := by simpa using List.find?_some hfound
    have hy := (sameKey_iff _ _).mp hsame
    have hxy : y = x := List.inj_on_of_nodup_map h.nodup (List.mem_of_find?_eq_some hfound) hx (hy.trans hkey.symm)
    rw [hxy]
    rfl

/-- A session keeps its place as long as it is in the table. -/
lemma Sound.keeps_iff (h : r.Sound) : r.Keeps k ↔ ∃ x ∈ r.table, x.2 = k := by
  constructor
  · intro hk
    obtain ⟨x, hx, -, hxk⟩ := mem_of_find? hk
    exact ⟨x, hx, hxk⟩
  · rintro ⟨x, hx, rfl⟩
    exact h.find?_eq hx (h.entry x hx).2

lemma Sound.keeps_of_find? (h : r.Sound) (hfound : r.find? language workspace = some k) :
    r.Keeps k ∧ common (r.session k).key = common (language, workspace) := by
  obtain ⟨x, hx, hkey, rfl⟩ := mem_of_find? hfound
  exact ⟨h.keeps_iff.mpr ⟨x, hx, rfl⟩, (h.entry x hx).2 ▸ hkey⟩

lemma Sound.lt_of_keeps (h : r.Sound) (hk : r.Keeps k) : k < r.sessions.length := by
  obtain ⟨x, hx, rfl⟩ := h.keeps_iff.mp hk
  exact (h.entry x hx).1

end Found

/-! ## A session comes in -/

section Insert

variable {r : Registry} {s : Session} {k : Nat}

/-- The table with one more session, in place of the one with the same key. -/
lemma table_insert (r : Registry) (s : Session) :
    (r.insert s).2.table =
      if r.table.any fun x => sameKey x.1 s.key then
        r.table.map fun x => if sameKey x.1 s.key then (x.1, r.sessions.length) else x
      else r.table ++ [(s.key, r.sessions.length)] := rfl

lemma sessions_insert (r : Registry) (s : Session) : (r.insert s).2.sessions = r.sessions ++ [s] := rfl

lemma session_insert_of_lt (hk : k < r.sessions.length) : (r.insert s).2.session k = r.session k := by
  unfold session
  rw [sessions_insert, List.getD_append _ _ _ _ hk]

lemma session_insert_last (r : Registry) (s : Session) : (r.insert s).2.session r.sessions.length = s := by
  unfold session
  rw [sessions_insert, List.getD_append_right _ _ _ _ (Nat.le_refl _), Nat.sub_self]
  rfl

/-- Keys stay, and the one of the session is there. -/
lemma keys_insert (r : Registry) (s : Session) :
    ((r.insert s).2.table.map fun x => common x.1) = (r.table.map fun x => common x.1) ∨
      (∀ x ∈ r.table, common x.1 ≠ common s.key) ∧
        ((r.insert s).2.table.map fun x => common x.1) = (r.table.map fun x => common x.1) ++ [common s.key] := by
  rw [table_insert]
  split
  · left
    rw [List.map_map]
    refine List.map_congr_left ?_
    intro x _
    show common (if sameKey x.1 s.key then (x.1, r.sessions.length) else x).1 = _
    split
    · rfl
    · rfl
  · next hnew =>
    right
    refine ⟨?_, List.map_append⟩
    intro x hx hkey
    exact hnew (List.any_eq_true.mpr ⟨x, hx, (sameKey_iff _ _).mpr hkey⟩)

/-- What is in the table is the session that came in, or was there before under another key. -/
lemma mem_table_insert {x : (String × Path) × Nat} (h : x ∈ (r.insert s).2.table) :
    common x.1 = common s.key ∧ x.2 = r.sessions.length ∨ x ∈ r.table ∧ common x.1 ≠ common s.key := by
  rw [table_insert] at h
  split at h
  · obtain ⟨y, hy, rfl⟩ := List.mem_map.mp h
    by_cases hkey : sameKey y.1 s.key
    · rw [if_pos hkey]
      exact .inl ⟨(sameKey_iff _ _).mp hkey, rfl⟩
    · rw [if_neg hkey]
      exact .inr ⟨hy, fun heq => hkey ((sameKey_iff _ _).mpr heq)⟩
  · next hnew =>
    rcases List.mem_append.mp h with hx | hx
    · exact .inr ⟨hx, fun heq => hnew (List.any_eq_true.mpr ⟨x, hx, (sameKey_iff _ _).mpr heq⟩)⟩
    · rw [List.mem_singleton.mp hx]
      exact .inl ⟨rfl, rfl⟩

lemma mem_table_insert_of_ne {x : (String × Path) × Nat} (hx : x ∈ r.table) (hkey : common x.1 ≠ common s.key) :
    x ∈ (r.insert s).2.table := by
  rw [table_insert]
  split
  · refine List.mem_map.mpr ⟨x, hx, if_neg ?_⟩
    exact fun h => hkey ((sameKey_iff _ _).mp h)
  · exact List.mem_append_left _ hx

lemma exists_mem_table_insert (r : Registry) (s : Session) : ∃ x ∈ (r.insert s).2.table, x.2 = r.sessions.length := by
  rw [table_insert]
  split
  · next hold =>
    obtain ⟨x, hx, hkey⟩ := List.any_eq_true.mp hold
    exact ⟨_, List.mem_map.mpr ⟨x, hx, if_pos hkey⟩, rfl⟩
  · exact ⟨_, List.mem_append_right _ (List.mem_singleton_self _), rfl⟩

/-- The registry stays sound. -/
theorem Sound.insert (h : r.Sound) (s : Session) : (r.insert s).2.Sound where
  entry := by
    intro x hx
    rw [sessions_insert, List.length_append, List.length_singleton]
    rcases mem_table_insert hx with ⟨hkey, hlast⟩ | ⟨hx, -⟩
    · rw [hlast, session_insert_last]
      exact ⟨by omega, hkey⟩
    · obtain ⟨hlt, hkey⟩ := h.entry x hx
      rw [session_insert_of_lt hlt]
      exact ⟨by omega, hkey⟩
  nodup := by
    rcases keys_insert r s with hsame | ⟨hnew, hmore⟩
    · rw [hsame]
      exact h.nodup
    · rw [hmore]
      refine List.nodup_append.mpr ⟨h.nodup, List.nodup_singleton _, ?_⟩
      intro a ha b hb
      obtain ⟨x, hx, rfl⟩ := List.mem_map.mp ha
      rw [List.mem_singleton.mp hb]
      exact hnew x hx

/-- A session that comes in has its place; of the others only one with the same key loses it. -/
theorem keeps_insert (h : r.Sound) (s : Session) (k : Nat) :
    (r.insert s).2.Keeps k ↔ k = r.sessions.length ∨ r.Keeps k ∧ common (r.session k).key ≠ common s.key := by
  rw [(h.insert s).keeps_iff, h.keeps_iff]
  constructor
  · rintro ⟨x, hx, rfl⟩
    rcases mem_table_insert hx with ⟨-, hlast⟩ | ⟨hx, hkey⟩
    · exact .inl hlast
    · exact .inr ⟨⟨x, hx, rfl⟩, (h.entry x hx).2 ▸ hkey⟩
  · rintro (rfl | ⟨⟨x, hx, rfl⟩, hkey⟩)
    · exact exists_mem_table_insert r s
    · exact ⟨x, mem_table_insert_of_ne hx ((h.entry x hx).2 ▸ hkey), rfl⟩

end Insert

/-! ## Sessions are taken out -/

section Remove

variable {r : Registry}

lemma Sound.of_sublist {table : List ((String × Path) × Nat)} (h : r.Sound) (hsub : table.Sublist r.table) :
    Sound { r with table } where
  entry := fun x hx => h.entry x (hsub.subset hx)
  nodup := h.nodup.sublist (hsub.map _)

lemma Sound.remove (h : r.Sound) (language : String) (workspace : Path) : (r.remove language workspace).2.Sound :=
  h.of_sublist List.filter_sublist

/-- Only the session of this language and workspace loses its place. -/
theorem keeps_remove (h : r.Sound) (language : String) (workspace : Path) (k : Nat) :
    (r.remove language workspace).2.Keeps k ↔ r.Keeps k ∧ r.find? language workspace ≠ some k := by
  rw [(h.remove language workspace).keeps_iff, h.keeps_iff]
  constructor
  · rintro ⟨x, hx, rfl⟩
    obtain ⟨hmem, hother⟩ := List.mem_filter.mp hx
    refine ⟨⟨x, hmem, rfl⟩, fun hfound => ?_⟩
    obtain ⟨y, hy, hkey, hyx⟩ := mem_of_find? hfound
    -- an entry of the same session has the same key
    have hsame : common x.1 = common y.1 := by rw [(h.entry x hmem).2, (h.entry y hy).2, hyx]
    rw [(sameKey_iff _ _).mpr (hsame.trans hkey)] at hother
    cases hother
  · rintro ⟨⟨x, hx, rfl⟩, hother⟩
    refine ⟨x, List.mem_filter.mpr ⟨hx, ?_⟩, rfl⟩
    rw [Bool.not_eq_true', sameKey_eq_false]
    exact fun hkey => hother (h.find?_eq hx hkey)

/-- All lose their places. -/
lemma not_keeps_clear (r : Registry) (k : Nat) : ¬ Keeps { r with table := [] } k := nofun

end Remove

end Registry

end Switchboard.Analysis
