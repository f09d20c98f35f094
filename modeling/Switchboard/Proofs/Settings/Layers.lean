import Switchboard.Proofs.Settings.Sections
import Switchboard.Proofs.Toml.Document
import Switchboard.Settings.Load

/-!
# Layers of settings

* `Sound`: settings that are read back from what they are written as;
* `Document`: text whose sections are tables;
* `Sound.merge_states`, `Sound.merge_keeps`, `Sound.merge_unsaid`: what a layer states, what it leaves as it was, and of what
  nothing is said;
* `Sound.merge_blank`, `Sound.merge_again`: layers that change nothing;
* `layers_eq_deep_merge`: settings that were read from one layer and then from another one are those that are read from both
  layers at once, unless these have different names of levels over nothing.
-/

namespace Switchboard.Settings

open Toml (table layered)

/-! ## Settings that are read back -/

/-- Settings that are read back from what they are written as, in which no single setting is a table. -/
structure Sound (s : Settings) : Prop where
  origin : Origin s s.encoded
  leaf : ∀ {path d v}, schema.at? path = some (.single d) → s.encoded.at? path = some v → v.isTable = false

lemma encoded_overlay_nil (s : Settings) : s.encoded.overlay (table []) = s.encoded := by
  obtain ⟨m, hm, -⟩ := exists_encoded s
  rw [hm, Toml.overlay_nil]

/-- Settings that were read are read back. -/
theorem Origin.sound {s : Settings} {x : Toml} (h : Origin s x) : Sound s := by
  refine ⟨⟨h.fit_encoded, ?_⟩, (settles_encoded h).1.not_table⟩
  have hnone : levelAt (table []) = none := levelAt_table []
  have hlevel : readLevel (layered (some (.str s.level.name)) (levelAt (table [])))
      = readLevel (layered (levelAt x) (levelAt (table []))) := by
    rw [hnone, Toml.layered_none, Toml.layered_none, h.level]
    exact reads_name s.level
  have hsame := absorbs_encoded h fit_empty hlevel
  obtain ⟨l, rfl⟩ := h.exists_table
  rwa [encoded_overlay_nil, Toml.overlay_nil, h.exact] at hsame

/-- The defaults are read from nothing. -/
lemma origin_default : Origin {} (table []) := ⟨fit_empty, rfl⟩

/-! ## Documents -/

lemma Sectioned.textual {S : Schema} {v : Toml} (h : Sectioned S (some v)) : Sectioned S (some v.textual) := by
  intro path field w hS hw
  rw [Option.bind_some, Toml.at?_textual, Option.map_eq_some_iff] at hw
  obtain ⟨u, hu, rfl⟩ := hw
  rw [Toml.isTable_textual]
  exact h path field u hS hu

namespace Schema.States

variable {S : Schema} {path : List String} {v : Toml}

lemma textual (h : S.States path v) : S.States path v.textual :=
  h.imp_right fun h => ⟨h.1, (Toml.isTable_textual v).trans h.2⟩

lemma kept (h : S.States path v) : S.States path (kept v) :=
  h.imp_right fun h => ⟨h.1, by rw [kept_of_not_table h.2]; exact h.2⟩

end Schema.States

/-- Text that is read as these entries, every section of which is a table. -/
structure Document (text : String) (entries : List (String × Toml)) : Prop where
  read : Toml.read? text = some entries
  sections : Sectioned schema (some (table entries))

lemma Document.fit {text : String} {entries : List (String × Toml)} (h : Document text entries) :
    Fit (table entries).textual :=
  ⟨Toml.plain_textual (Toml.ordered_read? h.read), h.sections.textual⟩

lemma ofLayers_eq_ok_iff {v : Toml} {s : Settings} : ofLayers v = .ok s ↔ reads (shape .layers) v.textual = some s := by
  rw [ofLayers, reads]
  cases shape .layers v.textual.toJson with
  | error e => exact iff_of_false (by rintro ⟨⟩) (by rintro ⟨⟩)
  | ok a => exact ⟨fun h => congrArg some (Except.ok.inj h), fun h => congrArg Except.ok (Option.some.inj h)⟩

lemma ofLayers_eq_error {v : Toml} (h : reads (shape .layers) v.textual = none) : ofLayers v = .error .parse := by
  rw [reads] at h
  rw [ofLayers]
  cases hread : shape .layers v.textual.toJson with
  | error e => rfl
  | ok a =>
    rw [hread] at h
    cases h

/-! ## One layer -/

namespace Sound

variable {s s' : Settings} {text : String} {entries : List (String × Toml)} {path : List String} {v : Toml}

lemma textual_over (s : Settings) (entries : List (String × Toml)) :
    (s.encoded.overlay (table entries)).textual = s.encoded.overlay (table entries).textual := by
  rw [Toml.textual_overlay, encoded, Toml.textual_marked]

lemma merge_eq_ok_iff (hread : Toml.read? text = some entries) :
    merge s text = .ok s' ↔ reads (shape .layers) (s.encoded.overlay (table entries).textual) = some s' := by
  rw [← textual_over, ← ofLayers_eq_ok_iff, merge, hread]
  rfl

section Over

variable (h : Sound s) (hd : Document text entries)
include h hd

lemma fit_over : Fit (s.encoded.overlay (table entries).textual) := h.origin.toFit.overlay hd.fit

variable (hmerge : merge s text = .ok s')
include hmerge

lemma origin_merge : Origin s' (s.encoded.overlay (table entries).textual) :=
  ⟨h.fit_over hd, (merge_eq_ok_iff hd.read).mp hmerge⟩

lemma settles_merge : Settles schema (some (s.encoded.overlay (table entries).textual)) (some s'.encoded) :=
  (settles_encoded (h.origin_merge hd hmerge)).1

/-- What was read from a layer over sound settings is sound. -/
theorem merge_sound : Sound s' := (h.origin_merge hd hmerge).sound

/-- What a layer states is there. -/
theorem merge_states (hv : (table entries).at? path = some v) (hS : schema.States path v) :
    s'.encoded.at? path = some (kept v.textual) := by
  have htextual : (table entries).textual.at? path = some v.textual := by
    rw [Toml.at?_textual, hv]
    rfl
  refine (h.settles_merge hd hmerge).at?_of_states hS.textual (Toml.at?_overlay_of_leaf _ hd.fit.plain htextual ?_)
  rcases hS with ⟨d, hsingle⟩ | ⟨-, hleaf⟩
  · exact .inr fun u hu => h.leaf hsingle hu
  · exact .inl ((Toml.isTable_textual v).trans hleaf)

/-- Of what a layer says nothing, what was there stays. -/
theorem merge_keeps (hsilent : (table entries).Silent path) (hv : s.encoded.at? path = some v) (hS : schema.States path v) :
    s'.encoded.at? path = some v := by
  have hover : (s.encoded.overlay (table entries).textual).at? path = some v :=
    (Toml.at?_overlay_of_silent _ hd.fit.plain (Toml.silent_textual hsilent)).trans hv
  have hleaf : v.isTable = false := by
    rcases hS with ⟨d, hsingle⟩ | ⟨-, hleaf⟩
    · exact h.leaf hsingle hv
    · exact hleaf
  exact kept_of_not_table hleaf ▸ (h.settles_merge hd hmerge).at?_of_states hS hover

/-- Of what nothing was said and a layer says nothing, nothing is said. -/
theorem merge_unsaid (hS : schema.IsSetting path) (hsilent : (table entries).Silent path)
    (hunsaid : Unsaid schema path (some s.encoded)) : Unsaid schema path (some s'.encoded) :=
  (h.settles_merge hd hmerge).unsaid hS (hunsaid.overlay hd.fit.plain (Toml.silent_textual hsilent))

/-- A layer over what was read from it changes nothing. -/
theorem merge_again : merge s' text = .ok s' := by
  have horigin := h.origin_merge hd hmerge
  rw [merge_eq_ok_iff hd.read, absorbs_encoded horigin hd.fit ?_, Toml.overlay_overlay_self h.origin.plain hd.fit.plain,
    horigin.exact]
  -- a level that the layer has is there already
  cases ht : levelAt (table entries).textual with
  | none =>
    rw [Toml.layered_none, Toml.layered_none, horigin.level]
    exact reads_name s'.level
  | some t =>
    have hplain : t.Plain := hd.fit.plain.at? ht
    rw [levelAt_overlay h.origin.toFit hd.fit, ht, levelAt_encoded, layered, name_overlay, layered, name_overlay, layered,
      Toml.overlay_self hplain]

end Over

/-- A layer without entries changes nothing. -/
theorem merge_blank (h : Sound s) (hread : Toml.read? text = some []) : merge s text = .ok s := by
  have hnil : (table []).textual = table [] := rfl
  rw [merge_eq_ok_iff hread, hnil, encoded_overlay_nil]
  exact h.origin.exact

end Sound

lemma unsaid_default {path : List String} (hS : schema.IsSetting path) : Unsaid schema path (some (encoded {})) :=
  (settles_encoded origin_default).1.unsaid hS (unsaid_empty hS)

/-! ## Two layers -/

section Deep

variable {s s₁ s₂ : Settings} {g p : String} {G P : List (String × Toml)}

/-- Both layers at once over what settings are written as. -/
def deepMerge (s : Settings) (G P : List (String × Toml)) : Toml := (s.encoded.overlay (table G)).overlay (table P)

lemma textual_deepMerge : (deepMerge s G P).textual
    = (s.encoded.overlay (table G).textual).overlay (table P).textual := by
  rw [deepMerge, Toml.textual_overlay, Sound.textual_over]

variable (h : Sound s) (hG : Document g G) (hP : Document p P)
include h hG

lemma clash_over (t : Toml) : Clash (levelAt (s.encoded.overlay (table G).textual)) (levelAt t.textual)
    ↔ Clash (levelAt (table G)) (levelAt t) := by
  rw [levelAt_overlay h.origin.toFit hG.fit, levelAt_encoded, clash_over_name, levelAt, levelAt, Toml.at?_textual,
    Toml.at?_textual, clash_textual, levelAt, levelAt]

include hP

/-- The settings that are read layer by layer are read from both layers at once. -/
theorem read_deepMerge (h₁ : merge s g = .ok s₁) (h₂ : merge s₁ p = .ok s₂)
    (hclash : ¬ Clash (levelAt (table G)) (levelAt (table P))) : ofLayers (deepMerge s G P) = .ok s₂ := by
  have horigin := h.origin_merge hG h₁
  have hs₁ := h.merge_sound hG h₁
  have horigin₂ := hs₁.origin_merge hP h₂
  have hlevel := horigin₂.level
  rw [levelAt_overlay hs₁.origin.toFit hP.fit, levelAt_encoded] at hlevel
  have habsorbs := level_absorbs (fun _ => horigin.plain.at?) (fun _ => hP.fit.plain.at?) horigin.level hlevel
    (mt (clash_over h hG _).mp hclash)
  rw [ofLayers_eq_ok_iff, textual_deepMerge, ← absorbs_encoded horigin hP.fit (hlevel.trans habsorbs.symm)]
  exact horigin₂.exact

/-- Two names of levels over nothing are read one after the other, but not both at once. -/
theorem read_deepMerge_of_clash (hclash : Clash (levelAt (table G)) (levelAt (table P))) :
    ofLayers (deepMerge s G P) = .error .parse := by
  refine ofLayers_eq_error (Option.eq_none_iff_forall_ne_some.mpr fun s' hread => ?_)
  rw [textual_deepMerge] at hread
  have horigin : Origin s' ((s.encoded.overlay (table G).textual).overlay (table P).textual) :=
    ⟨(h.fit_over hG).overlay hP.fit, hread⟩
  have hlevel := horigin.level
  rw [levelAt_overlay (h.fit_over hG) hP.fit, level_clash ((clash_over h hG _).mpr hclash)] at hlevel
  cases hlevel

end Deep

/-- Settings that are read from a text and then from another one, over the defaults, are those that are read from both texts
at once, unless both name levels over nothing, and not the same ones; then nothing is read from both at once. What the second
text states is there, what it leaves open is as the first one has it, and all else is as by default. A text without entries
changes nothing, nor does a text that was read just before. -/
theorem layers_eq_deep_merge {g p : String} {G P : List (String × Toml)} {s₁ s₂ : Settings} (hG : Document g G)
    (hP : Document p P) (h₁ : merge {} g = .ok s₁) (h₂ : merge s₁ p = .ok s₂) :
    (¬ Clash (levelAt (table G)) (levelAt (table P)) → ofLayers (deepMerge {} G P) = .ok s₂) ∧
      (Clash (levelAt (table G)) (levelAt (table P)) → ofLayers (deepMerge {} G P) = .error .parse) ∧
      (∀ path v, schema.States path v → (table P).at? path = some v → s₂.encoded.at? path = some (kept v.textual)) ∧
      (∀ path v, schema.States path v → (table P).Silent path → (table G).at? path = some v →
        s₂.encoded.at? path = some (kept v.textual)) ∧
      (∀ path, schema.IsSetting path → (table G).Silent path → (table P).Silent path →
        Unsaid schema path (some s₂.encoded)) ∧
      (∀ blank, Toml.read? blank = some [] → merge {} blank = .ok {} ∧ merge s₁ blank = .ok s₁ ∧ merge s₂ blank = .ok s₂) ∧
      merge s₁ g = .ok s₁ ∧ merge s₂ p = .ok s₂ := by
  have hs := origin_default.sound
  have hs₁ := hs.merge_sound hG h₁
  have hs₂ := hs₁.merge_sound hP h₂
  refine ⟨read_deepMerge hs hG hP h₁ h₂, read_deepMerge_of_clash hs hG hP, fun path v hS hv => ?_,
    fun path v hS hsilent hv => ?_, fun path hS hsilent hsilent' => ?_, fun blank hread => ?_,
    hs.merge_again hG h₁, hs₁.merge_again hP h₂⟩
  · exact hs₁.merge_states hP h₂ hv hS
  · exact hs₁.merge_keeps hP h₂ hsilent (hs.merge_states hG h₁ hv hS) hS.textual.kept
  · exact hs₁.merge_unsaid hP h₂ hS hsilent' (hs.merge_unsaid hG h₁ hS hsilent (unsaid_default hS))
  · exact ⟨hs.merge_blank hread, hs₁.merge_blank hread, hs₂.merge_blank hread⟩

/-! ## Texts -/

/-- Settings without languages are told by all else. -/
lemma eq_of_toOption {r : Except Fault Settings} {level : LogLevel} {rpc : Rpc}
    (h : r.toOption.map (fun s => (s.level, s.rpc, s.languages.isEmpty, s.projects)) = some (level, rpc, true, [])) :
    r = .ok { level, rpc } := by
  obtain ⟨s, hs, hsame⟩ := Option.map_eq_some_iff.mp h
  obtain ⟨sLevel, sRpc, languages, projects⟩ := s
  simp only [Prod.mk.injEq, List.isEmpty_iff] at hsame
  obtain ⟨rfl, rfl, rfl, rfl⟩ := hsame
  exact toOption_eq_some.mp hs

/-- A level, and two settings of the protocol. -/
def tunedText : String := "[log.level.debug]\n[rpc]\nprefetch_delay_ms = 9\ndeferred_workers = 4\n"

def tunedEntries : List (String × Toml) :=
  [("log", table [("level", table [("debug", table [])])]),
    ("rpc", table [("deferred_workers", .int 4), ("prefetch_delay_ms", .int 9)])]

/-- One of these settings again. -/
def retunedText : String := "[rpc]\ndeferred_workers = 8\n"

def retunedEntries : List (String × Toml) := [("rpc", table [("deferred_workers", .int 8)])]

lemma document_tuned : Document tunedText tunedEntries where
  read := by cbv
  sections := by
    refine .fields ?_
    simp only [sections, List.forall_mem_cons]
    refine ⟨.fields ?_, .fields ?_, .none _, .none _, List.forall_mem_nil _⟩
    · rw [List.forall_mem_singleton]
      exact .single _ _
    · simp only [List.forall_mem_cons]
      exact ⟨.single _ _, .single _ _, .single _ _, List.forall_mem_nil _⟩

lemma document_retuned : Document retunedText retunedEntries where
  read := by cbv
  sections := by
    refine .fields ?_
    simp only [sections, List.forall_mem_cons]
    refine ⟨.none _, .fields ?_, .none _, .none _, List.forall_mem_nil _⟩
    simp only [List.forall_mem_cons]
    exact ⟨.single _ _, .single _ _, .single _ _, List.forall_mem_nil _⟩

/-- What the second text states is there, and what only the first one states; the rest is as by default. -/
theorem retuned_over_tuned :
    let tuned : Settings := { level := .debug, rpc := { prefetchDelayMs := 9, deferredWorkers := 4 } }
    let retuned : Settings := { level := .debug, rpc := { prefetchDelayMs := 9, deferredWorkers := 8 } }
    merge {} tunedText = .ok tuned ∧ merge tuned retunedText = .ok retuned ∧
      ofLayers (deepMerge {} tunedEntries retunedEntries) = .ok retuned ∧
      retuned.encoded.at? ["rpc", "deferred_workers"] = some (.int 8) ∧
      retuned.encoded.at? ["rpc", "prefetch_delay_ms"] = some (.int 9) ∧
      retuned.encoded.at? ["log", "level"] = some (.str "debug") ∧
      Unsaid schema ["rpc", "request_timeout_secs"] (some retuned.encoded) ∧
      merge tuned "# nothing\n" = .ok tuned ∧ merge retuned retunedText = .ok retuned := by
  intro tuned retuned
  have h₁ : merge {} tunedText = .ok tuned := eq_of_toOption (by decide +kernel)
  have h₂ : merge tuned retunedText = .ok retuned := eq_of_toOption (by decide +kernel)
  obtain ⟨hdeep, -, hstated, hkept, hunsaid, hblank, -, hagain⟩ := layers_eq_deep_merge document_tuned document_retuned h₁ h₂
  have hlevel : levelAt (table retunedEntries) = none := rfl
  have hclash : ¬ Clash (levelAt (table tunedEntries)) (levelAt (table retunedEntries)) := by
    rintro ⟨_, _, _, _, -, h, -⟩
    cases hlevel.symm.trans h
  have hrpc {k : String} {m : List (String × Toml)} (hk : m.lookup k = none) : (table [("rpc", table m)]).Silent ["rpc", k] := by
    intro v hv
    obtain rfl := Option.some.inj hv
    intro w hw
    cases hk.symm.trans hw
  refine ⟨h₁, h₂, hdeep hclash, hstated _ (.int 8) (.inl ⟨_, rfl⟩) rfl, hkept _ (.int 9) (.inl ⟨_, rfl⟩) (hrpc rfl) rfl,
    hkept _ (table [("debug", table [])]) (.inl ⟨_, rfl⟩) ?_ rfl, hunsaid _ ⟨_, .inl rfl⟩ ?_ (hrpc rfl),
    (hblank _ (by cbv)).2.1, hagain⟩
  · -- the second text has no log settings
    intro v hv
    cases hv
  · intro v hv
    obtain rfl := Option.some.inj hv
    intro w hw
    cases hw

/-- The level over nothing. -/
def levelEntries (name : String) : List (String × Toml) := [("log", table [("level", table [(name, table [])])])]

lemma sectioned_level (name : String) : Sectioned schema (some (table (levelEntries name))) := by
  refine .fields ?_
  simp only [sections, List.forall_mem_cons]
  refine ⟨.fields ?_, .none _, .none _, .none _, List.forall_mem_nil _⟩
  rw [List.forall_mem_singleton]
  exact .single _ _

/-- Both texts name a level over nothing: one after the other they are read, but not both at once. -/
theorem deep_merge_of_two_levels :
    Document "[log.level.debug]\n" (levelEntries "debug") ∧ Document "[log.level.warn]\n" (levelEntries "warn") ∧
      merge {} "[log.level.debug]\n" = .ok { level := .debug } ∧
      merge { level := .debug } "[log.level.warn]\n" = .ok { level := .warn } ∧
      ofLayers (deepMerge {} (levelEntries "debug") (levelEntries "warn")) = .error .parse := by
  have hG : Document "[log.level.debug]\n" (levelEntries "debug") := ⟨by cbv, sectioned_level _⟩
  have hP : Document "[log.level.warn]\n" (levelEntries "warn") := ⟨by cbv, sectioned_level _⟩
  refine ⟨hG, hP, eq_of_toOption (by decide +kernel), eq_of_toOption (by decide +kernel), ?_⟩
  exact read_deepMerge_of_clash origin_default.sound hG hP ⟨_, _, _, _, rfl, rfl, by decide⟩

end Switchboard.Settings
