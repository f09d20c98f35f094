import Switchboard.Debug.Template
import Mathlib

/-!
# What becomes of a template

* `IsName`, `spelled`: the names that tokens can have, and how a token is written (`token?_eq_some_iff`);
* `Cut`: a text taken apart from left to right, a token wherever one begins (`exists_cut`, `Cut.unique`);
* `Becomes`: what becomes of a value, by rules for each kind of value;
* `Mentions`: the names of the tokens in a template;
* `render_substitutes`: a template is rendered by these rules and by no others, and only the names that it mentions count.

The rules look at the template alone. What a value brings into a text is not taken apart again.
-/

namespace Switchboard.Debug.Template

/-! ## Tokens -/

/-- A letter or an underscore, and then letters, digits, underscores and dots. -/
def IsName : List Char → Prop
  | [] => False
  | c :: rest => isNameStart c = true ∧ ∀ d ∈ rest, isNamePart d = true

/-- A token is a name between braces, behind a dollar sign. -/
def spelled (name : List Char) : List Char := '$' :: '\x7b' :: (name ++ ['\x7d'])

/-- A token is found at the start of a text exactly if the text begins with one. -/
lemma token?_eq_some_iff {cs name rest : List Char} :
    token? cs = some (name, rest) ↔ IsName name ∧ cs = spelled name ++ rest := by
  constructor
  · intro h
    unfold token? at h
    split at h
    · next c tail =>
      split at h
      · next hc =>
        split at h
        · next after hafter =>
          obtain ⟨rfl, rfl⟩ := Prod.mk.inj (Option.some.inj h)
          refine ⟨⟨hc, fun d hd => List.mem_takeWhile_imp hd⟩, ?_⟩
          have htail : tail.takeWhile isNamePart ++ '\x7d' :: after = tail := by
            rw [← hafter, List.takeWhile_append_dropWhile]
          show '$' :: '\x7b' :: c :: tail = spelled (c :: tail.takeWhile isNamePart) ++ after
          conv_lhs => rw [← htail]
          simp [spelled]
        · cases h
      · cases h
    · cases h
  · rintro ⟨hname, rfl⟩
    cases name with
    | nil => exact hname.elim
    | cons c part =>
      obtain ⟨hc, hpart⟩ := hname
      -- the brace that ends the token is no part of a name
      have hdrop : (part ++ '\x7d' :: rest).dropWhile isNamePart = '\x7d' :: rest := by
        rw [List.dropWhile_append_of_pos hpart]
        rfl
      have htake : (part ++ '\x7d' :: rest).takeWhile isNamePart = part := by
        rw [List.takeWhile_append_of_pos hpart, List.takeWhile_cons_of_neg (by decide), List.append_nil]
      simp [token?, spelled, hc, hdrop, htake]

lemma token?_eq_none_iff {cs : List Char} :
    token? cs = none ↔ ∀ name rest, IsName name → cs ≠ spelled name ++ rest := by
  constructor
  · intro h name rest hname heq
    have hsome := token?_eq_some_iff.mpr ⟨hname, heq⟩
    rw [h] at hsome
    cases hsome
  · intro h
    cases hcs : token? cs with
    | none => rfl
    | some r =>
      obtain ⟨hname, heq⟩ := token?_eq_some_iff.mp hcs
      exact absurd heq (h r.1 r.2 hname)

/-- What a text begins with tells which token it is, and where it ends. -/
lemma spelled_inj {name name' rest rest' : List Char} (h : IsName name) (h' : IsName name')
    (heq : spelled name ++ rest = spelled name' ++ rest') : name = name' ∧ rest = rest' := by
  have hfirst : token? (spelled name ++ rest) = some (name, rest) := token?_eq_some_iff.mpr ⟨h, rfl⟩
  have hsecond : token? (spelled name ++ rest) = some (name', rest') := token?_eq_some_iff.mpr ⟨h', heq⟩
  exact Prod.mk.inj (Option.some.inj (hfirst.symm.trans hsecond))

/-! ## Texts taken apart -/

/-- A part of a text. -/
inductive Piece where
  | literal (c : Char)
  | token (name : List Char)

/-- A text taken apart from left to right: where a token begins it is taken whole, and any other character is taken by
itself. -/
inductive Cut : List Char → List Piece → Prop where
  | nil : Cut [] []
  | token {name rest : List Char} {pieces : List Piece} (isName : IsName name) (cut : Cut rest pieces) :
      Cut (spelled name ++ rest) (.token name :: pieces)
  | literal {c : Char} {rest : List Char} {pieces : List Piece}
      (noToken : ∀ name tail, IsName name → c :: rest ≠ spelled name ++ tail) (cut : Cut rest pieces) :
      Cut (c :: rest) (.literal c :: pieces)

/-- What stands for a piece in the end: a character stands for itself, and for a token stands the text of its value, or
nothing. -/
def Piece.filled (vars : Vars) : Piece → List Char
  | literal c => [c]
  | token name => ((vars.lookup (String.ofList name)).map fun v => (textOf v).toList).getD []

lemma filled_token (vars : Vars) (name : List Char) : (Piece.token name).filled vars = spliced vars name := by
  simp only [Piece.filled, spliced]
  cases vars.lookup (String.ofList name) <;> rfl

/-- Every text can be taken apart. -/
lemma exists_cut (cs : List Char) : ∃ pieces, Cut cs pieces := by
  induction hn : cs.length using Nat.strong_induction_on generalizing cs with
  | _ n ih =>
    cases htoken : token? cs with
    | some r =>
      obtain ⟨name, rest⟩ := r
      obtain ⟨hname, heq⟩ := token?_eq_some_iff.mp htoken
      obtain ⟨pieces, hcut⟩ := ih _ (hn ▸ token?_length htoken) rest rfl
      rw [heq]
      exact ⟨_, .token hname hcut⟩
    | none =>
      cases cs with
      | nil => exact ⟨[], .nil⟩
      | cons c rest =>
        obtain ⟨pieces, hcut⟩ := ih rest.length (by simp [← hn]) rest rfl
        exact ⟨_, .literal (token?_eq_none_iff.mp htoken) hcut⟩

/-- There is only one way to take a text apart. -/
lemma Cut.unique {cs : List Char} {pieces pieces' : List Piece} (h : Cut cs pieces) (h' : Cut cs pieces') :
    pieces = pieces' := by
  induction h generalizing pieces' with
  | nil => cases h' with | nil => rfl
  | @token name rest pieces hname _ ih =>
    generalize heq : spelled name ++ rest = cs at h'
    cases h' with
    | nil => cases heq
    | token hname' hcut' =>
      obtain ⟨rfl, rfl⟩ := spelled_inj hname hname' heq
      rw [ih hcut']
    | literal hnone => exact absurd heq.symm (hnone name rest hname)
  | @literal c rest pieces hnone _ ih =>
    generalize heq : c :: rest = cs at h'
    cases h' with
    | nil => cases heq
    | token hname' => exact absurd heq (hnone _ _ hname')
    | literal _ hcut' =>
      obtain ⟨rfl, rfl⟩ := List.cons.inj heq
      rw [ih hcut']

/-- Replacing tokens from left to right fills the pieces of the text. -/
lemma splice_eq {cs : List Char} {pieces : List Piece} (h : Cut cs pieces) (vars : Vars) :
    splice vars cs = pieces.flatMap (Piece.filled vars) := by
  induction h with
  | nil => rw [splice.eq_def]; rfl
  | @token name rest pieces hname _ ih =>
    have htoken : token? (spelled name ++ rest) = some (name, rest) := token?_eq_some_iff.mpr ⟨hname, rfl⟩
    rw [splice.eq_def, List.flatMap_cons, filled_token, ← ih]
    split
    · next name' rest' hsome =>
      obtain ⟨rfl, rfl⟩ := Prod.mk.inj (Option.some.inj (htoken.symm.trans hsome))
      rfl
    · next hnone => cases htoken.symm.trans hnone
  | @literal c rest pieces hnone _ ih =>
    have htoken := token?_eq_none_iff.mpr hnone
    rw [splice.eq_def, List.flatMap_cons, ← ih]
    split
    · next hsome => cases htoken.symm.trans hsome
    · rfl

/-! ## Rules -/

mutual

/-- What becomes of a value; nothing if it goes with its token. -/
inductive Becomes (vars : Vars) : Json → Option Json → Prop where
  | null : Becomes vars .null (some .null)
  | bool (b : Bool) : Becomes vars (.bool b) (some (.bool b))
  | num (n : Json.Number) : Becomes vars (.num n) (some (.num n))
  /-- A text that is one token becomes the value of its name, of whatever kind that is. -/
  | token {s : String} {name : List Char} (isName : IsName name) (whole : s.toList = spelled name) :
      Becomes vars (.str s) (vars.lookup (String.ofList name))
  /-- Any other text stays a text, with each of its pieces filled. -/
  | text {s : String} {pieces : List Piece} (notWhole : ∀ name, IsName name → s.toList ≠ spelled name)
      (cut : Cut s.toList pieces) :
      Becomes vars (.str s) (some (.str (String.ofList (pieces.flatMap (Piece.filled vars)))))
  | arr {items left : List Json} (each : BecomeItems vars items left) : Becomes vars (.arr items) (some (.arr left))
  | obj {members left : List (String × Json)} (each : BecomeMembers vars members left) :
      Becomes vars (.obj members) (some (.obj left))

/-- What becomes of elements, in order. -/
inductive BecomeItems (vars : Vars) : List Json → List Json → Prop where
  | nil : BecomeItems vars [] []
  | stays {v w : Json} {rest left : List Json} (becomes : Becomes vars v (some w)) (others : BecomeItems vars rest left) :
      BecomeItems vars (v :: rest) (w :: left)
  | goes {v : Json} {rest left : List Json} (becomes : Becomes vars v none) (others : BecomeItems vars rest left) :
      BecomeItems vars (v :: rest) left

/-- What becomes of members, in order; a key stays as it is. -/
inductive BecomeMembers (vars : Vars) : List (String × Json) → List (String × Json) → Prop where
  | nil : BecomeMembers vars [] []
  | stays {k : String} {v w : Json} {rest left : List (String × Json)} (becomes : Becomes vars v (some w))
      (others : BecomeMembers vars rest left) : BecomeMembers vars ((k, v) :: rest) ((k, w) :: left)
  | goes {k : String} {v : Json} {rest left : List (String × Json)} (becomes : Becomes vars v none)
      (others : BecomeMembers vars rest left) : BecomeMembers vars ((k, v) :: rest) left

end

/-- A text is one token exactly if nothing follows the token that it begins with. -/
lemma token?_whole_iff {s : String} {name : List Char} :
    token? s.toList = some (name, []) ↔ IsName name ∧ s.toList = spelled name := by
  rw [token?_eq_some_iff, List.append_nil]

lemma renderText_of_cut {s : String} (h : ∀ name, IsName name → s.toList ≠ spelled name) {pieces : List Piece}
    (hcut : Cut s.toList pieces) (vars : Vars) :
    renderText vars s = some (.str (String.ofList (pieces.flatMap (Piece.filled vars)))) := by
  unfold renderText
  split
  · next name hname =>
    obtain ⟨hname, heq⟩ := token?_whole_iff.mp hname
    exact absurd heq (h name hname)
  · rw [splice_eq hcut]

lemma renderText_of_token {s : String} {name : List Char} (hname : IsName name) (h : s.toList = spelled name)
    (vars : Vars) : renderText vars s = vars.lookup (String.ofList name) := by
  unfold renderText
  rw [token?_whole_iff.mpr ⟨hname, h⟩]

lemma becomes_renderText (vars : Vars) (s : String) : Becomes vars (.str s) (renderText vars s) := by
  by_cases h : ∃ name, IsName name ∧ s.toList = spelled name
  · obtain ⟨name, hname, hs⟩ := h
    exact renderText_of_token hname hs vars ▸ .token hname hs
  · have hnot : ∀ name, IsName name → s.toList ≠ spelled name := fun name hname hs => h ⟨name, hname, hs⟩
    obtain ⟨pieces, hcut⟩ := exists_cut s.toList
    exact renderText_of_cut hnot hcut vars ▸ .text hnot hcut

mutual

/-- Rendering keeps to the rules. -/
lemma becomes_renderValue (vars : Vars) : (v : Json) → Becomes vars v (renderValue vars v)
  | .null => .null
  | .bool b => .bool b
  | .num n => .num n
  | .str s => becomes_renderText vars s
  | .arr items => .arr (becomes_renderItems vars items)
  | .obj members => .obj (becomes_renderMembers vars members)

lemma becomes_renderItems (vars : Vars) : (l : List Json) → BecomeItems vars l (renderItems vars l)
  | [] => .nil
  | v :: rest => by
    have hv := becomes_renderValue vars v
    rw [renderItems]
    split
    · next w hw => exact .stays (hw ▸ hv) (becomes_renderItems vars rest)
    · next hw => exact .goes (hw ▸ hv) (becomes_renderItems vars rest)

lemma becomes_renderMembers (vars : Vars) :
    (l : List (String × Json)) → BecomeMembers vars l (renderMembers vars l)
  | [] => .nil
  | (k, v) :: rest => by
    have hv := becomes_renderValue vars v
    rw [renderMembers]
    split
    · next w hw => exact .stays (hw ▸ hv) (becomes_renderMembers vars rest)
    · next hw => exact .goes (hw ▸ hv) (becomes_renderMembers vars rest)

end

mutual

/-- The rules leave no choice. -/
lemma eq_renderValue {vars : Vars} : {v : Json} → {r : Option Json} → Becomes vars v r → r = renderValue vars v
  | .null, _, h => by cases h; rfl
  | .bool _, _, h => by cases h; rfl
  | .num _, _, h => by cases h; rfl
  | .str s, _, h => by
    rw [renderValue]
    cases h with
    | token hname hs => rw [renderText_of_token hname hs]
    | text hnot hcut => rw [renderText_of_cut hnot hcut]
  | .arr items, _, h => by
    cases h with
    | arr each => rw [renderValue, eq_renderItems each]
  | .obj members, _, h => by
    cases h with
    | obj each => rw [renderValue, eq_renderMembers each]

lemma eq_renderItems {vars : Vars} : {l left : List Json} → BecomeItems vars l left → left = renderItems vars l
  | [], _, h => by cases h; rfl
  | v :: rest, _, h => by
    rw [renderItems]
    cases h with
    | stays hv others => rw [← eq_renderValue hv, eq_renderItems others]
    | goes hv others => rw [← eq_renderValue hv, eq_renderItems others]

lemma eq_renderMembers {vars : Vars} :
    {l left : List (String × Json)} → BecomeMembers vars l left → left = renderMembers vars l
  | [], _, h => by cases h; rfl
  | (k, v) :: rest, _, h => by
    rw [renderMembers]
    cases h with
    | stays hv others => rw [← eq_renderValue hv, eq_renderMembers others]
    | goes hv others => rw [← eq_renderValue hv, eq_renderMembers others]

end

/-! ## Names that count -/

/-- A template has a token of this name. -/
inductive Mentions : Json → String → Prop where
  | text {s : String} {pieces : List Piece} {name : List Char} (cut : Cut s.toList pieces)
      (mem : .token name ∈ pieces) : Mentions (.str s) (String.ofList name)
  | item {items : List Json} {v : Json} {name : String} (mem : v ∈ items) (mentions : Mentions v name) :
      Mentions (.arr items) name
  | member {members : List (String × Json)} {k : String} {v : Json} {name : String} (mem : (k, v) ∈ members)
      (mentions : Mentions v name) : Mentions (.obj members) name

section Congruence

variable {vars vars' : Vars}

lemma renderText_congr {s : String} (h : ∀ name, Mentions (.str s) name → vars'.lookup name = vars.lookup name) :
    renderText vars' s = renderText vars s := by
  obtain ⟨pieces, hcut⟩ := exists_cut s.toList
  by_cases hwhole : ∃ name, IsName name ∧ s.toList = spelled name
  · obtain ⟨name, hname, hs⟩ := hwhole
    have hone : Cut s.toList [.token name] := by
      rw [hs, ← List.append_nil (spelled name)]
      exact .token hname .nil
    rw [renderText_of_token hname hs, renderText_of_token hname hs]
    exact h _ (.text hone (List.mem_singleton.mpr rfl))
  · have hnot : ∀ name, IsName name → s.toList ≠ spelled name := fun name hname hs => hwhole ⟨name, hname, hs⟩
    rw [renderText_of_cut hnot hcut, renderText_of_cut hnot hcut]
    congr 3
    refine List.flatMap_congr fun piece hpiece => ?_
    cases piece with
    | literal c => rfl
    | token name => rw [Piece.filled, Piece.filled, h _ (.text hcut hpiece)]

mutual

/-- Where two assignments agree on the names that a template mentions, they render it alike. -/
lemma renderValue_congr :
    (v : Json) → (∀ name, Mentions v name → vars'.lookup name = vars.lookup name) → renderValue vars' v = renderValue vars v
  | .null, _ => rfl
  | .bool _, _ => rfl
  | .num _, _ => rfl
  | .str s, h => renderText_congr h
  | .arr items, h => by
    rw [renderValue, renderValue, renderItems_congr items fun v hv name hname => h name (.item hv hname)]
  | .obj members, h => by
    rw [renderValue, renderValue, renderMembers_congr members fun k v hv name hname => h name (.member hv hname)]

lemma renderItems_congr :
    (l : List Json) → (∀ v ∈ l, ∀ name, Mentions v name → vars'.lookup name = vars.lookup name) →
      renderItems vars' l = renderItems vars l
  | [], _ => rfl
  | v :: rest, h => by
    rw [renderItems, renderItems, renderValue_congr v (h v (List.mem_cons_self ..)),
      renderItems_congr rest fun w hw => h w (List.mem_cons_of_mem _ hw)]

lemma renderMembers_congr :
    (l : List (String × Json)) → (∀ k v, (k, v) ∈ l → ∀ name, Mentions v name → vars'.lookup name = vars.lookup name) →
      renderMembers vars' l = renderMembers vars l
  | [], _ => rfl
  | (k, v) :: rest, h => by
    rw [renderMembers, renderMembers, renderValue_congr v (h k v (List.mem_cons_self ..)),
      renderMembers_congr rest fun j w hw => h j w (List.mem_cons_of_mem _ hw)]

end

end Congruence

/-! ## Rendering -/

/-- A template becomes what the rules say and nothing else, `null` if it goes with its token; and what a name stands for
makes no difference if the template does not mention it. -/
theorem render_substitutes (vars : Vars) (template : Json) :
    ∃ r, (∀ r', Becomes vars template r' ↔ r' = r) ∧ render vars template = r.getD .null ∧
      ∀ vars' : Vars, (∀ name, Mentions template name → vars'.lookup name = vars.lookup name) →
        render vars' template = render vars template := by
  refine ⟨renderValue vars template, fun r' => ⟨eq_renderValue, ?_⟩, rfl, fun vars' h => ?_⟩
  · rintro rfl
    exact becomes_renderValue vars template
  · rw [render, render, renderValue_congr template h]

/-- A value that spells a token itself, and a number. -/
def commandVars : Vars := [("cmd", "run $\x7bport\x7d"), ("port", .nat 5005)]

/-- A text that is one token, and a text with two tokens and the beginning of a third one. -/
def commandTemplate : Json := .arr ["$\x7bport\x7d", "x$\x7bgone\x7dy$\x7bcmd\x7d$\x7b"]

/-- What the command brings in stays as it is, and a name that is not mentioned makes no difference. -/
theorem render_substitutes_command :
    render (("other", .null) :: commandVars) commandTemplate = .arr [.nat 5005, "xyrun $\x7bport\x7d$\x7b"] := by
  have hisName : IsName "port".toList := by simp [IsName, isNameStart, isNamePart]
  have hport : Cut "$\x7bport\x7d".toList [.token "port".toList] := by
    rw [show "$\x7bport\x7d".toList = spelled "port".toList ++ [] by simp [spelled]]
    exact .token hisName .nil
  have hline : Cut "x$\x7bgone\x7dy$\x7bcmd\x7d$\x7b".toList
      [.literal 'x', .token "gone".toList, .literal 'y', .token "cmd".toList, .literal '$', .literal '\x7b'] := by
    rw [show "x$\x7bgone\x7dy$\x7bcmd\x7d$\x7b".toList
      = 'x' :: (spelled "gone".toList ++ 'y' :: (spelled "cmd".toList ++ ['$', '\x7b'])) by simp [spelled]]
    refine .literal (token?_eq_none_iff.mp (by decide)) (.token (by simp [IsName, isNameStart, isNamePart]) ?_)
    refine .literal (token?_eq_none_iff.mp (by decide)) (.token (by simp [IsName, isNameStart, isNamePart]) ?_)
    exact .literal (token?_eq_none_iff.mp (by decide)) (.literal (token?_eq_none_iff.mp (by decide)) .nil)
  obtain ⟨r, hr, hrender, hother⟩ := render_substitutes commandVars commandTemplate
  have hnames : ∀ name, Mentions commandTemplate name → name ≠ "other" := by
    intro name hname
    cases hname with
    | item hmem hname =>
      rcases List.mem_cons.mp hmem with rfl | hmem
      · cases hname with
        | text hcut hmem =>
          obtain rfl := hcut.unique hport
          obtain rfl : _ = "port".toList := by simpa using hmem
          decide
      · obtain rfl := List.mem_singleton.mp hmem
        cases hname with
        | text hcut hmem =>
          obtain rfl := hcut.unique hline
          obtain rfl | rfl : _ = "gone".toList ∨ _ = "cmd".toList := by simpa using hmem
          all_goals decide
  have hbecomes : Becomes commandVars commandTemplate (some (.arr [.nat 5005, "xyrun $\x7bport\x7d$\x7b"])) := by
    have hwhole : Becomes commandVars "$\x7bport\x7d" (some (.nat 5005)) := .token hisName (by simp [spelled])
    have hnot : ∀ name, IsName name → "x$\x7bgone\x7dy$\x7bcmd\x7d$\x7b".toList ≠ spelled name := fun name _ heq =>
      absurd (congrArg List.head? heq) (by simp [spelled])
    exact .arr (.stays hwhole (.stays (.text hnot hline) .nil))
  rw [hother, hrender, ← (hr _).mp hbecomes]
  · rfl
  · intro name hname
    rw [List.lookup_cons, beq_eq_false_iff_ne.mpr (hnames name hname)]

end Switchboard.Debug.Template
