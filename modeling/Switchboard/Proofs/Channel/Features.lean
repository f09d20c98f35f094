import Switchboard.Channel.Features
import Switchboard.Proofs.Keyed
import Switchboard.Proofs.Text.Pieces

/-!
# What is found among features

* `Features.keys_append`: the keys along a path are what is between its dots;
* `Features.storeAt`: a value with another one stored in it; `Features.insert_eq`: this is what an insertion comes to;
* `Features.lookupAt_storeAt_append`, `Features.lookupAt_storeAt_of_apart`: what is found along the path and beside it;
* `Features.storeAt_storeAt_append`, `Features.storeAt_comm`: one insertion after another;
* `Features.stored_at_path`: what is found after an insertion, and which insertions leave the same features.
-/

namespace Switchboard

/-! ## Members of objects -/

namespace Json

lemma inserts_members : Keyed.Inserts (fun x : String × Json => x.1) fun x l => insertMember x.1 x.2 l where
  nil _ := rfl
  before hlt := if_pos hlt
  instead heq := by rw [insertMember, if_neg heq.not_lt, if_pos heq]
  after hgt := by rw [insertMember, if_neg (lt_asymm hgt), if_neg hgt.ne']

lemma lookup_insertMember (key : String) (value : Json) (members : List (String × Json)) (other : String) :
    (insertMember key value members).lookup other = if key = other then some value else members.lookup other := by
  rw [Keyed.lookup_eq_find?, inserts_members.find? (key, value) members other, Keyed.lookup_eq_find?]
  split <;> rfl

lemma insertMember_insertMember (key : String) (value other : Json) (members : List (String × Json)) :
    insertMember key value (insertMember key other members) = insertMember key value members :=
  inserts_members.put_put (x := (key, value)) (y := (key, other)) rfl members

lemma insertMember_comm {key key' : String} (h : key ≠ key') (value value' : Json) (members : List (String × Json)) :
    insertMember key value (insertMember key' value' members) =
      insertMember key' value' (insertMember key value members) :=
  inserts_members.put_comm (x := (key, value)) (y := (key', value')) h members

/-- The members of an object; any other value has none. -/
def members (v : Json) : List (String × Json) := v.asObj?.getD []

@[simp] lemma members_obj (l : List (String × Json)) : (obj l).members = l := rfl

lemma get?_eq_lookup (v : Json) (key : String) : v.get? key = v.members.lookup key := by
  cases v <;> rfl

end Json

namespace Features

/-! ## Paths -/

lemma keys_ne_nil (path : String) : keys path ≠ [] :=
  fun h => Text.splitChars_ne_nil _ _ (List.map_eq_nil_iff.mp h)

/-- A dot is between the keys before it and those behind it. -/
lemma keys_append (path rest : String) : keys (path ++ "." ++ rest) = keys path ++ keys rest := by
  have htext : (path ++ "." ++ rest).toList = path.toList ++ '.' :: rest.toList := by simp
  rw [keys, Text.splitOnAny, htext, Text.splitChars_append (by decide), List.map_append]
  rfl

/-! ## Values stored in values -/

/-- A value with another one stored in it along some keys, with objects over anything else on the way. -/
def storeAt (value : Json) : List String → Json → Json
  | [], _ => value
  | key :: rest, v => .obj (Json.insertMember key (storeAt value rest ((v.get? key).getD .null)) v.members)

variable {p q : List String} (x y v : Json)

/-- Only the members of a value count for what is stored below it. -/
lemma storeAt_members (hp : p ≠ []) : storeAt x p (.obj v.members) = storeAt x p v := by
  cases p with
  | nil => exact absurd rfl hp
  | cons key rest => rw [storeAt, storeAt, Json.get?_eq_lookup, Json.members_obj, ← Json.get?_eq_lookup]

lemma obj_insertAt (hp : p ≠ []) (l : List (String × Json)) : .obj (insertAt x p l) = storeAt x p (.obj l) := by
  fun_induction insertAt x p l with
  | case1 => exact absurd rfl hp
  | case2 last l => rfl
  | case3 key rest l hrest inner ih =>
    have hrest : rest ≠ [] := fun h => hrest h
    have hinner : inner = ((l.lookup key).getD .null).members := by
      simp only [inner]
      split
      · next h => rw [h]; rfl
      · next h =>
        cases hl : l.lookup key with
        | none => rfl
        | some w => cases w <;> first | rfl | exact absurd hl (h _)
    rw [storeAt, ih hrest, hinner, storeAt_members _ _ hrest]
    rfl

lemma get?_storeAt_cons (key other : String) : (storeAt x (key :: p) v).get? other =
    if key = other then some (storeAt x p ((v.get? key).getD .null)) else v.get? other := by
  rw [storeAt, Json.get?_eq_lookup, Json.members_obj, Json.lookup_insertMember, ← Json.get?_eq_lookup]

/-! ## What is found afterwards -/

lemma lookupAt_append : lookupAt (p ++ q) v = (lookupAt p v).bind (lookupAt q) := by
  induction p generalizing v with
  | nil => rfl
  | cons key p ih =>
    rw [List.cons_append, lookupAt, lookupAt]
    cases v.get? key with
    | some w => exact ih w
    | none => rfl

/-- Along the path is what was there, with the rest of the path taken in it. -/
lemma lookupAt_storeAt_append :
    lookupAt p (storeAt x (p ++ q) v) = some (storeAt x q ((lookupAt p v).getD .null)) := by
  induction p generalizing v with
  | nil => rfl
  | cons key p ih =>
    rw [List.cons_append, lookupAt, get?_storeAt_cons, if_pos rfl, Option.bind_some, ih, lookupAt]
    -- where nothing was there is nothing below it
    cases v.get? key with
    | some w => rfl
    | none => cases p <;> rfl

/-- Beside the path nothing changes. -/
lemma lookupAt_storeAt_of_apart (hp : ¬ p <+: q) (hq : ¬ q <+: p) : lookupAt q (storeAt x p v) = lookupAt q v := by
  induction p generalizing q v with
  | nil => exact absurd List.nil_prefix hp
  | cons key p ih =>
    cases q with
    | nil => exact absurd List.nil_prefix hq
    | cons other q =>
      rw [lookupAt, lookupAt, get?_storeAt_cons]
      by_cases hkey : key = other
      · subst hkey
        have hp' : ¬ p <+: q := fun h => hp (List.cons_prefix_cons.mpr ⟨rfl, h⟩)
        have hq' : ¬ q <+: p := fun h => hq (List.cons_prefix_cons.mpr ⟨rfl, h⟩)
        rw [if_pos rfl, Option.bind_some, ih _ hp' hq']
        cases v.get? key with
        | some w => rfl
        | none =>
          cases q with
          | nil => exact absurd List.nil_prefix hq'
          | cons => rfl
      · rw [if_neg hkey]

/-! ## One after another -/

/-- Below one key the values are stored in each other, and the key is written once. -/
lemma storeAt_storeAt_cons (key : String) : storeAt x (key :: p) (storeAt y (key :: q) v) =
    .obj (Json.insertMember key (storeAt x p (storeAt y q ((v.get? key).getD .null))) v.members) := by
  rw [storeAt, get?_storeAt_cons, if_pos rfl, Option.getD_some, storeAt, Json.members_obj,
    Json.insertMember_insertMember]

/-- Below different keys both keys are written. -/
lemma storeAt_storeAt_of_ne {key other : String} (h : key ≠ other) :
    storeAt x (key :: p) (storeAt y (other :: q) v) =
      .obj (Json.insertMember key (storeAt x p ((v.get? key).getD .null))
        (Json.insertMember other (storeAt y q ((v.get? other).getD .null)) v.members)) := by
  rw [storeAt, get?_storeAt_cons, if_neg (Ne.symm h), storeAt, Json.members_obj]

/-- What is stored later on the way to a value takes it away. -/
lemma storeAt_storeAt_append : storeAt x p (storeAt y (p ++ q) v) = storeAt x p v := by
  induction p generalizing v with
  | nil => rfl
  | cons key p ih => rw [List.cons_append, storeAt_storeAt_cons, ih, storeAt]

/-- Values are stored beside each other in any order. -/
lemma storeAt_comm (hp : ¬ p <+: q) (hq : ¬ q <+: p) :
    storeAt x p (storeAt y q v) = storeAt y q (storeAt x p v) := by
  induction p generalizing q v with
  | nil => exact absurd List.nil_prefix hp
  | cons key p ih =>
    cases q with
    | nil => exact absurd List.nil_prefix hq
    | cons other q =>
      by_cases hkey : key = other
      · subst hkey
        have hcomm := ih ((v.get? key).getD .null) (fun h => hp (List.cons_prefix_cons.mpr ⟨rfl, h⟩))
          fun h => hq (List.cons_prefix_cons.mpr ⟨rfl, h⟩)
        rw [storeAt_storeAt_cons, storeAt_storeAt_cons, hcomm]
      · rw [storeAt_storeAt_of_ne _ _ _ hkey, storeAt_storeAt_of_ne _ _ _ (Ne.symm hkey), Json.insertMember_comm hkey]

/-! ## Insertions -/

lemma insert_eq (f : Features) (path : String) : .obj (f.insert path x).root = storeAt x (keys path) (.obj f.root) :=
  obj_insertAt x (keys_ne_nil path) f.root

lemma lookup_insert (f : Features) (path other : String) :
    (f.insert path x).lookup other = lookupAt (keys other) (storeAt x (keys path) (.obj f.root)) := by
  rw [lookup, insert_eq]

/-- Features with the same members are the same. -/
lemma eq_of_obj_root {f g : Features} (h : Json.obj f.root = .obj g.root) : f = g :=
  congrArg Features.mk (Json.obj.inj h)

/-- In the features of an object is found what is found in the object. -/
lemma lookup_ofJson (path : String) : (ofJson v).lookup path = lookupAt (keys path) v := by
  cases v with
  | obj l => rfl
  | _ =>
    obtain ⟨key, rest, hkeys⟩ := List.exists_cons_of_ne_nil (keys_ne_nil path)
    rw [lookup, hkeys]
    rfl

/-- What is inserted at a path is found there and, under longer paths, in it; on the way to it there are objects; what is
under other paths stays as it is. An insertion takes the place of earlier ones at the same path or below it, so the same
one again changes nothing, and insertions beside each other may be made in any order. -/
theorem stored_at_path (f : Features) (path : String) (value : Json) :
    let g := f.insert path value
    g.lookup path = some value ∧
      (∀ rest, g.lookup (path ++ "." ++ rest) = (ofJson value).lookup rest) ∧
      (∀ other rest, keys other = keys path ++ rest → g.lookup other = lookupAt rest value) ∧
      (∀ other, keys other <+: keys path → keys other ≠ keys path → ∃ members, g.lookup other = some (.obj members)) ∧
      (∀ other, ¬ keys path <+: keys other → ¬ keys other <+: keys path → g.lookup other = f.lookup other) ∧
      g.insert path value = g ∧
      (∀ other earlier, keys path <+: keys other → (f.insert other earlier).insert path value = g) ∧
      ∀ other second, ¬ keys path <+: keys other → ¬ keys other <+: keys path →
        g.insert other second = (f.insert other second).insert path value := by
  have hbelow : ∀ other rest, keys other = keys path ++ rest →
      (f.insert path value).lookup other = lookupAt rest value := by
    intro other rest hother
    have hat := lookupAt_storeAt_append (p := keys path) (q := []) value (.obj f.root)
    rw [List.append_nil] at hat
    rw [lookup_insert, hother, lookupAt_append, hat, Option.bind_some]
    rfl
  have hinstead : ∀ other earlier, keys path <+: keys other →
      (f.insert other earlier).insert path value = f.insert path value := by
    rintro other earlier ⟨rest, hother⟩
    refine eq_of_obj_root ?_
    rw [insert_eq, insert_eq, insert_eq, ← hother, storeAt_storeAt_append]
  refine ⟨hbelow path [] (List.append_nil _).symm, fun rest => ?_, hbelow, ?_, ?_,
    hinstead path value List.prefix_rfl, hinstead, ?_⟩
  · rw [hbelow _ _ (keys_append path rest), lookup_ofJson]
  · rintro other ⟨rest, hpath⟩ hne
    cases rest with
    | nil => exact absurd (by simpa using hpath) hne
    | cons key rest =>
      rw [lookup_insert, ← hpath, lookupAt_storeAt_append]
      exact ⟨_, rfl⟩
  · intro other hp hq
    rw [lookup_insert, lookupAt_storeAt_of_apart _ _ hp hq]
    rfl
  · intro other second hp hq
    refine eq_of_obj_root ?_
    rw [insert_eq, insert_eq, insert_eq, insert_eq, storeAt_comm _ _ _ hq hp]

/-- An object takes the place of a number on the way, and nothing between two dots is a key too. -/
example : ((ofJson (.obj [("a", .nat 5)])).insert "a..b" (.bool true)).lookup "a." = some (.obj [("b", .bool true)]) := by
  cbv

end Features

end Switchboard
