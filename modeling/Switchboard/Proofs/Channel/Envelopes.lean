import Switchboard.Channel.Envelope
import Mathlib.Tactic

/-!
# Envelopes that are read back

* `Dialect.refusal`, `Dialect.misnumbered`: what a refusal is read as, by the number that it is for;
* `Dialect.decode_request_eq`, `decode_notification`, `decode_refuse`: how each message that is sent is read;
* `Dialect.Reads`: how the other side reads a message; a refusal is neither a request nor a notification;
* `Dialect.envelopes_read_back`: in both dialects messages are read as what they are, and as the same.
-/

namespace Switchboard

namespace Json

/-- A number of a request fits 64 signed bits. -/
lemma asInt64?_eq_some_iff {v : Json} {n : Int} :
    v.asInt64? = some n ↔ v = .int n ∧ -0x8000000000000000 ≤ n ∧ n < 0x8000000000000000 := by
  constructor
  · intro h
    unfold asInt64? at h
    split at h
    · split at h
      · next hrange =>
        obtain rfl := Option.some.inj h
        exact ⟨rfl, hrange⟩
      · cases h
    · cases h
  · rintro ⟨rfl, hrange⟩
    exact if_pos hrange

end Json

namespace Dialect

/-- What the other side makes of a refusal. -/
def refusal (d : Dialect) (text : String) : Refusal where
  code := match d with
    | jsonRpc => some methodNotFound
    | sequenced => none
  message := text

/-- What the other side makes of a refusal of something that is no number of a request. -/
def misnumbered (d : Dialect) (id : Json) : Envelope.Fault :=
  match d with
  | jsonRpc => .idNotInteger id
  | sequenced => .noRequestNumber

/-- A request is read as what it is, without parameters as one with `null`. -/
lemma decode_request_eq (d : Dialect) (id : Int) (method : String) (params : Json) :
    d.decode (d.request id method params) = .ok (.request (.int id) method params) := by
  cases d with
  | jsonRpc => rfl
  | sequenced => cases params <;> rfl

/-- A request is read as one of its name. -/
lemma decode_request (d : Dialect) (id : Int) (method : String) (params : Json) :
    ∃ read, d.decode (d.request id method params) = .ok (.request (.int id) method read) :=
  ⟨params, d.decode_request_eq id method params⟩

lemma decode_notification (d : Dialect) (seq : Int) (method : String) (params : Json) :
    d.decode (d.notification seq method params) = .ok (.event method params) := by
  cases d <;> rfl

/-- A refusal is read as an answer, if what it is for is a number. -/
lemma decode_refuse (d : Dialect) (seq : Int) (id : Json) (method text : String) :
    d.decode (d.refuse seq id method text) = match id.asInt64? with
      | some n => .ok (.response n (.error (d.refusal text)))
      | none => .error (d.misnumbered id) := by
  cases d with
  | jsonRpc =>
    have hmethod : (refuse .jsonRpc seq id method text).get? "method" = none := rfl
    have hnumber : (refuse .jsonRpc seq id method text).get? "id" = some id := rfl
    unfold decode decodeJsonRpc
    simp only [hmethod, hnumber, pure_bind]
    cases id.asInt64? <;> rfl
  | sequenced =>
    have hnumber : (refuse .sequenced seq id method text).get? "request_seq" = some id := rfl
    unfold decode decodeSequenced
    simp only [hnumber, Option.bind_some]
    cases id.asInt64? <;> rfl

/-! ## Kinds of messages -/

/-- The other side reads a message as a request or notification of this name. -/
def Reads (d : Dialect) (message : Json) (name : String) : Prop :=
  (∃ id params, d.decode message = .ok (.request id name params)) ∨
    ∃ params, d.decode message = .ok (.event name params)

lemma Reads.unique {d : Dialect} {message : Json} {name other : String} (h : d.Reads message name)
    (h' : d.Reads message other) : name = other := by
  rcases h with ⟨id, params, h⟩ | ⟨params, h⟩ <;> rcases h' with ⟨id', params', h'⟩ | ⟨params', h'⟩
  all_goals
    have heq := Except.ok.inj (h.symm.trans h')
    cases heq
  · rfl
  · rfl

/-- The name of a request or notification. -/
def name? (d : Dialect) (message : Json) : Option String :=
  match d.decode message with
  | .ok (.request _ name _) | .ok (.event name _) => some name
  | _ => none

lemma Reads.of_name? {d : Dialect} {message : Json} {name : String} (h : d.name? message = some name) :
    d.Reads message name := by
  unfold name? at h
  split at h
  · next id _ params hdecode =>
    obtain rfl := Option.some.inj h
    exact .inl ⟨id, params, hdecode⟩
  · next _ params hdecode =>
    obtain rfl := Option.some.inj h
    exact .inr ⟨params, hdecode⟩
  · cases h

lemma reads_request (d : Dialect) (id : Int) (method : String) (params : Json) :
    d.Reads (d.request id method params) method := .inl ⟨_, params, d.decode_request_eq id method params⟩

lemma reads_notification (d : Dialect) (seq : Int) (method : String) (params : Json) :
    d.Reads (d.notification seq method params) method := .inr ⟨params, d.decode_notification seq method params⟩

/-- A refusal is read as neither of them. -/
lemma not_reads_refuse (d : Dialect) (seq : Int) (id : Json) (method text : String) {name : String} :
    ¬ d.Reads (d.refuse seq id method text) name := by
  rintro (⟨number, params, h⟩ | ⟨params, h⟩)
  all_goals
    rw [decode_refuse] at h
    split at h
    · cases h
    · cases h

lemma request_ne_notification (d : Dialect) (id seq : Int) (method other : String) (params body : Json) :
    d.request id method params ≠ d.notification seq other body := by
  intro h
  have hread := d.decode_request_eq id method params
  rw [h, decode_notification] at hread
  cases hread

lemma ne_refuse {d : Dialect} {message : Json} {name : String} (h : d.Reads message name) (seq : Int) (id : Json)
    (method text : String) : message ≠ d.refuse seq id method text :=
  fun heq => d.not_reads_refuse seq id method text (heq ▸ h)

/-- In both dialects a request is read as a request with its number, name and parameters, and a notification as an event
with its name and parameters, so they are read as the same in both. A refusal is read as an answer with its text to the
request that it is for, if that is a number that fits 64 signed bits, and else it has no meaning. No message is of two
kinds. -/
theorem envelopes_read_back (method : String) :
    (∀ d id params, decode d (request d id method params) = .ok (.request (.int id) method params)) ∧
      (∀ d seq params, decode d (notification d seq method params) = .ok (.event method params)) ∧
      (∀ d seq n text, -0x8000000000000000 ≤ n → n < 0x8000000000000000 →
        decode d (refuse d seq (.int n) method text) =
          .ok (.response n (.error { code := (refusal d text).code, message := text, data := none }))) ∧
      (∀ d seq id text, (∀ n, -0x8000000000000000 ≤ n → n < 0x8000000000000000 → id ≠ .int n) →
        decode d (refuse d seq id method text) = .error (misnumbered d id)) ∧
      (∀ d d' id params, decode d (request d id method params) = decode d' (request d' id method params)) ∧
      (∀ d d' seq seq' params,
        decode d (notification d seq method params) = decode d' (notification d' seq' method params)) ∧
      ∀ d id seq seq' other params body requestId text,
        request d id method params ≠ notification d seq other body ∧
          request d id method params ≠ refuse d seq requestId other text ∧
          notification d seq method params ≠ refuse d seq' requestId other text := by
  refine ⟨fun d id params => d.decode_request_eq id method params, fun d seq params => d.decode_notification seq method params,
    fun d seq n text hle hlt => ?_, fun d seq id text hnot => ?_, fun d d' id params => ?_,
    fun d d' seq seq' params => ?_, fun d id seq seq' other params body requestId text => ⟨?_, ?_, ?_⟩⟩
  · rw [decode_refuse, Json.asInt64?_eq_some_iff.mpr ⟨rfl, hle, hlt⟩]
    rfl
  · cases hid : id.asInt64? with
    | none => rw [decode_refuse, hid]
    | some n =>
      obtain ⟨heq, hle, hlt⟩ := Json.asInt64?_eq_some_iff.mp hid
      exact absurd heq (hnot n hle hlt)
  · rw [decode_request_eq, decode_request_eq]
  · rw [decode_notification, decode_notification]
  · exact d.request_ne_notification id seq method other params body
  · exact ne_refuse (d.reads_request id method params) seq requestId other text
  · exact ne_refuse (d.reads_notification seq method params) seq' requestId other text

end Dialect

end Switchboard
