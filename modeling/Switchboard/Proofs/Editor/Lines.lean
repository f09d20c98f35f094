import Switchboard.Editor.Service
import Mathlib

/-!
# The lines of an editor, and what they come to

* `lines`: the lines of a stream of bytes, each with its line feed; the last one may be unfinished;
* `Service.lines_of_firstLine?`, `Service.input_eq_nil`: the line that is taken next is the first one of all that is left,
  and where there is none at the end of the input, nothing is left;
* `Sense`: a line is blank, garbled, unreadable, the order to stop, or another order;
* `Service.heed`, `Service.listen_of_firstLine?`: what is done for a line depends on its sense only;
* `Answers`: when a reply is one to a line.
-/

namespace Switchboard.Editor

/-! ## Lines -/

/-- The bytes of a line. -/
abbrev Line := List UInt8

/-- The lines of a stream of bytes, each with its line feed; the last one may be unfinished. -/
def lines : List UInt8 → List Line
  | [] => []
  | b :: rest =>
    if b = 0x0A then [b] :: lines rest
    else match lines rest with
      | [] => [[b]]
      | line :: more => (b :: line) :: more

section Lines

variable {line rest stream : List UInt8}

/-- A finished line comes first, whatever follows. -/
lemma lines_finished (hline : 0x0A ∉ line) (rest : List UInt8) :
    lines (line ++ 0x0A :: rest) = (line ++ [0x0A]) :: lines rest := by
  induction line with
  | nil => rw [List.nil_append, lines, if_pos rfl, List.nil_append]
  | cons b line ih =>
    have hb : b ≠ 0x0A := fun h => hline (h ▸ List.mem_cons_self)
    rw [List.cons_append, lines, if_neg hb, ih fun h => hline (List.mem_cons_of_mem _ h)]
    rfl

/-- Bytes without a line feed are one line, if there are any. -/
lemma lines_unfinished (hline : 0x0A ∉ line) (hsome : line ≠ []) : lines line = [line] := by
  induction line with
  | nil => exact absurd rfl hsome
  | cons b line ih =>
    have hb : b ≠ 0x0A := fun h => hline (h ▸ List.mem_cons_self)
    rw [lines, if_neg hb]
    cases line with
    | nil => rfl
    | cons c line => rw [ih (fun h => hline (List.mem_cons_of_mem _ h)) (List.cons_ne_nil c line)]

/-- No byte is lost. -/
theorem flatten_lines (stream : List UInt8) : (lines stream).flatten = stream := by
  induction stream with
  | nil => rfl
  | cons b rest ih =>
    rw [lines]
    split
    · rw [List.flatten_cons, ih, List.singleton_append]
    · split
      · next hnone =>
        rw [hnone] at ih
        rw [← ih]
        rfl
      · next line more hmore => rw [← ih, hmore, List.flatten_cons, List.flatten_cons, List.cons_append]

end Lines

namespace Service

variable {s : Service} {line rest : List UInt8}

/-- There is a first line up to a line feed, or there is none, and an unfinished line counts at the end of the input. -/
lemma firstLine?_cases (s : Service) :
    (∃ line rest, 0x0A ∉ line ∧ s.input = line ++ 0x0A :: rest ∧ s.firstLine? = some (line ++ [0x0A], rest)) ∨
      0x0A ∉ s.input ∧ s.firstLine? = if s.inputEnded && !s.input.isEmpty then some (s.input, []) else none := by
  have hclean : 0x0A ∉ s.input.takeWhile (· ≠ 0x0A) := by
    intro hmem
    simpa using List.mem_takeWhile_imp hmem
  have hinput := List.takeWhile_append_dropWhile (p := (· ≠ (0x0A : UInt8))) (l := s.input)
  have hfeed := List.head?_dropWhile_not (· ≠ (0x0A : UInt8)) s.input
  unfold firstLine?
  rw [List.span_eq_takeWhile_dropWhile]
  generalize s.input.takeWhile (· ≠ 0x0A) = line at hclean hinput ⊢
  generalize s.input.dropWhile (· ≠ 0x0A) = rest at hinput hfeed ⊢
  cases rest with
  | cons b rest =>
    obtain rfl : b = 0x0A := by simpa using hfeed
    exact .inl ⟨line, rest, hclean, hinput.symm, rfl⟩
  | nil =>
    rw [List.append_nil] at hinput
    rw [← hinput]
    exact .inr ⟨hclean, rfl⟩

/-- The line that is taken next is the first one of all that is left, if nothing is left to come at the end of the input. -/
theorem lines_of_firstLine? (h : s.firstLine? = some (line, rest)) {unsent : List UInt8}
    (hend : s.inputEnded = true → unsent = []) : lines (s.input ++ unsent) = line :: lines (rest ++ unsent) := by
  rcases s.firstLine?_cases with ⟨start, more, hclean, hinput, hfound⟩ | ⟨hclean, hfound⟩
  · obtain ⟨rfl, rfl⟩ := Prod.mk.inj (Option.some.inj (hfound.symm.trans h))
    rw [hinput, List.append_assoc, List.cons_append, lines_finished hclean]
  · rw [hfound] at h
    split at h
    · next hlast =>
      obtain ⟨rfl, rfl⟩ := Prod.mk.inj (Option.some.inj h)
      obtain ⟨hended, hsome⟩ := (Bool.and_eq_true _ _).mp hlast
      rw [hend hended, List.append_nil, lines_unfinished hclean (by simpa using hsome)]
      rfl
    · cases h

/-- At the end of the input all that is there is a line. -/
lemma input_eq_nil (h : s.firstLine? = none) (hended : s.inputEnded = true) : s.input = [] := by
  rcases s.firstLine?_cases with ⟨start, more, -, -, hfound⟩ | ⟨-, hfound⟩
  · cases hfound.symm.trans h
  · rw [hfound, hended, Bool.true_and] at h
    simpa using h

/-- A line can be taken where there is a line feed. -/
lemma isSome_firstLine? (h : 0x0A ∈ s.input) : s.firstLine?.isSome = true := by
  rcases s.firstLine?_cases with ⟨start, more, -, -, hfound⟩ | ⟨hclean, -⟩
  · rw [hfound]
    rfl
  · exact absurd h hclean

end Service

/-! ## Senses -/

/-- What a line is. -/
inductive Sense where
  | blank
  /-- It is not UTF-8. -/
  | garbled
  /-- It is no order. -/
  | unreadable
  | stop (id : Json)
  | order (o : Order)

namespace Sense

/-- What a line is. -/
def of (line : Line) : Sense :=
  match Utf8.decode line with
  | .error _ => .garbled
  | .ok text =>
    let text := Service.withoutBreak text
    if Text.isBlankText text then .blank
    else match Order.ofLine text with
      | none => .unreadable
      | some o => if o.command = Order.stop then .stop o.id else .order o

/-- The id that a reply to the line has. -/
def id : Sense → Json
  | stop id => id
  | order o => o.id
  | blank | garbled | unreadable => .null

/-- Is a reply due? -/
def isSpoken : Sense → Bool
  | blank => false
  | garbled | unreadable | stop _ | order _ => true

/-- Does the service read on after the line? -/
def isPassing : Sense → Bool
  | blank | unreadable | order _ => true
  | garbled | stop _ => false

/-- Is it a command? -/
def isCommand : Sense → Bool
  | stop _ | order _ => true
  | blank | garbled | unreadable => false

/-- The id of an order to stop. -/
def stop? : Sense → Option Json
  | stop id => some id
  | blank | garbled | unreadable | order _ => none

lemma eq_of_stop? {sense : Sense} {id : Json} (h : sense.stop? = some id) : sense = .stop id := by
  cases sense with
  | stop own => exact congrArg stop (Option.some.inj h)
  | blank | garbled | unreadable | order => cases h

lemma ne_stop {sense : Sense} (h : sense.stop?.isNone = true) (id : Json) : sense ≠ .stop id := by
  rintro rfl
  cases h

end Sense

/-- The lines that want a reply. -/
def spoken (taken : List Line) : List Line := taken.filter fun line => (Sense.of line).isSpoken

lemma spoken_concat {line : Line} (h : (Sense.of line).isSpoken = true) (taken : List Line) :
    spoken (taken ++ [line]) = spoken taken ++ [line] := by
  unfold spoken
  rw [List.filter_append]
  simp [h]

lemma spoken_concat_of_not {line : Line} (h : (Sense.of line).isSpoken = false) (taken : List Line) :
    spoken (taken ++ [line]) = spoken taken := by
  unfold spoken
  rw [List.filter_append]
  simp [h]

namespace Service

/-- Do what a line asks for. -/
def heed (s : Service) : Sense → Service
  | .blank => s
  | .garbled => { s with phase := .ended (some notText) }
  | .unreadable => s.tell (.reply Order.unreadable)
  | .stop id => { s with phase := .waiting id }
  | .order o => s.begin o

lemma input_heed (s : Service) (sense : Sense) : (s.heed sense).input = s.input := by
  cases sense <;> rfl

lemma inputEnded_heed (s : Service) (sense : Sense) : (s.heed sense).inputEnded = s.inputEnded := by
  cases sense <;> rfl

/-- What is done for a line depends on its sense only. -/
theorem listen_of_firstLine? {s : Service} (hphase : s.phase = .reading) {line rest : List UInt8}
    (hline : s.firstLine? = some (line, rest)) : s.listen.1 = { s with input := rest }.heed (Sense.of line) := by
  unfold listen Sense.of
  rw [hphase]
  dsimp only
  rw [hline]
  dsimp only
  cases Utf8.decode line with
  | error e => rfl
  | ok text =>
    dsimp only
    unfold take
    split
    · rfl
    · cases Order.ofLine (withoutBreak text) with
      | none => rfl
      | some o =>
        dsimp only
        split <;> rfl

end Service

/-! ## Replies to lines -/

/-- A reply to a line has its id and a value or else an error; a line that is no command has an error. -/
structure Answers (line : Line) (reply : Json) : Prop where
  id : reply.get? "id" = some (Sense.of line).id
  one : (reply.get? "ok").isSome = !(reply.get? "error").isSome
  refused : (Sense.of line).isCommand = false → (reply.get? "error").isSome = true

end Switchboard.Editor
