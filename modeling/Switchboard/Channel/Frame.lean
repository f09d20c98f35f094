import Switchboard.Json.Reader
import Switchboard.Json.Writer
import Switchboard.Text.Blank
import Switchboard.Text.Quoted
import Switchboard.Text.Utf8

/-!
# Frames

A message travels as a frame: header lines `Key: Value`, a blank line, then as many bytes of JSON as the
`Content-Length` header says.

* `Frame.encode`, `Frame.encodeBody`: the frame of a message;
* `Frame.headerLine`: what one header line says;
* `Frame.Room`: how much memory can be had for a body;
* `Frame.next`: the first frame of a stream, or why there is none;
* `Frame.readAll`: all frames of a stream that has ended.
-/

namespace Switchboard

/-- Why a stream holds no further frame. -/
inductive Frame.Fault where
  | malformedLine (line : String)
  | badLength (value : String)
  | endedInHeader
  | noLength
  | badBody
  | endedInBody
  | notText (fault : Utf8.Fault)
deriving DecidableEq, Repr

namespace Frame

/-- The header key that carries the body length. -/
def lengthKey : String := "Content-Length"

/-! ## Writing -/

/-- Header and body. -/
def encodeBody (body : List UInt8) : List UInt8 :=
  Utf8.encode (lengthKey ++ ": " ++ toString body.length ++ "\r\n\r\n") ++ body

/-- The frame of a message. -/
def encode (message : Json) : List UInt8 := encodeBody (Utf8.encode message.text)

/-! ## Reading -/

/-- The length that a header line carries, nothing for other keys. -/
def headerLine (line : String) : Except Fault (Option Nat) :=
  match Text.cutAt ':' line with
  | none => throw (.malformedLine line)
  | some (key, value) =>
    if Text.sameLetters (Text.trim key) lengthKey then
      match Text.unsigned? 0x10000000000000000 (Text.trim value) with
      | some n => pure (some n)
      | none => throw (.badLength (Text.trim value))
    else pure none

/-- A line with its line feed, and the rest; nothing if the line is not complete. -/
def cutLine : List UInt8 → Option (List UInt8 × List UInt8)
  | [] => none
  | b :: rest =>
    if b = 0x0A then some ([b], rest) else (cutLine rest).map fun r => (b :: r.1, r.2)

theorem cutLine_length {bytes line rest : List UInt8} (h : cutLine bytes = some (line, rest)) :
    rest.length < bytes.length := by
  induction bytes generalizing line rest with
  | nil => simp [cutLine] at h
  | cons b tail ih =>
    unfold cutLine at h
    split at h
    · simp at h; simp [h.2]
    · simp only [Option.map_eq_some_iff, Prod.mk.injEq] at h
      obtain ⟨⟨l, r⟩, hr, -, rfl⟩ := h
      have := ih hr
      simp only [List.length_cons]
      omega

/-- The header of a frame. -/
inductive Header where
  /-- The blank line was reached. -/
  | complete (length : Option Nat) (rest : List UInt8)
  /-- The stream ended before any header line. -/
  | finished
  | failed (fault : Fault)
  /-- More bytes are needed. -/
  | starved
deriving Repr

/-- A character of a line break. -/
def breaksLine (c : Char) : Bool := c = '\r' || c = '\n'

/-- What a line of header text adds: nothing for the blank line, else the length it carries. -/
def readLine (line : List UInt8) : Except Fault (Option (Option Nat)) :=
  match Utf8.decode line with
  | .error f => throw (.notText f)
  | .ok text =>
    let text := Text.trimEndOf breaksLine text
    if text = "" then pure none else some <$> headerLine text

/-- Read header lines. Line breaks before the first line are skipped; the last length counts. -/
def header (ended : Bool) (seen : Bool) (length : Option Nat) (bytes : List UInt8) : Header :=
  match _h : cutLine bytes with
  | some (line, rest) =>
    match readLine line with
    | .error f => .failed f
    | .ok none => if seen then .complete length rest else header ended seen length rest
    | .ok (some carried) => header ended true (carried <|> length) rest
  | none =>
    if !ended then .starved
    else if bytes.isEmpty then if seen then .failed .endedInHeader else .finished
    else
      match readLine bytes with
      | .error f => .failed f
      | .ok none => if seen then .complete length [] else .finished
      | .ok (some _) => .failed .endedInHeader
termination_by bytes.length
decreasing_by all_goals exact cutLine_length _h

/-- For how many bytes memory can be had at once; never for more than 63 bits can say. -/
structure Room where
  bytes : Nat
  bounded : bytes ≤ 0x7FFFFFFFFFFFFFFF
deriving Repr

/-- As much as there can be. -/
def Room.most : Room := ⟨0x7FFFFFFFFFFFFFFF, Nat.le_refl _⟩

instance : Inhabited Room := ⟨.most⟩

/-- The first frame of a stream. -/
inductive Reading where
  | frame (message : Json) (rest : List UInt8)
  /-- The stream ended between frames. -/
  | finished
  | failed (fault : Fault)
  /-- The header announces a body for which there is no room; whoever reads breaks down over it. -/
  | overwhelmed
  /-- More bytes are needed. -/
  | starved
deriving Repr

/-- The first frame of a stream, which has `ended` or may go on. -/
def next (room : Room) (ended : Bool) (bytes : List UInt8) : Reading :=
  match header ended false none bytes with
  | .finished => .finished
  | .failed f => .failed f
  | .starved => .starved
  | .complete none _ => .failed .noLength
  | .complete (some n) rest =>
    if room.bytes < n then .overwhelmed
    else if rest.length < n then if ended then .failed .endedInBody else .starved
    else
      match Json.readBytes? ⟨(rest.take n).toArray⟩ with
      | some message => .frame message (rest.drop n)
      | none => .failed .badBody

theorem header_length {ended seen : Bool} {length carried : Option Nat} {bytes rest : List UInt8}
    (h : header ended seen length bytes = .complete carried rest) : rest.length < bytes.length := by
  fun_induction header ended seen length bytes with
  | case1 | case5 | case6 | case7 | case8 | case10 | case11 => cases h
  | case2 length bytes line tail hcut hline =>
    cases h
    exact cutLine_length hcut
  | case3 seen length bytes line tail hcut hline hseen ih =>
    exact Nat.lt_trans (ih h) (cutLine_length hcut)
  | case4 seen length bytes line tail hcut carried hline ih =>
    exact Nat.lt_trans (ih h) (cutLine_length hcut)
  | case9 length bytes hcut hended hsome hline =>
    cases h
    exact List.length_pos_iff.mpr (by simpa using hsome)

theorem next_length {room : Room} {ended : Bool} {bytes rest : List UInt8} {message : Json}
    (h : next room ended bytes = .frame message rest) : rest.length < bytes.length := by
  unfold next at h
  split at h <;> try cases h
  next n tail hheader =>
    have htail := header_length hheader
    split at h
    · cases h
    · split at h
      · split at h <;> cases h
      · split at h
        · cases h
          exact Nat.lt_of_le_of_lt (by simp) htail
        · cases h

/-- How reading a stream to its end comes out. -/
inductive Ending where
  /-- The stream ended between frames. -/
  | finished
  | failed (fault : Fault)
  | overwhelmed
deriving DecidableEq, Repr

/-- All frames of a stream that has ended, and what came after the last one. -/
def readAll (bytes : List UInt8) (room : Room := .most) : List Json × Ending :=
  match _h : next room true bytes with
  | .frame message rest =>
    let (messages, ending) := readAll rest room
    (message :: messages, ending)
  | .failed f => ([], .failed f)
  | .overwhelmed => ([], .overwhelmed)
  | .finished | .starved => ([], .finished)
termination_by bytes.length
decreasing_by exact next_length _h

end Frame

end Switchboard
