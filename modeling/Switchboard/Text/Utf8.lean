/-!
# Bytes that are text

`Utf8.fault?` finds the first place where bytes stop being UTF-8: the index of the first byte of the faulty
sequence and how many bytes of it are wrong together, or nothing if the bytes end inside a sequence.
-/

namespace Switchboard.Utf8

/-- Where bytes stop being UTF-8. -/
structure Fault where
  index : Nat
  length : Option Nat
deriving DecidableEq, Repr

/-- The wording of a fault. -/
def Fault.message (f : Fault) : String :=
  match f.length with
  | some n => "invalid utf-8 sequence of " ++ toString n ++ " bytes from index " ++ toString f.index
  | none => "incomplete utf-8 byte sequence from index " ++ toString f.index

/-- A byte that continues a sequence. -/
def isContinuation (b : UInt8) : Bool := 0x80 ≤ b && b < 0xC0

/-- Second bytes that may follow the first byte of a three-byte sequence. -/
def isSecondOfThree (a b : UInt8) : Bool :=
  if a = 0xE0 then 0xA0 ≤ b && b < 0xC0
  else if a = 0xED then 0x80 ≤ b && b < 0xA0
  else isContinuation b

/-- Second bytes that may follow the first byte of a four-byte sequence. -/
def isSecondOfFour (a b : UInt8) : Bool :=
  if a = 0xF0 then 0x90 ≤ b && b < 0xC0
  else if a = 0xF4 then 0x80 ≤ b && b < 0x90
  else isContinuation b

/-- The first fault, `index` bytes having been passed. -/
def faultFrom (index : Nat) : List UInt8 → Option Fault
  | [] => none
  | a :: rest =>
    if a < 0x80 then faultFrom (index + 1) rest
    else if 0xC2 ≤ a && a < 0xE0 then
      match rest with
      | [] => some ⟨index, none⟩
      | b :: rest => if isContinuation b then faultFrom (index + 2) rest else some ⟨index, some 1⟩
    else if 0xE0 ≤ a && a < 0xF0 then
      match rest with
      | [] => some ⟨index, none⟩
      | b :: rest =>
        if !isSecondOfThree a b then some ⟨index, some 1⟩
        else
          match rest with
          | [] => some ⟨index, none⟩
          | c :: rest => if isContinuation c then faultFrom (index + 3) rest else some ⟨index, some 2⟩
    else if 0xF0 ≤ a && a < 0xF5 then
      match rest with
      | [] => some ⟨index, none⟩
      | b :: rest =>
        if !isSecondOfFour a b then some ⟨index, some 1⟩
        else
          match rest with
          | [] => some ⟨index, none⟩
          | c :: rest =>
            if !isContinuation c then some ⟨index, some 2⟩
            else
              match rest with
              | [] => some ⟨index, none⟩
              | e :: rest => if isContinuation e then faultFrom (index + 4) rest else some ⟨index, some 3⟩
    else some ⟨index, some 1⟩

/-- The first fault. -/
def fault? (bytes : List UInt8) : Option Fault := faultFrom 0 bytes

/-- The bytes as text. -/
def decode (bytes : List UInt8) : Except Fault String :=
  match fault? bytes with
  | some f => throw f
  | none =>
    match String.fromUTF8? ⟨bytes.toArray⟩ with
    | some s => pure s
    | none => throw ⟨0, some 1⟩

/-- The characters of the bytes, with a replacement character for each sequence that is no text. The fuel bounds
the number of such sequences. -/
def repaired : Nat → List UInt8 → List Char
  | 0, _ => []
  | fuel + 1, bytes =>
    match fault? bytes with
    | none => ((String.fromUTF8? ⟨bytes.toArray⟩).getD "").toList
    | some f =>
      ((String.fromUTF8? ⟨(bytes.take f.index).toArray⟩).getD "").toList ++ '\ufffd' ::
        match f.length with
        | some n => repaired fuel (bytes.drop (f.index + n))
        | none => []

/-- The bytes as text, with a replacement character for each sequence that is no text. -/
def decodeRepaired (bytes : List UInt8) : String := String.ofList (repaired (bytes.length + 1) bytes)

/-- The bytes of a text. -/
def encode (s : String) : List UInt8 := s.toUTF8.toList

end Switchboard.Utf8
