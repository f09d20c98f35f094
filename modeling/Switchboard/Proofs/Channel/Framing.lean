import Switchboard.Proofs.Channel.Grammar
import Switchboard.Proofs.Json.Reading

/-!
# Frames in a stream that is cut off

* `Frame.encodeBody_eq`: what is written is a header line, a blank line and the body;
* `Frame.next_encodeBody`, `Frame.next_cut`: a whole frame is read as its value, a frame that is cut off as an error;
* `Frame.Piece`, `Frame.stream`: bodies with line breaks that stray in between them;
* `Frame.Span`, `Frame.spans`: where the frames of a stream lie;
* `Frame.reads_back`: a stream is read as its values, and as much of it as is there is read as the values of its
  whole frames.
-/

namespace Switchboard.Frame

/-! ## The frame of a body -/

lemma colon_notMem_lengthKey : ':' ∉ lengthKey.toList := by decide

lemma lineFeed_notMem_lengthKey (n : Nat) :
    '\n' ∉ lengthKey.toList ∧ '\n' ∉ (" " ++ toString n ++ "\r").toList := by
  have hdigits : '\n' ∉ (toString n).toList := by
    intro hmem
    exact absurd (Text.isDigit_of_mem_toString hmem) (by decide)
  exact ⟨by decide, by simpa using hdigits⟩

/-- The header line of a body. -/
def lengthLine (n : Nat) : Field where
  key := lengthKey
  value := " " ++ toString n ++ "\r"
  keyed := colon_notMem_lengthKey
  oneLine := lineFeed_notMem_lengthKey n

lemma encodeBody_eq (body : List UInt8) :
    encodeBody body = (lengthLine body.length).bytes ++ blankLine 1 ++ body := by
  have hreturn : Utf8.encode "\r" = [0x0D] := by
    rw [Utf8.encode_eq]
    rfl
  have hend : Utf8.encode "\r\n\r\n" = [0x0D, 0x0A, 0x0D, 0x0A] := by
    rw [Utf8.encode_eq]
    rfl
  have hsep : Utf8.encode ": " = Utf8.encode ":" ++ Utf8.encode " " := by
    rw [← Utf8.encode_append]
    rfl
  simp only [encodeBody, lengthLine, Field.bytes, Field.text, Utf8.encode_append, hreturn, hend, hsep,
    List.append_assoc]
  rfl

lemma carries_lengthLine {n : Nat} (h : n < 0x10000000000000000) : (lengthLine n).Carries n := by
  have hblank : ∀ c ∈ ['\r'], Text.isBlank c = true := by simpa using isBlank_of_breaksLine '\r' (by decide)
  have hdigits : ∀ c ∈ (toString n).toList, Text.isBlank c = false := by
    intro c hc
    exact Text.isBlank_of_isDigit (Text.isDigit_of_mem_toString hc)
  have hspace : " " = String.singleton ' ' := rfl
  have hreturn : "\r" = String.ofList ['\r'] := rfl
  have hvalue : (lengthLine n).value = " " ++ toString n ++ "\r" := rfl
  rw [Field.Carries, hvalue, hspace, hreturn, Text.trim_append hblank, Text.trim_cons (by decide),
    Text.trim_of_no_blank hdigits]
  exact Text.isNumber_toString h

lemma isLength_lengthLine (n : Nat) : (lengthLine n).IsLength :=
  show Text.sameLetters (Text.trim lengthKey) lengthKey = true by decide

/-- Line breaks, and the header of a body behind them. -/
def heading (blanks : List Nat) (n : Nat) : Heading := ⟨blanks, [lengthLine n], by simp, 1⟩

lemma counts_lengthLine {n : Nat} (h : n < 0x10000000000000000) : Counts none [lengthLine n] (some n) :=
  .length (isLength_lengthLine n) (carries_lengthLine h) (.nil _)

lemma announces_heading (blanks : List Nat) {n : Nat} (h : n < 0x10000000000000000) : (heading blanks n).Announces n :=
  Heading.announces_iff.mpr (counts_lengthLine h)

lemma bytes_heading (blanks : List Nat) (body : List UInt8) :
    (heading blanks body.length).bytes ++ body = blanks.flatMap blankLine ++ encodeBody body := by
  simp [heading, Heading.bytes, Heading.lines, encodeBody_eq]

/-! ## Reading one frame, whole or cut off -/

section Cut

variable {room : Room} {body : List UInt8} {message : Json}

lemma length_lt (hfits : body.length ≤ room.bytes) : body.length < 0x10000000000000000 :=
  Nat.lt_of_le_of_lt (Nat.le_trans hfits room.bounded) (by decide)

lemma body_ne_nil (hreads : Json.readBytes? ⟨body.toArray⟩ = some message) : body ≠ [] := by
  rintro rfl
  rw [readBytes?_nil] at hreads
  cases hreads

/-- A frame is read as its value, and what follows it is left. -/
lemma next_encodeBody (hreads : Json.readBytes? ⟨body.toArray⟩ = some message) (hfits : body.length ≤ room.bytes)
    (ended : Bool) (blanks : List Nat) (rest : List UInt8) :
    next room ended (blanks.flatMap blankLine ++ encodeBody body ++ rest) = .frame message rest := by
  refine next_eq_frame.mpr ⟨heading blanks body.length, body, ?_, announces_heading _ (length_lt hfits), hfits, hreads⟩
  rw [bytes_heading]

/-- A stream that ends within the first header line. -/
lemma header_cut_line {f : Field} {b : UInt8} {text : List UInt8} (htext : Utf8.encode f.text = b :: text)
    (hb : ¬ IsBreak b) {k : Nat} (hpos : 0 < k) (hk : k < f.bytes.length) :
    ∃ fault, header true false none (f.bytes.take k) = .failed fault := by
  have hle : k ≤ (Utf8.encode f.text).length := Nat.le_of_lt_succ (by simpa [Field.bytes] using hk)
  have htake : f.bytes.take k = b :: text.take (k - 1) := by
    rw [Field.bytes, List.take_append_of_le_length hle, htext, List.take_cons hpos]
  have hopen : cutLine (f.bytes.take k) = none := by
    rw [htake, cutLine_eq_none]
    intro hmem
    have hsub : b :: text.take (k - 1) ⊆ Utf8.encode f.text := by
      rw [htext]
      exact List.cons_subset_cons b (List.take_subset _ _)
    exact f.lineFeed_notMem (hsub hmem)
  rw [header.eq_def]
  split
  · next line rest hcut =>
    rw [hopen] at hcut
    cases hcut
  · cases hread : readLine (f.bytes.take k) with
    | error fault => exact ⟨fault, by simp [htake]⟩
    | ok carried =>
      cases carried with
      | none =>
        rw [htake] at hread
        exact absurd (readLine_eq_blank.mp hread b List.mem_cons_self) hb
      | some carried => exact ⟨.endedInHeader, by simp [htake]⟩

lemma encode_lengthLine (n : Nat) : ∃ text, Utf8.encode (lengthLine n).text = 0x43 :: text := by
  have hkey : lengthKey = "C" ++ "ontent-Length" := rfl
  have hfirst : Utf8.encode "C" = [0x43] := by
    rw [Utf8.encode_eq]
    rfl
  have htext : (lengthLine n).text = "C" ++ ("ontent-Length" ++ ":" ++ (lengthLine n).value) := by
    simp only [Field.text, lengthLine, hkey, String.append_assoc]
  exact ⟨_, by rw [htext, Utf8.encode_append, hfirst, List.singleton_append]⟩

/-- A stream that ends behind the header line of a body, before all of the body is there. -/
lemma next_cut_body {heading : Heading} {n : Nat} (hcounts : Counts none heading.fields (some n)) (hne : body ≠ [])
    (hn : body.length = n) (hfits : n ≤ room.bytes) {i : Nat} (hi : i < 2 + body.length) :
    ∃ fault, next room true (heading.lines ++ (blankLine 1 ++ body).take i) = .failed fault := by
  have hlines : ∀ rest : List UInt8, header true false none (heading.lines ++ rest) = header true true (some n) rest :=
    fun rest => header_lines hcounts rest
  have hpos : 0 < n := hn ▸ List.length_pos_iff.mpr hne
  have hshort {s rest : List UInt8} (hheader : header true false none s = .complete (some n) rest)
      (hlt : rest.length < n) : next room true s = .failed .endedInBody := by
    rw [next_of_header hheader, if_neg (Nat.not_lt.mpr hfits), if_pos hlt, if_pos rfl]
  rcases i with _ | _ | j
  · refine ⟨.endedInHeader, ?_⟩
    have hheader : header true false none (heading.lines ++ []) = .failed .endedInHeader := by
      rw [hlines, header.eq_def]
      rfl
    rw [List.take_zero, next, hheader]
  · have hheader : header true false none (heading.lines ++ [0x0D]) = .complete (some n) [] := by
      rw [hlines]
      exact header_returns Nat.one_pos
    exact ⟨.endedInBody, hshort hheader hpos⟩
  · have htake : (blankLine 1 ++ body).take (j + 2) = blankLine 1 ++ body.take j := rfl
    have hheader : header true false none (heading.lines ++ (blankLine 1 ++ body).take (j + 2))
        = .complete (some n) (body.take j) := by
      rw [hlines, htake, header_blankLine]
      rfl
    have hlt : (body.take j).length < n := by
      rw [List.length_take]
      omega
    exact ⟨.endedInBody, hshort hheader hlt⟩

/-- A stream that ends within a frame. -/
lemma next_cut (hreads : Json.readBytes? ⟨body.toArray⟩ = some message) (hfits : body.length ≤ room.bytes)
    (blanks : List Nat) {k : Nat} (hpos : 0 < k) (hk : k < (encodeBody body).length) :
    ∃ fault, next room true (blanks.flatMap blankLine ++ (encodeBody body).take k) = .failed fault := by
  rw [encodeBody_eq, List.append_assoc] at hk ⊢
  by_cases hline : k < (lengthLine body.length).bytes.length
  · obtain ⟨text, htext⟩ := encode_lengthLine body.length
    obtain ⟨fault, hheader⟩ := header_cut_line htext (by simp [IsBreak]) hpos hline
    refine ⟨fault, ?_⟩
    rw [List.take_append_of_le_length (Nat.le_of_lt hline), next, header_blankLines, hheader]
  · have hcounts := counts_lengthLine (length_lt hfits)
    have hinside : k - (lengthLine body.length).bytes.length < 2 + body.length := by
      simp [blankLine] at hk
      omega
    have hfields : Counts none (heading blanks body.length).fields (some body.length) := hcounts
    obtain ⟨fault, hnext⟩ := next_cut_body hfields (body_ne_nil hreads) rfl hfits hinside
    refine ⟨fault, ?_⟩
    rw [List.take_append, List.take_of_length_le (Nat.not_lt.mp hline), ← List.append_assoc]
    simpa [heading, Heading.lines] using hnext

end Cut

/-! ## Streams -/

/-- A line break that strays in between frames. -/
inductive LineBreak where
  | lf
  | crlf
deriving DecidableEq, Repr

namespace LineBreak

/-- How many carriage returns it has. -/
def returns : LineBreak → Nat
  | lf => 0
  | crlf => 1

/-- The bytes of line breaks. -/
def bytes (breaks : List LineBreak) : List UInt8 := (breaks.map returns).flatMap blankLine

lemma isBreak {breaks : List LineBreak} : ∀ b ∈ bytes breaks, IsBreak b := by
  intro b hb
  obtain ⟨k, -, hb⟩ := List.mem_flatMap.mp hb
  exact isBreak_of_mem_blankLine hb

end LineBreak

/-- A body that is read as a value, with line breaks before its frame. -/
structure Piece (room : Room) where
  breaks : List LineBreak
  body : List UInt8
  message : Json
  reads : Json.readBytes? ⟨body.toArray⟩ = some message
  /-- There is room for it. -/
  fits : body.length ≤ room.bytes

section Streams

variable {room : Room}

def Piece.bytes (p : Piece room) : List UInt8 := LineBreak.bytes p.breaks ++ encodeBody p.body

/-- The frames of some bodies, one after the other, with line breaks before, between and behind them. -/
def stream (pieces : List (Piece room)) (tail : List LineBreak) : List UInt8 :=
  pieces.flatMap Piece.bytes ++ LineBreak.bytes tail

/-- Where a frame lies in a stream, and what it says. -/
structure Span where
  start : Nat
  stop : Nat
  message : Json

/-- The frames of a stream, `offset` bytes having gone before. -/
def spans (offset : Nat) : List (Piece room) → List Span
  | [] => []
  | p :: pieces =>
    ⟨offset + (LineBreak.bytes p.breaks).length, offset + p.bytes.length, p.message⟩
      :: spans (offset + p.bytes.length) pieces

lemma stream_cons (p : Piece room) (pieces : List (Piece room)) (tail : List LineBreak) :
    stream (p :: pieces) tail = p.bytes ++ stream pieces tail := by
  simp [stream]

lemma extract_spans_from (before : List UInt8) (pieces : List (Piece room)) (tail : List LineBreak) :
    (spans before.length pieces).map (fun s => (before ++ stream pieces tail).extract s.start s.stop)
      = pieces.map (encodeBody ·.body) := by
  induction pieces generalizing before with
  | nil => rfl
  | cons p pieces ih =>
    have hrest := ih (before ++ p.bytes)
    rw [List.length_append, List.append_assoc, ← stream_cons] at hrest
    rw [spans, List.map_cons, hrest, List.map_cons]
    congr 1
    simp [stream_cons, Piece.bytes, Nat.add_sub_add_left]

/-- The bytes of a span are the frame of its body. -/
lemma extract_spans (pieces : List (Piece room)) (tail : List LineBreak) :
    (spans 0 pieces).map (fun s => (stream pieces tail).extract s.start s.stop) = pieces.map (encodeBody ·.body) :=
  extract_spans_from [] pieces tail

/-! ## Reading streams -/

lemma readAll_of_frame {s rest : List UInt8} {message : Json} (h : next room true s = .frame message rest) :
    readAll s room = (message :: (readAll rest room).1, (readAll rest room).2) := by
  rw [readAll.eq_def]
  split
  · next read after hread =>
    obtain ⟨rfl, rfl⟩ := Reading.frame.inj (h.symm.trans hread)
    rfl
  all_goals
    next hread =>
    rw [h] at hread
    cases hread

lemma readAll_of_finished {s : List UInt8} (h : next room true s = .finished) : readAll s room = ([], .finished) := by
  rw [readAll.eq_def]
  split <;> simp_all

lemma readAll_of_breaks {s : List UInt8} (h : ∀ b ∈ s, IsBreak b) : readAll s room = ([], .finished) :=
  readAll_of_finished (next_eq_finished.mpr ⟨rfl, h⟩)

lemma readAll_of_failed {s : List UInt8} {fault : Fault} (h : next room true s = .failed fault) :
    readAll s room = ([], .failed fault) := by
  rw [readAll.eq_def]
  split <;> simp_all

lemma readAll_of_overwhelmed {s : List UInt8} (h : next room true s = .overwhelmed) :
    readAll s room = ([], .overwhelmed) := by
  rw [readAll.eq_def]
  split <;> simp_all

lemma readAll_bytes (p : Piece room) (rest : List UInt8) :
    readAll (p.bytes ++ rest) room = (p.message :: (readAll rest room).1, (readAll rest room).2) :=
  readAll_of_frame (next_encodeBody p.reads p.fits true (p.breaks.map LineBreak.returns) rest)

lemma readAll_stream (pieces : List (Piece room)) (tail : List LineBreak) :
    readAll (stream pieces tail) room = (pieces.map (·.message), .finished) := by
  induction pieces with
  | nil => exact readAll_of_breaks LineBreak.isBreak
  | cons p pieces ih => rw [stream_cons, readAll_bytes, ih, List.map_cons]

/-- Does a cut fall inside a frame? -/
def Inside (k : Nat) (s : Span) : Prop := s.start < k ∧ k < s.stop

/-- The spans of a stream begin where it does, or later. -/
lemma le_start_of_mem {pieces : List (Piece room)} {offset : Nat} {s : Span} (h : s ∈ spans offset pieces) :
    offset ≤ s.start ∧ s.start ≤ s.stop := by
  induction pieces generalizing offset with
  | nil => cases h
  | cons p pieces ih =>
    rcases List.mem_cons.mp h with rfl | h
    · simp [Piece.bytes]
    · obtain ⟨hstart, hstop⟩ := ih h
      exact ⟨Nat.le_trans (Nat.le_add_right _ _) hstart, hstop⟩

/-- What is to be read of a stream with some spans, cut off at `k`. -/
structure ReadUpTo (k : Nat) (spans : List Span) (read : List Json × Ending) : Prop where
  messages : read.1 = (spans.filter (·.stop ≤ k)).map (·.message)
  failed : (∃ s ∈ spans, Inside k s) → ∃ fault, read.2 = .failed fault
  finished : (¬ ∃ s ∈ spans, Inside k s) → read.2 = .finished

namespace ReadUpTo

variable {k : Nat} {others : List Span} {first : Span} {read : List Json × Ending}

/-- Nothing is read before the first frame. -/
lemma before (h : ∀ s ∈ others, k ≤ s.start ∧ k < s.stop) : ReadUpTo k others ([], .finished) where
  messages := by
    have hnone : others.filter (·.stop ≤ k) = [] := by
      rw [List.filter_eq_nil_iff]
      intro s hs
      simpa using (h s hs).2
    rw [hnone]
    rfl
  failed := by
    rintro ⟨s, hs, hstart, -⟩
    exact absurd (h s hs).1 (Nat.not_le.mpr hstart)
  finished _ := rfl

/-- Nothing is read of a frame that is cut off. -/
lemma cut (hfirst : Inside k first) (h : ∀ s ∈ others, k < s.stop) (fault : Fault) :
    ReadUpTo k (first :: others) ([], .failed fault) where
  messages := by
    have hnone : (first :: others).filter (·.stop ≤ k) = [] := by
      rw [List.filter_eq_nil_iff]
      intro s hs
      rcases List.mem_cons.mp hs with rfl | hs
      · simpa using hfirst.2
      · simpa using h s hs
    rw [hnone]
    rfl
  failed _ := ⟨fault, rfl⟩
  finished h := absurd ⟨first, List.mem_cons_self, hfirst⟩ h

/-- A whole frame is read, and then what follows. -/
lemma whole (hfirst : first.stop ≤ k) (h : ReadUpTo k others read) :
    ReadUpTo k (first :: others) (first.message :: read.1, read.2) := by
  have hinside : (∃ s ∈ first :: others, Inside k s) ↔ ∃ s ∈ others, Inside k s := by
    have hnot : ¬ Inside k first := fun hin => Nat.not_lt.mpr hfirst hin.2
    simp [hnot]
  exact {
    messages := by rw [List.filter_cons_of_pos (by simpa using hfirst), List.map_cons, h.messages]
    failed := fun hin => h.failed (hinside.mp hin)
    finished := fun hout => h.finished fun hin => hout (hinside.mpr hin) }

end ReadUpTo

/-- A stream that is cut off is read up to the cut. -/
lemma readUpTo_take (pieces : List (Piece room)) (tail : List LineBreak) (k offset : Nat) :
    ReadUpTo (offset + k) (spans offset pieces) (readAll ((stream pieces tail).take k) room) := by
  induction pieces generalizing k offset with
  | nil =>
    have hbreaks : ∀ b ∈ (stream ([] : List (Piece room)) tail).take k, IsBreak b := by
      intro b hb
      exact LineBreak.isBreak b (List.take_subset _ _ hb)
    rw [readAll_of_breaks hbreaks]
    exact .before (by simp [spans])
  | cons p pieces ih =>
    have hlater : ∀ s ∈ spans (offset + p.bytes.length) pieces, offset + p.bytes.length ≤ s.start ∧ s.start ≤ s.stop :=
      fun s hs => le_start_of_mem hs
    have hbytes : p.bytes.length = (LineBreak.bytes p.breaks).length + (encodeBody p.body).length :=
      List.length_append ..
    rw [stream_cons, spans]
    by_cases hwhole : p.bytes.length ≤ k
    · -- the cut is behind the first frame
      have hread := ih (k - p.bytes.length) (offset + p.bytes.length)
      rw [show offset + p.bytes.length + (k - p.bytes.length) = offset + k by omega] at hread
      rw [List.take_append, List.take_of_length_le hwhole, readAll_bytes]
      exact .whole (Nat.add_le_add_left hwhole _) hread
    · have hcut : k < p.bytes.length := Nat.not_le.mp hwhole
      rw [List.take_append_of_le_length (Nat.le_of_lt hcut)]
      by_cases hgap : k ≤ (LineBreak.bytes p.breaks).length
      · -- the cut is before the first frame
        have hbreaks : ∀ b ∈ p.bytes.take k, IsBreak b := by
          intro b hb
          rw [Piece.bytes, List.take_append_of_le_length hgap] at hb
          exact LineBreak.isBreak b (List.take_subset _ _ hb)
        rw [readAll_of_breaks hbreaks]
        refine .before fun s hs => ?_
        rcases List.mem_cons.mp hs with rfl | hs
        · exact ⟨Nat.add_le_add_left hgap _, Nat.add_lt_add_left hcut _⟩
        · obtain ⟨hstart, hstop⟩ := hlater s hs
          omega
      · -- the cut is inside the first frame
        obtain ⟨fault, hnext⟩ := next_cut p.reads p.fits (p.breaks.map LineBreak.returns)
          (k := k - (LineBreak.bytes p.breaks).length) (by omega) (by omega)
        have hread : readAll (p.bytes.take k) room = ([], .failed fault) := by
          rw [Piece.bytes, List.take_append, List.take_of_length_le (by omega)]
          exact readAll_of_failed hnext
        rw [hread]
        refine .cut ⟨?_, Nat.add_lt_add_left hcut _⟩ (fun s hs => ?_) fault
        · show offset + _ < offset + k
          omega
        · obtain ⟨hstart, hstop⟩ := hlater s hs
          omega

/-- A stream of frames for which there is room is read as their values, with a clean end. Of as much of it as is there,
exactly the values of the frames that are wholly there are read; then the end is clean, unless the cut falls inside a
frame: then it is an error. -/
theorem reads_back (room : Room) (pieces : List (Piece room)) (tail : List LineBreak) :
    readAll (stream pieces tail) room = (pieces.map (·.message), .finished) ∧
      (spans 0 pieces).map (fun s => (stream pieces tail).extract s.start s.stop) = pieces.map (encodeBody ·.body) ∧
      ∀ k, ReadUpTo k (spans 0 pieces) (readAll ((stream pieces tail).take k) room) := by
  refine ⟨readAll_stream pieces tail, extract_spans pieces tail, fun k => ?_⟩
  simpa using readUpTo_take pieces tail k 0

end Streams

lemma readBytes?_encode (s : String) : Json.readBytes? ⟨(Utf8.encode s).toArray⟩ = Json.read? s := by
  rw [Json.readBytes?, Utf8.fromUTF8?_eq_some.mpr rfl]
  rfl

/-- A text that looks like a header, written over several lines, behind stray line breaks. -/
def headerLike : Piece .most where
  breaks := [.crlf, .lf]
  body := Utf8.encode (Json.arr [.str "Content-Length: 2\r\n\r\né"]).pretty
  message := .arr [.str "Content-Length: 2\r\n\r\né"]
  reads := by
    have hkept : Json.Kept 1 (.arr [.str "Content-Length: 2\r\n\r\né"]) := by
      refine .arr _ fun v hv => ?_
      rw [List.mem_singleton.mp hv]
      exact .str _
    rw [readBytes?_encode, Json.read?, Json.readRaw?_pretty hkept (by decide)]
    rfl
  fits := by
    rw [Utf8.encode_eq]
    decide

theorem reads_back_headerLike :
    (readAll (stream [headerLike, headerLike] [.lf])).1 = [headerLike.message, headerLike.message] ∧
    ReadUpTo 60 (spans 0 [headerLike, headerLike]) (readAll ((stream [headerLike, headerLike] [.lf]).take 60)) := by
  obtain ⟨hall, -, hcut⟩ := reads_back .most [headerLike, headerLike] [.lf]
  exact ⟨by rw [hall]; rfl, hcut 60⟩

end Switchboard.Frame
