import Switchboard.Text.Utf8
import Mathlib

/-!
# Text and its bytes

* `Utf8.encode_eq`: the bytes of a text are the bytes of its characters, one after the other;
* `Utf8.fault?_encode`: bytes of a text have no fault;
* `Utf8.decode_eq_ok`: bytes are read as a text exactly if they are its bytes.
-/

namespace Switchboard.Utf8

/-! ## Lists of bytes -/

private lemma loop_toList (bytes : ByteArray) (i : Nat) (taken : List UInt8) :
    ByteArray.toList.loop bytes i taken = taken.reverse ++ bytes.data.toList.drop i := by
  induction hk : bytes.size - i generalizing i taken with
  | zero =>
    have hge : ¬ i < bytes.size := by omega
    rw [ByteArray.toList.loop.eq_def, if_neg hge, List.drop_of_length_le, List.append_nil]
    exact Nat.not_lt.mp hge
  | succ k ih =>
    have hlt : i < bytes.size := by omega
    have hlength : i < bytes.data.toList.length := hlt
    have hget : bytes.get! i = bytes.data.toList[i] := getElem!_pos bytes.data i hlt
    rw [ByteArray.toList.loop.eq_def, if_pos hlt, ih (i + 1) _ (by omega), List.reverse_cons, List.append_assoc, hget,
      List.singleton_append, List.getElem_cons_drop]

/-- The bytes of a text are the bytes of its characters. -/
lemma encode_eq (s : String) : encode s = s.toList.flatMap String.utf8EncodeChar := by
  rw [encode, ByteArray.toList, loop_toList, String.toUTF8_eq_toByteArray, ← String.utf8Encode_toList,
    List.utf8Encode]
  simp

@[simp] lemma encode_empty : encode "" = [] := by rw [encode_eq]; rfl

@[simp] lemma encode_append (s t : String) : encode (s ++ t) = encode s ++ encode t := by
  simp only [encode_eq, String.toList_append, List.flatMap_append]

lemma toArray_encode (s : String) : (⟨(encode s).toArray⟩ : ByteArray) = s.toByteArray := by
  rw [encode_eq, ← String.utf8Encode_toList, List.utf8Encode]
  apply ByteArray.ext
  simp

lemma encode_injective {s t : String} (h : encode s = encode t) : s = t := by
  have hbytes : s.toByteArray = t.toByteArray := by rw [← toArray_encode, ← toArray_encode, h]
  exact String.toByteArray_inj.mp hbytes

/-- A character below `0x80` is one byte. -/
lemma encodeChar_of_lt {c : Char} (h : c.toNat < 0x80) : String.utf8EncodeChar c = [UInt8.ofNat c.toNat] := by
  have hle : c.val.toNat ≤ 0x7f := Nat.le_of_lt_succ h
  rw [String.utf8EncodeChar, if_pos hle]
  rfl

/-- A byte below `0x80` stands for one character and is part of no other. -/
lemma mem_encodeChar {c d : Char} (hd : d.toNat < 0x80) :
    UInt8.ofNat d.toNat ∈ String.utf8EncodeChar c ↔ c = d := by
  have hbyte {n : Nat} (hn : n < 256) : UInt8.ofNat d.toNat = UInt8.ofNat n ↔ d.toNat = n := by
    have hsmall : d.toNat < 256 := by omega
    rw [← UInt8.toNat_inj, UInt8.toNat_ofNat_of_lt' hsmall, UInt8.toNat_ofNat_of_lt' hn]
  have hchar : c = d ↔ d.toNat = c.val.toNat := by
    rw [← Char.toNat_inj, eq_comm]
    rfl
  rw [hchar]
  unfold String.utf8EncodeChar
  dsimp only
  generalize c.val.toNat = v
  split
  · rw [List.mem_singleton, hbyte (by omega)]
  split
  · simp only [List.mem_cons, List.not_mem_nil, or_false]
    rw [hbyte (by omega), hbyte (by omega)]
    omega
  split
  · simp only [List.mem_cons, List.not_mem_nil, or_false]
    rw [hbyte (by omega), hbyte (by omega), hbyte (by omega)]
    omega
  · simp only [List.mem_cons, List.not_mem_nil, or_false]
    rw [hbyte (by omega), hbyte (by omega), hbyte (by omega), hbyte (by omega)]
    omega

lemma mem_encode {d : Char} (hd : d.toNat < 0x80) {s : String} :
    UInt8.ofNat d.toNat ∈ encode s ↔ d ∈ s.toList := by
  simp [encode_eq, List.mem_flatMap, mem_encodeChar hd]

/-! ## Faults -/

/-- A byte compares as its number does. -/
private lemma byte_compare {n : Nat} (h : n < 256) (b : UInt8) :
    (UInt8.ofNat n < b ↔ n < b.toNat) ∧ (b ≤ UInt8.ofNat n ↔ b.toNat ≤ n) ∧ (UInt8.ofNat n = b ↔ n = b.toNat) := by
  have hn : (UInt8.ofNat n).toNat = n := UInt8.toNat_ofNat_of_lt' h
  rw [UInt8.lt_iff_toNat_lt, UInt8.le_iff_toNat_le, ← UInt8.toNat_inj, hn]
  exact ⟨.rfl, .rfl, .rfl⟩

lemma isContinuation_ofNat {n : Nat} (hlow : 0x80 ≤ n) (hhigh : n < 0xC0) :
    isContinuation (UInt8.ofNat n) = true := by
  have h : n < 256 := by omega
  simp only [isContinuation, Bool.and_eq_true, decide_eq_true_eq, byte_compare h, UInt8.reduceToNat]
  exact ⟨hlow, hhigh⟩

/-- The second of three bytes: no number below `0x800`, no surrogate. -/
lemma isSecondOfThree_ofNat {a b : Nat} (ha : a < 256) (hlow : 0x80 ≤ b) (hhigh : b < 0xC0)
    (hshort : a = 0xE0 → 0xA0 ≤ b) (hsurrogate : a = 0xED → b < 0xA0) :
    isSecondOfThree (UInt8.ofNat a) (UInt8.ofNat b) = true := by
  have hb : b < 256 := by omega
  unfold isSecondOfThree
  simp only [byte_compare ha, UInt8.reduceToNat]
  split
  · next h =>
    simp only [Bool.and_eq_true, decide_eq_true_eq, byte_compare hb, UInt8.reduceToNat]
    exact ⟨hshort h, hhigh⟩
  · split
    · next h =>
      simp only [Bool.and_eq_true, decide_eq_true_eq, byte_compare hb, UInt8.reduceToNat]
      exact ⟨hlow, hsurrogate h⟩
    · exact isContinuation_ofNat hlow hhigh

/-- The second of four bytes: no number below `0x10000`, none above `0x10FFFF`. -/
lemma isSecondOfFour_ofNat {a b : Nat} (ha : a < 256) (hlow : 0x80 ≤ b) (hhigh : b < 0xC0)
    (hshort : a = 0xF0 → 0x90 ≤ b) (hlong : a = 0xF4 → b < 0x90) :
    isSecondOfFour (UInt8.ofNat a) (UInt8.ofNat b) = true := by
  have hb : b < 256 := by omega
  unfold isSecondOfFour
  simp only [byte_compare ha, UInt8.reduceToNat]
  split
  · next h =>
    simp only [Bool.and_eq_true, decide_eq_true_eq, byte_compare hb, UInt8.reduceToNat]
    exact ⟨hshort h, hhigh⟩
  · split
    · next h =>
      simp only [Bool.and_eq_true, decide_eq_true_eq, byte_compare hb, UInt8.reduceToNat]
      exact ⟨hlow, hlong h⟩
    · exact isContinuation_ofNat hlow hhigh

/-- The first byte of a sequence says how long it is. -/
private lemma faultFrom_one {a : Nat} (ha : a < 0x80) (index : Nat) (rest : List UInt8) :
    faultFrom index (UInt8.ofNat a :: rest) = faultFrom (index + 1) rest := by
  have h : a < 256 := by omega
  rw [faultFrom.eq_def]
  simp only [byte_compare h, UInt8.reduceToNat]
  rw [if_pos ha]

private lemma faultFrom_two {a : Nat} {b : UInt8} (hlow : 0xC2 ≤ a) (hhigh : a < 0xE0) (hb : isContinuation b = true)
    (index : Nat) (rest : List UInt8) :
    faultFrom index (UInt8.ofNat a :: b :: rest) = faultFrom (index + 2) rest := by
  have h : a < 256 := by omega
  have hone : ¬ a < 0x80 := by omega
  rw [faultFrom.eq_def]
  simp only [byte_compare h, UInt8.reduceToNat, Bool.and_eq_true, decide_eq_true_eq]
  rw [if_neg hone, if_pos ⟨hlow, hhigh⟩, if_pos hb]

private lemma faultFrom_three {a : Nat} {b c : UInt8} (hlow : 0xE0 ≤ a) (hhigh : a < 0xF0)
    (hb : isSecondOfThree (UInt8.ofNat a) b = true) (hc : isContinuation c = true) (index : Nat) (rest : List UInt8) :
    faultFrom index (UInt8.ofNat a :: b :: c :: rest) = faultFrom (index + 3) rest := by
  have h : a < 256 := by omega
  have hone : ¬ a < 0x80 := by omega
  have htwo : ¬ (0xC2 ≤ a ∧ a < 0xE0) := by omega
  rw [faultFrom.eq_def]
  simp only [byte_compare h, UInt8.reduceToNat, Bool.and_eq_true, decide_eq_true_eq]
  rw [if_neg hone, if_neg htwo, if_pos ⟨hlow, hhigh⟩, hb, if_neg (by decide), if_pos hc]

private lemma faultFrom_four {a : Nat} {b c d : UInt8} (hlow : 0xF0 ≤ a) (hhigh : a < 0xF5)
    (hb : isSecondOfFour (UInt8.ofNat a) b = true) (hc : isContinuation c = true) (hd : isContinuation d = true)
    (index : Nat) (rest : List UInt8) :
    faultFrom index (UInt8.ofNat a :: b :: c :: d :: rest) = faultFrom (index + 4) rest := by
  have h : a < 256 := by omega
  have hone : ¬ a < 0x80 := by omega
  have htwo : ¬ (0xC2 ≤ a ∧ a < 0xE0) := by omega
  have hthree : ¬ (0xE0 ≤ a ∧ a < 0xF0) := by omega
  rw [faultFrom.eq_def]
  simp only [byte_compare h, UInt8.reduceToNat, Bool.and_eq_true, decide_eq_true_eq]
  rw [if_neg hone, if_neg htwo, if_neg hthree, if_pos ⟨hlow, hhigh⟩, hb, if_neg (by decide), hc, if_neg (by decide),
    if_pos hd]

/-- A character is passed over. -/
lemma faultFrom_char (c : Char) (index : Nat) (rest : List UInt8) :
    ∃ next, faultFrom index (String.utf8EncodeChar c ++ rest) = faultFrom next rest := by
  have hvalid : c.val.toNat < 0xD800 ∨ 0xDFFF < c.val.toNat ∧ c.val.toNat < 0x110000 := c.valid
  unfold String.utf8EncodeChar
  dsimp only
  generalize c.val.toNat = v at hvalid
  split
  · exact ⟨_, faultFrom_one (by omega) index rest⟩
  split
  · have hlast := isContinuation_ofNat (n := v % 64 + 128) (by omega) (by omega)
    exact ⟨_, faultFrom_two (by omega) (by omega) hlast index rest⟩
  split
  · have hsecond := isSecondOfThree_ofNat (a := v / 4096 % 16 + 224) (b := v / 64 % 64 + 128)
      (by omega) (by omega) (by omega) (by omega) (by omega)
    have hlast := isContinuation_ofNat (n := v % 64 + 128) (by omega) (by omega)
    exact ⟨_, faultFrom_three (by omega) (by omega) hsecond hlast index rest⟩
  · have hsecond := isSecondOfFour_ofNat (a := v / 262144 % 8 + 240) (b := v / 4096 % 64 + 128)
      (by omega) (by omega) (by omega) (by omega) (by omega)
    have hthird := isContinuation_ofNat (n := v / 64 % 64 + 128) (by omega) (by omega)
    have hlast := isContinuation_ofNat (n := v % 64 + 128) (by omega) (by omega)
    exact ⟨_, faultFrom_four (by omega) (by omega) hsecond hthird hlast index rest⟩

lemma faultFrom_chars (cs : List Char) (index : Nat) : faultFrom index (cs.flatMap String.utf8EncodeChar) = none := by
  induction cs generalizing index with
  | nil => rfl
  | cons c cs ih =>
    obtain ⟨next, hnext⟩ := faultFrom_char c index (cs.flatMap String.utf8EncodeChar)
    rw [List.flatMap_cons, hnext, ih]

/-- The bytes of a text have no fault. -/
lemma fault?_encode (s : String) : fault? (encode s) = none := by rw [fault?, encode_eq, faultFrom_chars]

/-! ## Reading -/

lemma fromUTF8?_eq_some {bytes : List UInt8} {s : String} :
    String.fromUTF8? ⟨bytes.toArray⟩ = some s ↔ bytes = encode s := by
  constructor
  · intro h
    rw [String.fromUTF8?] at h
    split at h
    · obtain rfl := Option.some.inj h
      have hbytes := toArray_encode (String.fromUTF8 ⟨bytes.toArray⟩ ‹_›)
      have hdata := congrArg (fun b : ByteArray => b.data.toList) hbytes
      exact hdata.symm
    · cases h
  · rintro rfl
    rw [toArray_encode, String.fromUTF8?, dif_pos s.isValidUTF8]
    rfl

/-- Bytes are read as a text exactly if they are its bytes. -/
theorem decode_eq_ok {bytes : List UInt8} {s : String} : decode bytes = .ok s ↔ bytes = encode s := by
  constructor
  · intro h
    unfold decode at h
    split at h
    · cases h
    · split at h
      · next htext =>
        obtain rfl := Except.ok.inj h
        exact fromUTF8?_eq_some.mp htext
      · cases h
  · rintro rfl
    rw [decode, fault?_encode, fromUTF8?_eq_some.mpr rfl]
    rfl

end Switchboard.Utf8
