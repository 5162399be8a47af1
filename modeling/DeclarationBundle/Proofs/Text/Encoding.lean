import Mathlib
import DeclarationBundle.Text.Utf8

/-!
# Text and its octets

* `Utf8.decode_encode`: the octets of a text are read back as that text, and
  `Utf8.decodeMarked_of_holds`: so they are after a byte order mark.
* `Utf8.IsBoundary` are the offsets between two characters of a text. What lies between two of them
  is text again (`Utf8.exists_encode_slice`).
* `Utf8.isBoundary_add_takeWhile`: so is the end of a run of one-octet characters that begins at
  one.
-/

namespace DeclarationBundle.Utf8

/-! ### Reading back what was written -/

section Tails

variable {b₀ b₁ b₂ b₃ : UInt8} {bits least greatest : Nat} (offset : Nat) (rest : Bytes)

/-- A character of one octet is read off its only octet. -/
theorem decodeFrom_one (h : lead? b₀ = some ⟨0, bits, least, greatest⟩) :
    decodeFrom .between offset (b₀ :: rest)
      = (decodeFrom .between (offset + 1) rest).map (Char.ofNat bits :: ·) := by
  rw [decodeFrom, h]
  rfl

/-- A character of two octets is read if the second is in the range that the first leaves open. -/
theorem decodeFrom_two (h : lead? b₀ = some ⟨1, bits, least, greatest⟩)
    (h₁ : least ≤ b₁.toNat ∧ b₁.toNat ≤ greatest) :
    decodeFrom .between offset (b₀ :: b₁ :: rest)
      = (decodeFrom .between (offset + 2) rest).map
          (Char.ofNat (bits * 64 + (b₁.toNat - 0x80)) :: ·) := by
  rw [decodeFrom, h]
  simp only [Nat.succ_ne_zero, if_false]
  rw [decodeFrom, if_neg (by omega), if_pos rfl]

/-- Of three octets only the second is bounded by the first; the last is any octet that goes on. -/
theorem decodeFrom_three (h : lead? b₀ = some ⟨2, bits, least, greatest⟩)
    (h₁ : least ≤ b₁.toNat ∧ b₁.toNat ≤ greatest) (h₂ : 0x80 ≤ b₂.toNat ∧ b₂.toNat ≤ 0xBF) :
    decodeFrom .between offset (b₀ :: b₁ :: b₂ :: rest)
      = (decodeFrom .between (offset + 3) rest).map
          (Char.ofNat ((bits * 64 + (b₁.toNat - 0x80)) * 64 + (b₂.toNat - 0x80)) :: ·) := by
  rw [decodeFrom, h]
  simp only [Nat.succ_ne_zero, if_false]
  rw [decodeFrom, if_neg (by omega), if_neg (by omega), decodeFrom, if_neg (by omega), if_pos rfl]

/-- So it is with four octets. -/
theorem decodeFrom_four (h : lead? b₀ = some ⟨3, bits, least, greatest⟩)
    (h₁ : least ≤ b₁.toNat ∧ b₁.toNat ≤ greatest) (h₂ : 0x80 ≤ b₂.toNat ∧ b₂.toNat ≤ 0xBF)
    (h₃ : 0x80 ≤ b₃.toNat ∧ b₃.toNat ≤ 0xBF) :
    decodeFrom .between offset (b₀ :: b₁ :: b₂ :: b₃ :: rest)
      = (decodeFrom .between (offset + 4) rest).map
          (Char.ofNat (((bits * 64 + (b₁.toNat - 0x80)) * 64 + (b₂.toNat - 0x80)) * 64
            + (b₃.toNat - 0x80)) :: ·) := by
  rw [decodeFrom, h]
  simp only [Nat.succ_ne_zero, if_false]
  rw [decodeFrom, if_neg (by omega), if_neg (by omega), decodeFrom, if_neg (by omega),
    if_neg (by omega), decodeFrom, if_neg (by omega), if_pos rfl]

end Tails

/-- The number of a character, and the gap that the surrogates leave. -/
theorem toNat_bounds (c : Char) :
    c.val.toNat < 0xD800 ∨ 0xDFFF < c.val.toNat ∧ c.val.toNat < 0x110000 :=
  c.valid

section Lead

variable {b : UInt8} {v : Nat}

/-- The first octet of a character below 0x80 holds all of it. -/
theorem lead?_one (h : b.toNat = v) (h_v : v ≤ 0x7F) : lead? b = some ⟨0, v, 0, 0⟩ := by
  unfold lead?
  simp only [h]
  rw [if_pos (by omega)]

/-- The first octet of a character below 0x800 announces one more. What is too small for two octets
has no such first octet at all. -/
theorem lead?_two (h : b.toNat = v / 64 + 0xC0) (h_least : 0x80 ≤ v) (h_greatest : v ≤ 0x7FF) :
    lead? b = some ⟨1, v / 64, 0x80, 0xBF⟩ := by
  unfold lead?
  simp only [h]
  rw [if_neg (by omega), if_neg (by omega), if_pos (by omega), Nat.add_sub_cancel]

/-- The bounds on the octet after the first leave room for everything but surrogates. -/
theorem lead?_three (h : b.toNat = v / 4096 + 0xE0) (h_least : 0x800 ≤ v) (h_greatest : v ≤ 0xFFFF)
    (h_surrogate : v < 0xD800 ∨ 0xDFFF < v) :
    ∃ least greatest, lead? b = some ⟨2, v / 4096, least, greatest⟩ ∧
      least ≤ v / 64 % 64 + 0x80 ∧ v / 64 % 64 + 0x80 ≤ greatest := by
  unfold lead?
  simp only [h]
  rw [if_neg (by omega), if_neg (by omega), if_neg (by omega)]
  -- 0xE0 leaves out what two octets could hold, and 0xED the surrogates
  by_cases h_first : v / 4096 = 0
  · rw [if_pos (by omega), h_first]
    exact ⟨0xA0, 0xBF, rfl, by omega, by omega⟩
  · rw [if_neg (by omega)]
    by_cases h_gap : v / 4096 = 0xD
    · rw [if_pos (by omega), h_gap]
      exact ⟨0x80, 0x9F, rfl, by omega, by omega⟩
    · rw [if_neg (by omega), if_pos (by omega), Nat.add_sub_cancel]
      exact ⟨0x80, 0xBF, rfl, by omega, by omega⟩

/-- At both ends of the range the octet after the first is bounded: below 0x10000 three octets would
do, and above 0x10FFFF there is no character. -/
theorem lead?_four (h : b.toNat = v / 262144 + 0xF0) (h_least : 0xFFFF < v)
    (h_greatest : v < 0x110000) :
    ∃ least greatest, lead? b = some ⟨3, v / 262144, least, greatest⟩ ∧
      least ≤ v / 4096 % 64 + 0x80 ∧ v / 4096 % 64 + 0x80 ≤ greatest := by
  unfold lead?
  simp only [h]
  rw [if_neg (by omega), if_neg (by omega), if_neg (by omega), if_neg (by omega), if_neg (by omega),
    if_neg (by omega)]
  -- 0xF0 leaves out what three octets could hold, and 0xF4 what is no character
  by_cases h_first : v / 262144 = 0
  · rw [if_pos (by omega), h_first]
    exact ⟨0x90, 0xBF, rfl, by omega, by omega⟩
  · rw [if_neg (by omega)]
    by_cases h_last : v / 262144 = 4
    · rw [if_neg (by omega), if_pos (by omega), h_last]
      exact ⟨0x80, 0x8F, rfl, by omega, by omega⟩
    · rw [if_pos (by omega), Nat.add_sub_cancel]
      exact ⟨0x80, 0xBF, rfl, by omega, by omega⟩

end Lead

/-- Reading on where a character was written. -/
theorem decodeFrom_utf8EncodeChar (c : Char) (offset : Nat) (rest : Bytes) :
    decodeFrom .between offset (String.utf8EncodeChar c ++ rest)
      = (decodeFrom .between (offset + c.utf8Size) rest).map (c :: ·) := by
  have h_bounds := toNat_bounds c
  have h_ofNat : Char.ofNat c.val.toNat = c := Char.ofNat_toNat c
  have h_toNat : ∀ n, n < 256 → (UInt8.ofNat n).toNat = n := fun n hn => by
    rw [UInt8.toNat_ofNat', Nat.mod_eq_of_lt hn]
  rw [← String.length_utf8EncodeChar]
  unfold String.utf8EncodeChar
  simp only
  -- from here on the character is its number only
  generalize c.val.toNat = v at h_bounds h_ofNat
  -- one to four octets; in each case the bits that were taken apart make up the number again
  split
  · next h_one =>
    rw [List.singleton_append, decodeFrom_one offset rest (lead?_one (h_toNat v (by omega)) h_one),
      h_ofNat]
    rfl
  split
  · next h_one h_two =>
    have h_lead := lead?_two (b := UInt8.ofNat (v / 64 % 0x20 + 0xC0)) (v := v)
      (by rw [h_toNat _ (by omega)]; omega) (by omega) h_two
    have h_tail := h_toNat (v % 0x40 + 0x80) (by omega)
    have h_value : v / 64 * 64 + (v % 0x40 + 0x80 - 0x80) = v := by omega
    rw [List.cons_append, List.singleton_append, decodeFrom_two offset rest h_lead (by omega),
      h_tail, h_value, h_ofNat]
    rfl
  split
  · next h_one h_two h_three =>
    obtain ⟨least, greatest, h_lead, h_least, h_greatest⟩ :=
      lead?_three (b := UInt8.ofNat (v / 4096 % 0x10 + 0xE0)) (v := v)
        (by rw [h_toNat _ (by omega)]; omega) (by omega) h_three (by omega)
    have h_tail₁ := h_toNat (v / 64 % 0x40 + 0x80) (by omega)
    have h_tail₂ := h_toNat (v % 0x40 + 0x80) (by omega)
    have h_value : (v / 4096 * 64 + (v / 64 % 0x40 + 0x80 - 0x80)) * 64 + (v % 0x40 + 0x80 - 0x80)
        = v := by
      omega
    rw [List.cons_append, List.cons_append, List.singleton_append,
      decodeFrom_three offset rest h_lead (by omega) (by omega), h_tail₁, h_tail₂, h_value, h_ofNat]
    rfl
  · next h_one h_two h_three =>
    obtain ⟨least, greatest, h_lead, h_least, h_greatest⟩ :=
      lead?_four (b := UInt8.ofNat (v / 262144 % 0x08 + 0xF0)) (v := v)
        (by rw [h_toNat _ (by omega)]; omega) (by omega) (by omega)
    have h_tail₁ := h_toNat (v / 4096 % 0x40 + 0x80) (by omega)
    have h_tail₂ := h_toNat (v / 64 % 0x40 + 0x80) (by omega)
    have h_tail₃ := h_toNat (v % 0x40 + 0x80) (by omega)
    have h_value : ((v / 262144 * 64 + (v / 4096 % 0x40 + 0x80 - 0x80)) * 64
        + (v / 64 % 0x40 + 0x80 - 0x80)) * 64 + (v % 0x40 + 0x80 - 0x80) = v := by omega
    rw [List.cons_append, List.cons_append, List.cons_append, List.singleton_append,
      decodeFrom_four offset rest h_lead (by omega) (by omega) (by omega), h_tail₁, h_tail₂,
      h_tail₃, h_value, h_ofNat]
    rfl

/-- Characters written one after the other are read one after the other. -/
theorem decodeFrom_flatMap (chars : List Char) (offset : Nat) :
    decodeFrom .between offset (chars.flatMap String.utf8EncodeChar) = .ok chars := by
  induction chars generalizing offset with
  | nil => rfl
  | cons c chars ih =>
    -- the induction is on the characters, for any offset that the first of them stands at
    rw [List.flatMap_cons, decodeFrom_utf8EncodeChar, ih]
    rfl

/-- **The octets of a text are read back as that text.** -/
theorem decode_encode (s : String) : decode (encode s) = .ok s := by
  unfold decode encode
  rw [decodeFrom_flatMap]
  simp [Except.map]

/-- No two texts have the same octets, since either is what is read from them. -/
theorem encode_injective : Function.Injective encode := by
  intro a b h
  have h_decode := decode_encode a
  rw [h, decode_encode] at h_decode
  exact (Except.ok.inj h_decode).symm

/-- The octets of two texts are those of the first and then those of the second. -/
@[simp] theorem encode_append (a b : String) : encode (a ++ b) = encode a ++ encode b := by
  simp [encode]

/-- The empty text has no octets. -/
@[simp] theorem encode_empty : encode "" = [] := by
  simp [encode]

/-! ### Byte order marks -/

/-- The octets of a byte order mark. -/
def mark : Bytes :=
  [0xEF, 0xBB, 0xBF]

/-- **Some octets hold a text**, after a byte order mark or without one. A text that itself begins
with the character of the mark is held after a mark only. -/
def Holds (bytes : Bytes) (text : String) : Prop :=
  bytes = mark ++ encode text ∨ bytes = encode text ∧ text.toList.head? ≠ some '\uFEFF'

/-- A byte order mark is a character like any other, written in octets. -/
theorem mark_eq : mark = String.utf8EncodeChar '\uFEFF' := by
  decide

/-- A text whose octets begin with a mark begins with the character of the mark. -/
theorem head?_of_encode_eq_mark_append {s : String} {rest : Bytes}
    (h : encode s = mark ++ rest) : s.toList.head? = some '\uFEFF' := by
  -- the octets are read in two ways: as the text, and as the mark with something after it
  have h_decode := decodeFrom_flatMap s.toList 0
  have h_encode : s.toList.flatMap String.utf8EncodeChar = mark ++ rest := h
  rw [h_encode, mark_eq, decodeFrom_utf8EncodeChar] at h_decode
  cases h_rest : decodeFrom .between (0 + '\uFEFF'.utf8Size) rest with
  | error error => rw [h_rest] at h_decode; cases h_decode
  | ok chars =>
    rw [h_rest] at h_decode
    rw [← Except.ok.inj h_decode, List.head?_cons]

/-- Octets that are refused are those of no text. -/
theorem encode_ne_of_decode_eq_error {s : String} {bytes : Bytes} {error : DecodeError}
    (h : decode bytes = .error error) : encode s ≠ bytes := by
  rintro rfl
  rw [decode_encode] at h
  cases h

/-- **The text that some octets hold is read back from them.** -/
theorem decodeMarked_of_holds {bytes : Bytes} {text : String} (h : Holds bytes text) :
    decodeMarked bytes = .ok text := by
  rcases h with rfl | ⟨rfl, h_head⟩
  · exact decode_encode text
  · -- without a mark the text is read from the first octet on, as long as that is no part of a mark
    unfold decodeMarked
    split
    · next rest h_mark => exact absurd (head?_of_encode_eq_mark_append h_mark) h_head
    · -- the beginning of a mark is no text
      next h_cut => exact absurd h_cut (encode_ne_of_decode_eq_error rfl)
    · next h_cut => exact absurd h_cut (encode_ne_of_decode_eq_error rfl)
    · exact decode_encode text

/-! ### Offsets between characters -/

/-- **An offset between two characters** of a text, or at one of its ends. -/
def IsBoundary (s : String) (offset : Nat) : Prop :=
  ∃ before after, s = before ++ after ∧ offset = (encode before).length

variable {s : String}

/-- A text may be cut at its beginning. -/
theorem isBoundary_zero (s : String) : IsBoundary s 0 :=
  ⟨"", s, by simp, by simp⟩

/-- A text may be cut at its end. -/
theorem isBoundary_length (s : String) : IsBoundary s (encode s).length :=
  ⟨s, "", by simp, rfl⟩

/-- The later of two boundaries is one of the two. -/
theorem IsBoundary.max {i j : Nat} (hi : IsBoundary s i) (hj : IsBoundary s j) :
    IsBoundary s (max i j) := by
  rcases Nat.le_total i j with h | h
  · rwa [Nat.max_eq_right h]
  · rwa [Nat.max_eq_left h]

/-- There is no boundary beyond the end. -/
theorem IsBoundary.le {offset : Nat} (h : IsBoundary s offset) : offset ≤ (encode s).length := by
  obtain ⟨before, after, rfl, rfl⟩ := h
  simp

instance (s : String) (offset : Nat) : Decidable (IsBoundary s offset) :=
  decidable_of_iff
    (∃ before ∈ s.toList.inits, offset = (encode (String.ofList before)).length) <| by
    constructor
    · rintro ⟨before, h_before, rfl⟩
      obtain ⟨after, h_after⟩ := List.mem_inits _ _ |>.1 h_before
      exact ⟨String.ofList before, String.ofList after, String.toList_inj.1 (by simp [h_after]),
        rfl⟩
    · rintro ⟨before, after, rfl, rfl⟩
      exact ⟨before.toList, List.mem_inits _ _ |>.2 (by simp), by rw [String.ofList_toList]⟩

/-- Of two boundaries, what lies before the lesser begins what lies before the greater. -/
theorem exists_append_of_isBoundary {i j : Nat} (hi : IsBoundary s i)
    (hj : IsBoundary s j) (h : i ≤ j) :
    ∃ before mid after, s = before ++ mid ++ after ∧ i = (encode before).length ∧
      j = (encode (before ++ mid)).length := by
  obtain ⟨a, b, h_ab, rfl⟩ := hi
  obtain ⟨c, d, h_cd, rfl⟩ := hj
  -- of two ways to cut a text, one comes first
  have h_split := congrArg String.toList (h_ab.symm.trans h_cd)
  rw [String.toList_append, String.toList_append] at h_split
  rcases List.append_eq_append_iff.1 h_split with ⟨mid, h_c, -⟩ | ⟨mid, h_a, -⟩
  · have h_eq : c = a ++ String.ofList mid := String.toList_inj.1 (by simp [h_c])
    exact ⟨a, String.ofList mid, d, h_eq ▸ h_cd, rfl, by rw [h_eq]⟩
  · -- then the two are the same
    have h_eq : a = c ++ String.ofList mid := String.toList_inj.1 (by simp [h_a])
    have h_nil : encode (String.ofList mid) = [] := by
      rw [h_eq, encode_append, List.length_append] at h
      exact List.eq_nil_of_length_eq_zero (by omega)
    refine ⟨a, "", b, by simp [h_ab], rfl, ?_⟩
    rw [h_eq, String.append_empty, encode_append, h_nil, List.append_nil]

/-- **What lies between two boundaries is text.** -/
theorem exists_encode_slice {i j : Nat} (hi : IsBoundary s i) (hj : IsBoundary s j) (h : i ≤ j) :
    ∃ mid, ((encode s).drop i).take (j - i) = encode mid := by
  obtain ⟨before, mid, after, rfl, rfl, rfl⟩ := exists_append_of_isBoundary hi hj h
  refine ⟨mid, ?_⟩
  simp

/-- The octets from a boundary on are text. -/
theorem exists_encode_drop {i : Nat} (hi : IsBoundary s i) :
    ∃ before after, s = before ++ after ∧ i = (encode before).length ∧
      (encode s).drop i = encode after := by
  obtain ⟨before, after, rfl, rfl⟩ := hi
  exact ⟨before, after, rfl, rfl, by simp⟩

/-- An octet below 0x80 is a character of its own. -/
theorem utf8EncodeChar_eq_singleton_of_lt {c : Char} {b : UInt8} {tail : Bytes}
    (h : String.utf8EncodeChar c = b :: tail) (h_lt : b.toNat < 0x80) : tail = [] := by
  have h_toNat : ∀ n, n < 256 → (UInt8.ofNat n).toNat = n := fun n hn => by
    rw [UInt8.toNat_ofNat', Nat.mod_eq_of_lt hn]
  have h_bounds := toNat_bounds c
  -- one to four octets, as above
  unfold String.utf8EncodeChar at h
  simp only at h
  generalize c.val.toNat = v at h h_bounds
  split at h
  · exact (List.cons.inj h).2.symm
  -- every other first octet is too great
  · exfalso
    split at h
    · rw [← (List.cons.inj h).1, h_toNat _ (by omega)] at h_lt
      omega
    split at h
    · rw [← (List.cons.inj h).1, h_toNat _ (by omega)] at h_lt
      omega
    · rw [← (List.cons.inj h).1, h_toNat _ (by omega)] at h_lt
      omega

/-- A run of one-octet characters among the octets of a text consists of whole characters. -/
theorem exists_takeWhile_flatMap {p : UInt8 → Bool} (hp : ∀ b, p b = true → b.toNat < 0x80)
    (chars : List Char) :
    ∃ n, (chars.flatMap String.utf8EncodeChar).takeWhile p
      = (chars.take n).flatMap String.utf8EncodeChar := by
  induction chars with
  | nil => exact ⟨0, rfl⟩
  | cons c chars ih =>
    obtain ⟨b, tail, h_octets⟩ := List.exists_cons_of_ne_nil (String.utf8EncodeChar_ne_nil (c := c))
    by_cases hb : p b = true
    · -- the octet is a whole character, so the run goes on with the next one
      obtain ⟨n, hn⟩ := ih
      have h_tail := utf8EncodeChar_eq_singleton_of_lt h_octets (hp b hb)
      refine ⟨n + 1, ?_⟩
      rw [List.take_succ_cons, List.flatMap_cons, List.flatMap_cons, h_octets, h_tail, ← hn,
        List.singleton_append, List.takeWhile_cons_of_pos hb, List.singleton_append]
    · -- the run stops at the first octet of a character
      refine ⟨0, ?_⟩
      rw [List.flatMap_cons, h_octets, List.cons_append, List.takeWhile_cons_of_neg hb]
      rfl

/-- The end of a run of one-octet characters that begins at a boundary is a boundary. -/
theorem isBoundary_add_takeWhile {p : UInt8 → Bool} (hp : ∀ b, p b = true → b.toNat < 0x80)
    {i : Nat} (hi : IsBoundary s i) :
    IsBoundary s (i + (((encode s).drop i).takeWhile p).length) := by
  -- the run is read off the text after the boundary, and is a number of its characters
  obtain ⟨before, after, rfl, rfl, h_drop⟩ := exists_encode_drop hi
  obtain ⟨n, hn⟩ := exists_takeWhile_flatMap hp after.toList
  refine ⟨before ++ String.ofList (after.toList.take n),
    String.ofList (after.toList.drop n), ?_, ?_⟩
  · rw [String.append_assoc]
    congr 1
    apply String.toList_inj.1
    simp
  · rw [h_drop]
    unfold encode
    rw [hn]
    simp

end DeclarationBundle.Utf8
