import MovAsm.Text.Utf8

/-!
# Reading Back What Was Written

The bytes of a text are read as the characters of the text. A character is written in one to four
bytes; the reader tells from the first how many belong to it, and the bounds that it sets to the
second leave out no character.

## Main results

* `sequence?_utf8EncodeChar`: the bytes of a character are a well-formed sequence of it.
* `decode_toUTF8`: the bytes of a text are read as the text.
* `decode_append_feed`: a line feed behind any bytes is read as a line feed.
-/

namespace MovAsm.Text.Utf8

/-- Unfolds `within` to bounds on the numbers of the bytes. -/
theorem within_eq_true_iff {low high b : UInt8} :
    within low high b = true ↔ low.toNat ≤ b.toNat ∧ b.toNat ≤ high.toNat := by
  simp [within, UInt8.le_iff_toNat_le]

/-- A byte after the first carries six bits of a number `n`: its `tailBits` are `n % 64`, and it is
`within` the general bounds. -/
theorem tailBits_ofNat (n : Nat) :
    (UInt8.ofNat (n % 64 + 128)).toNat = n % 64 + 128 ∧ tailBits (UInt8.ofNat (n % 64 + 128)) =
      n % 64 ∧ within 0x80 0xBF (UInt8.ofNat (n % 64 + 128)) = true := by
  have hbyte : (UInt8.ofNat (n % 64 + 128)).toNat = n % 64 + 128 :=
    UInt8.toNat_ofNat_of_lt' (by simp only [UInt8.size]; omega)
  have hlow : (0x80 : UInt8).toNat = 128 := rfl
  have hhigh : (0xBF : UInt8).toNat = 191 := rfl
  refine ⟨hbyte, ?_, ?_⟩
  · rw [tailBits, hbyte]
    omega
  · rw [within_eq_true_iff, hbyte, hlow, hhigh]
    omega

/-- A second byte is within the `secondBounds` of its `lead` if it is so in general, and the four
leading bytes that set bounds of their own allow it. -/
theorem within_secondBounds {lead b : UInt8} (hlow : 0x80 ≤ b.toNat) (hhigh : b.toNat ≤ 0xBF)
    (hE0 : lead.toNat = 0xE0 → 0xA0 ≤ b.toNat) (hED : lead.toNat = 0xED → b.toNat ≤ 0x9F)
    (hF0 : lead.toNat = 0xF0 → 0x90 ≤ b.toNat) (hF4 : lead.toNat = 0xF4 → b.toNat ≤ 0x8F) :
    within (secondBounds lead).1 (secondBounds lead).2 b = true := by
  rw [within_eq_true_iff, secondBounds]
  by_cases hlead : lead = 0xE0
  · rw [if_pos hlead]
    exact ⟨hE0 (by rw [hlead]; rfl), hhigh⟩
  rw [if_neg hlead]
  by_cases hlead : lead = 0xED
  · rw [if_pos hlead]
    exact ⟨hlow, hED (by rw [hlead]; rfl)⟩
  rw [if_neg hlead]
  by_cases hlead : lead = 0xF0
  · rw [if_pos hlead]
    exact ⟨hF0 (by rw [hlead]; rfl), hhigh⟩
  rw [if_neg hlead]
  by_cases hlead : lead = 0xF4
  · rw [if_pos hlead]
    exact ⟨hlow, hF4 (by rw [hlead]; rfl)⟩
  · rw [if_neg hlead]
    exact ⟨hlow, hhigh⟩

/-- The answer of `sequence?` at a sequence of one byte. -/
theorem sequence?_one {lead : UInt8} {rest : List UInt8} (h : lead.toNat < 0x80) :
    sequence? lead rest = some (Char.ofNat lead.toNat, 0) := by
  have hlead : lead < 0x80 := by
    rw [UInt8.lt_iff_toNat_lt]
    exact h
  simp [sequence?, hlead]

/-- The answer of `sequence?` at a sequence of two bytes. -/
theorem sequence?_two {lead b : UInt8} {rest : List UInt8} (hlow : 0xC2 ≤ lead.toNat)
    (hhigh : lead.toNat ≤ 0xDF)
    (hb : within (secondBounds lead).1 (secondBounds lead).2 b = true) :
    sequence? lead (b :: rest) = some (Char.ofNat (lead.toNat % 32 * 64 + tailBits b), 1) := by
  have hlead : ¬lead < 0x80 := by
    rw [UInt8.lt_iff_toNat_lt]
    exact Nat.not_lt.mpr (Nat.le_trans (by decide) hlow)
  have htwo : within 0xC2 0xDF lead = true := within_eq_true_iff.mpr ⟨hlow, hhigh⟩
  simp [sequence?, hlead, htwo, hb]

/-- The answer of `sequence?` at a sequence of three bytes. -/
theorem sequence?_three {lead b c : UInt8} {rest : List UInt8} (hlow : 0xE0 ≤ lead.toNat)
    (hhigh : lead.toNat ≤ 0xEF)
    (hb : within (secondBounds lead).1 (secondBounds lead).2 b = true)
    (hc : within 0x80 0xBF c = true) :
    sequence? lead (b :: c :: rest) =
      some (Char.ofNat ((lead.toNat % 16 * 64 + tailBits b) * 64 + tailBits c), 2) := by
  have hlead : ¬lead < 0x80 := by
    rw [UInt8.lt_iff_toNat_lt]
    exact Nat.not_lt.mpr (Nat.le_trans (by decide) hlow)
  have htwo : within 0xC2 0xDF lead = false := by
    rw [← Bool.not_eq_true, within_eq_true_iff]
    exact fun h => absurd (Nat.le_trans hlow h.2) (by decide)
  have hthree : within 0xE0 0xEF lead = true := within_eq_true_iff.mpr ⟨hlow, hhigh⟩
  simp [sequence?, hlead, htwo, hthree, hb, hc]

/-- The answer of `sequence?` at a sequence of four bytes. -/
theorem sequence?_four {lead b c d : UInt8} {rest : List UInt8} (hlow : 0xF0 ≤ lead.toNat)
    (hhigh : lead.toNat ≤ 0xF4)
    (hb : within (secondBounds lead).1 (secondBounds lead).2 b = true)
    (hc : within 0x80 0xBF c = true) (hd : within 0x80 0xBF d = true) :
    sequence? lead (b :: c :: d :: rest) =
      some (Char.ofNat
        (((lead.toNat % 8 * 64 + tailBits b) * 64 + tailBits c) * 64 + tailBits d), 3) := by
  have hlead : ¬lead < 0x80 := by
    rw [UInt8.lt_iff_toNat_lt]
    exact Nat.not_lt.mpr (Nat.le_trans (by decide) hlow)
  have htwo : within 0xC2 0xDF lead = false := by
    rw [← Bool.not_eq_true, within_eq_true_iff]
    exact fun h => absurd (Nat.le_trans hlow h.2) (by decide)
  have hthree : within 0xE0 0xEF lead = false := by
    rw [← Bool.not_eq_true, within_eq_true_iff]
    exact fun h => absurd (Nat.le_trans hlow h.2) (by decide)
  have hfour : within 0xF0 0xF4 lead = true := within_eq_true_iff.mpr ⟨hlow, hhigh⟩
  simp [sequence?, hlead, htwo, hthree, hfour, hb, hc, hd]

/-- The bytes that `String.utf8EncodeChar` makes of a character are read back by `sequence?`. One
case for each number of bytes. -/
theorem sequence?_utf8EncodeChar (c : Char) :
    ∃ lead tail, String.utf8EncodeChar c = lead :: tail ∧
      ∀ rest, sequence? lead (tail ++ rest) = some (c, tail.length) := by
  have hvalid : c.val.toNat < 0xD800 ∨ (0xDFFF < c.val.toNat ∧ c.val.toNat < 0x110000) := c.valid
  have hself : Char.ofNat c.val.toNat = c := Char.ofNat_toNat c
  simp only [String.utf8EncodeChar]
  generalize c.val.toNat = n at hvalid hself ⊢
  by_cases hone : n ≤ 0x7F
  · rw [if_pos hone]
    have hlead : (UInt8.ofNat n).toNat = n :=
      UInt8.toNat_ofNat_of_lt' (by simp only [UInt8.size]; omega)
    refine ⟨_, _, rfl, fun rest => ?_⟩
    rw [sequence?_one (by omega), hlead, hself]
    rfl
  rw [if_neg hone]
  by_cases htwo : n ≤ 0x7FF
  · rw [if_pos htwo]
    have hlead : (UInt8.ofNat (n / 64 % 32 + 192)).toNat = n / 64 + 192 := by
      rw [UInt8.toNat_ofNat_of_lt' (by simp only [UInt8.size]; omega)]
      omega
    obtain ⟨hb, hbits, -⟩ := tailBits_ofNat n
    have hsecond := @within_secondBounds (UInt8.ofNat (n / 64 % 32 + 192))
      (UInt8.ofNat (n % 64 + 128)) (by omega) (by omega) (by omega) (by omega) (by omega) (by omega)
    have hvalue : (n / 64 + 192) % 32 * 64 + n % 64 = n := by omega
    refine ⟨_, _, rfl, fun rest => ?_⟩
    rw [List.cons_append, sequence?_two (by omega) (by omega) hsecond, hlead, hbits, hvalue, hself]
    rfl
  rw [if_neg htwo]
  by_cases hthree : n ≤ 0xFFFF
  · rw [if_pos hthree]
    have hlead : (UInt8.ofNat (n / 4096 % 16 + 224)).toNat = n / 4096 + 224 := by
      rw [UInt8.toNat_ofNat_of_lt' (by simp only [UInt8.size]; omega)]
      omega
    obtain ⟨hb, hbits, -⟩ := tailBits_ofNat (n / 64)
    obtain ⟨-, hbits', hthird⟩ := tailBits_ofNat n
    have hsecond := @within_secondBounds (UInt8.ofNat (n / 4096 % 16 + 224))
      (UInt8.ofNat (n / 64 % 64 + 128)) (by omega) (by omega) (by omega) (by omega) (by omega)
      (by omega)
    have hvalue : ((n / 4096 + 224) % 16 * 64 + n / 64 % 64) * 64 + n % 64 = n := by omega
    refine ⟨_, _, rfl, fun rest => ?_⟩
    rw [List.cons_append, List.cons_append, sequence?_three (by omega) (by omega) hsecond hthird,
      hlead, hbits, hbits', hvalue, hself]
    rfl
  · rw [if_neg hthree]
    have hlead : (UInt8.ofNat (n / 262144 % 8 + 240)).toNat = n / 262144 + 240 := by
      rw [UInt8.toNat_ofNat_of_lt' (by simp only [UInt8.size]; omega)]
      omega
    obtain ⟨hb, hbits, -⟩ := tailBits_ofNat (n / 4096)
    obtain ⟨-, hbits', hthird⟩ := tailBits_ofNat (n / 64)
    obtain ⟨-, hbits'', hfourth⟩ := tailBits_ofNat n
    have hsecond := @within_secondBounds (UInt8.ofNat (n / 262144 % 8 + 240))
      (UInt8.ofNat (n / 4096 % 64 + 128)) (by omega) (by omega) (by omega) (by omega) (by omega)
      (by omega)
    have hvalue : (((n / 262144 + 240) % 8 * 64 + n / 4096 % 64) * 64 + n / 64 % 64) * 64 + n % 64 =
        n := by omega
    refine ⟨_, _, rfl, fun rest => ?_⟩
    rw [List.cons_append, List.cons_append, List.cons_append,
      sequence?_four (by omega) (by omega) hsecond hthird hfourth, hlead, hbits, hbits', hbits'',
      hvalue, hself]
    rfl

/-- The encoded bytes of `chars` are decoded to `chars`. -/
theorem decode_flatMap_utf8EncodeChar (chars : List Char) :
    decode (chars.flatMap String.utf8EncodeChar) = chars := by
  induction chars with
  | nil =>
      rw [List.flatMap_nil, decode]
  | cons c chars ih =>
      obtain ⟨lead, tail, hencode, hread⟩ := sequence?_utf8EncodeChar c
      rw [List.flatMap_cons, hencode, List.cons_append, decode, hread]
      simp only [List.drop_left, ih]

/-- The bytes of `String.toUTF8` are those of the characters, one after the other. -/
theorem toUTF8_eq_flatMap (text : String) :
    text.toUTF8.data.toList = text.toList.flatMap String.utf8EncodeChar := by
  rw [String.toUTF8_eq_toByteArray, ← @String.ofList_toList text, String.toByteArray_ofList,
    String.ofList_toList, List.utf8Encode, List.data_toByteArray]

/-- **UTF-8 reads back**: `decode` gives the characters of a text from its bytes. -/
theorem decode_toUTF8 (text : String) : decode text.toUTF8.data.toList = text.toList := by
  rw [toUTF8_eq_flatMap, decode_flatMap_utf8EncodeChar]

/-- A line feed after the bytes makes no difference to `sequence?`: it belongs to no sequence that
begins before it. -/
theorem sequence?_append_feed (lead : UInt8) (rest : List UInt8) :
    sequence? lead (rest ++ [0x0A]) = sequence? lead rest := by
  have hsecond : within (secondBounds lead).1 (secondBounds lead).2 0x0A = false := by
    rw [secondBounds]
    repeat' split
    all_goals rfl
  have hlater : within 0x80 0xBF 0x0A = false := rfl
  match rest with
  | [] => simp [sequence?, hsecond]
  | [_] => simp [sequence?, hlater]
  | [_, _] => simp [sequence?, hlater]
  | _ :: _ :: _ :: _ => rfl

/-- The number that `sequence?` answers is at most the number of bytes that are there. -/
theorem length_of_sequence? {lead : UInt8} {rest : List UInt8} {c : Char} {n : Nat}
    (h : sequence? lead rest = some (c, n)) : n ≤ rest.length := by
  rw [sequence?] at h
  grind

/-- A line feed after any bytes is decoded as a line feed, even if a sequence breaks off before
it. -/
theorem decode_append_feed (bytes : List UInt8) :
    decode (bytes ++ [0x0A]) = decode bytes ++ ['\n'] := by
  fun_induction decode bytes with
  | case1 =>
      have hfeed : sequence? 0x0A [] = some ('\n', 0) := rfl
      rw [List.nil_append, decode, hfeed]
      simp only [List.drop_nil, decode, List.nil_append]
  | case2 lead rest c n hread ih =>
      rw [List.cons_append, decode, sequence?_append_feed, hread]
      simp only [List.drop_append_of_le_length (length_of_sequence? hread), ih, List.cons_append]
  | case3 lead rest hread ih =>
      rw [List.cons_append, decode, sequence?_append_feed, hread]
      simp only [ih, List.cons_append]

end MovAsm.Text.Utf8
