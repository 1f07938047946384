import HouseStyle.Proofs.Text.Ink
import HouseStyle.Tree.Source

/-! # Bytes and characters

A text can be cut in two ways: by character offsets, or by byte offsets in its encoding. This module
shows that both cuts give the same pieces as long as the byte offsets lie between characters, that
is, as long as they are the byte lengths of beginnings of the text (`IsBoundary`).

Reading takes back what writing has made of a character, whatever follows (`readChar_encodeChar`),
so decoding undoes encoding (`decode_encode`); and `charOffset` counts the characters before a
boundary (`charOffset_byteLength_take`). Together they say that the bytes between two boundaries
decode to the slice between their character offsets (`decode_bytes_eq_slice`). -/

namespace HouseStyle.Text

/-! ### One character -/

theorem continueChar_zero (lo hi code : Nat) (bs : List UInt8) :
    continueChar 0 lo hi code bs = (some code, 0) := by
  cases bs <;> rfl

theorem continueChar_succ {m lo hi code : Nat} {b : UInt8} {bs : List UInt8}
    (h : lo ≤ b.toNat ∧ b.toNat ≤ hi) :
    continueChar (m + 1) lo hi code (b :: bs) =
      ((continueChar m 0x80 0xbf (code * 64 + b.toNat % 64) bs).1,
        (continueChar m 0x80 0xbf (code * 64 + b.toNat % 64) bs).2 + 1) := by
  rw [continueChar, if_pos h]

theorem toNat_ofNat {n : Nat} (h : n < 256) : (UInt8.ofNat n).toNat = n := by
  rw [UInt8.toNat_ofNat']; exact Nat.mod_eq_of_lt h

theorem code_lt (c : Char) :
    c.val.toNat < 0xd800 ∨ 0xdfff < c.val.toNat ∧ c.val.toNat < 0x110000 := c.valid

theorem readChar_one {v : Nat} (h : v < 0x80) (bs : List UInt8) :
    readChar (UInt8.ofNat v) bs = (some (Char.ofNat v), 0) := by
  have hb := toNat_ofNat (n := v) (by omega)
  have hl : leadByte? v = some (0, 0x80, 0xbf) := by rw [leadByte?, if_pos h]
  simp only [readChar, hb, hl, continueChar_zero, leadBits, Option.map_some]

theorem readChar_two {v : Nat} (h1 : 0x80 ≤ v) (h2 : v < 0x800) (bs : List UInt8) :
    readChar (UInt8.ofNat (v / 64 % 32 + 192)) (UInt8.ofNat (v % 64 + 128) :: bs) =
      (some (Char.ofNat v), 1) := by
  have hb := toNat_ofNat (n := v / 64 % 32 + 192) (by omega)
  have hb' := toNat_ofNat (n := v % 64 + 128) (by omega)
  have hl : leadByte? (v / 64 % 32 + 192) = some (1, 0x80, 0xbf) := by
    rw [leadByte?, if_neg (by omega), if_pos (by omega)]
  simp only [readChar, hb, hl]
  rw [continueChar_succ (by omega), continueChar_zero, hb']
  have hv : leadBits (v / 64 % 32 + 192) 1 * 64 + (v % 64 + 128) % 64 = v := by
    simp only [leadBits]; omega
  simp only [hv, Option.map_some, Nat.zero_add]

theorem readChar_three {v lo hi : Nat} (h1 : 0x800 ≤ v) (h2 : v < 0x10000)
    (hl : leadByte? (v / 4096 % 16 + 224) = some (2, lo, hi)) (hlo : lo ≤ v / 64 % 64 + 128)
    (hhi : v / 64 % 64 + 128 ≤ hi) (bs : List UInt8) :
    readChar (UInt8.ofNat (v / 4096 % 16 + 224))
        (UInt8.ofNat (v / 64 % 64 + 128) :: UInt8.ofNat (v % 64 + 128) :: bs) =
      (some (Char.ofNat v), 2) := by
  have hb := toNat_ofNat (n := v / 4096 % 16 + 224) (by omega)
  have hb' := toNat_ofNat (n := v / 64 % 64 + 128) (by omega)
  have hb'' := toNat_ofNat (n := v % 64 + 128) (by omega)
  simp only [readChar, hb, hl]
  rw [continueChar_succ (by omega), continueChar_succ (by omega), continueChar_zero, hb', hb'']
  have hv : (leadBits (v / 4096 % 16 + 224) 2 * 64 + (v / 64 % 64 + 128) % 64) * 64 +
      (v % 64 + 128) % 64 = v := by
    simp only [leadBits]; omega
  simp only [hv, Option.map_some, Nat.zero_add, Nat.reduceAdd]

theorem readChar_four {v lo hi : Nat} (h1 : 0x10000 ≤ v) (h2 : v < 0x110000)
    (hl : leadByte? (v / 262144 % 8 + 240) = some (3, lo, hi)) (hlo : lo ≤ v / 4096 % 64 + 128)
    (hhi : v / 4096 % 64 + 128 ≤ hi) (bs : List UInt8) :
    readChar (UInt8.ofNat (v / 262144 % 8 + 240))
        (UInt8.ofNat (v / 4096 % 64 + 128) :: UInt8.ofNat (v / 64 % 64 + 128) ::
          UInt8.ofNat (v % 64 + 128) :: bs) =
      (some (Char.ofNat v), 3) := by
  have hb := toNat_ofNat (n := v / 262144 % 8 + 240) (by omega)
  have hb' := toNat_ofNat (n := v / 4096 % 64 + 128) (by omega)
  have hb'' := toNat_ofNat (n := v / 64 % 64 + 128) (by omega)
  have hb''' := toNat_ofNat (n := v % 64 + 128) (by omega)
  simp only [readChar, hb, hl]
  rw [continueChar_succ (by omega), continueChar_succ (by omega), continueChar_succ (by omega),
    continueChar_zero, hb', hb'', hb''']
  have hv : ((leadBits (v / 262144 % 8 + 240) 3 * 64 + (v / 4096 % 64 + 128) % 64) * 64 +
      (v / 64 % 64 + 128) % 64) * 64 + (v % 64 + 128) % 64 = v := by
    simp only [leadBits]; omega
  simp only [hv, Option.map_some, Nat.zero_add, Nat.reduceAdd]

/-- **Reading a character back**: it takes exactly the bytes that the character was written with. -/
theorem readChar_encodeChar (c : Char) (rest : List UInt8) :
    ∃ b bs, String.utf8EncodeChar c = b :: bs ∧ readChar b (bs ++ rest) = (some c, bs.length) := by
  have hc : Char.ofNat c.val.toNat = c := Char.ofNat_toNat c
  have hv := code_lt c
  unfold String.utf8EncodeChar
  generalize c.val.toNat = v at hc hv
  simp only
  split_ifs with h1 h2 h3
  · exact ⟨_, [], rfl, by rw [List.nil_append, readChar_one (by omega), hc]; rfl⟩
  · refine ⟨_, _, rfl, ?_⟩
    rw [List.cons_append, List.nil_append, readChar_two (by omega) (by omega), hc]; rfl
  · -- the second byte is bounded below after the first lead byte and above before the surrogates
    obtain ⟨lo, hi, hl, hlo, hhi⟩ : ∃ lo hi, leadByte? (v / 4096 % 16 + 224) = some (2, lo, hi) ∧
        lo ≤ v / 64 % 64 + 128 ∧ v / 64 % 64 + 128 ≤ hi := by
      unfold leadByte?
      rw [if_neg (by omega), if_neg (by omega)]
      split_ifs
      · exact ⟨_, _, rfl, by omega, by omega⟩
      · exact ⟨_, _, rfl, by omega, by omega⟩
      · exact ⟨_, _, rfl, by omega, by omega⟩
      · omega
      · omega
      · omega
      · omega
    refine ⟨_, _, rfl, ?_⟩
    rw [List.cons_append, List.cons_append, List.nil_append,
      readChar_three (by omega) (by omega) hl hlo hhi, hc]
    rfl
  · -- the second byte is bounded below after the first lead byte and above after the last
    obtain ⟨lo, hi, hl, hlo, hhi⟩ : ∃ lo hi, leadByte? (v / 262144 % 8 + 240) = some (3, lo, hi) ∧
        lo ≤ v / 4096 % 64 + 128 ∧ v / 4096 % 64 + 128 ≤ hi := by
      unfold leadByte?
      rw [if_neg (by omega), if_neg (by omega), if_neg (by omega), if_neg (by omega),
        if_neg (by omega)]
      split_ifs
      · exact ⟨_, _, rfl, by omega, by omega⟩
      · exact ⟨_, _, rfl, by omega, by omega⟩
      · exact ⟨_, _, rfl, by omega, by omega⟩
      · omega
    refine ⟨_, _, rfl, ?_⟩
    rw [List.cons_append, List.cons_append, List.cons_append, List.nil_append,
      readChar_four (by omega) (by omega) hl hlo hhi, hc]
    rfl

/-! ### Texts -/

theorem encode_cons (c : Char) (t : Text) :
    encode (c :: t) = String.utf8EncodeChar c ++ t.encode := List.flatMap_cons ..

theorem encode_append (t u : Text) : encode (t ++ u) = t.encode ++ u.encode :=
  List.flatMap_append ..

theorem byteLength_cons (c : Char) (t : Text) :
    byteLength (c :: t) = c.utf8Size + t.byteLength := rfl

theorem byteLength_append (t u : Text) : byteLength (t ++ u) = t.byteLength + u.byteLength := by
  induction t with
  | nil => simp [byteLength]
  | cons c t ih => rw [List.cons_append, byteLength_cons, byteLength_cons, ih, Nat.add_assoc]

theorem length_encode (t : Text) : t.encode.length = t.byteLength := by
  induction t with
  | nil => rfl
  | cons c t ih =>
    rw [encode_cons, List.length_append, ih, byteLength_cons, String.length_utf8EncodeChar]

theorem length_le_byteLength (t : Text) : t.length ≤ t.byteLength := by
  induction t with
  | nil => exact le_rfl
  | cons c t ih =>
    have := c.utf8Size_pos
    rw [byteLength_cons, List.length_cons]; omega

/-- **Decoding undoes encoding.** -/
theorem decode_encode (t : Text) : decode t.encode = t := by
  induction t with
  | nil => unfold decode; rfl
  | cons c t ih =>
    obtain ⟨b, bs, hb, hr⟩ := readChar_encodeChar c (encode t)
    rw [encode_cons, hb, List.cons_append]
    unfold decode
    simp only [hr, Option.getD_some, List.drop_left, ih]

/-! ### Boundaries -/

/-- A byte offset that lies between two characters, or at an end of the text. -/
def IsBoundary (t : Text) (b : Nat) : Prop := ∃ k < t.length + 1, b = byteLength (t.take k)

instance (t : Text) (b : Nat) : Decidable (IsBoundary t b) := by unfold IsBoundary; infer_instance

theorem getD_charIndex (d : Nat) : ∀ (t : Text) (i k : Nat), k ≤ t.length →
    (charIndex i t).getD (byteLength (t.take k)) d = i + k
  | [], i, k, h => by
    obtain rfl : k = 0 := by simpa using h
    rfl
  | c :: t, i, 0, _ => by
    obtain ⟨m, hm⟩ := Nat.exists_eq_succ_of_ne_zero c.utf8Size_pos.ne'
    rw [charIndex, hm, List.replicate_succ]; rfl
  | c :: t, i, k + 1, h => by
    have hlen : (List.replicate c.utf8Size i).length = c.utf8Size := List.length_replicate
    have ih := getD_charIndex d t (i + 1) k (by simpa using h)
    rw [List.getD_eq_getElem?_getD] at ih
    rw [charIndex, List.take_succ_cons, byteLength_cons, List.getD_eq_getElem?_getD,
      List.getElem?_append_right (by omega), hlen, Nat.add_sub_cancel_left, ih]
    omega

theorem byteLength_take_of_ascii {t : Text} (h : t.byteLength = t.length) {k : Nat}
    (hk : k ≤ t.length) : byteLength (t.take k) = k := by
  have h1 := length_le_byteLength (t.take k)
  have h2 := length_le_byteLength (t.drop k)
  have h3 := byteLength_append (t.take k) (t.drop k)
  rw [List.take_append_drop] at h3
  rw [List.length_take] at h1
  rw [List.length_drop] at h2
  omega

/-- **The character offset of a boundary** counts the characters before it. -/
theorem charOffset_byteLength_take {t : Text} {k : Nat} (hk : k ≤ t.length) :
    t.charOffset (byteLength (t.take k)) = k := by
  unfold charOffset
  split_ifs with h
  · exact byteLength_take_of_ascii h hk
  · rw [getD_charIndex _ t 0 k hk, Nat.zero_add]

theorem charOffset_le_of_boundary {t : Text} {b : Nat} (h : t.IsBoundary b) :
    t.charOffset b ≤ t.length := by
  obtain ⟨k, hk, rfl⟩ := h
  rw [charOffset_byteLength_take (by omega)]; omega

theorem take_encode (t : Text) (k : Nat) :
    t.encode.take (byteLength (t.take k)) = encode (t.take k) := by
  conv => lhs; rw [← List.take_append_drop k t]
  rw [encode_append, List.take_append_drop, List.take_left' (length_encode _)]

/-- **Bytes and characters cut alike**: the bytes between two boundaries are the encoding of the
slice between their character offsets. -/
theorem decode_bytes_eq_slice {t : Text} {a b : Nat} (ha : t.IsBoundary a) (hb : t.IsBoundary b) :
    decode ((t.encode.take b).drop a) = t.slice (t.charOffset a) (t.charOffset b) := by
  obtain ⟨i, hi, rfl⟩ := ha
  obtain ⟨j, hj, rfl⟩ := hb
  rw [charOffset_byteLength_take (by omega), charOffset_byteLength_take (by omega), take_encode]
  rcases Nat.le_total i j with hij | hij
  · have hsplit : t.take j = t.take i ++ t.slice i j := (take_append_slice t hij).symm
    rw [hsplit, encode_append, List.drop_left' (length_encode _), decode_encode]
  · have hle : (encode (t.take j)).length ≤ byteLength (t.take i) := by
      rw [length_encode, ← take_append_slice t hij, byteLength_append]; omega
    have hnil : t.slice i j = [] := by rw [slice, Nat.sub_eq_zero_of_le hij, List.take_zero]
    rw [List.drop_eq_nil_of_le hle, hnil]
    unfold decode; rfl

end HouseStyle.Text
