import HouseStyle.Proofs.Text.Lines
import HouseStyle.Proofs.Tree.Offsets

/-! # Line feeds in bytes

A line feed is a single byte, and that byte is no part of any other character. So decoding keeps the
number of line feeds (`count_decode`), whatever the bytes are, and the row of a byte offset counts
the line feeds among the bytes before it (`rowAt_charOffset`), also if the offset lies inside a
character. It follows that the text of a node has as many line feeds as its rows say
(`Source.count_nodeText`), for every range. -/

namespace HouseStyle

namespace Text

/-- The byte of a line feed. -/
def newlineByte : UInt8 := 10

/-! ### Decoding -/

theorem newlineByte_notMem_take : ∀ (bs : List UInt8) (n lo hi code : Nat), 0x80 ≤ lo →
    newlineByte ∉ bs.take (continueChar n lo hi code bs).2
  | [], _, _, _, _, _ => by simp
  | b :: bs, 0, lo, hi, code, _ => by simp [continueChar]
  | b :: bs, m + 1, lo, hi, code, hlo => by
    rw [continueChar]
    split_ifs with h
    · rw [List.take_succ_cons, List.mem_cons, not_or]
      refine ⟨?_, newlineByte_notMem_take bs m 0x80 0xbf _ le_rfl⟩
      rintro rfl
      have : newlineByte.toNat = 10 := rfl
      omega
    · simp

theorem le_continueChar : ∀ {bs : List UInt8} {n lo hi code v : Nat},
    (continueChar n lo hi code bs).1 = some v → code ≤ v
  | [], n, _, _, code, v, h => by
    rw [continueChar] at h
    split_ifs at h
    · exact (Option.some.inj h).le
  | b :: bs, 0, _, _, code, v, h => by
    simp only [continueChar] at h
    exact (Option.some.inj h).le
  | b :: bs, m + 1, lo, hi, code, v, h => by
    rw [continueChar] at h
    split_ifs at h
    have := le_continueChar h
    omega

theorem lt_continueChar {bs : List UInt8} {b n lo hi v : Nat}
    (hlead : leadByte? b = some (n, lo, hi)) (hb : 0x80 ≤ b)
    (h : (continueChar n lo hi (leadBits b n) bs).1 = some v) : 10 < v := by
  have hn : n ≠ 0 ∧ (leadBits b n = 0 → 16 ≤ lo % 64 ∧ 0x80 ≤ lo ∧ hi ≤ 0xbf) := by
    unfold leadByte? at hlead
    split_ifs at hlead <;> simp only [Option.some.injEq, Prod.mk.injEq] at hlead <;>
      obtain ⟨rfl, rfl, rfl⟩ := hlead <;> simp only [leadBits] <;> omega
  cases bs with
  | nil =>
    rw [continueChar, if_neg hn.1] at h
    simp at h
  | cons d bs =>
    obtain ⟨m, rfl⟩ := Nat.exists_eq_succ_of_ne_zero hn.1
    rw [continueChar] at h
    split_ifs at h with hd
    have := le_continueChar h
    omega

theorem ofNat_eq_newline_iff (v : Nat) : Char.ofNat v = '\n' ↔ v = 10 := by
  constructor
  · intro h
    have hv : (Char.ofNat v).toNat = 10 := congrArg Char.toNat h
    by_cases hvalid : v.isValidChar
    · rw [Char.ofNat, dif_pos hvalid] at hv
      exact hv
    · rw [Char.ofNat, dif_neg hvalid] at hv
      exact absurd hv (by decide)
  · rintro rfl
    rfl

theorem readChar_eq_newline_iff (b : UInt8) (bs : List UInt8) :
    (readChar b bs).1.getD (Char.ofNat 0xfffd) = '\n' ↔ b = newlineByte := by
  have hbyte : b = newlineByte ↔ b.toNat = 10 := UInt8.toNat_inj.symm
  rw [hbyte]
  unfold readChar
  cases hlead : leadByte? b.toNat with
  | none =>
    -- no character starts with this byte
    have hne : b.toNat ≠ 10 := fun h => by rw [h] at hlead; simp [leadByte?] at hlead
    simp only [Option.getD_none]
    exact ⟨fun h => absurd h (by decide), fun h => absurd h hne⟩
  | some l =>
    obtain ⟨n, lo, hi⟩ := l
    simp only
    rcases Nat.lt_or_ge b.toNat 0x80 with hb | hb
    · -- one byte
      rw [leadByte?, if_pos hb, Option.some.injEq, Prod.mk.injEq] at hlead
      obtain ⟨rfl, -⟩ := hlead
      rw [continueChar_zero, Option.map_some, Option.getD_some, leadBits, ofNat_eq_newline_iff]
    · cases hv : (continueChar n lo hi (leadBits b.toNat n) bs).1 with
      | none =>
        rw [Option.map_none, Option.getD_none]
        exact ⟨fun h => absurd h (by decide), fun h => by omega⟩
      | some v =>
        have := lt_continueChar hlead hb hv
        rw [Option.map_some, Option.getD_some, ofNat_eq_newline_iff]
        omega

theorem newlineByte_notMem_readChar (b : UInt8) (bs : List UInt8) :
    newlineByte ∉ bs.take (readChar b bs).2 := by
  unfold readChar
  cases hlead : leadByte? b.toNat with
  | none => simp
  | some l =>
    obtain ⟨n, lo, hi⟩ := l
    have hlo : 0x80 ≤ lo := by
      unfold leadByte? at hlead
      split_ifs at hlead <;> simp only [Option.some.injEq, Prod.mk.injEq] at hlead <;> omega
    exact newlineByte_notMem_take bs n lo hi _ hlo

/-- **Decoding keeps line feeds**, whatever the bytes are. -/
theorem count_decode (bs : List UInt8) : (decode bs).count '\n' = bs.count newlineByte := by
  cases bs with
  | nil => unfold decode; rfl
  | cons b bs =>
    have hsplit : bs.count newlineByte = (bs.drop (readChar b bs).2).count newlineByte := by
      conv => lhs; rw [← List.take_append_drop (readChar b bs).2 bs, List.count_append,
        List.count_eq_zero.mpr (newlineByte_notMem_readChar b bs), Nat.zero_add]
    have ih := count_decode (bs.drop (readChar b bs).2)
    unfold decode
    simp only [List.count_cons, ih, hsplit, beq_iff_eq, readChar_eq_newline_iff]
termination_by bs.length
decreasing_by simp only [List.length_drop, List.length_cons]; omega

theorem count_encode (t : Text) : t.encode.count newlineByte = t.count '\n' := by
  rw [← count_decode, decode_encode]

/-! ### Rows -/

theorem newlineByte_notMem_encodeChar {c : Char} (h : c ≠ '\n') :
    newlineByte ∉ String.utf8EncodeChar c := by
  have hcount := count_encode [c]
  rw [encode, List.flatMap_singleton, List.count_singleton, if_neg (by simpa using h)] at hcount
  exact List.count_eq_zero.mp hcount

theorem take_encode_add {t : Text} {k j : Nat} (hk : k < t.length) (hj : j ≤ t[k].utf8Size) :
    t.encode.take (byteLength (t.take k) + j) =
      encode (t.take k) ++ (String.utf8EncodeChar t[k]).take j := by
  have hsplit : t.encode =
      encode (t.take k) ++ (String.utf8EncodeChar t[k] ++ encode (t.drop (k + 1))) := by
    rw [← encode_cons, List.getElem_cons_drop, ← encode_append, List.take_append_drop]
  rw [hsplit, ← length_encode, List.take_length_add_append,
    List.take_append_of_le_length (by rw [String.length_utf8EncodeChar]; exact hj)]

theorem count_take_encodeChar {c : Char} {j : Nat} (hj : j < c.utf8Size) :
    ((String.utf8EncodeChar c).take j).count newlineByte = 0 := by
  by_cases hc : c = '\n'
  · subst hc
    obtain rfl : j = 0 := Nat.lt_one_iff.mp hj
    rfl
  · exact List.count_eq_zero.mpr fun h => newlineByte_notMem_encodeChar hc (List.mem_of_mem_take h)

/-- **The row of a byte offset** counts the line feeds among the bytes before it. -/
theorem rowAt_charOffset (t : Text) (b : Nat) :
    t.rowAt (t.charOffset b) = (t.encode.take b).count newlineByte := by
  rcases Nat.lt_or_ge b t.byteLength with hb | hb
  · -- the byte belongs to a character
    have hk := charOffset_le_length hb.le
    have hfrom := (le_charOffset_iff hk hb.le).mp le_rfl
    have hto := le_charOffset_iff (t := t) (k := t.charOffset b + 1) (b := b)
    generalize t.charOffset b = k at hk hfrom hto
    have hlt : k < t.length := by
      by_contra hge
      rw [List.take_of_length_le (by omega)] at hfrom
      omega
    have hnext : byteLength (t.take (k + 1)) = byteLength (t.take k) + t[k].utf8Size := by
      rw [List.take_succ_eq_append_getElem hlt, byteLength_append]
      rfl
    have hto := hto hlt hb.le
    obtain ⟨j, rfl⟩ := Nat.exists_eq_add_of_le hfrom
    have hj : j < t[k].utf8Size := by omega
    rw [take_encode_add hlt hj.le, List.count_append, count_encode, count_take_encodeChar hj, rowAt,
      Nat.add_zero]
  · -- from the end on all line feeds are counted
    have hoff : t.length ≤ t.charOffset b := by
      have hend := charOffset_mono t hb
      have hself := charOffset_byteLength_take (t := t) le_rfl
      rw [List.take_length] at hself
      rwa [hself] at hend
    rw [rowAt, List.take_of_length_le hoff,
      List.take_of_length_le (by rw [length_encode]; exact hb), count_encode]

end Text

/-- **The line feeds of a node's text** are those between its first and its last row. -/
theorem Source.count_nodeText (s : Source) (n : Node) :
    (s.nodeText n).count '\n' = s.endRow n - s.row n := by
  rw [nodeText, Text.count_decode, endRow, row, stop, start, Text.rowAt_charOffset,
    Text.rowAt_charOffset]
  rcases Nat.le_total n.start n.stop with hle | hle
  · have hsplit := List.take_append_drop n.start (s.text.encode.take n.stop)
    rw [List.take_take, Nat.min_eq_left hle] at hsplit
    have hcount := congrArg (List.count Text.newlineByte) hsplit
    rw [List.count_append] at hcount
    omega
  · have hnil : (s.text.encode.take n.stop).drop n.start = [] :=
      List.drop_eq_nil_of_le (by rw [List.length_take]; omega)
    have hsub : (s.text.encode.take n.stop).Sublist (s.text.encode.take n.start) :=
      (List.take_prefix_take_left hle).sublist
    have := hsub.count_le Text.newlineByte
    rw [hnil, List.count_nil]
    omega

theorem Source.count_nodeText_eq {s : Source} {n : Node} (h : s.start n ≤ s.stop n) :
    (s.nodeText n).count '\n' = (s.extent n).count '\n' := by
  have := Text.rowAt_add s.text h
  rw [count_nodeText, endRow, row, extent]
  omega

end HouseStyle
