import HouseStyle.Proofs.Tree.WellFormed
import Mathlib.Data.List.GetD
import Mathlib.Order.Monotone.Basic

/-! # Byte offsets as character offsets

Trees count bytes and texts count characters. One equivalence says what `charOffset` does with every
byte offset of a text, also with those inside a character: it is at least `k` exactly if the first
`k` characters end at or before the byte (`le_charOffset_iff`). Hence it is monotone
(`charOffset_mono`), a byte inside a character leads to that character
(`charOffset_byteLength_take_add`), and texts of single-byte characters, for which no index is made,
need none, since the index would lead every byte to itself (`charOffset_eq_getD`).

With the round trip through bytes (`decode_bytes_eq_slice`) this gives `Source.offsets_agree`:
cutting bytes and decoding them is the same as cutting characters. -/

namespace HouseStyle

namespace Text

/-! ### The index -/

theorem getD_charIndex_of_lt {c : Char} {b : Nat} (h : b < c.utf8Size) (t : Text) (i d : Nat) :
    (charIndex i (c :: t)).getD b d = i := by
  have hlen : b < (List.replicate c.utf8Size i).length := by rwa [List.length_replicate]
  rw [charIndex, List.getD_append _ _ _ _ hlen, List.getD_eq_getElem _ _ hlen,
    List.getElem_replicate]

theorem getD_charIndex_add (c : Char) (b : Nat) (t : Text) (i d : Nat) :
    (charIndex i (c :: t)).getD (c.utf8Size + b) d = (charIndex (i + 1) t).getD b d := by
  have hlen : (List.replicate c.utf8Size i).length = c.utf8Size := List.length_replicate
  rw [charIndex, List.getD_append_right _ _ _ _ (by omega), hlen, Nat.add_sub_cancel_left]

theorem length_charIndex : ∀ (t : Text) (i : Nat), (charIndex i t).length = t.byteLength + 1
  | [], _ => rfl
  | c :: t, i => by
    rw [charIndex, List.length_append, List.length_replicate, length_charIndex t, byteLength_cons,
      Nat.add_assoc]

theorem getD_charIndex_le {d : Nat} : ∀ {t : Text} {i b : Nat}, d ≤ i + t.length →
    (charIndex i t).getD b d ≤ i + t.length
  | [], i, 0, _ => le_rfl
  | [], i, b + 1, h => h
  | c :: t, i, b, h => by
    rcases Nat.lt_or_ge b c.utf8Size with hb | hb
    · rw [getD_charIndex_of_lt hb]
      exact Nat.le_add_right _ _
    · obtain ⟨b', rfl⟩ := Nat.exists_eq_add_of_le hb
      have ih := getD_charIndex_le (t := t) (i := i + 1) (b := b') (d := d)
        (by rw [List.length_cons] at h; omega)
      rw [getD_charIndex_add, List.length_cons]
      omega

/-- **What the index says of a byte**: it reaches the number `i + k` exactly if `k` characters end
at or before the byte. -/
theorem le_getD_charIndex_iff (d : Nat) :
    ∀ {t : Text} {i k b : Nat}, k ≤ t.length → b ≤ t.byteLength →
    (i + k ≤ (charIndex i t).getD b d ↔ byteLength (t.take k) ≤ b)
  | [], i, k, b, hk, hb => by
    obtain rfl : k = 0 := by simpa using hk
    obtain rfl : b = 0 := by simpa [byteLength] using hb
    exact ⟨fun _ => le_rfl, fun _ => le_rfl⟩
  | c :: t, i, k, b, hk, hb => by
    rcases Nat.lt_or_ge b c.utf8Size with hlt | hge
    · -- the byte belongs to the first character
      rw [getD_charIndex_of_lt hlt]
      cases k with
      | zero => exact ⟨fun _ => Nat.zero_le _, fun _ => le_rfl⟩
      | succ k =>
        rw [List.take_succ_cons, byteLength_cons]
        omega
    · obtain ⟨b', rfl⟩ := Nat.exists_eq_add_of_le hge
      have hb' : b' ≤ byteLength t := by rw [byteLength_cons] at hb; omega
      rw [getD_charIndex_add]
      cases k with
      | zero =>
        have ih :=
            (le_getD_charIndex_iff d (i := i + 1) (t := t) (Nat.zero_le _) hb').mpr (Nat.zero_le _)
        exact ⟨fun _ => Nat.zero_le _, fun _ => by omega⟩
      | succ k =>
        have ih := le_getD_charIndex_iff d (i := i + 1) (Nat.le_of_succ_le_succ hk) hb'
        rw [List.take_succ_cons, byteLength_cons, show i + (k + 1) = i + 1 + k by omega, ih]
        omega

/-! ### Offsets -/

variable {t : Text}

/-- **No index is needed for single bytes**: with or without it, `charOffset` is what the index
says. -/
theorem charOffset_eq_getD {b : Nat} (hb : b ≤ t.byteLength) :
    t.charOffset b = (charIndex 0 t).getD b t.length := by
  unfold charOffset
  split_ifs with h
  · have hlen : b ≤ t.length := h ▸ hb
    have hindex := getD_charIndex t.length t 0 b hlen
    rw [byteLength_take_of_ascii h hlen, Nat.zero_add] at hindex
    exact hindex.symm
  · rfl

theorem charOffset_le_length {b : Nat} (hb : b ≤ t.byteLength) : t.charOffset b ≤ t.length := by
  have h := getD_charIndex_le (t := t) (i := 0) (b := b) (d := t.length) (by omega)
  rw [charOffset_eq_getD hb]
  omega

theorem charOffset_of_byteLength_lt {b : Nat} (h : t.byteLength ≠ t.length)
    (hb : t.byteLength < b) :
    t.charOffset b = t.length := by
  have hlen := length_charIndex t 0
  rw [charOffset, if_neg h, List.getD_eq_default _ _ (by omega)]

/-- **The character of a byte**: `k` characters or more precede it exactly if the first `k` end at
or before the byte. -/
theorem le_charOffset_iff {k b : Nat} (hk : k ≤ t.length) (hb : b ≤ t.byteLength) :
    k ≤ t.charOffset b ↔ byteLength (t.take k) ≤ b := by
  have h := le_getD_charIndex_iff t.length (i := 0) hk hb
  rw [Nat.zero_add] at h
  rw [charOffset_eq_getD hb, h]

theorem byteLength_take_le (t : Text) (k : Nat) : byteLength (t.take k) ≤ t.byteLength := by
  have h := byteLength_append (t.take k) (t.drop k)
  rw [List.take_append_drop] at h
  omega

/-- **A byte inside a character** leads to that character. -/
theorem charOffset_byteLength_take_add {k j : Nat} {c : Char} (hc : t[k]? = some c)
    (hj : j < c.utf8Size) : t.charOffset (byteLength (t.take k) + j) = k := by
  obtain ⟨hk, rfl⟩ := List.getElem?_eq_some_iff.mp hc
  have hnext : byteLength (t.take (k + 1)) = byteLength (t.take k) + t[k].utf8Size := by
    rw [List.take_succ_eq_append_getElem hk, byteLength_append]
    rfl
  have hle := byteLength_take_le t (k + 1)
  have hbound : byteLength (t.take k) + j ≤ t.byteLength := by omega
  have hfrom := (le_charOffset_iff hk.le hbound).mpr (Nat.le_add_right _ _)
  have hto : ¬ k + 1 ≤ t.charOffset (byteLength (t.take k) + j) := by
    rw [le_charOffset_iff (k := k + 1) hk hbound]
    omega
  omega

theorem charOffset_mono (t : Text) : Monotone t.charOffset := by
  intro a b hab
  by_cases hascii : t.byteLength = t.length
  · simpa only [charOffset, if_pos hascii] using hab
  rcases Nat.lt_or_ge t.byteLength b with hb | hb
  · rw [charOffset_of_byteLength_lt hascii hb]
    rcases Nat.lt_or_ge t.byteLength a with ha | ha
    · rw [charOffset_of_byteLength_lt hascii ha]
    · exact charOffset_le_length ha
  · have ha := hab.trans hb
    have hself := (le_charOffset_iff (charOffset_le_length ha) ha).mp le_rfl
    exact (le_charOffset_iff (charOffset_le_length ha) hb).mpr (hself.trans hab)

theorem length_decode_take {a : Nat} (ha : t.IsBoundary a) :
    (decode (t.encode.take a)).length = t.charOffset a := by
  have hzero : t.IsBoundary 0 := ⟨0, Nat.succ_pos _, rfl⟩
  have hcut := decode_bytes_eq_slice hzero ha
  have hfirst : t.charOffset 0 = 0 := charOffset_byteLength_take (Nat.zero_le t.length)
  rw [List.drop_zero, hfirst] at hcut
  rw [hcut, length_slice (charOffset_le_of_boundary ha), Nat.sub_zero]

end Text

namespace Source

open Text

/-- **Byte and character positions agree.** At a boundary the offset counts the characters that are
encoded before it, and between two boundaries the bytes decode to the slice between their offsets;
so the text of a node is the slice of its range. The short way for texts of single-byte characters
gives what the index gives, on all offsets up to the end of the bytes; a byte inside a character
leads to that character; and larger byte offsets have larger character offsets. -/
theorem offsets_agree (s : Source) :
    (∀ a b, a ≤ b → s.text.IsBoundary a → s.text.IsBoundary b →
      s.text.charOffset a = (decode (s.text.encode.take a)).length ∧
      s.text.slice (s.text.charOffset a) (s.text.charOffset b) =
        decode ((s.text.encode.take b).drop a)) ∧
    (∀ n : Node, s.text.IsBoundary n.start → s.text.IsBoundary n.stop →
      s.nodeText n = s.text.slice (s.start n) (s.stop n)) ∧
    (∀ b ≤ s.text.encode.length, s.text.charOffset b = (charIndex 0 s.text).getD b s.text.length) ∧
    (∀ k c, s.text[k]? = some c → ∀ j < c.utf8Size,
      s.text.charOffset ((encode (s.text.take k)).length + j) = k) ∧
    Monotone s.text.charOffset := by
  refine ⟨fun a b _ ha hb => ?_, fun n ha hb => ?_, fun b hb => ?_, fun k c hc j hj => ?_,
    charOffset_mono s.text⟩
  · exact ⟨(length_decode_take ha).symm, (decode_bytes_eq_slice ha hb).symm⟩
  · exact decode_bytes_eq_slice ha hb
  · rw [length_encode] at hb
    exact charOffset_eq_getD hb
  · rw [length_encode]
    exact charOffset_byteLength_take_add hc hj

/-- Four characters of one, two, four and three bytes. -/
def mixedWidths : Text := ['n', 'é', '😀', '→']

/-- In a text of mixed widths, a node behind one character of two bytes is cut out alike in both
ways, and the third byte of the next character leads to it. -/
theorem offsets_agree_mixedWidths :
    mixedWidths.IsBoundary 1 ∧ mixedWidths.IsBoundary 7 ∧
      (Source.mk mixedWidths (Node.token 0 "" 1 7) false).nodeText (Node.token 1 "" 1 7) =
        ['é', '😀'] ∧
      mixedWidths.slice (mixedWidths.charOffset 1) (mixedWidths.charOffset 7) =
        decode ((mixedWidths.encode.take 7).drop 1) ∧
      mixedWidths.charOffset 5 = 2 ∧ mixedWidths.charOffset 5 ≤ mixedWidths.charOffset 7 := by
  have ha : mixedWidths.IsBoundary 1 := by decide
  have hb : mixedWidths.IsBoundary 7 := by decide
  obtain ⟨hcut, hnode, -, hinside, hmono⟩ :=
    offsets_agree ⟨mixedWidths, Node.token 0 "" 1 7, false⟩
  refine ⟨ha, hb, ?_, (hcut 1 7 (by decide) ha hb).2, hinside 2 '😀' rfl 2 (by decide),
    hmono (by decide)⟩
  exact (hnode (Node.token 1 "" 1 7) ha hb).trans (by decide)

end Source

end HouseStyle
