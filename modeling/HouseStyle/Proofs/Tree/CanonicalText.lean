import HouseStyle.Proofs.Tree.Preorder
import HouseStyle.Proofs.Tree.Shape

/-! # What a signature tells

A signature is made of tokens in three steps: they are joined by a separator (`canonicalText`),
encoded and digested, and the digest is written in hexadecimal digits. The last step loses nothing,
and the second one only in a collision of the digest (`signature_eq_iff`).

The first step does lose something. Tokens are joined as they are, and the text of a leaf may hold
the separator. One token then reads like several, and all that the joined text tells is the list of
*pieces* into which separators cut the tokens (`Node.pieces`). A single string can so spell out the
end of its own node and a second string behind it. Between nodes whose texts are free of separators
the pieces are the tokens, and signatures tell nodes apart as far as tokens do. -/

namespace HouseStyle

namespace Text

/-! ### Joining and cutting -/

variable {x : Char} {ws ws' : List Text}

theorem splitOn_joined (x : Char) : ∀ {ws : List Text}, ws ≠ [] →
    List.splitOn x ([x].intercalate ws) = ws.flatMap (List.splitOn x)
  | [w], _ => by simp
  | w :: v :: ws, _ => by
    have ih := splitOn_joined x (List.cons_ne_nil v ws)
    rw [List.intercalate_cons_cons, List.append_assoc, List.singleton_append,
      List.splitOn_append_cons_self, ih, List.flatMap_cons (x := w)]

theorem joined_pieces (x : Char) (ws : List Text) :
    [x].intercalate (ws.flatMap (List.splitOn x)) = [x].intercalate ws := by
  cases ws with
  | nil => rfl
  | cons w ws => rw [← splitOn_joined x (List.cons_ne_nil w ws), List.intercalate_splitOn]

theorem joined_ne_nil {w : Text} (hw : w ≠ []) (x : Char) (ws : List Text) :
    [x].intercalate (w :: ws) ≠ [] := by
  cases ws with
  | nil => simpa using hw
  | cons v ws => simp [List.intercalate_cons_cons]

/-- Texts of which none is empty are joined to the same text exactly if they have the same pieces.
-/
theorem joined_eq_iff (h : [] ∉ ws) (h' : [] ∉ ws') :
    [x].intercalate ws = [x].intercalate ws' ↔
      ws.flatMap (List.splitOn x) = ws'.flatMap (List.splitOn x) := by
  -- the pieces follow from the joined text: it is empty for no texts at all, and else it is cut
  have hpieces : ∀ {vs : List Text}, [] ∉ vs → vs.flatMap (List.splitOn x) =
      if [x].intercalate vs = [] then [] else List.splitOn x ([x].intercalate vs) := by
    intro vs hvs
    cases vs with
    | nil => rfl
    | cons v vs =>
      have hv : v ≠ [] := fun hv => hvs (by simp [hv])
      rw [if_neg (joined_ne_nil hv x vs), splitOn_joined x (List.cons_ne_nil v vs)]
  constructor
  · intro heq
    rw [hpieces h, hpieces h', heq]
  · intro heq
    rw [← joined_pieces, heq, joined_pieces]

theorem pieces_eq_self (h : ∀ w ∈ ws, x ∉ w) : ws.flatMap (List.splitOn x) = ws := by
  induction ws with
  | nil => rfl
  | cons w ws ih =>
    have hrest := ih fun v hv => h v (List.mem_cons_of_mem _ hv)
    rw [List.flatMap_cons, List.splitOn_eq_singleton (h w List.mem_cons_self), hrest,
      List.singleton_append]

/-! ### Hexadecimal digits -/

theorem hexDigits_two :
    ∀ n < 256, hexDigits 2 n = [Nat.digitChar (n / 16), Nat.digitChar (n % 16)] := by
  decide +kernel

theorem digitChar_inj : ∀ i < 16, ∀ j < 16, Nat.digitChar i = Nat.digitChar j → i = j := by decide

theorem flatMap_hexDigits_inj : ∀ {bs bs' : List UInt8},
    (bs.flatMap fun b => hexDigits 2 b.toNat) = (bs'.flatMap fun b => hexDigits 2 b.toNat) →
      bs = bs'
  | [], [], _ => rfl
  | [], b' :: _, h => by simp [hexDigits_two b'.toNat b'.toNat_lt] at h
  | b :: _, [], h => by simp [hexDigits_two b.toNat b.toNat_lt] at h
  | b :: bs, b' :: bs', h => by
    have hb := b.toNat_lt
    have hb' := b'.toNat_lt
    rw [List.flatMap_cons, List.flatMap_cons, hexDigits_two _ hb, hexDigits_two _ hb'] at h
    simp only [List.cons_append, List.nil_append, List.cons.injEq] at h
    obtain ⟨hhigh, hlow, hrest⟩ := h
    have hhigh' := digitChar_inj _ (by omega) _ (by omega) hhigh
    have hlow' := digitChar_inj _ (by omega) _ (by omega) hlow
    have hbyte : b = b' := UInt8.toNat_inj.mp (by omega)
    rw [hbyte, flatMap_hexDigits_inj hrest]

theorem encode_inj {t t' : Text} (h : t.encode = t'.encode) : t = t' := by
  rw [← decode_encode t, h, decode_encode]

end Text

/-- Two different messages with one digest. -/
def Sha256.Collision (m m' : List UInt8) : Prop := m ≠ m' ∧ digest m = digest m'

namespace Node

variable {data data' : List UInt8} {n n' m : Node} {w : Text}

/-- **The signature tells the canonical text**, collisions of the digest apart. -/
theorem signature_eq_iff : signature data n = signature data' n' ↔
    canonicalText data n = canonicalText data' n' ∨
      Sha256.Collision (canonicalText data n).encode (canonicalText data' n').encode := by
  constructor
  · intro h
    have hdigest := Text.flatMap_hexDigits_inj h
    by_cases hmessage : (canonicalText data n).encode = (canonicalText data' n').encode
    · exact Or.inl (Text.encode_inj hmessage)
    · exact Or.inr ⟨hmessage, hdigest⟩
  · rintro (h | ⟨-, h⟩)
    · rw [signature, signature, h]
    · rw [signature, signature, h]

/-! ### Tokens and pieces -/

/-- The pieces into which separators cut the tokens of a node. -/
def pieces (data : List UInt8) (n : Node) : List Text :=
  (signatureTokens data n).flatMap (List.splitOn tokenSeparator)

/-- The tokens that can come from a node itself, its children left aside. -/
inductive Writes (data : List UInt8) (m : Node) : Text → Prop where
  | token : Writes data m m.kind.toList
  | leaf : Writes data m (m.kind.toList ++ '=' :: leafText data m.kind m.start m.stop)
  | opening : Writes data m (openMark :: m.kind.toList)
  | closing : Writes data m [closeMark]

theorem mem_allSignatureTokens {ns : List Node} :
    w ∈ allSignatureTokens data ns ↔ ∃ c ∈ ns, w ∈ signatureTokens data c := by
  induction ns with
  | nil => simp [allSignatureTokens]
  | cons c ns ih =>
    rw [allSignatureTokens, List.mem_append, ih]
    simp

theorem exists_writes {n : Node} (h : w ∈ signatureTokens data n) :
    ∃ m ∈ n.nodes, m.Writes data w := by
  have hchild : w ∈ allSignatureTokens data n.children → ∃ m ∈ n.nodes, m.Writes data w := by
    intro hw
    obtain ⟨c, hc, hwc⟩ := mem_allSignatureTokens.mp hw
    obtain ⟨m, hm, hwrites⟩ := exists_writes hwc
    exact ⟨m, mem_nodes_trans hm (mem_nodes_of_mem_children hc), hwrites⟩
  have hself := mem_nodes_self n
  cases n with
  | mk i kind named missing start stop field children =>
    rw [signatureTokens] at h
    split_ifs at h
    · simp at h
    · rw [List.mem_singleton.mp h]
      exact ⟨_, hself, .leaf⟩
    · rcases List.mem_cons.mp h with rfl | h
      · exact ⟨_, hself, .opening⟩
      · rcases List.mem_append.mp h with h | h
        · exact hchild h
        · rw [List.mem_singleton.mp h]
          exact ⟨_, hself, .closing⟩
    · simp at h
    · rw [List.mem_singleton.mp h]
      exact ⟨_, hself, .token⟩
termination_by n.size
decreasing_by exact size_lt_of_mem hc

theorem Writes.ne_nil (h : m.Writes data w) (hkind : m.kind ≠ "") : w ≠ [] := by
  cases h with
  | token => simpa using hkind
  | leaf => simp
  | opening => simp
  | closing => simp

theorem Writes.separator_notMem (h : m.Writes data w) (hkind : tokenSeparator ∉ m.kind.toList)
    (htext : tokenSeparator ∉ leafText data m.kind m.start m.stop) : tokenSeparator ∉ w := by
  have hopen : tokenSeparator ≠ openMark := by decide
  have hclose : tokenSeparator ≠ closeMark := by decide
  have hequals : tokenSeparator ≠ '=' := by decide
  cases h with
  | token => exact hkind
  | leaf => simp [hkind, htext, hequals]
  | opening => simp [hkind, hopen]
  | closing => simp [hclose]

theorem leafText_subset (data : List UInt8) (kind : String) (start stop : Nat) :
    leafText data kind start stop ⊆ Text.decode ((data.take stop).drop start) := by
  rw [leafText]
  split_ifs
  · rw [Text.inner]
    exact List.Subset.trans (List.dropLast_subset _) (List.tail_sublist _).subset
  · exact List.Subset.refl _

end Node

/-! ### Nodes of sources -/

/-- Whether the kinds of a well-formed tree can be tokens: none is empty, and none holds a
separator. -/
structure Source.Legible (s : Source) : Prop where
  wellFormed : s.WellFormed
  kinds : ∀ n ∈ s.root.nodes, n.kind ≠ "" ∧ Node.tokenSeparator ∉ n.kind.toList

instance (s : Source) : Decidable s.Legible :=
  decidable_of_iff (_ ∧ _) ⟨fun ⟨h1, h2⟩ => ⟨h1, h2⟩, fun h => ⟨h.1, h.2⟩⟩

namespace Source.Legible

open Node

variable {s s' : Source} {n n' m : Node} (hs : s.Legible)
include hs

theorem nil_notMem_tokens (hn : n ∈ s.root.nodes) : [] ∉ signatureTokens s.text.encode n := by
  intro h
  obtain ⟨m, hm, hwrites⟩ := exists_writes h
  exact hwrites.ne_nil (hs.kinds m (mem_nodes_trans hm hn)).1 rfl

theorem leafText_subset_extent (hn : n ∈ s.root.nodes) (hm : m ∈ n.nodes) :
    leafText s.text.encode m.kind m.start m.stop ⊆ s.extent n := by
  have hsound := hs.wellFormed m (mem_nodes_trans hm hn)
  have hbounds := bounds_of_mem_nodes hs.wellFormed hn hm
  have hinner : s.extent m ⊆ s.extent n :=
    (Text.slice_infix_slice s.text hbounds.1 hsound.ordered hbounds.2).subset
  have hleaf := leafText_subset s.text.encode m.kind m.start m.stop
  rw [show Text.decode _ = s.extent m from hsound.nodeText] at hleaf
  exact List.Subset.trans hleaf hinner

theorem separator_notMem_tokens (hn : n ∈ s.root.nodes) (htext : tokenSeparator ∉ s.extent n) :
    ∀ w ∈ signatureTokens s.text.encode n, tokenSeparator ∉ w := by
  intro w hw
  obtain ⟨m, hm, hwrites⟩ := exists_writes hw
  have hkind := (hs.kinds m (mem_nodes_trans hm hn)).2
  exact hwrites.separator_notMem hkind fun hx => htext (hs.leafText_subset_extent hn hm hx)

theorem pieces_eq_tokens (hn : n ∈ s.root.nodes) (htext : tokenSeparator ∉ s.extent n) :
    n.pieces s.text.encode = signatureTokens s.text.encode n :=
  Text.pieces_eq_self (hs.separator_notMem_tokens hn htext)

theorem canonicalText_eq_iff (hs' : s'.Legible) (hn : n ∈ s.root.nodes) (hn' : n' ∈ s'.root.nodes) :
    n.canonicalText s.text.encode = n'.canonicalText s'.text.encode ↔
      n.pieces s.text.encode = n'.pieces s'.text.encode :=
  Text.joined_eq_iff (hs.nil_notMem_tokens hn) (hs'.nil_notMem_tokens hn')

/-- **What canonical texts and signatures tell.** The canonical texts of two nodes, of whatever
sources, are equal exactly if separators cut their tokens into the same pieces. If the texts of both
nodes are free of separators, then they are equal exactly if the tokens are, and so are the
signatures unless the digest collides. -/
theorem signature_tells_tokens (hs' : s'.Legible) (hn : n ∈ s.root.nodes)
    (hn' : n' ∈ s'.root.nodes) :
    (n.canonicalText s.text.encode = n'.canonicalText s'.text.encode ↔
      n.pieces s.text.encode = n'.pieces s'.text.encode) ∧
    (tokenSeparator ∉ s.extent n → tokenSeparator ∉ s'.extent n' →
      (n.canonicalText s.text.encode = n'.canonicalText s'.text.encode ↔
        signatureTokens s.text.encode n = signatureTokens s'.text.encode n') ∧
      (¬ Sha256.Collision (n.canonicalText s.text.encode).encode
        (n'.canonicalText s'.text.encode).encode →
        (n.signature s.text.encode = n'.signature s'.text.encode ↔
          signatureTokens s.text.encode n = signatureTokens s'.text.encode n'))) := by
  have hcanonical := hs.canonicalText_eq_iff hs' hn hn'
  refine ⟨hcanonical, fun htext htext' => ?_⟩
  rw [hs.pieces_eq_tokens hn htext, hs'.pieces_eq_tokens hn' htext'] at hcanonical
  refine ⟨hcanonical, fun hfree => ?_⟩
  rw [signature_eq_iff, or_iff_left hfree, hcanonical]

end Source.Legible

namespace Node

/-- One call in two layouts: neither text has a separator, so that the canonical texts and the
signatures are equal because the tokens are. -/
theorem signature_tells_tokens_looseCall :
    (⟨tightCall.1, tightCall.2, false⟩ : Source).Legible ∧
      (⟨looseCall.1, looseCall.2, false⟩ : Source).Legible ∧
      signatureTokens tightCall.1.encode tightCall.2 =
        signatureTokens looseCall.1.encode looseCall.2 ∧
      tightCall.2.signature tightCall.1.encode = looseCall.2.signature looseCall.1.encode := by
  have htight : (⟨tightCall.1, tightCall.2, false⟩ : Source).Legible := by decide +kernel
  have hloose : (⟨looseCall.1, looseCall.2, false⟩ : Source).Legible := by decide +kernel
  have htokens : signatureTokens tightCall.1.encode tightCall.2 =
      signatureTokens looseCall.1.encode looseCall.2 := by decide +kernel
  obtain ⟨hcanonical, hsignature⟩ :=
    (htight.signature_tells_tokens hloose (mem_nodes_self tightCall.2)
    (mem_nodes_self looseCall.2)).2 (by decide +kernel) (by decide +kernel)
  refine ⟨htight, hloose, htokens, (hsignature ?_).mpr htokens⟩
  rintro ⟨hne, -⟩
  exact hne (congrArg Text.encode (hcanonical.mpr htokens))

/-- An array of two strings. -/
def twoStrings : Source :=
  ⟨"['x','y']".toList,
    .construct 0 "array" 0 9 none
      [.token 1 "[" 0 1,
        .construct 2 "string" 1 4 none
          [.token 3 "'" 1 2, .construct 4 "string_fragment" 2 3 none [], .token 5 "'" 3 4],
        .token 6 "," 4 5,
        .construct 7 "string" 5 8 none
          [.token 8 "'" 5 6, .construct 9 "string_fragment" 6 7 none [], .token 10 "'" 7 8],
        .token 11 "]" 8 9],
    false⟩

/-- An array of one string, which spells out the end of a string and a second one, separators
included. -/
def oneString : Source :=
  ⟨"['x\x1f\x03\x1f\x02string\x1fstring_fragment=y']".toList,
    .construct 0 "array" 0 33 none
      [.token 1 "[" 0 1,
        .construct 2 "string" 1 32 none
          [.token 3 "'" 1 2, .construct 4 "string_fragment" 2 31 none [], .token 5 "'" 31 32],
        .token 6 "]" 32 33],
    false⟩

/-- **Different tokens, one signature**: separators in a string pass for separators between tokens.
-/
theorem signature_of_separators :
    twoStrings.Legible ∧ oneString.Legible ∧
      Alphabet.latin.Spells twoStrings.root ∧ Alphabet.latin.Spells oneString.root ∧
      signatureTokens twoStrings.text.encode twoStrings.root ≠
        signatureTokens oneString.text.encode oneString.root ∧
      twoStrings.root.canonicalText twoStrings.text.encode =
        oneString.root.canonicalText oneString.text.encode ∧
      twoStrings.root.signature twoStrings.text.encode =
        oneString.root.signature oneString.text.encode := by
  have hcanonical : twoStrings.root.canonicalText twoStrings.text.encode =
      oneString.root.canonicalText oneString.text.encode := by decide +kernel
  refine ⟨by decide +kernel, by decide +kernel, by decide +kernel, by decide +kernel,
    by decide +kernel, hcanonical, ?_⟩
  rw [signature, signature, hcanonical]

end Node

end HouseStyle
