import HouseStyle.Proofs.Tree.WellFormed
import HouseStyle.Tree.Signature

/-! # Shapes and signatures

The *shape* of a node is its tree without layout: without positions, comments and bare punctuation,
with the text of its leaves (`Node.shape?`). A signature is a digest of tokens, and the tokens say
exactly what the shape is: two nodes have the same tokens if and only if they have the same shape
(`signatureTokens_eq_iff`).

That the tokens follow from the shape is seen by writing the shape (`Node.signatureTokens_eq`). For
the converse a list of tokens has to be read in one way only. The first token tells an operator, a
leaf and a construct apart, and a leaf's kind from its text (`Shape.eq_of_first_eq`); no first token
is the closing mark, so the end of a construct is found (`Shape.first_ne_closeMark`). Both need
kinds that are spelled as in a grammar: named ones are words, and tokens neither hold control
characters nor look like a leaf (`Alphabet.Spells`). -/

namespace HouseStyle

/-! ### Spelling of kinds -/

/-- Whether a character is a control character. -/
def Text.isControl (c : Char) : Bool := c.toNat < 0x20 || (0x7f ≤ c.toNat && c.toNat ≤ 0x9f)

/-- The letters that kinds of constructs are spelled with, whatever they are: the equals sign is
none of them, and no control character is. -/
structure Alphabet where
  letter : Char → Bool
  equals_not_letter : letter '=' = false
  control_not_letter : ∀ c, Text.isControl c = true → letter c = false

namespace Alphabet

variable (α : Alphabet)

/-- The letters of the Latin alphabet, which the grammars use. -/
def latin : Alphabet where
  letter := Char.isAlpha
  equals_not_letter := by decide
  control_not_letter c h := by
    rw [Text.isControl, Bool.or_eq_true, Bool.and_eq_true, decide_eq_true_eq, decide_eq_true_eq,
      decide_eq_true_eq] at h
    have hupper : ¬ ('A'.toNat ≤ c.toNat ∧ c.toNat ≤ 'Z'.toNat) := by
      rw [show 'A'.toNat = 65 from rfl, show 'Z'.toNat = 90 from rfl]
      omega
    have hlower : ¬ ('a'.toNat ≤ c.toNat ∧ c.toNat ≤ 'z'.toNat) := by
      rw [show 'a'.toNat = 97 from rfl, show 'z'.toNat = 122 from rfl]
      omega
    refine Bool.or_eq_false_iff.mpr ⟨decide_eq_false hupper, ?_⟩
    exact Bool.eq_false_iff.mpr fun hz =>
      hlower ⟨of_decide_eq_true (Bool.and_eq_true_iff.mp hz).1,
        of_decide_eq_true (Bool.and_eq_true_iff.mp hz).2⟩

/-- Letters and the underscore. -/
def wordChar (c : Char) : Bool := α.letter c || c == '_'

/-- Whether a text is a word: one or more letters and underscores. -/
def isWord (t : Text) : Bool := !t.isEmpty && t.all α.wordChar

/-- Whether a text begins with a word that an equals sign follows. -/
def opensLikeLeaf (t : Text) : Bool :=
  !(t.takeWhile α.wordChar).isEmpty && (t.dropWhile α.wordChar).head? == some '='

/-- Whether a text can be a token: it has no control character and does not look like a leaf. -/
def isPlain (t : Text) : Bool := !t.any Text.isControl && !α.opensLikeLeaf t

/-- Whether all kinds in a tree are spelled as in a grammar: named ones are words, and the others
are plain. -/
def Spells (n : Node) : Prop :=
  ∀ m ∈ n.nodes, if m.named then α.isWord m.kind.toList = true else α.isPlain m.kind.toList = true

instance (n : Node) : Decidable (α.Spells n) := by unfold Spells; infer_instance

variable {α} {w w' t t' : Text}

theorem wordChar_equals : α.wordChar '=' = false := by
  rw [wordChar, α.equals_not_letter]
  rfl

theorem isControl_of_wordChar {c : Char} (h : α.wordChar c = true) : Text.isControl c = false := by
  rw [wordChar, Bool.or_eq_true, beq_iff_eq] at h
  rcases h with h | rfl
  · by_contra hc
    rw [α.control_not_letter c (by simpa using hc)] at h
    cases h
  · decide

theorem takeWhile_isWord (h : α.isWord w = true) (t : Text) :
    (w ++ '=' :: t).takeWhile α.wordChar = w ∧ (w ++ '=' :: t).dropWhile α.wordChar = '=' :: t := by
  rw [isWord, Bool.and_eq_true, List.all_eq_true] at h
  rw [List.takeWhile_append_of_pos h.2, List.dropWhile_append_of_pos h.2,
    List.takeWhile_cons_of_neg (by simp [wordChar_equals]),
    List.dropWhile_cons_of_neg (by simp [wordChar_equals]), List.append_nil]
  exact ⟨rfl, rfl⟩

theorem word_append_inj (h : α.isWord w = true) (h' : α.isWord w' = true)
    (heq : w ++ '=' :: t = w' ++ '=' :: t') : w = w' ∧ t = t' := by
  obtain ⟨hw, ht⟩ := takeWhile_isWord h t
  obtain ⟨hw', ht'⟩ := takeWhile_isWord h' t'
  rw [heq] at hw ht
  exact ⟨hw.symm.trans hw', List.tail_eq_of_cons_eq (ht.symm.trans ht')⟩

theorem not_isPlain_leaf (h : α.isWord w = true) (t : Text) :
    α.isPlain (w ++ '=' :: t) = false := by
  obtain ⟨hw, ht⟩ := takeWhile_isWord h t
  rw [isWord, Bool.and_eq_true] at h
  rw [isPlain, opensLikeLeaf, hw, ht, h.1]
  simp

theorem isWord_ne_cons {c : Char} (hc : Text.isControl c = true) (h : α.isWord w = true)
    (t : Text) : w ++ '=' :: t ≠ c :: t' := by
  intro heq
  cases w with
  | nil => simp [isWord] at h
  | cons a w =>
    rw [List.cons_append, List.cons.injEq] at heq
    rw [isWord, Bool.and_eq_true, List.all_cons, Bool.and_eq_true, heq.1] at h
    rw [isControl_of_wordChar h.2.1] at hc
    cases hc

theorem isPlain_ne_cons {c : Char} (hc : Text.isControl c = true) (h : α.isPlain t = true) :
    t ≠ c :: t' := by
  rintro rfl
  simp [isPlain, hc] at h

end Alphabet

/-! ### Shapes -/

/-- The shape of a construct: an operator or keyword, a leaf with its text, or a construct of parts.
-/
inductive Shape where
  | token (kind : String)
  | leaf (kind : String) (text : Text)
  | construct (kind : String) (parts : List Shape)

namespace Node

mutual

/-- The shape of a node, if anything is left of it. Comments and ignored punctuation are dropped,
and other tokens are kept. A named node with nothing but comments in it is a leaf, and so is a
string with no named children but comments; it has its text, and a string of two characters or more
has it without the first and the last one. Every other named node has the shapes of its children. -/
def shape? (data : List UInt8) : Node → Option Shape
  | ⟨_, kind, named, _, start, stop, _, children⟩ =>
    if kind = "comment" then none
    else if named then
      if (∀ c ∈ children, c.isComment = true) ∨
          (kind = "string" ∧ ∀ c ∈ children, c.isComment = true ∨ c.named = false) then
        let text := Text.decode ((data.take stop).drop start)
        some (.leaf kind
          (if kind = "string" ∧ 2 ≤ text.length then text.slice 1 (text.length - 1) else text))
      else some (.construct kind (shapes data children))
    else if kind ∈ ignoredTokens then none
    else some (.token kind)

/-- The shapes of several nodes, one after the other. -/
def shapes (data : List UInt8) : List Node → List Shape
  | [] => []
  | n :: ns => (shape? data n).toList ++ shapes data ns

end

theorem mem_shapes {data : List UInt8} {s : Shape} : ∀ {ns : List Node},
    s ∈ shapes data ns ↔ ∃ n ∈ ns, n.shape? data = some s
  | [] => by simp [shapes]
  | n :: ns => by
    rw [shapes, List.mem_append, mem_shapes, Option.mem_toList]
    simp

end Node

namespace Shape

open Node

mutual

/-- A shape written as tokens. -/
def tokens : Shape → List Text
  | token kind => [kind.toList]
  | leaf kind text => [kind.toList ++ '=' :: text]
  | construct kind parts => (openMark :: kind.toList) :: (allTokens parts ++ [[closeMark]])

/-- Several shapes written as tokens. -/
def allTokens : List Shape → List Text
  | [] => []
  | s :: ss => s.tokens ++ allTokens ss

end

end Shape

namespace Node

/-! ### From shapes to tokens -/

theorem isLeaf_iff {kind : String} {children : List Node} : isLeaf kind children = true ↔
    (∀ c ∈ children, c.isComment = true) ∨
      (kind = "string" ∧ ∀ c ∈ children, c.isComment = true ∨ c.named = false) := by
  simp only [isLeaf, Bool.or_eq_true, Bool.and_eq_true, List.isEmpty_iff, List.filter_eq_nil_iff,
    Bool.not_eq_true', Bool.not_eq_false, beq_iff_eq, List.any_eq_false, List.mem_filter, and_imp,
    Bool.not_eq_true]
  refine or_congr Iff.rfl (and_congr_right fun _ => forall₂_congr fun c _ => ?_)
  cases c.isComment <;> simp

theorem leafText_eq (data : List UInt8) (kind : String) (start stop : Nat) :
    leafText data kind start stop =
      let text := Text.decode ((data.take stop).drop start)
      if kind = "string" ∧ 2 ≤ text.length then text.slice 1 (text.length - 1) else text := by
  have hinner : ∀ t : Text, t.inner = t.slice 1 (t.length - 1) := by
    intro t
    rw [Text.inner, Text.slice, List.dropLast_eq_take, List.length_tail, List.drop_one]
  simp only [leafText, hinner]

mutual

/-- **The tokens of a node are those of its shape**; what leaves no shape leaves no tokens. -/
theorem signatureTokens_eq (data : List UInt8) : ∀ n : Node,
    signatureTokens data n = Shape.allTokens (n.shape? data).toList
  | ⟨_, kind, named, _, start, stop, _, children⟩ => by
    have hchildren := allSignatureTokens_eq data children
    rw [signatureTokens, shape?]
    simp only [isLeaf_iff, leafText_eq, List.contains_iff_mem, hchildren]
    split_ifs
    all_goals simp [Shape.allTokens, Shape.tokens]

theorem allSignatureTokens_eq (data : List UInt8) : ∀ ns : List Node,
    allSignatureTokens data ns = Shape.allTokens (shapes data ns)
  | [] => rfl
  | n :: ns => by
    have hfirst := signatureTokens_eq data n
    have hrest := allSignatureTokens_eq data ns
    rw [allSignatureTokens, shapes, hfirst, hrest]
    cases n.shape? data with
    | none => rfl
    | some s => simp [Shape.allTokens]

end

end Node

/-! ### From tokens to shapes -/

namespace Shape

open Node

/-- A shape whose kinds are spelled as in a grammar. -/
inductive Spelled (α : Alphabet) : Shape → Prop where
  | token {kind : String} : α.isPlain kind.toList = true → Spelled α (token kind)
  | leaf {kind : String} {text : Text} : α.isWord kind.toList = true → Spelled α (leaf kind text)
  | construct {kind : String} {parts : List Shape} : α.isWord kind.toList = true →
      (∀ s ∈ parts, Spelled α s) → Spelled α (construct kind parts)

/-- The first token of a shape. -/
def first : Shape → Text
  | token kind => kind.toList
  | leaf kind text => kind.toList ++ '=' :: text
  | construct kind _ => openMark :: kind.toList

/-- The tokens of a shape behind the first. -/
def others : Shape → List Text
  | token _ => []
  | leaf _ _ => []
  | construct _ parts => allTokens parts ++ [[closeMark]]

theorem tokens_eq (s : Shape) : s.tokens = s.first :: s.others := by
  cases s <;> simp [tokens, first, others]

variable {α : Alphabet} {s s' : Shape}

theorem first_ne_closeMark (hs : s.Spelled α) : s.first ≠ [closeMark] := by
  cases hs with
  | token h => exact Alphabet.isPlain_ne_cons (by decide) h
  | leaf h => exact Alphabet.isWord_ne_cons (by decide) h _
  | construct h _ =>
    intro heq
    exact absurd (List.cons.inj heq).1 (by decide)

/-- **The first token** tells what a shape is, up to the parts of a construct. -/
theorem eq_of_first_eq (hs : s.Spelled α) (hs' : s'.Spelled α) (h : s.first = s'.first) :
    s = s' ∨ ∃ kind parts parts', s = construct kind parts ∧ s' = construct kind parts' := by
  cases hs with
  | token hk =>
    cases hs' with
    | token hk' => exact Or.inl (by rw [String.toList_inj.mp h])
    | leaf hk' =>
      rw [first, first] at h
      rw [h, Alphabet.not_isPlain_leaf hk'] at hk
      cases hk
    | construct _ _ => exact absurd h (Alphabet.isPlain_ne_cons (by decide) hk)
  | leaf hk =>
    cases hs' with
    | token hk' =>
      rw [first, first] at h
      rw [← h, Alphabet.not_isPlain_leaf hk] at hk'
      cases hk'
    | leaf hk' =>
      obtain ⟨hkind, htext⟩ := Alphabet.word_append_inj hk hk' h
      exact Or.inl (by rw [String.toList_inj.mp hkind, htext])
    | construct _ _ => exact absurd h (Alphabet.isWord_ne_cons (by decide) hk _)
  | construct hk hparts =>
    cases hs' with
    | token hk' => exact absurd h.symm (Alphabet.isPlain_ne_cons (by decide) hk')
    | leaf hk' => exact absurd h.symm (Alphabet.isWord_ne_cons (by decide) hk' _)
    | construct hk' hparts' =>
      rw [String.toList_inj.mp (List.cons.inj h).2]
      exact Or.inr ⟨_, _, _, rfl, rfl⟩

mutual

/-- **A shape can be read off its tokens**, whatever follows them. -/
theorem tokens_append_inj : ∀ {s s' : Shape} {rest rest' : List Text}, s.Spelled α → s'.Spelled α →
    s.tokens ++ rest = s'.tokens ++ rest' → s = s' ∧ rest = rest'
  | s, s', rest, rest', hs, hs', h => by
    rw [tokens_eq, tokens_eq, List.cons_append, List.cons_append, List.cons.injEq] at h
    rcases eq_of_first_eq hs hs' h.1 with rfl | ⟨kind, parts, parts', rfl, rfl⟩
    · exact ⟨rfl, List.append_cancel_left h.2⟩
    · cases hs with
      | construct _ hparts =>
        cases hs' with
        | construct _ hparts' =>
          simp only [others, List.append_assoc, List.cons_append, List.nil_append] at h
          obtain ⟨rfl, hrest⟩ := allTokens_append_inj hparts hparts' h.2
          exact ⟨rfl, hrest⟩

theorem allTokens_append_inj : ∀ {ss ss' : List Shape} {rest rest' : List Text},
    (∀ s ∈ ss, s.Spelled α) → (∀ s ∈ ss', s.Spelled α) →
    allTokens ss ++ [closeMark] :: rest = allTokens ss' ++ [closeMark] :: rest' →
      ss = ss' ∧ rest = rest'
  | [], [], _, _, _, _, h => ⟨rfl, (List.cons.inj h).2⟩
  | [], s' :: ss', _, _, _, hss', h => by
    rw [allTokens, allTokens, tokens_eq] at h
    exact absurd (List.cons.inj h).1.symm (first_ne_closeMark (hss' s' List.mem_cons_self))
  | s :: ss, [], _, _, hss, _, h => by
    rw [allTokens, allTokens, tokens_eq] at h
    exact absurd (List.cons.inj h).1 (first_ne_closeMark (hss s List.mem_cons_self))
  | s :: ss, s' :: ss', rest, rest', hss, hss', h => by
    rw [allTokens, allTokens, List.append_assoc, List.append_assoc] at h
    obtain ⟨rfl, hmore⟩ :=
      tokens_append_inj (hss s List.mem_cons_self) (hss' s' List.mem_cons_self) h
    obtain ⟨rfl, hrest⟩ := allTokens_append_inj (fun x hx => hss x (List.mem_cons_of_mem _ hx))
      (fun x hx => hss' x (List.mem_cons_of_mem _ hx)) hmore
    exact ⟨rfl, hrest⟩

end

end Shape

namespace Node

variable {α : Alphabet} {data data' : List UInt8} {n n' : Node}

theorem spells_child {c : Node} (hn : α.Spells n) (hc : c ∈ n.children) : α.Spells c := fun m hm =>
  hn m (mem_nodes_trans hm (mem_nodes_of_mem_children hc))

theorem spelled_shape? {n : Node} {s : Shape} (hn : α.Spells n) (h : n.shape? data = some s) :
    s.Spelled α := by
  have hself := hn n (mem_nodes_self n)
  have hparts : ∀ x ∈ shapes data n.children, x.Spelled α := by
    intro x hx
    obtain ⟨c, hc, hcx⟩ := mem_shapes.mp hx
    exact spelled_shape? (spells_child hn hc) hcx
  cases n with
  | mk i kind named missing start stop field children =>
    rw [shape?] at h
    dsimp only at hself
    split_ifs at h hself
    · cases h
      exact .leaf hself
    · cases h
      exact .construct hself hparts
    · cases h
      exact .token hself
termination_by n.size
decreasing_by exact size_lt_of_mem hc

/-- **The tokens of a signature are the shape.** Two nodes, of whatever sources, have the same
tokens if and only if they have the same shape, provided that kinds are spelled as in a grammar. -/
theorem signatureTokens_eq_iff (hn : α.Spells n) (hn' : α.Spells n') :
    signatureTokens data n = signatureTokens data' n' ↔ n.shape? data = n'.shape? data' := by
  rw [signatureTokens_eq, signatureTokens_eq]
  refine ⟨fun h => ?_, fun h => by rw [h]⟩
  cases hs : n.shape? data with
  | none =>
    cases hs' : n'.shape? data' with
    | none => rfl
    | some s' => simp [hs, hs', Shape.allTokens, Shape.tokens_eq] at h
  | some s =>
    cases hs' : n'.shape? data' with
    | none => simp [hs, hs', Shape.allTokens, Shape.tokens_eq] at h
    | some s' =>
      simp only [hs, hs', Option.toList_some, Shape.allTokens] at h
      rw [(Shape.tokens_append_inj (spelled_shape? hn hs) (spelled_shape? hn' hs') h).1]

/-- A call on one line, its string in single quotes. -/
def tightCall : Text × Node :=
  ("f(a, 'x')".toList,
    .construct 0 "call_expression" 0 9 none
      [.construct 1 "identifier" 0 1 (some .function) [],
        .construct 2 "arguments" 1 9 (some .arguments)
          [.token 3 "(" 1 2, .construct 4 "identifier" 2 3 none [], .token 5 "," 3 4,
            .construct 6 "string" 5 8 none
              [.token 7 "'" 5 6, .construct 8 "string_fragment" 6 7 none [], .token 9 "'" 7 8],
            .token 10 ")" 8 9]])

/-- The call on two lines, with a comment and with double quotes. -/
def looseCall : Text × Node :=
  ("f( a ,\n\"x\" /*c*/ )".toList,
    .construct 0 "call_expression" 0 18 none
      [.construct 1 "identifier" 0 1 (some .function) [],
        .construct 2 "arguments" 1 18 (some .arguments)
          [.token 3 "(" 1 2, .construct 4 "identifier" 3 4 none [], .token 5 "," 5 6,
            .construct 6 "string" 7 10 none
              [.token 7 "\"" 7 8, .construct 8 "string_fragment" 8 9 none [], .token 9 "\"" 9 10],
            .construct 10 "comment" 11 16 none [], .token 11 ")" 17 18]])

/-- Both calls have the same tokens, and so they have the same shape. -/
theorem signatureTokens_eq_iff_looseCall :
    Alphabet.latin.Spells tightCall.2 ∧ Alphabet.latin.Spells looseCall.2 ∧
      signatureTokens tightCall.1.encode tightCall.2 =
        signatureTokens looseCall.1.encode looseCall.2 ∧
      tightCall.2.shape? tightCall.1.encode = looseCall.2.shape? looseCall.1.encode := by
  have htight : Alphabet.latin.Spells tightCall.2 := by decide +kernel
  have hloose : Alphabet.latin.Spells looseCall.2 := by decide +kernel
  have htokens : signatureTokens tightCall.1.encode tightCall.2 =
      signatureTokens looseCall.1.encode looseCall.2 := by decide +kernel
  exact ⟨htight, hloose, htokens, (signatureTokens_eq_iff htight hloose).mp htokens⟩

end Node

end HouseStyle
