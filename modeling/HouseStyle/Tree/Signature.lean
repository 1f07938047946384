import HouseStyle.Text.Quoted
import HouseStyle.Tree.Sha256
import HouseStyle.Tree.Source

/-! # Signatures

The signature of a node tells its shape apart from its layout. It is the digest of a list of tokens:
the kinds of named nodes, the texts of leaves, and operators and keywords. Positions, blanks,
comments and bare punctuation do not enter it. A node with children is written as an opening mark
with its kind, the tokens of its children, and a closing mark; a leaf as its kind, an equals sign
and its text, where a string loses its quotes. The tokens are joined by a separator, and the result
is digested.

`SignatureQueue` pairs observations with signatures: those of one signature leave it in the order in
which they entered. -/

namespace HouseStyle

namespace Node

/-- Punctuation that may be added, dropped or exchanged without a change of meaning. -/
def ignoredTokens : List String :=
  [",", ";", "(", ")", "\x7b", "\x7d", "[", "]", "\x27", "\x22"]

/-- The mark that opens a node with children. -/
def openMark : Char := '\x02'

/-- The mark that closes a node with children. -/
def closeMark : Char := '\x03'

/-- The character between tokens. -/
def tokenSeparator : Char := '\x1f'

/-- The text of a leaf: its bytes, decoded, and without the quotes if it is a string. -/
def leafText (data : List UInt8) (kind : String) (start stop : Nat) : Text :=
  let t := Text.decode ((data.take stop).drop start)
  if kind = "string" ∧ 2 ≤ t.length then t.inner else t

/-- Whether a named node is written as a leaf: comments aside, it has no children, or it is a string
with no named ones. -/
def isLeaf (kind : String) (children : List Node) : Bool :=
  let cs := children.filter (!·.isComment)
  cs.isEmpty || (kind == "string" && !cs.any (·.named))

mutual

/-- The tokens of a node. -/
def signatureTokens (data : List UInt8) : Node → List Text
  | ⟨_, kind, named, _, start, stop, _, children⟩ =>
    if kind = "comment" then []
    else if named then
      if isLeaf kind children then [kind.toList ++ '=' :: leafText data kind start stop]
      else (openMark :: kind.toList) :: (allSignatureTokens data children ++ [[closeMark]])
    else if ignoredTokens.contains kind then []
    else [kind.toList]

/-- The tokens of several nodes, one after the other. -/
def allSignatureTokens (data : List UInt8) : List Node → List Text
  | [] => []
  | n :: ns => signatureTokens data n ++ allSignatureTokens data ns

end

/-- The tokens of a node in one text. -/
def canonicalText (data : List UInt8) (n : Node) : Text :=
  [tokenSeparator].intercalate (signatureTokens data n)

/-- The signature of a node: 64 hexadecimal digits. -/
def signature (data : List UInt8) (n : Node) : Text :=
  (Sha256.digest (Text.encode (canonicalText data n))).flatMap fun b => Text.hexDigits 2 b.toNat

end Node

/-- Observations by signature, each in the order of arrival. -/
structure SignatureQueue (α : Type) where
  queues : List (Text × List α)

namespace SignatureQueue

variable {α : Type}

/-- Without observations. -/
def empty : SignatureQueue α := ⟨[]⟩

/-- Puts the entry of a signature in the place of an earlier one, or at the end. -/
def put (key : Text) (xs : List α) : List (Text × List α) → List (Text × List α)
  | [] => [(key, xs)]
  | e :: es => if e.1 = key then (key, xs) :: es else e :: put key xs es

/-- The observations that wait under a signature. -/
def waiting (q : SignatureQueue α) (key : Text) : List α := (q.queues.lookup key).getD []

/-- Adds an observation behind the others of its signature. -/
def push (q : SignatureQueue α) (key : Text) (x : α) : SignatureQueue α :=
  ⟨put key (q.waiting key ++ [x]) q.queues⟩

/-- Takes the earliest observation of a signature, if one waits. -/
def pop (q : SignatureQueue α) (key : Text) : Option α × SignatureQueue α :=
  match q.waiting key with
  | [] => (none, q)
  | x :: xs => (some x, ⟨put key xs q.queues⟩)

/-- The number of observations that wait. -/
def size (q : SignatureQueue α) : Nat := (q.queues.map (·.2.length)).foldr (· + ·) 0

/-- Whether an observation waits. -/
def nonempty (q : SignatureQueue α) : Bool := q.queues.any (!·.2.isEmpty)

end SignatureQueue

end HouseStyle
