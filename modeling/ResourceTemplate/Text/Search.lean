namespace ResourceTemplate.Text

/-- The first place where the pattern begins; the empty pattern begins everywhere. -/
def indexOf? (pattern : List Char) : List Char → Option Nat
  | [] => if pattern.isEmpty then some 0 else none
  | c :: rest =>
    if pattern.isPrefixOf (c :: rest) then some 0 else (indexOf? pattern rest).map (· + 1)

def lastIndexOf? (pattern : List Char) : List Char → Option Nat
  | [] => if pattern.isEmpty then some 0 else none
  | c :: rest =>
    match lastIndexOf? pattern rest with
    | some i => some (i + 1)
    | none => if pattern.isPrefixOf (c :: rest) then some 0 else none

def contains (pattern cs : List Char) : Bool := (indexOf? pattern cs).isSome

/-- The pieces between the occurrences of `sep` met from the left. The first `skip` characters
belong to an occurrence; `piece` is the piece begun before them, reversed. An empty separator
never occurs. -/
def splitFrom (sep : List Char) : (skip : Nat) → (piece : List Char) → List Char → List (List Char)
  | _, piece, [] => [piece.reverse]
  | skip + 1, piece, _ :: rest => splitFrom sep skip piece rest
  | 0, piece, c :: rest =>
    if !sep.isEmpty && sep.isPrefixOf (c :: rest) then
      piece.reverse :: splitFrom sep (sep.length - 1) [] rest
    else splitFrom sep 0 (c :: piece) rest

def splitOn (sep cs : List Char) : List (List Char) := splitFrom sep 0 [] cs

/-- The text with every occurrence of `old` replaced. -/
def replace (old new cs : List Char) : List Char := List.intercalate new (splitOn old cs)

def splitChar (sep : Char) (s : String) : List String :=
  (splitOn [sep] s.toList).map String.ofList

def splitOnce? (pattern : List Char) (cs : List Char) : Option (List Char × List Char) :=
  (indexOf? pattern cs).map fun i => (cs.take i, cs.drop (i + pattern.length))

def byteLength : List Char → Nat
  | [] => 0
  | c :: rest => c.utf8Size + byteLength rest

@[simp] theorem byteLength_nil : byteLength [] = 0 := rfl

@[simp] theorem byteLength_cons (c : Char) (w : List Char) :
    byteLength (c :: w) = c.utf8Size + byteLength w := rfl

@[simp] theorem byteLength_append (v w : List Char) :
    byteLength (v ++ w) = byteLength v + byteLength w := by
  induction v with
  | nil => simp
  | cons c v ih => simp [ih, Nat.add_assoc]

end ResourceTemplate.Text
