/-!
# White space

The characters with the Unicode property `White_Space`, and what it means to trim a text.
-/

namespace PolicyLevers.Text

set_option autoImplicit false

/-- Has the Unicode property `White_Space`. -/
def isBlank (c : Char) : Bool :=
  let code := c.toNat
  (9 ≤ code && code ≤ 13) || code == 0x20 || code == 0x85 || code == 0xA0 || code == 0x1680 ||
    (0x2000 ≤ code && code ≤ 0x200A) || code == 0x2028 || code == 0x2029 || code == 0x202F ||
    code == 0x205F || code == 0x3000

def trimStart (text : List Char) : List Char := text.dropWhile isBlank

def trimEnd (text : List Char) : List Char := (text.reverse.dropWhile isBlank).reverse

def trim (text : List Char) : List Char := trimEnd (trimStart text)

def bytes (text : List Char) : Nat := text.foldr (fun c rest => c.utf8Size + rest) 0

/-- The pieces of a text between the occurrences of a character: the first one and the others. -/
def splitAt (mark : Char) : List Char → List Char × List (List Char)
  | [] => ([], [])
  | c :: rest =>
    let (piece, more) := splitAt mark rest
    if c = mark then ([], piece :: more) else (c :: piece, more)

def cutAt (mark : Char) : List Char → Option (List Char × List Char)
  | [] => none
  | c :: rest =>
    if c = mark then some ([], rest)
    else (cutAt mark rest).map (fun (before, after) => (c :: before, after))

end PolicyLevers.Text
