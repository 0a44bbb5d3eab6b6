import PolicyLevers.Random.WordSource
import PolicyLevers.Random.NormalTables

/-!
# Normal draws

Standard normal numbers by rejection: a word chooses a layer under the density and a point in it.
Points inside the next layer are taken at once, points on the edge of the density are compared with
it, and the lowest layer has a tail of its own.  A source may reject candidates without end, so the
number of candidates is bounded and running out of them is an outcome.
-/

namespace PolicyLevers.Random.Normal

set_option autoImplicit false

def tailStart : Float := Float.ofBits 0x400D3BB48209AD33

/-- How many candidates are tried before a draw is given up. -/
def candidateLimit : Nat := 1000000

/-- The double strictly between 0 and 1 that a word stands for. -/
def openFraction (word : UInt64) : Float := unitFraction word - Float.ofBits 0x3FEFFFFFFFFFFFFF

def tail : Nat → WordSource → Option (Float × WordSource)
  | 0, _ => none
  | limit + 1, source =>
    let (first, source) := source.next
    let (second, source) := source.next
    let across := Float.log (openFraction first) / tailStart
    let down := Float.log (openFraction second)
    if -2.0 * down < across * across then tail limit source
    else some (tailStart - across, source)

def standard : Nat → WordSource → Option (Float × WordSource)
  | 0, _ => none
  | limit + 1, source =>
    let (word, source) := source.next
    let layer := (word &&& 255).toNat
    let across := Float.ofBits ((word >>> 12) ||| ((1024 : UInt64) <<< 52)) - 3.0
    let point := across * edge layer
    if point.abs < edge (layer + 1) then some (point, source)
    else if layer = 0 then
      (tail candidateLimit source).map (fun (distance, source) =>
        (if across < 0.0 then -distance else distance, source))
    else
      let (height, source) := source.next
      let level := Float.ofBits 0x3CA0000000000000 * (height >>> 11).toFloat
      if density (layer + 1) + (density layer - density (layer + 1)) * level
          < Float.exp (-point * point / 2.0) then
        some (point, source)
      else standard limit source

def draw (mean deviation : Float) (source : WordSource) : Option (Float × WordSource) :=
  (standard candidateLimit source).map (fun (point, source) => (mean + deviation * point, source))

end PolicyLevers.Random.Normal
