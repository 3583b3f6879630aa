/-!
# Sets of characters as ranges of code points

A Unicode property is stored as the ascending list of its closed ranges.  `CodeRanges.has` looks a
character up from the left and stops at the first range that begins beyond it, so characters with
small code points are decided by the first ranges.
-/

namespace Markup

/-- closed ranges of code points, ascending and apart from one another -/
abbrev CodeRanges := List (Nat × Nat)

namespace CodeRanges

/-- the code point lies in one of the ranges -/
def hasCode : CodeRanges → Nat → Bool
  | [], _ => false
  | (first, last) :: ranges, n =>
    if n < first then false else if n ≤ last then true else hasCode ranges n

def has (ranges : CodeRanges) (c : Char) : Bool := ranges.hasCode c.toNat

end CodeRanges
end Markup
