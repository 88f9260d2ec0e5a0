/-!
# Powers of two and ten

They measure words and shift points: a word of `n` bits has `twoTo n` values, and a number with `n`
fraction digits is counted in parts of `tenTo n`.
-/

namespace Casework

abbrev twoTo (n : Nat) : Nat := Nat.pow 2 n

abbrev tenTo (n : Nat) : Nat := Nat.pow 10 n

end Casework
