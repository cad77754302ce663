/-!
# Words

The ends of the ranges of words. Weights are signed words of 64 bits, and the numbers of a document
have to fit into the word that they are read as.
-/

namespace EdgeRouting

def minInt64 : Int := -9223372036854775808

def maxInt64 : Int := 9223372036854775807

def maxNat64 : Nat := 18446744073709551615

def maxNat32 : Nat := 4294967295

end EdgeRouting
