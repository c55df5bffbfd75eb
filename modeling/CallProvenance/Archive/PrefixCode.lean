/-! Canonical prefix codes: shorter codewords come first, and the symbols of one length are in
order, so that the lengths alone determine the code. -/
namespace CallProvenance

structure PrefixCode where
  /-- How many codewords there are of each length, from one to the greatest in use. -/
  counts : List Nat
  symbols : Array Nat
  deriving DecidableEq, Repr

namespace PrefixCode

/-- The code in which symbol `k` has a codeword of the `k`-th length; zero means that it has none.
The greatest length is one even if there are no codewords. -/
def ofLengths (lengths : List Nat) : PrefixCode :=
  let longest := lengths.foldl max 1
  { counts := (List.range longest).map fun k => lengths.count (k + 1)
    symbols := ((List.range longest).flatMap fun k =>
      lengths.zipIdx.filterMap fun (length, symbol) =>
        if length = k + 1 then some symbol else none).toArray }

def longest (code : PrefixCode) : Nat := code.counts.length

def isEmpty (code : PrefixCode) : Bool := code.symbols.isEmpty

/-- How many words of the greatest length begin with a codeword, if the codewords are apart. -/
def mass (code : PrefixCode) : Nat :=
  code.counts.zipIdx.foldl (fun mass (count, k) => mass + count * 1 <<< (code.longest - 1 - k)) 0

/-- Every word begins with exactly one codeword. -/
def isComplete (code : PrefixCode) : Bool := code.mass = 1 <<< code.longest

/-- Looks for a codeword length by length: `word` is what was read, `first` the first codeword of
the length and `index` the place of its symbol. -/
def search {m : Type → Type} [Monad m] (bit : m Nat) (symbols : Array Nat) :
    List Nat → Nat → Nat → Nat → m (Option Nat)
  | [], _, _, _ => return none
  | count :: longer, word, first, index => do
    let word := 2 * word + (← bit)
    let first := 2 * first
    if word < first + count then return symbols[index + (word - first)]?
    else search bit symbols longer word (first + count) (index + count)

/-- Reads a codeword bit by bit, and no more bits than the longest one has. The answer is its
symbol, or `none` if what was read is no codeword. -/
def next? {m : Type → Type} [Monad m] (code : PrefixCode) (bit : m Nat) : m (Option Nat) :=
  search bit code.symbols code.counts 0 0 0

end PrefixCode
end CallProvenance
