import BranchingStory.Json.Basic

/-
  This file defines the generator of random numbers that
  shuffles draw from: a twisted feedback register of 624 words
  of 32 bits.  The same seed always gives the same numbers.

  Key definitions include:
    * `Generator`
    * `Generator.ofSeed`
    * `Generator.refill`
    * `Generator.nextWord`
    * `Generator.below`
    * `Generator.permutation`
-/

------------------------------------------------------------
-- The Register
------------------------------------------------------------

namespace BranchingStory

/- The number of words of the register. -/
abbrev registerSize : Nat :=
  624

/- How far apart the words lie that are mixed. -/
def registerShift : Nat :=
  397

/-
  The state of the generator: its register, how many words of
  it are used up, and a value that other distributions may
  have left over, which shuffles only carry along.
-/
structure Generator where
  words : Vector UInt32 registerSize
  used : Fin (registerSize + 1)
  spare : Json
deriving Inhabited

namespace Generator

/- A word of a register, wrapping around at its end. -/
def word
    (ws : Vector UInt32 registerSize)
    (i : Nat) : UInt32 :=
  ws.get ⟨i % registerSize, Nat.mod_lt _ (by decide)⟩

/- Set a word of a register, wrapping around at its end. -/
def setWord
    (ws : Vector UInt32 registerSize)
    (i : Nat)
    (w : UInt32) : Vector UInt32 registerSize :=
  ws.set (i % registerSize) w (Nat.mod_lt _ (by decide))

end Generator

end BranchingStory

------------------------------------------------------------
-- Seeding
------------------------------------------------------------

namespace BranchingStory

namespace Generator

/- A word together with its upper bits. -/
def folded
    (w : UInt32) : UInt32 :=
  w ^^^ (w >>> 30)

/- The register that one word grows into. -/
def growRegister
    (seed : UInt32) : Vector UInt32 registerSize :=
  (List.range' 1 (registerSize - 1)).foldl
    (fun ws i =>
      setWord ws i
        (1812433253 * folded (word ws (i - 1)) +
          UInt32.ofNat i))
    (Vector.replicate registerSize seed)

/- The place after a place in the register, zero skipped. -/
def nextPlace
    (i : Nat) : Nat :=
  if i + 1 < registerSize then i + 1 else 1

/- After the last word, the first becomes its copy. -/
def wrapRegister
    (i : Nat)
    (ws : Vector UInt32 registerSize) :
    Vector UInt32 registerSize :=
  if i + 1 < registerSize then ws
  else setWord ws 0 (word ws (registerSize - 1))

/- Mix a key into the register, word by word. -/
def mixKey
    (key : Array UInt32) :
    Nat → Nat → Nat → Vector UInt32 registerSize →
      Nat × Vector UInt32 registerSize
  | 0, i, _, ws => (i, ws)
  | n + 1, i, j, ws =>
      let w :=
        (word ws i ^^^ (folded (word ws (i - 1)) * 1664525)) +
          key.getD j 0 + UInt32.ofNat j
      let ws := wrapRegister i (setWord ws i w)
      let j := if j + 1 < key.size then j + 1 else 0
      mixKey key n (nextPlace i) j ws

/- Mix the register once more, without a key. -/
def mixPlaces :
    Nat → Nat → Vector UInt32 registerSize →
      Vector UInt32 registerSize
  | 0, _, ws => ws
  | n + 1, i, ws =>
      let w :=
        (word ws i ^^^
          (folded (word ws (i - 1)) * 1566083941)) -
          UInt32.ofNat i
      mixPlaces n (nextPlace i)
        (wrapRegister i (setWord ws i w))

/- The register that a key of words grows into. -/
def registerOfKey
    (key : Array UInt32) : Vector UInt32 registerSize :=
  let (i, ws) :=
    mixKey key (max registerSize key.size) 1 0
      (growRegister 19650218)
  setWord (mixPlaces (registerSize - 1) i ws) 0 0x80000000

/-
  The words of a number, the lowest first, up to a bound on
  their count.
-/
def wordsWithin :
    Nat → Nat → List UInt32
  | 0, _ => []
  | n + 1, m =>
      if m = 0 then []
      else
        UInt32.ofNat (m % Nat.pow 2 32) ::
          wordsWithin n (m / Nat.pow 2 32)

/- The words of a number.  Zero has one word. -/
def keyOfNat
    (m : Nat) : Array UInt32 :=
  match wordsWithin (m.log2 / 32 + 1) m with
  | [] => #[0]
  | w :: ws => (w :: ws).toArray

/- The generator of a seed.  The sign does not matter. -/
def ofSeed
    (seed : Int) : Generator :=
  { words := registerOfKey (keyOfNat seed.natAbs)
    used := Fin.last registerSize
    spare := .null }

end Generator

end BranchingStory

------------------------------------------------------------
-- Drawing
------------------------------------------------------------

namespace BranchingStory

namespace Generator

/- The twist of the upper bit of a word and the rest. -/
def twist
    (high low : UInt32) : UInt32 :=
  let y := (high &&& 0x80000000) ||| (low &&& 0x7fffffff)
  let mask : UInt32 := if y &&& 1 = 1 then 0x9908b0df else 0
  (y >>> 1) ^^^ mask

/- Twist the whole register. -/
def refill
    (ws : Vector UInt32 registerSize) :
    Vector UInt32 registerSize :=
  (List.range registerSize).foldl
    (fun ws i =>
      setWord ws i
        (word ws (i + registerShift) ^^^
          twist (word ws i) (word ws (i + 1))))
    ws

/- Spread the bits of a word evenly. -/
def temper
    (w : UInt32) : UInt32 :=
  let w := w ^^^ (w >>> 11)
  let w := w ^^^ ((w <<< 7) &&& 0x9d2c5680)
  let w := w ^^^ ((w <<< 15) &&& 0xefc60000)
  w ^^^ (w >>> 18)

/- The next random word. -/
def nextWord
    (g : Generator) : UInt32 × Generator :=
  if h : g.used.val < registerSize then
    (temper (g.words[g.used.val]),
      { g with used := ⟨g.used.val + 1, by omega⟩ })
  else
    let ws := refill g.words
    (temper (word ws 0),
      { g with words := ws, used := 1 })

/- The number of binary digits of a number. -/
def bitLength
    (n : Nat) : Nat :=
  if n = 0 then 0 else n.log2 + 1

/-
  Draw the upper bits of words until their number is below a
  bound, at most as often as given.
-/
def drawBelow
    (n : Nat) :
    Nat → Generator → Nat × Generator
  | 0, g => (0, g)
  | tries + 1, g =>
      let (w, g) := g.nextWord
      let r := w.toNat / Nat.pow 2 (32 - bitLength n)
      if r < n then (r, g) else drawBelow n tries g

/-
  How often a draw is repeated.  Every second draw succeeds on
  average, and no state of the register makes a failing run
  that comes near this length.
-/
def maxDraws : Nat :=
  1000000

/- A random number below a positive bound. -/
def below
    (n : Nat)
    (g : Generator) : Nat × Generator :=
  drawBelow n maxDraws g

/-
  Exchange every place, from a given one down to the second,
  with a random place that is not above it.
-/
def shuffleFrom :
    Nat → Array Nat → Generator → Array Nat × Generator
  | 0, xs, g => (xs, g)
  | i + 1, xs, g =>
      let (j, g) := g.below (i + 2)
      shuffleFrom i (xs.swapIfInBounds (i + 1) j) g

/- The numbers below a size in random order. -/
def permutation
    (size : Nat)
    (g : Generator) : List Nat × Generator :=
  let (xs, g) := shuffleFrom (size - 1) (Array.range size) g
  (xs.toList, g)

end Generator

end BranchingStory
