import MetricWatch.Random.Words

namespace MetricWatch.ChaCha

def rotateLeft (x : UInt32) (n : UInt32) : UInt32 := x <<< n ||| x >>> (32 - n)

def rotateRight (x : UInt32) (n : UInt32) : UInt32 := x >>> n ||| x <<< (32 - n)

abbrev State := Vector UInt32 16

def quarterRound (s : State) (a b c d : Fin 16) : State :=
  let s := s.set a (s[a] + s[b])
  let s := s.set d (rotateLeft (s[d] ^^^ s[a]) 16)
  let s := s.set c (s[c] + s[d])
  let s := s.set b (rotateLeft (s[b] ^^^ s[c]) 12)
  let s := s.set a (s[a] + s[b])
  let s := s.set d (rotateLeft (s[d] ^^^ s[a]) 8)
  let s := s.set c (s[c] + s[d])
  s.set b (rotateLeft (s[b] ^^^ s[c]) 7)

def doubleRound (s : State) : State :=
  let s := quarterRound s 0 4 8 12
  let s := quarterRound s 1 5 9 13
  let s := quarterRound s 2 6 10 14
  let s := quarterRound s 3 7 11 15
  let s := quarterRound s 0 5 10 15
  let s := quarterRound s 1 6 11 12
  let s := quarterRound s 2 7 8 13
  quarterRound s 3 4 9 14

def rounds (count : Nat) (s : State) : State :=
  match count with
  | 0 => s
  | count + 1 => rounds count (doubleRound s)

abbrev Key := Vector UInt32 8

def initial (key : Key) (block : UInt64) : State :=
  #v[0x61707865, 0x3320646e, 0x79622d32, 0x6b206574,
    key[0], key[1], key[2], key[3], key[4], key[5], key[6], key[7],
    block.toUInt32, (block >>> 32).toUInt32, 0, 0]

def block (key : Key) (number : UInt64) : List UInt32 :=
  let s := initial key number
  ((rounds 6 s).zipWith (· + ·) s).toList

def pairs : List UInt32 → List UInt64
  | low :: high :: rest => (high.toUInt64 <<< 32 ||| low.toUInt64) :: pairs rest
  | _ => []

def seedStep (state : UInt64) : UInt64 := state * 6364136223846793005 + 11634580027462260723

def seedWord (state : UInt64) : UInt32 :=
  rotateRight (((state >>> 18) ^^^ state) >>> 27).toUInt32 (state >>> 59).toUInt32

def keyOfSeed (seed : UInt64) : Key :=
  let s₀ := seedStep seed
  let s₁ := seedStep s₀
  let s₂ := seedStep s₁
  let s₃ := seedStep s₂
  let s₄ := seedStep s₃
  let s₅ := seedStep s₄
  let s₆ := seedStep s₅
  let s₇ := seedStep s₆
  #v[seedWord s₀, seedWord s₁, seedWord s₂, seedWord s₃, seedWord s₄, seedWord s₅, seedWord s₆,
    seedWord s₇]

/-- A key, the number of the next block, and what is left of the last one. -/
structure Stream where
  key : Key
  number : UInt64
  left : List UInt64

def Stream.ofSeed (seed : UInt64) : Stream := ⟨keyOfSeed seed, 0, []⟩

def Stream.next (s : Stream) : UInt64 × Stream :=
  match s.left with
  | word :: left => (word, { s with left })
  | [] => match pairs (block s.key s.number) with
    | word :: left => (word, { s with number := s.number + 1, left })
    | [] => (0, s)

instance : WordSource Stream := ⟨Stream.next⟩

end MetricWatch.ChaCha
