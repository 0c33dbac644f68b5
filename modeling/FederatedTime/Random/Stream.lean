import FederatedTime.Random.Probability

/-!
# Random streams

A random stream is an endless row of 32-bit words, which arrive in blocks of sixteen. Draws take
words from the front: `word`, `double` (two words), `below` (a number below a bound, each equally
likely) and `chance`.

A draw below a bound takes words again while the product of the word and the bound falls into the
part of its range that would favour some numbers. That happens less than half of the time; on a
stream on which it happened for ever a draw would not end.
-/

namespace FederatedTime

/-- An endless row of random words. -/
structure RandomStream where
  /-- The words in blocks. -/
  block : Nat → Vector UInt32 16
  /-- The number of blocks that have been opened. -/
  opened : Nat := 0
  /-- What is left of the block opened last. -/
  buffer : List UInt32 := []
deriving Inhabited

namespace RandomStream

/-- Take a word. -/
def word (s : RandomStream) : UInt32 × RandomStream :=
  match s.buffer with
  | w :: rest => (w, { s with buffer := rest })
  | [] =>
    let words := s.block s.opened
    (words[0], { s with opened := s.opened + 1, buffer := words.toList.tail })

/-- Take two words as one number, the first of them as its lower half. -/
def double (s : RandomStream) : UInt64 × RandomStream :=
  let (low, s) := s.word
  let (high, s) := s.word
  (high.toUInt64 <<< 32 ||| low.toUInt64, s)

/-- The widths in which numbers are drawn. -/
inductive Width where
  | single
  | double
deriving DecidableEq

/-- The number of bits of a width. -/
def Width.bits : Width → Nat
  | .single => 32
  | .double => 64

/-- The number of numbers of a width. -/
def Width.size : Width → Nat
  | .single => UInt32.size
  | .double => UInt64.size

/-- Take a number of the given width. -/
def take (width : Width) (s : RandomStream) : Nat × RandomStream :=
  match width with
  | .single => let (w, s) := s.word; (w.toNat, s)
  | .double => let (w, s) := s.double; (w.toNat, s)

/-- The bound moved up to the top of the given number of bits. -/
def scaled (bits bound : Nat) : Nat := bound <<< (bits - (Nat.log2 bound + 1))

/-- Take a number and draw with it, or give back the stream to draw from again: what the number gives
must not be likelier than any other number below `bound`. -/
def attempt (width : Width) (bound : Nat) (s : RandomStream) :
    RandomStream ⊕ (Nat × RandomStream) :=
  let (n, s) := s.take width
  let product := n * bound
  if product % width.size < scaled width.bits bound then .inr (product / width.size, s) else .inl s

/-- Draw until an attempt succeeds. -/
def search (width : Width) (bound : Nat) (s : RandomStream) : Nat × RandomStream :=
  Id.run (repeatM (m := Id) (attempt width bound) s)

theorem search_eq (width : Width) (bound : Nat) (s : RandomStream) :
    s.search width bound = (s.attempt width bound).elim (·.search width bound) id := by
  unfold search
  rw [repeatM_eq_of_monadTail, repeatM.body]
  cases s.attempt width bound <;> rfl

/-- The search, of which the first `tries` attempts are unrolled. Where they suffice, it can be
computed in a proof. -/
def searchFor (width : Width) (bound : Nat) : (tries : Nat) → RandomStream → Nat × RandomStream
  | 0, s => s.search width bound
  | tries + 1, s => (s.attempt width bound).elim (searchFor width bound tries) id

theorem searchFor_eq_search (width : Width) (bound tries : Nat) (s : RandomStream) :
    searchFor width bound tries s = s.search width bound := by
  induction tries generalizing s with
  | zero => rfl
  | succ tries ih => rw [searchFor, search_eq, funext ih]

/-- Draw a number below `bound`, which is itself at most the number of numbers of the width. -/
def below (width : Width) (s : RandomStream) (bound : Nat) : Nat × RandomStream :=
  if bound = width.size then s.take width else searchFor width bound 1000 s

/-- A draw ends with the first number that it does not refuse. -/
theorem below_eq_search (width : Width) (s : RandomStream) {bound : Nat} (h : bound ≠ width.size) :
    s.below width bound = s.search width bound := by
  rw [below, if_neg h, searchFor_eq_search]

/-- Draw whether something of the given probability happens. What is certain takes no words. -/
def chance (s : RandomStream) (p : Probability) : Bool × RandomStream :=
  if p.isCertain then (true, s)
  else
    let (n, s) := s.double
    (n.toNat < p.weight, s)

end RandomStream

/-- A way to draw a number below a bound. -/
abbrev Drawing := RandomStream → (bound : Nat) → Nat × RandomStream

end FederatedTime
