import FederatedTime.Net.Ipv4

/-!
# IPv6 addresses

Eight groups of sixteen bits. In text, the first longest run of at least two zero groups is written
as two colons, and an address that maps an IPv4 address ends in dotted decimal.
-/

namespace FederatedTime

/-- An IPv6 address. -/
structure Ipv6 where
  groups : Vector UInt16 8
deriving DecidableEq

namespace Ipv6

/-- The address of the own host. -/
def loopback : Ipv6 := ⟨#v[0, 0, 0, 0, 0, 0, 0, 1]⟩

instance : Inhabited Ipv6 := ⟨loopback⟩

/-- The IPv4 address that the last two groups make up. -/
def lowIpv4 (ip : Ipv6) : Ipv4 :=
  let high := ip.groups.get 6
  let low := ip.groups.get 7
  ⟨(high >>> 8).toUInt8, high.toUInt8, (low >>> 8).toUInt8, low.toUInt8⟩

/-- The IPv4 address that an address stands for, if it is one that maps such an address. -/
def mapped? (ip : Ipv6) : Option Ipv4 :=
  if ip.groups.toList.take 6 = [0, 0, 0, 0, 0, 0xffff] then some ip.lowIpv4 else none

/-! ## Text -/

/-- The hexadecimal text of groups with colons between them. -/
def groupsText (gs : List UInt16) : String :=
  String.intercalate ":" (gs.map fun g => String.ofList (Nat.toDigits 16 g.toNat))

/-- The number of zero groups at the front. -/
def zeroRun (gs : List UInt16) : Nat := (gs.takeWhile (· = 0)).length

/-- Where the first longest run of zero groups starts, and its length. -/
def longestZeroRun (gs : List UInt16) : Nat × Nat :=
  (List.range gs.length).foldl
    (fun best i => if best.2 < zeroRun (gs.drop i) then (i, zeroRun (gs.drop i)) else best) (0, 0)

def text (ip : Ipv6) : String :=
  match ip.mapped? with
  | some v4 => "::ffff:" ++ v4.text
  | none =>
    let gs := ip.groups.toList
    let (start, length) := longestZeroRun gs
    if 1 < length then groupsText (gs.take start) ++ "::" ++ groupsText (gs.drop (start + length))
    else groupsText gs

/-! ## Reading -/

/-- Read what stands behind a colon, or at once if nothing has been read before. -/
def separated {α : Type} (isFirst : Bool) (read : Text.Reader α) : Text.Reader α := fun cs =>
  if isFirst then read cs
  else do
    let (_, cs) ← Text.mark ':' cs
    read cs

/-- Read at most `room` groups, the last two of which may be in dotted decimal. Gives the groups,
whether they end in dotted decimal, and the text behind them. -/
def readGroups (isFirst : Bool) : Nat → List Char → List UInt16 × Bool × List Char
  | 0, cs => ([], false, cs)
  | room + 1, cs =>
    match if 0 < room then separated isFirst Ipv4.read cs else none with
    | some (v4, rest) =>
      ([v4.a.toUInt16 <<< 8 ||| v4.b.toUInt16, v4.c.toUInt16 <<< 8 ||| v4.d.toUInt16], true, rest)
    | none =>
      match separated isFirst Net.group cs with
      | some (g, rest) =>
        let (gs, dotted, rest) := readGroups false room rest
        (g :: gs, dotted, rest)
      | none => ([], false, cs)

/-- The address with the given groups in front and at the end, and zeros between them. -/
def ofEnds (head tail : List UInt16) : Ipv6 :=
  ⟨Vector.ofFn fun i =>
    (head ++ List.replicate (8 - head.length - tail.length) 0 ++ tail)[i.val]?.getD 0⟩

def read : Text.Reader Ipv6 := fun cs =>
  let (head, dotted, rest) := readGroups true 8 cs
  if head.length = 8 then some (ofEnds head [], rest)
  else if dotted then none
  else do
    let (_, rest) ← Text.mark ':' rest
    let (_, rest) ← Text.mark ':' rest
    let (tail, _, rest) := readGroups true (7 - head.length) rest
    pure (ofEnds head tail, rest)

/-- The address that a whole text spells. -/
def ofChars? (cs : List Char) : Option Ipv6 := Text.whole read cs

end Ipv6

end FederatedTime
