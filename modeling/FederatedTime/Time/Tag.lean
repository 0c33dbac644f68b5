import FederatedTime.Time.Interval

/-!
# Tags

A tag is a logical instant: a timestamp, and a microstep that orders the steps taken at one
timestamp. Tags are ordered lexicographically. Two tags are set apart: `never`, below every other,
stands for "nothing known yet", and `forever`, above every other, for the completion of a federate
that has left. `Tag.delayed` moves a tag along a connection.
-/

namespace FederatedTime

/-- A logical instant. -/
structure Tag where
  time : Int64
  microstep : UInt32
deriving DecidableEq, Inhabited

namespace Tag

/-- The least tag: nothing is known yet. -/
def never : Tag := ⟨Int64.minValue, 0⟩

/-- The greatest tag: everything is completed. -/
def forever : Tag := ⟨Int64.maxValue, 4294967295⟩

/-- The first tag at a timestamp. -/
def ofTime (time : Int64) : Tag := ⟨time, 0⟩

def isNever (t : Tag) : Bool := t == never

def isForever (t : Tag) : Bool := t == forever

/-! ## Order -/

instance : LT Tag where
  lt a b := a.time < b.time ∨ a.time = b.time ∧ a.microstep < b.microstep

instance : LE Tag where
  le a b := a.time < b.time ∨ a.time = b.time ∧ a.microstep ≤ b.microstep

instance (a b : Tag) : Decidable (a < b) :=
  inferInstanceAs (Decidable (a.time < b.time ∨ a.time = b.time ∧ a.microstep < b.microstep))

instance (a b : Tag) : Decidable (a ≤ b) :=
  inferInstanceAs (Decidable (a.time < b.time ∨ a.time = b.time ∧ a.microstep ≤ b.microstep))

instance : Min Tag := minOfLe

instance : Max Tag := maxOfLe

/-! ## Delay -/

/-- The earliest tag at which something sent at `t` can arrive over a connection of delay `d`. The
two distinguished tags stay put, a zero delay changes nothing, and a sum that does not fit is
`forever`. -/
def delayed (t : Tag) (d : Interval) : Tag :=
  if t.isNever || t.isForever || d.isZero then t
  else match Nanoseconds.ofInt? (t.time.toInt + d.nanos.toInt) with
    | some time => ⟨time, t.microstep⟩
    | none => forever

/-- The tag `t`, or the bound where `t` exceeds it. -/
def clamp (t : Tag) (bound : Option Tag) : Tag :=
  match bound with
  | some b => Min.min t b
  | none => t

/-! ## Text -/

/-- A tag as people read it. -/
def text (t : Tag) : String :=
  if t.isNever then "NEVER"
  else if t.isForever then "FOREVER"
  else "(" ++ Nanoseconds.text t.time ++ ", " ++ toString t.microstep.toNat ++ ")"

/-- A tag with its fields named. -/
def fieldText (t : Tag) : String :=
  "Tag \x7b time: " ++ Nanoseconds.text t.time ++ ", microstep: " ++ toString t.microstep.toNat ++
    " \x7d"

/-- A tag with its fields named, or the absence of one. -/
def optionText : Option Tag → String
  | none => "None"
  | some t => "Some(" ++ t.fieldText ++ ")"

end Tag

end FederatedTime
