/-!
# Federates

The names that the parties of a federation go by: federates, the ports of a federate, and the
connections of the coordinator. Beside them stand the two small states that the coordinator keeps
for each federate.
-/

namespace FederatedTime

/-- A federate, numbered from zero. -/
structure FederateId where
  number : UInt16
deriving DecidableEq, Inhabited

namespace FederateId

/-- The number of a federate as a position. -/
def index (f : FederateId) : Nat := f.number.toNat

def ofNat (n : Nat) : FederateId := ⟨UInt16.ofNat n⟩

theorem index_injective {f g : FederateId} (h : f.index = g.index) : f = g := by
  cases f; cases g; exact congrArg mk (UInt16.toNat_inj.1 h)

theorem index_ofNat {n : Nat} (h : n < 65536) : (ofNat n).index = n := by
  simp only [index, ofNat, UInt16.toNat_ofNat']
  omega

instance : LT FederateId where
  lt f g := f.index < g.index

instance (f g : FederateId) : Decidable (f < g) :=
  inferInstanceAs (Decidable (f.index < g.index))

/-- The first `n` federates in order. -/
def firstIds (n : Nat) : List FederateId := (List.range n).map ofNat

theorem mem_firstIds {f : FederateId} {n : Nat} (h : f.index < n) : f ∈ firstIds n :=
  List.mem_map.2 ⟨f.index, List.mem_range.2 h, index_injective (index_ofNat f.number.toNat_lt)⟩

/-- A federate as people read it. -/
def text (f : FederateId) : String := "Federate(" ++ toString f.index ++ ")"

/-- A federate in a list of identifiers. -/
def itemText (f : FederateId) : String := "FederateId(" ++ toString f.index ++ ")"

/-- A list of federates in brackets. -/
def listText (fs : List FederateId) : String :=
  "[" ++ String.intercalate ", " (fs.map itemText) ++ "]"

end FederateId

/-- A destination port inside a federate. -/
structure PortId where
  number : UInt16
deriving DecidableEq, Inhabited

namespace PortId

def text (p : PortId) : String := "Port(" ++ toString p.number.toNat ++ ")"

end PortId

/-- One accepted connection to the coordinator. -/
structure ConnectionId where
  number : UInt64
deriving DecidableEq, Inhabited

namespace ConnectionId

def text (c : ConnectionId) : String := "conn-" ++ toString c.number.toNat

end ConnectionId

/-- Where a federate stands with the coordinator. -/
inductive FederateState where
  /-- Configured, and never joined. -/
  | notConnected
  /-- Its latest next-event tag has been granted. -/
  | granted
  /-- It waits for the federates it depends on. -/
  | pending
  /-- It has left and blocks nobody any more. -/
  | resigned
deriving DecidableEq, Inhabited

namespace FederateState

/-- Whether a joined connection belongs to the state. -/
def isConnected : FederateState → Bool
  | granted | pending => true
  | notConnected | resigned => false

def text : FederateState → String
  | notConnected => "NOT_CONNECTED"
  | granted => "GRANTED"
  | pending => "PENDING"
  | resigned => "RESIGNED"

end FederateState

/-- How a federate paces its execution. -/
inductive ExecutionMode where
  /-- As fast as grants arrive. -/
  | fast
  /-- Along physical time, with a synchronised clock. -/
  | realtime
deriving DecidableEq, Inhabited

namespace ExecutionMode

def text : ExecutionMode → String
  | fast => "Fast"
  | realtime => "Realtime"

end ExecutionMode

end FederatedTime
