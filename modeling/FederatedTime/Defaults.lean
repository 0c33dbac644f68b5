import FederatedTime.Time.Duration
import FederatedTime.Time.Interval

/-!
# Defaults

The numbers that coordinator and federates agree on unless they are configured otherwise.
-/

namespace FederatedTime.Defaults

/-- The first port at which a server tries to listen. -/
def startingPort : UInt16 := 15045

/-- How many ports from the first one on are tried. -/
def portRangeLimit : UInt16 := 1024

/-- The longest wait of an operation on a connection, a join included. -/
def tcpTimeout : Duration := .ofSecs 10

/-- The longest wait for the answer to a datagram. -/
def udpTimeout : Duration := .ofSecs 1

/-- The pause between two rounds of attempts to connect. -/
def connectRetryInterval : Duration := .ofSecs 2

/-- The number of rounds of attempts to connect. -/
def connectRetries : UInt32 := 500

/-- The pause before an address that was unknown is asked for again. -/
def addressQueryRetryInterval : Duration := .ofMillis 100

/-- The pause between two ports that are tried. -/
def portKnockingRetryInterval : Duration := .ofMicros 10

/-- What is added to the largest proposed start time. -/
def startDelay : Interval := .ofSecs 1

/-- How far apart two measured gaps may be for a sample of the clock to count. -/
def guardBand : Interval := .ofMicros 100

/-- The pause between two cycles of clock synchronisation. -/
def clockSyncPeriod : Duration := .ofSecs 5

/-- The number of exchanges in a cycle. -/
def clockSyncTrials : UInt32 := 10

/-- The divisor of a mean clock error before it is applied. -/
def clockSyncAttenuation : Int64 := 10

end FederatedTime.Defaults
