import PsiphonVpn.Infra.LastWrite
import PsiphonVpn.Infra.Run

/-!
# `PsiphonState` とその更新

`PsiphonVpnService` は client に見せる状態を一つの `PsiphonState` に持ち、それを書き換えるのは
`updatePsiphonState { … }` だけである。渡された lambda は main looper に post され、
届いた順に一つずつ適用される。

`Update` は `updatePsiphonState` の呼び出し一つにつき一つの constructor を持つ。
同じ lambda を渡す呼び出し（`onConnecting` と `restartTunnel`）は同じ constructor になる。
-/

namespace Service

inductive ErrorCode where
  | SOCKS_PORT_IN_USE | HTTP_PORT_IN_USE | VPN_REVOKED | SOCKS_PORT_NOT_SET
  | TUNNEL_RESTART_FAILED | TUNNEL_START_FAILED | UNEXPECTED_ERROR
  deriving DecidableEq, Repr

inductive TunnelEvent where
  | STOPPED | CONNECTING | CONNECTED | STOPPING
  deriving DecidableEq, Repr

/-- `PsiphonState.kt`。`JSONObject` はその文字列で表す。 -/
@[ext]
structure PsiphonState where
  tunnelEvent : Option TunnelEvent := some .STOPPED
  isWaitingForNetwork : Bool := false
  clientRegion : Option String := none
  connectedServerRegion : Option String := none
  totalBytesSent : Int := 0
  totalBytesReceived : Int := 0
  upstreamRateLimit : Option Int := none
  downstreamRateLimit : Option Int := none
  availableEgressRegions : Option (List String) := none
  socksProxyPort : Option Int := none
  httpProxyPort : Option Int := none
  applicationParameters : Option String := none
  lastErrorCode : Option ErrorCode := none
  lastErrorData : Option String := none
  lastErrorTimestamp : Option Int := none
  deriving DecidableEq, Repr

namespace PsiphonState

/-- `now` は `System.currentTimeMillis()`。lambda の中で読まれるので、適用される時の値である。 -/
def setError (currentState : PsiphonState) (errorCode : ErrorCode) (errorData : Option String)
    (now : Int) : PsiphonState :=
  { currentState with
    lastErrorCode := some errorCode
    lastErrorData := errorData
    lastErrorTimestamp := some now }

def clearError (s : PsiphonState) : PsiphonState :=
  { s with lastErrorCode := none, lastErrorData := none, lastErrorTimestamp := none }

/-- tunnel coroutine の `finally` の更新。error と egress region だけが残る。 -/
def reset (currentState : PsiphonState) : PsiphonState where
  tunnelEvent := some .STOPPED
  availableEgressRegions := currentState.availableEgressRegions
  lastErrorCode := currentState.lastErrorCode
  lastErrorData := currentState.lastErrorData
  lastErrorTimestamp := currentState.lastErrorTimestamp

end PsiphonState

/-- `updatePsiphonState` に渡される lambda。 -/
inductive Update where
  | started                                              -- tunnel coroutine の最初
  | setError (code : ErrorCode) (data : Option String)
  | reset                                                -- tunnel coroutine の finally
  | stopping                                             -- stopTunnel
  | connecting                                           -- onConnecting, restartTunnel
  | connected                                            -- onConnected
  | waitingForNetwork (waiting : Bool)
  | clientRegion (region : String)
  | connectedServerRegion (region : String)
  | bytesTransferred (sent received : Int)
  | applicationParameters (params : String)
  | trafficRateLimits (upstream downstream : Int)
  | availableEgressRegions (regions : List String)
  | socksProxyPort (port : Int)
  | httpProxyPort (port : Int)
  deriving DecidableEq, Repr

def Update.apply (now : Int) (s : PsiphonState) : Update → PsiphonState
  | .started => { s.clearError with tunnelEvent := some .CONNECTING }
  | .setError code data => s.setError code data now
  | .reset => s.reset
  | .stopping => { s with tunnelEvent := some .STOPPING }
  | .connecting => { s with tunnelEvent := some .CONNECTING }
  | .connected => { s.clearError with tunnelEvent := some .CONNECTED }
  | .waitingForNetwork b => { s with isWaitingForNetwork := b }
  | .clientRegion r => { s with clientRegion := some r }
  | .connectedServerRegion r => { s with connectedServerRegion := some r }
  | .bytesTransferred sent received =>
    { s with
      totalBytesSent := s.totalBytesSent + sent
      totalBytesReceived := s.totalBytesReceived + received }
  | .applicationParameters p => { s with applicationParameters := some p }
  | .trafficRateLimits up down =>
    { s with upstreamRateLimit := some up, downstreamRateLimit := some down }
  | .availableEgressRegions rs => { s with availableEgressRegions := some rs }
  | .socksProxyPort p => { s with socksProxyPort := some p }
  | .httpProxyPort p => { s with httpProxyPort := some p }

namespace Update

/-! ## どの field に書くか -/

/-- `lastErrorCode` に書く値。 -/
def writesError : Update → Option (Option ErrorCode)
  | .started | .connected => some none
  | .setError code _ => some (some code)
  | _ => none

/-- `tunnelEvent` に書く値。 -/
def writesTunnelEvent : Update → Option (Option TunnelEvent)
  | .started | .connecting => some (some .CONNECTING)
  | .connected => some (some .CONNECTED)
  | .stopping => some (some .STOPPING)
  | .reset => some (some .STOPPED)
  | _ => none

/-- `socksProxyPort` に書く値。 -/
def writesSocksProxyPort : Update → Option (Option Int)
  | .socksProxyPort port => some (some port)
  | .reset => some none
  | _ => none

theorem apply_lastErrorCode (u : Update) (now : Int) (s : PsiphonState) :
    (u.apply now s).lastErrorCode = u.writesError.getD s.lastErrorCode := by
  cases u <;> rfl

theorem apply_tunnelEvent (u : Update) (now : Int) (s : PsiphonState) :
    (u.apply now s).tunnelEvent = u.writesTunnelEvent.getD s.tunnelEvent := by
  cases u <;> rfl

theorem apply_socksProxyPort (u : Update) (now : Int) (s : PsiphonState) :
    (u.apply now s).socksProxyPort = u.writesSocksProxyPort.getD s.socksProxyPort := by
  cases u <;> rfl

end Update

end Service
